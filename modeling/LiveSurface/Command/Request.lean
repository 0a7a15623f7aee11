import LiveSurface.Command.Usage
import LiveSurface.Render.Layout

/-!
# Requests

What a run is asked for, read from the options and the path of a command line. Options are checked
in the order of their first places, and the path after them; the first value that does not fit is
told.
-/
namespace LiveSurface.Command

/-- What stands under a path. -/
inductive Entry
  | file (text : String)
  | directory
deriving DecidableEq, Repr

/-- The files that a run can read. -/
abbrev Files := String → Option Entry

/-- The form in which surfaces are printed. -/
inductive Format
  | text
  | json
deriving DecidableEq, Repr

/-- The name of a form. -/
def Format.name : Format → String
  | text => "text"
  | json => "json"

/-- The forms to choose from. -/
def Format.all : List Format := [text, json]

/-- What is asked for. -/
structure Request where
  path : String
  config : Option String := none
  format : Format := .text
  width : Int := Layout.defaultWidth
  summary : Bool := false
deriving DecidableEq, Repr

/-- A character as it is compared where case does not count. -/
def foldCase (c : Char) : Char := if c = '\u017f' then 's' else c.toLower

/-- The form with a name in any case. -/
def readFormat (value : String) : Except Unfit Format :=
  match Format.all.find? fun format => format.name = value.map foldCase with
  | some format => .ok format
  | none => .error (.notOffered (Text.Quoted.text value) (Format.all.map Format.name))

/-- A width. -/
def readWidth (value : String) : Except Unfit Int :=
  match Numeral.whole value with
  | .ok n => .ok n
  | .error _ => .error (.notWhole (Text.Quoted.text value))

/-- The path of a file that is there. -/
def readPath (files : Files) (path : String) : Except Unfit String :=
  if path.toList.contains '\x00' then .error .nullInPath
  else match files path with
  | some (.file _) => .ok path
  | some .directory => .error (.notAFile (Text.Quoted.text path))
  | none => .error (.noSuchFile (Text.Quoted.text path))

/-- The path of something that is no directory. -/
def readTarget (files : Files) (path : String) : Except Unfit String :=
  if path.toList.contains '\x00' then .error .nullInPath
  else if files path = some .directory then .error (.notAFile (Text.Quoted.text path))
  else .ok path

/-- Puts the value of an option into a request. -/
def applyOption (files : Files) (request : Request) (option : Opt) (value : String) :
    Except Unfit Request :=
  match option with
  | .config => (readPath files value).map fun path => { request with config := some path }
  | .format => (readFormat value).map fun format => { request with format }
  | .width => (readWidth value).map fun width => { request with width }
  | .summary => .ok { request with summary := true }
  | .logConfig => (readTarget files value).map fun _ => request
  | .verbose | .help => .ok request

/-- Reads a request from arguments taken apart: the options in order, then the path. -/
def request (files : Files) (line : Line) : Except Misuse Request := do
  let options ← line.given.foldlM
    (fun request option =>
      (applyOption files request option ((line.value? option).getD "")).mapError
        (.unfit option.label))
    { path := "" }
  match line.paths with
  | [] => .error .pathMissing
  | path :: more =>
    let path ← (readPath files path).mapError (.unfit s!"'{pathName}'")
    if more.isEmpty then pure { options with path } else .error (.extraPaths more)

end LiveSurface.Command
