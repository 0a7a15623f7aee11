import LiveSurface.Json.Reader
import LiveSurface.Text.Lowercase
import LiveSurface.Yaml.Reader

/-!
# Configuration files

A configuration is written in JSON or in YAML, as the ending of its file name says.
-/
namespace LiveSurface.Configuration

/-- Why a configuration was not read. -/
inductive Fault
  /-- There is no file with the name. -/
  | missing (name : String)
  /-- The name is longer than the name of a file may be. -/
  | nameTooLong (file : String)
  /-- The name is that of a directory. -/
  | directory (file : String)
  /-- The ending of the name stands for no format. -/
  | unsupported (ending : String)
  | json (fault : Json.Fault)
  | yaml (file : String) (fault : Yaml.Fault)
deriving DecidableEq, Repr

/-- The wording of a fault. -/
def Fault.message : Fault → String
  | missing name => s!"Configuration file not found: {name}"
  | nameTooLong file => s!"[Errno 36] File name too long: {Text.Quoted.text file}"
  | directory file => s!"[Errno 21] Is a directory: {Text.Quoted.text file}"
  | unsupported ending => s!"Unsupported configuration file format: {ending}"
  | json fault => fault.message
  | yaml file fault => fault.message file

/-- The parts of a path, without those that lead nowhere. -/
def parts (path : String) : List String :=
  (path.splitOn "/").filter fun part => part ≠ "" ∧ part ≠ "."

/-- The slashes that an absolute path starts with: one, or exactly two. -/
def root (path : String) : String :=
  match (path.toList.takeWhile (· = '/')).length with
  | 0 => ""
  | 2 => "//"
  | _ => "/"

/-- The shortest way to write a path. -/
def plainPath (path : String) : String :=
  let written := root path ++ "/".intercalate (parts path)
  if written = "" then "." else written

/-- Whether a path is longer than the path of a file may be, or its first part than a name. -/
def isTooLong (path : String) : Bool :=
  4096 ≤ (plainPath path).utf8ByteSize || 255 < ((parts path).headD "").utf8ByteSize

/-- Whether a path only leads upwards, and so to a directory. -/
def leadsUp (path : String) : Bool := (parts path).all (· = "..")

/-- The last part of a path. -/
def fileName (path : String) : String := ((parts path).getLast?).getD ""

/-- The ending of a file name from its last point on, in small letters. A point that starts or ends
the name starts no ending. -/
def ending (path : String) : String :=
  let name := (fileName path).toList
  let last := name.reverse.takeWhile (· ≠ '.')
  let first := (name.reverse.drop last.length).drop 1
  if last.isEmpty || last.length = name.length || first.isEmpty then ""
  else Text.lowered (String.ofList ('.' :: last.reverse))

/-- Why there is no file with a name. -/
def absence (name : String) : Fault :=
  if isTooLong name then .nameTooLong (plainPath name)
  else if leadsUp name then .directory (plainPath name)
  else .missing name

/-- Reads a configuration from the text of the file with a name, if there is one. What YAML writes
as an untrue value is the empty mapping. -/
def read (name : String) (text : Option String) : Except Fault Value :=
  match text with
  | none => .error (absence name)
  | some text =>
    let text := Text.unified text
    if ending name = ".json" then (Json.read text).mapError .json
    else if ending name ∈ [".yaml", ".yml"] then
      let read := (Yaml.read text).mapError (.yaml (plainPath name))
      read.map fun v => if v.truth then v else .obj []
    else .error (.unsupported (ending name))

end LiveSurface.Configuration
