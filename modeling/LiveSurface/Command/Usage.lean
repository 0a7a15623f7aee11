import LiveSurface.Command.Line
import LiveSurface.Text.Quoted
import LiveSurface.Value.Fault

/-!
# Usage

The texts that tell how the command is used, and the wording of every misuse of it.
-/
namespace LiveSurface.Command

/-- The name of the command. -/
def name : String := "a2ui-render"

/-- The name that the path of the messages has in texts. -/
def pathName : String := "MESSAGES_PATH"

/-- The first line of every text on usage. -/
def usage : String := s!"Usage: {name} [OPTIONS] {pathName}\n"

/-- Why a value does not fit. Paths and values are in their written form. -/
inductive Unfit
  | noSuchFile (path : String)
  | notAFile (path : String)
  | notOffered (written : String) (offered : List String)
  | notWhole (written : String)
  /-- A path with the null character in it. -/
  | nullInPath
deriving DecidableEq, Repr

/-- The wording of why a value does not fit. -/
def Unfit.message : Unfit → String
  | noSuchFile path => s!"File {path} does not exist."
  | notAFile path => s!"File {path} is a directory."
  | notOffered written offered =>
    let words := ", ".intercalate (offered.map fun word => s!"'{word}'")
    s!"{written} is not one of {words}."
  | notWhole written => s!"{written} is not a valid integer."
  | nullInPath => ValueFault.nullInPath.message

/-- A misuse of the command. -/
inductive Misuse
  | line (fault : LineFault)
  | unfit (label : String) (why : Unfit)
  | pathMissing
  | extraPaths (paths : List String)
deriving DecidableEq, Repr

/-- The wording of a misuse. -/
def Misuse.message : Misuse → String
  | line fault => fault.message
  | unfit label why => s!"Invalid value for {label}: {why.message}"
  | pathMissing => s!"Missing argument '{pathName}'."
  | extraPaths paths =>
    let noun := if paths.length = 1 then "argument" else "arguments"
    let listed := " ".intercalate paths
    s!"Got unexpected extra {noun} ({listed})"

/-- The whole text for a misuse. -/
def Misuse.text (misuse : Misuse) : String :=
  usage ++ s!"Try '{name} --help' for help.\n\nError: {misuse.message}\n"

/-- What the command tells about itself. -/
def help : String :=
  usage ++ "
  Render the A2UI surfaces described by MESSAGES_PATH (JSON array or JSON
  Lines).

Options:
  -c, --config FILE     YAML/JSON file with a renderer_config block.
  --format [text|json]  Output rendered surfaces as indented text or JSON node
                        trees.  [default: text]
  --width INTEGER       Text output width.  [default: 48]
  --summary             Print surface summaries after the render.
  --log-config FILE     Logging config (YAML/JSON). Defaults to
                        configs/logger_config.yaml when present.
  -v, --verbose         Enable verbose logging.
  --help                Show this message and exit.
"

end LiveSurface.Command
