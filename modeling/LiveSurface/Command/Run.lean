import LiveSurface.Batch
import LiveSurface.Command.Request
import LiveSurface.Configuration
import LiveSurface.Json.Printer
import LiveSurface.Session
import LiveSurface.Text.Terminal

/-!
# The command

A run reads a batch of messages, with a configuration if one is named, and prints the surfaces
afterwards as text or as a tree of nodes, with an account of the session if asked for. Everything a
run depends on is given to it: its arguments, the files, the name of its session and the times.
-/
namespace LiveSurface.Command

/-- What a run takes from its surroundings: the name of its session, and the fields that tell the
times in its accounts. -/
structure Circumstances where
  sessionId : String
  times : Fields

/-- How a run ends. -/
inductive Ending
  | done (output : String)
  | failed (message : String)
  | misused (misuse : Misuse)
  /-- A value had no use and nothing was printed. -/
  | broken (fault : ValueFault)
deriving DecidableEq, Repr

/-- The code that a run ends with. -/
def Ending.code : Ending → Nat
  | done _ => 0
  | failed _ | broken _ => 1
  | misused _ => 2

/-- What a run has to say. -/
def Ending.report : Ending → String
  | done output => output
  | failed message => s!"Error: {message}\n"
  | misused misuse => misuse.text
  | broken _ => ""

/-- What a run prints. -/
def Ending.output (ending : Ending) : String := Text.Terminal.printed ending.report

/-- The text of a file, empty where there is none. -/
def fileText (files : Files) (path : String) : String :=
  match files path with
  | some (.file text) => text
  | _ => ""

/-- The settings of a run. -/
def settings (files : Files) (config : Option String) : Except Ending Settings :=
  match config with
  | none => .ok {}
  | some path =>
    match Configuration.read path (some (fileText files path)) with
    | .error (.yaml _ (.value .tooLarge)) => .error (.broken .tooLarge)
    | .error fault => .error (.failed s!"Cannot read config {path}: {fault.message}")
    | .ok (.obj fields) => (({} : Settings).configure (.obj fields)).mapError .broken
    | .ok _ => .error (.failed s!"Config must be a mapping: {path}")

/-- The batch of messages of a run. -/
def messages (files : Files) (path : String) : Except Ending (List Value) :=
  (Batch.read (fileText files path)).mapError fun fault =>
    .failed s!"Cannot read messages from {path}: {fault.message}"

/-- The surfaces as they are printed. -/
def printed (request : Request) (tree : Option Node) : Except ValueFault String :=
  match tree with
  | none => pure "No surfaces.\n"
  | some node => do
    let body ← match request.format with
      | .json => Json.print (.indented 2) node.toValue
      | .text => Layout.print (some node) (.int request.width)
    pure (body ++ "\n")

/-- The account of a session and its surfaces. -/
def account (times : Fields) (session : Session) : Value :=
  .obj [("session", .obj (session.summary times)),
    ("surfaces", .list (Session.summaries times session.surfaces))]

/-- What a request prints of a session. -/
def report (request : Request) (times : Fields) (session : Session) : Except ValueFault String := do
  let tree := (session.render Node.primitives true).toOption.join
  let body ← printed request tree
  let summary ←
    if request.summary then
      (· ++ "\n") <$> Json.print (.indented 2) (account times session)
    else pure ""
  pure (body ++ summary)

/-- Answers a request. -/
def answer (files : Files) (circumstances : Circumstances) (request : Request) :
    Except Ending String := do
  let settings ← settings files request.config
  let messages ← messages files request.path
  (do
    let session ←
      Session.create settings circumstances.sessionId .null (Processor.create settings .null)
    report request circumstances.times (session.processAll messages)).mapError .broken

/-- Runs the command on arguments. Help goes before everything but arguments that cannot be taken
apart. -/
def run (files : Files) (circumstances : Circumstances) (args : List String) : Ending :=
  match Line.read args with
  | .error fault => .misused (.line fault)
  | .ok line =>
    if line.has .help then .done help
    else
      match request files line with
      | .error (.unfit _ .nullInPath) => .broken .nullInPath
      | .error misuse => .misused misuse
      | .ok request =>
        match answer files circumstances request with
        | .ok output => .done output
        | .error ending => ending

/-- The paths that a run on arguments may look at. -/
def mentioned (args : List String) : List String :=
  match Line.read args with
  | .error _ => []
  | .ok line => line.paths ++ line.options.map Prod.snd

/-- The line printed for a reported action. -/
def actionLine (name : Value) (context : Value) : Except ValueFault String := do
  let name ← name.text
  let payload ← Json.print .oneLine context
  pure (Text.Terminal.printed s!"action: {name} {payload}\n")

end LiveSurface.Command
