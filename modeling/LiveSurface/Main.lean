import LiveSurface.Command.Run

/-!
# The program

Looks at the files that the arguments mention, runs the command, and prints what it says.
-/
namespace LiveSurface.Program

/-- What stands under a path now. A file that is no UTF-8 text cannot be read and is passed over. -/
def look (path : String) : IO (Option Command.Entry) := do
  try
    return some (.file (← IO.FS.readFile path))
  catch
    | .inappropriateType .. => return some .directory
    | _ => return none

/-- A fresh name for a session. -/
def freshName : IO String := do
  let bytes ← IO.getRandomBytes 6
  let digits := bytes.toList.flatMap fun byte => Text.Quoted.hexDigits 2 byte.toNat
  return "a2ui_" ++ String.ofList digits

/-- The times of a session that starts now, in seconds. -/
def times : IO Fields := do
  let now : Value := .real (Double.ofDecimal false (← IO.monoMsNow) (-3))
  return [("created_at", now), ("updated_at", now)]

end LiveSurface.Program

open LiveSurface

/-- Runs the command on the arguments of the program. -/
def main (args : List String) : IO UInt32 := do
  let entries ← (Command.mentioned args).mapM fun path => do
    return (path, ← Program.look path)
  let files : Command.Files := fun path => (entries.lookup path).join
  let ending := Command.run files ⟨← Program.freshName, ← Program.times⟩ args
  match ending with
  | .done output => IO.print output
  | .broken fault => IO.eprintln fault.message
  | ending => IO.eprint ending.output
  return UInt32.ofNat ending.code
