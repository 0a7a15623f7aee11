import LiveSurface.Json.Reader

/-!
# Batches of messages

A batch is a JSON text: a list of messages, a single message, or one text a line with blank lines
between them. A text that is JSON as a whole is never read line by line.
-/
namespace LiveSurface.Batch

/-- Reads every line that is not blank. -/
def readLines (text : String) : Except Json.Fault (List Value) :=
  ((Text.lines text).filter fun line => Text.trim line ≠ "").mapM Json.read

/-- Reads a text without blanks around it. -/
def readTrimmed (text : String) : Except Json.Fault (List Value) :=
  match Json.read text with
  | .ok (.list messages) => .ok messages
  | .ok message => .ok [message]
  | .error (.malformed ..) => readLines text
  | .error fault => .error fault

/-- Reads a batch. -/
def read (text : String) : Except Json.Fault (List Value) :=
  let text := Text.trim (Text.unified text)
  if text = "" then .ok [] else readTrimmed text

end LiveSurface.Batch
