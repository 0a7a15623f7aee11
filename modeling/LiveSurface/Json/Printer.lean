import LiveSurface.Text.Quoted
import LiveSurface.Value.Basic
import LiveSurface.Value.Fault

/-!
# Printing JSON

A value is printed on one line, or with every item and field on a line of its own. Text outside
ASCII stands for itself. Infinite numbers and NaN are printed as words. Bytes have no form in JSON.
-/
namespace LiveSurface.Json

/-- The written form of a character inside a string. -/
def escape (c : Char) : List Char :=
  if c = '"' ∨ c = '\\' then ['\\', c]
  else if c = '\n' then ['\\', 'n']
  else if c = '\r' then ['\\', 'r']
  else if c = '\t' then ['\\', 't']
  else if c = '\x08' then ['\\', 'b']
  else if c = '\x0c' then ['\\', 'f']
  else if c.toNat < 32 then '\\' :: 'u' :: Text.Quoted.hexDigits 4 c.toNat
  else [c]

/-- A string between quotes. -/
def quote (s : String) : String :=
  String.ofList ('"' :: (s.toList.flatMap escape ++ ['"']))

/-- A binary64 number. -/
def real : Double → String
  | .nan => "NaN"
  | .infinite negative => if negative then "-Infinity" else "Infinity"
  | d => d.text

/-- How the parts of lists and objects are set apart: on one line, or on lines indented by so many
spaces a level. -/
inductive Form
  | oneLine
  | indented (spaces : Nat)
deriving DecidableEq, Repr

/-- What stands before a part at a level, apart from the comma after the part before it. -/
def Form.lead : Form → Nat → String
  | oneLine, _ => ""
  | indented spaces, level => "\n" ++ String.ofList (List.replicate (spaces * level) ' ')

/-- What stands between two parts at a level. -/
def Form.separator (form : Form) (level : Nat) : String :=
  match form with
  | oneLine => ", "
  | indented _ => "," ++ form.lead level

/-- The parts of a list or an object between its brackets. -/
def Form.bracketed (form : Form) (level : Nat) (first last : String) (parts : List String) :
    String :=
  if parts.isEmpty then first ++ last
  else
    first ++ form.lead (level + 1) ++ (form.separator (level + 1)).intercalate parts ++
      form.lead level ++ last

mutual

/-- Prints a value that stands at a level. -/
def printAt (form : Form) : Value → Nat → Except ValueFault String
  | .null, _ => pure "null"
  | .bool b, _ => pure (if b then "true" else "false")
  | .int n, _ => (Value.int n).text
  | .real d, _ => pure (real d)
  | .str s, _ => pure (quote s)
  | .bytes s, _ => .error (.notJson (Value.bytes s).typeName)
  | .list items, level => do
    let parts ← printItems form items (level + 1)
    pure (form.bracketed level "[" "]" parts)
  | .obj fields, level => do
    let parts ← printFields form fields (level + 1)
    pure (form.bracketed level "\x7b" "\x7d" parts)
termination_by structural v => v

/-- Prints the items of a list that stand at a level. -/
def printItems (form : Form) : List Value → Nat → Except ValueFault (List String)
  | [], _ => pure []
  | item :: rest, level => do
    let part ← printAt form item level
    let parts ← printItems form rest level
    pure (part :: parts)
termination_by structural v => v

/-- Prints the fields of an object that stand at a level. -/
def printFields (form : Form) : List (String × Value) → Nat → Except ValueFault (List String)
  | [], _ => pure []
  | (name, v) :: rest, level => do
    let part ← printAt form v level
    let parts ← printFields form rest level
    pure ((quote name ++ ": " ++ part) :: parts)
termination_by structural v => v

end

/-- Prints a value. -/
def print (form : Form) (v : Value) : Except ValueFault String := printAt form v 0

end LiveSurface.Json
