import LiveSurface.Value.Fault

/-!
# Faults of JSON texts

What keeps a text from being JSON, where it was noticed, and the wording of both.
-/
namespace LiveSurface.Json

/-- What is wrong with a text. -/
inductive Problem
  | valueExpected
  | nameExpected
  | colonExpected
  | commaExpected
  | textAfterEnd
  | unterminated
  | controlCharacter
  | unknownEscape
  | hexadecimalEscape
  | byteOrderMark
deriving DecidableEq, Repr

/-- The wording of a problem. -/
def Problem.message : Problem → String
  | valueExpected => "Expecting value"
  | nameExpected => "Expecting property name enclosed in double quotes"
  | colonExpected => "Expecting ':' delimiter"
  | commaExpected => "Expecting ',' delimiter"
  | textAfterEnd => "Extra data"
  | unterminated => "Unterminated string starting at"
  | controlCharacter => "Invalid control character at"
  | unknownEscape => "Invalid \\escape"
  | hexadecimalEscape => "Invalid \\uXXXX escape"
  | byteOrderMark => "Unexpected UTF-8 BOM (decode using utf-8-sig)"

/-- A place in a text: how many characters stand before it, and its line and column from one on. -/
structure Place where
  offset : Nat
  line : Nat
  column : Nat
deriving DecidableEq, Repr

/-- The place after a first part of a text; only line feeds end a line. -/
def Place.after (before : List Char) : Place :=
  { offset := before.length
    line := before.count '\n' + 1
    column := (before.reverse.takeWhile (· ≠ '\n')).length + 1 }

/-- Why a text was not read. -/
inductive Fault
  /-- It is not JSON. -/
  | malformed (problem : Problem) (place : Place)
  /-- It holds a whole number with more digits than are read. -/
  | tooManyDigits (digits : Nat)
  /-- One of its strings holds half of a character, which no text here can hold. -/
  | half
deriving DecidableEq, Repr

/-- The wording of a fault. -/
def Fault.message : Fault → String
  | malformed problem place =>
    s!"{problem.message}: line {place.line} column {place.column} (char {place.offset})"
  | tooManyDigits digits => (ValueFault.tooManyDigits digits).message
  | half => "A string holds half of a character"

end LiveSurface.Json
