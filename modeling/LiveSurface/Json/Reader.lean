import LiveSurface.Json.Fault
import LiveSurface.Number.Numeral
import LiveSurface.Value.Basic

/-!
# Reading JSON

A text is read as one value with nothing but blanks around it. The words for infinity and NaN are
numbers. Of fields with one name the last value stays, at the place of the first. A fault is
noticed at the first character that cannot go on, and carries what is left of the text from there.
-/
namespace LiveSurface.Json

/-- Why reading stopped; a malformed text is given from the place where it was noticed. -/
inductive Stop
  | malformed (problem : Problem) (rest : List Char)
  | tooManyDigits (digits : Nat)
  /-- A string holds half of a character. -/
  | half
deriving DecidableEq, Repr

/-- What was read from the front of a text, and what is left of the text. -/
abbrev Read (α : Type) := Except Stop (α × List Char)

/-- The blanks between the parts of a value. -/
def isBlank (c : Char) : Bool := c == ' ' || c == '\t' || c == '\n' || c == '\r'

/-- Passes over blanks. -/
def skip (cs : List Char) : List Char := cs.dropWhile isBlank

/-- The value of a hexadecimal digit. -/
def hexValue? (c : Char) : Option Nat :=
  if '0' ≤ c ∧ c ≤ '9' then some (c.toNat - 48)
  else if 'a' ≤ c ∧ c ≤ 'f' then some (c.toNat - 87)
  else if 'A' ≤ c ∧ c ≤ 'F' then some (c.toNat - 55)
  else none

/-- The number that four hexadecimal digits at the front of a text write. -/
def unit? : List Char → Option Nat
  | a :: b :: c :: d :: _ => do
    pure ((((← hexValue? a) * 16 + (← hexValue? b)) * 16 + (← hexValue? c)) * 16 + (← hexValue? d))
  | _ => none

/-- The first halves of characters beyond the basic plane. -/
def isHighHalf (unit : Nat) : Bool := 0xd800 ≤ unit && unit ≤ 0xdbff

/-- The second halves of characters beyond the basic plane. -/
def isLowHalf (unit : Nat) : Bool := 0xdc00 ≤ unit && unit ≤ 0xdfff

/-- The character of a unit; a half that stands alone is none. -/
def unitChar? (unit : Nat) : Option Char :=
  if isHighHalf unit || isLowHalf unit then none else some (Char.ofNat unit)

/-- The character of an escape without digits. -/
def plainEscape? : Char → Option Char
  | '"' => some '"'
  | '\\' => some '\\'
  | '/' => some '/'
  | 'b' => some '\x08'
  | 'f' => some '\x0c'
  | 'n' => some '\n'
  | 'r' => some '\r'
  | 't' => some '\t'
  | _ => none

/-- The character of an escape with four digits, given the text from its letter on, and how much
of that text belongs to it. Something must follow the digits. Two halves of one character stand in
two escapes, of which the second too must have something after it. -/
def unitEscape (cs : List Char) : Except Stop (Option Char × Nat) :=
  let bad (place : List Char) : Except Stop (Option Char × Nat) :=
    .error (.malformed .hexadecimalEscape place)
  let after := cs.drop 5
  match unit? (cs.drop 1) with
  | none => bad cs
  | some unit =>
    if after.isEmpty then bad cs
    else if isHighHalf unit && after.take 2 == ['\\', 'u'] && !(after.drop 6).isEmpty then
      match unit? (after.drop 2) with
      | none => bad (after.drop 1)
      | some low =>
        if isLowHalf low then
          .ok (some (Char.ofNat (0x10000 + (unit - 0xd800) * 0x400 + (low - 0xdc00))), 11)
        else .ok (unitChar? unit, 5)
    else .ok (unitChar? unit, 5)

/-- The string of characters, the last one first. It is told only at its end that one of them is a
half, since what follows a half may be malformed. -/
def joined (read : List (Option Char)) (rest : List Char) : Read String :=
  if none ∈ read then .error .half else .ok (String.ofList (read.reverse.filterMap id), rest)

/-- Reads a string after its opening quote. Given are the text from that quote on, how many
characters still belong to the last escape, and the characters read, the last one first. -/
def stringFrom (start : List Char) : Nat → List (Option Char) → List Char → Read String
  | _, _, [] => .error (.malformed .unterminated start)
  | owned + 1, read, _ :: rest => stringFrom start owned read rest
  | 0, read, c :: rest =>
    if c = '"' then joined read rest
    else if c = '\\' then
      match rest with
      | [] => .error (.malformed .unterminated start)
      | 'u' :: _ =>
        match unitEscape rest with
        | .error stop => .error stop
        | .ok (escaped, owned) => stringFrom start owned (escaped :: read) rest
      | letter :: _ =>
        match plainEscape? letter with
        | some escaped => stringFrom start 1 (some escaped :: read) rest
        | none => .error (.malformed .unknownEscape (c :: rest))
    else if c.toNat < 32 then .error (.malformed .controlCharacter (c :: rest))
    else stringFrom start 0 (some c :: read) rest

/-- Reads a string after its opening quote. -/
def string (rest : List Char) : Read String := stringFrom ('"' :: rest) 0 [] rest

/-- Splits off the digits at the front of a text. -/
def digits (cs : List Char) : List Char × List Char :=
  (cs.takeWhile Char.isDigit, cs.dropWhile Char.isDigit)

/-- The digits of a whole part; a zero stands alone. -/
def wholePart : List Char → List Char × List Char
  | '0' :: rest => (['0'], rest)
  | cs => digits cs

/-- The digits behind a point, if there are any. -/
def fractionPart : List Char → List Char × List Char
  | '.' :: rest =>
    match digits rest with
    | ([], _) => ([], '.' :: rest)
    | found => found
  | cs => ([], cs)

/-- The exponent at the front of a text, if there is a whole one. -/
def exponentPart (cs : List Char) : Option Int × List Char :=
  match cs with
  | c :: rest =>
    if c = 'e' ∨ c = 'E' then
      let (negative, body) := Numeral.sign rest
      match digits body with
      | ([], _) => (none, cs)
      | (found, rest) => (some (Double.signed negative (Text.numeral 0 found)), rest)
    else (none, cs)
  | [] => (none, [])

/-- Reads a number without a sign; a fraction or an exponent makes it a binary64 number. The text
from the sign on is given too. -/
def unsigned (start : List Char) (negative : Bool) (cs : List Char) : Read Value :=
  let (whole, rest) := wholePart cs
  let (fraction, rest) := fractionPart rest
  let (exponent, rest) := exponentPart rest
  if whole.isEmpty then .error (.malformed .valueExpected start)
  else if fraction.isEmpty && exponent.isNone then
    if Numeral.maxDigits < whole.length then .error (.tooManyDigits whole.length)
    else .ok (.int (Double.signed negative (Text.numeral 0 whole)), rest)
  else
    .ok (.real (Double.ofDecimal negative (Text.numeral 0 (whole ++ fraction))
      (exponent.getD 0 - fraction.length)), rest)

/-- Reads a number. -/
def number : List Char → Read Value
  | '-' :: rest => unsigned ('-' :: rest) true rest
  | cs => unsigned cs false cs

/-- The words that are values. -/
def words : List (String × Value) :=
  [("null", .null), ("true", .bool true), ("false", .bool false), ("NaN", .real .nan),
    ("Infinity", .real (.infinite false)), ("-Infinity", .real (.infinite true))]

/-- Reads a word or a number. -/
def plain (cs : List Char) : Read Value :=
  match words.find? fun word => word.1.toList.isPrefixOf cs with
  | some (word, v) => .ok (v, cs.drop word.length)
  | none => number cs

mutual

/-- Reads a value that stands at the front of a text, with at most so many steps. -/
def value : Nat → List Char → Read Value
  | 0, cs => .error (.malformed .valueExpected cs)
  | steps + 1, cs =>
    match cs with
    | '"' :: rest => (string rest).map fun (s, rest) => (.str s, rest)
    | '{' :: rest =>
      match skip rest with
      | '}' :: rest => .ok (.obj [], rest)
      | rest => fields steps [] rest
    | '[' :: rest =>
      match skip rest with
      | ']' :: rest => .ok (.list [], rest)
      | rest => items steps [] rest
    | cs => plain cs

/-- Reads the items of a list up to its end, onto the ones read, the last one first. -/
def items : Nat → List Value → List Char → Read Value
  | 0, _, cs => .error (.malformed .valueExpected cs)
  | steps + 1, read, cs =>
    match value steps cs with
    | .error stop => .error stop
    | .ok (item, rest) =>
      match skip rest with
      | ']' :: rest => .ok (.list (item :: read).reverse, rest)
      | ',' :: rest => items steps (item :: read) (skip rest)
      | rest => .error (.malformed .commaExpected rest)

/-- Reads the fields of an object up to its end, onto the ones read. -/
def fields : Nat → Fields → List Char → Read Value
  | 0, _, cs => .error (.malformed .nameExpected cs)
  | steps + 1, read, cs =>
    match cs with
    | '"' :: rest =>
      match string rest with
      | .error stop => .error stop
      | .ok (name, rest) =>
        match skip rest with
        | ':' :: rest =>
          match value steps (skip rest) with
          | .error stop => .error stop
          | .ok (v, rest) =>
            match skip rest with
            | '}' :: rest => .ok (.obj (Entries.set read name v), rest)
            | ',' :: rest => fields steps (Entries.set read name v) (skip rest)
            | rest => .error (.malformed .commaExpected rest)
        | rest => .error (.malformed .colonExpected rest)
    | cs => .error (.malformed .nameExpected cs)

end

/-- Reads a whole text. Every second step takes a character, so the steps do not run out. -/
def document (cs : List Char) : Except Stop Value :=
  match cs with
  | '\ufeff' :: _ => .error (.malformed .byteOrderMark cs)
  | cs => do
    let (v, rest) ← value (2 * cs.length + 2) (skip cs)
    match skip rest with
    | [] => pure v
    | rest => .error (.malformed .textAfterEnd rest)

/-- The fault of a text whose reading stopped. -/
def Stop.fault (text : List Char) : Stop → Fault
  | malformed problem rest =>
    .malformed problem (Place.after (text.take (text.length - rest.length)))
  | tooManyDigits digits => .tooManyDigits digits
  | half => .half

/-- The value that a JSON text writes. -/
def read (text : String) : Except Fault Value :=
  (document text.toList).mapError (Stop.fault text.toList)

end LiveSurface.Json
