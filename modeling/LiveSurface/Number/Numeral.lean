import LiveSurface.Number.Double
import LiveSurface.Text.Blank
import LiveSurface.Text.Digit

/-!
# Numerals

Reading whole numbers and decimals from text. A numeral may stand between blanks, has one optional
sign and may group its digits with single underscores; digits and blanks of any script count.
-/
namespace LiveSurface.Numeral

open Text

/-- Digits of any script become ASCII digits and blanks outside ASCII become spaces; any other
character outside ASCII becomes a question mark, which no numeral holds. -/
def toAscii (c : Char) : Char :=
  if c.toNat < 128 then c
  else if isBlank c then ' '
  else match digitValue? c with
    | some d => digitChar d
    | none => '?'

/-- Splits off an optional sign. -/
def sign : List Char → Bool × List Char
  | '-' :: rest => (true, rest)
  | '+' :: rest => (false, rest)
  | cs => (false, cs)

/-- Removes underscores, each of which must stand between two digits; the flag tells whether a
digit stands directly before. -/
def ungroup? : Bool → List Char → Option (List Char)
  | _, [] => some []
  | afterDigit, '_' :: rest =>
    match rest with
    | d :: _ => if afterDigit && d.isDigit then ungroup? false rest else none
    | [] => none
  | _, c :: rest => (ungroup? c.isDigit rest).map (c :: ·)

/-- Why a text is no whole number. -/
inductive Fault
  | malformed
  /-- More digits than are read. -/
  | tooLong (digits : Nat)
deriving DecidableEq, Repr

/-- The most digits that a whole number is read from or written with. -/
def maxDigits : Nat := 4300

/-- Whether a whole number has no more digits than are written. -/
def isWritten (n : Int) : Bool := (Nat.toDigits 10 n.natAbs).length ≤ maxDigits

/-- The whole number that ASCII text writes. The length of the digits is checked before what
follows them. -/
def wholeAscii (cs : List Char) : Except Fault Int :=
  let (negative, body) := sign (trimBy isAsciiBlank cs)
  let run := body.takeWhile fun c => c.isDigit || c == '_'
  match ungroup? false run with
  | none => .error .malformed
  | some digits =>
    if maxDigits < digits.length then .error (.tooLong digits.length)
    else if digits.isEmpty || run.length < body.length then .error .malformed
    else .ok (Double.signed negative (numeral 0 digits))

/-- The whole number that a text writes. -/
def whole (s : String) : Except Fault Int :=
  wholeAscii (s.toList.map toAscii)

/-- The digits after an exponent mark, none when there is something else. -/
def exponent? : List Char → Option Int
  | [] => some 0
  | c :: rest =>
    if c == 'e' || c == 'E' then
      let (negative, digits) := sign rest
      if !digits.isEmpty && digits.all Char.isDigit then
        some (Double.signed negative (numeral 0 digits))
      else none
    else none

/-- Digits with an optional point and an optional exponent, at least one digit before the
exponent. -/
def unsigned? (negative : Bool) (cs : List Char) : Option Double :=
  let whole := cs.takeWhile Char.isDigit
  let rest := cs.dropWhile Char.isDigit
  let fraction := match rest with
    | '.' :: more => more.takeWhile Char.isDigit
    | _ => []
  let tail := match rest with
    | '.' :: more => more.dropWhile Char.isDigit
    | _ => rest
  if whole.isEmpty && fraction.isEmpty then none
  else (exponent? tail).map fun e =>
    Double.ofDecimal negative (numeral 0 (whole ++ fraction)) (e - fraction.length)

/-- A decimal without blanks and underscores. The words for infinity and NaN may be written in
any case. -/
def strict? (cs : List Char) : Option Double :=
  let (negative, body) := sign cs
  let word := String.ofList (body.map Char.toLower)
  if word == "inf" || word == "infinity" then some (.infinite negative)
  else if word == "nan" then some .nan
  else unsigned? negative body

/-- The number that ASCII text writes. -/
def decimalAscii? (cs : List Char) : Option Double :=
  (ungroup? false (trimBy isAsciiBlank cs)).bind strict?

/-- The number that a text writes. -/
def decimal? (s : String) : Option Double :=
  decimalAscii? (s.toList.map toAscii)

/-- The number in a field of a record: blanks of every script around it, digits of ASCII alone.
Failing that, a text without blanks whose underscores are single and not at an end is read
without them. -/
def field? (s : String) : Option Double :=
  match strict? (trimBy isWhiteSpace s.toList) with
  | some d => some d
  | none =>
    let cs := s.toList
    if cs.head? == some '_' || cs.getLast? == some '_' || (cs.zip cs.tail).contains ('_', '_') then
      none
    else strict? (cs.filter (· != '_'))

end LiveSurface.Numeral
