import LiveSurface.Number.Arithmetic
import LiveSurface.Number.Numeral
import LiveSurface.Value.Conversion
import LiveSurface.Yaml.Fault

/-!
# Plain scalars of YAML

What a plain scalar of YAML 1.1 stands for: null, a boolean, a whole number of base 2, 8, 10, 16 or
60, a binary64 number, a timestamp, and otherwise itself as text. A binary64 number has a point, and
a sign in its exponent. Two scalars stand for one key when their values are equal.
-/
namespace LiveSurface.Yaml

/-- What a scalar stands for. -/
inductive Scalar
  | value (v : Value)
  | time (t : Timestamp)
deriving DecidableEq

namespace Scalar

/-- A scalar as a value; a timestamp is its text. -/
def toValue : Scalar → Value
  | value v => v
  | time t => .str t.text

/-- Whether two scalars are one key. -/
def same : Scalar → Scalar → Bool
  | value v, value w => v.keyClass = w.keyClass
  | time t, time u => t.same u
  | _, _ => false

end Scalar

/-- The words for null. -/
def nullWords : List String := ["", "~", "null", "Null", "NULL"]

/-- The words for true. -/
def trueWords : List String :=
  ["yes", "Yes", "YES", "true", "True", "TRUE", "on", "On", "ON"]

/-- The words for false. -/
def falseWords : List String :=
  ["no", "No", "NO", "false", "False", "FALSE", "off", "Off", "OFF"]

/-- The words for infinity, after a sign. -/
def infiniteWords : List String := [".inf", ".Inf", ".INF"]

/-- The words for NaN. -/
def nanWords : List String := [".nan", ".NaN", ".NAN"]

/-- The characters of a grouped decimal. -/
def isGrouped (c : Char) : Bool := c.isDigit || c == '_'

/-- Whether a text starts with a digit. -/
def startsWithDigit (cs : List Char) : Bool := (cs.head?.map Char.isDigit).getD false

/-- The value of a digit below a base, letters after the ten digits. -/
def digitBelow? (base : Nat) (c : Char) : Option Nat :=
  let value? :=
    if '0' ≤ c ∧ c ≤ '9' then some (c.toNat - 48)
    else if 'a' ≤ c ∧ c ≤ 'f' then some (c.toNat - 87)
    else if 'A' ≤ c ∧ c ≤ 'F' then some (c.toNat - 55)
    else none
  value?.filter (· < base)

/-- The whole number that digits of a base write, with any underscores among them. Underscores
alone write none, but are no text either. -/
def inBase? (base : Nat) (cs : List Char) : Option (Except ValueFault Nat) :=
  let digits := cs.filter (· ≠ '_')
  if cs.isEmpty then none
  else if digits.isEmpty then some (.error (.noDigits base))
  else (digits.foldlM (fun n c => (digitBelow? base c).map (base * n + ·)) 0).map .ok

/-- The whole number that a decimal writes, of at most so many digits as are read. -/
def decimal (cs : List Char) : Except ValueFault Nat :=
  let digits := cs.filter (· ≠ '_')
  if Numeral.maxDigits < digits.length then .error (.tooManyDigits digits.length)
  else .ok (Text.numeral 0 digits)

/-- Whether a text is a part after the first of a number of base 60: one or two digits that write
less than 60. -/
def isSixtieth : List Char → Bool
  | [a] => a.isDigit
  | [a, b] => '0' ≤ a && a ≤ '5' && b.isDigit
  | _ => false

/-- The parts of a text between its colons. -/
def partsAtColons : List Char → List (List Char)
  | [] => [[]]
  | c :: rest =>
    let parts := partsAtColons rest
    if c = ':' then [] :: parts else (c :: parts.headD []) :: parts.tail

/-- The parts between colons, if each after the first is a part of base 60. -/
def sixtieths? (cs : List Char) : Option (List (List Char)) :=
  let parts := partsAtColons cs
  if parts.tail.all isSixtieth then some parts else none

/-- The magnitude of a whole number. A leading zero means base 8. -/
def magnitude? : List Char → Option (Except ValueFault Nat)
  | '0' :: 'b' :: rest => inBase? 2 rest
  | '0' :: 'x' :: rest => inBase? 16 rest
  | '0' :: rest => inBase? 8 ('0' :: rest)
  | cs => do
    guard (startsWithDigit cs)
    let parts ← sixtieths? cs
    guard ((parts.headD []).all isGrouped)
    pure (parts.foldlM (fun n part => (decimal part).map (60 * n + ·)) 0)

/-- The whole number that a scalar writes. -/
def whole? (cs : List Char) : Option (Except ValueFault Int) :=
  let (negative, body) := Numeral.sign cs
  (magnitude? body).map fun n => n.map (Double.signed negative)

/-- Whether a text is an exponent with a sign. -/
def isExponent : List Char → Bool
  | e :: sign :: rest =>
    (e == 'e' || e == 'E') && (sign == '+' || sign == '-') && !rest.isEmpty && rest.all Char.isDigit
  | _ => false

/-- The sum of parts of base 60, the lowest first, onto a sum of parts below a power of 60. Each
product and each sum is rounded. -/
def sumOfSixtieths (sum : Double) (power : Nat) : List (List Char) → Except ValueFault Double
  | [] => .ok sum
  | part :: rest =>
    match Double.ofInt? (60 ^ power) with
    | none => .error .tooLarge
    | some weight =>
      let digit := (Numeral.unsigned? false part).getD (.zero false)
      sumOfSixtieths (sum.add (digit.mul weight)) (power + 1) rest

/-- The binary64 number of base 60 that a text writes, whose last part has a point. -/
def inSixties? (negative : Bool) (cs : List Char) : Option (Except ValueFault Double) := do
  let parts ← sixtieths? (cs.takeWhile (· ≠ '.'))
  let fraction ← (cs.dropWhile (· ≠ '.')).tail?
  guard (startsWithDigit cs && (parts.headD []).all isGrouped && fraction.all isGrouped)
  let parts := partsAtColons (cs.filter (· ≠ '_'))
  let sum := sumOfSixtieths (.zero false) 0 parts.reverse
  pure (sum.map fun d => if negative then d.neg else d)

/-- The binary64 number that a scalar with a point writes. A number that starts with the point has
no sign. -/
def pointed? (cs : List Char) : Option (Except ValueFault Double) :=
  let (negative, body) := Numeral.sign cs
  match body.dropWhile isGrouped with
  | '.' :: more =>
    let tail := more.dropWhile isGrouped
    if (startsWithDigit body || (cs.head? == some '.' && startsWithDigit more)) &&
        (tail.isEmpty || isExponent tail) then
      (Numeral.unsigned? negative (body.filter (· ≠ '_'))).map .ok
    else none
  | ':' :: _ => inSixties? negative body
  | _ => none

/-- The binary64 number that a scalar writes. -/
def real? (cs : List Char) : Option (Except ValueFault Double) :=
  let (negative, body) := Numeral.sign cs
  if String.ofList body ∈ infiniteWords then some (.ok (.infinite negative))
  else if String.ofList cs ∈ nanWords then some (.ok .nan)
  else pointed? cs

/-- The timestamp that a scalar writes. -/
def time? (cs : List Char) : Option (Except Timestamp.Fault Timestamp) :=
  (Timestamp.ofText? cs).map fun t =>
    match t.fault? with
    | some fault => .error fault
    | none => .ok t

/-- What a plain scalar stands for. -/
def scalar (s : String) : Except Fault Scalar :=
  if s ∈ nullWords then .ok (.value .null)
  else if s ∈ trueWords then .ok (.value (.bool true))
  else if s ∈ falseWords then .ok (.value (.bool false))
  else
    match real? s.toList, whole? s.toList, time? s.toList with
    | some d, _, _ => (d.map fun d => .value (.real d)).mapError .value
    | none, some n, _ => (n.map fun n => .value (.int n)).mapError .value
    | none, none, some t => (t.map .time).mapError .time
    | none, none, none => .ok (.value (.str s))

end LiveSurface.Yaml
