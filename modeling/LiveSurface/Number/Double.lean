/-!
# Binary64 numbers

A finite number other than zero is kept as an odd significand times a power of two, so that two
numbers are equal exactly when they are the same value with the same sign. Whole numbers and
ratios are rounded to the nearest number, a half to the even neighbour.
-/
namespace LiveSurface

/-- An odd significand of at most 53 bits with an exponent in the range of binary64; zero stands
with exponent zero. -/
def Canonical (significand : Nat) (exponent : Int) : Prop :=
  (significand = 0 ∧ exponent = 0) ∨
    (significand % 2 = 1 ∧ significand < Nat.pow 2 53 ∧ -1074 ≤ exponent ∧
      exponent + significand.log2 < 1024)

instance (significand : Nat) (exponent : Int) : Decidable (Canonical significand exponent) :=
  inferInstanceAs (Decidable (_ ∨ _))

/-- A binary64 number; all NaNs are one. -/
inductive Double
  | nan
  | infinite (negative : Bool)
  | finite (negative : Bool) (significand : Nat) (exponent : Int)
      (canonical : Canonical significand exponent)
deriving DecidableEq

namespace Double

instance : Inhabited Double := ⟨nan⟩

/-- Zero with a sign. -/
def zero (negative : Bool) : Double := .finite negative 0 0 (.inl ⟨rfl, rfl⟩)

/-- One. -/
def one : Double := .finite false 1 0 (by decide)

/-- The form `m * 2 ^ e` with an odd `m`, or zero with exponent zero. -/
def oddForm (m : Nat) (e : Int) : Nat × Int :=
  if m = 0 then (0, 0) else if m % 2 = 0 then oddForm (m / 2) (e + 1) else (m, e)
termination_by m
decreasing_by omega

/-- The number `m * 2 ^ e`, infinite when it is out of range. -/
def ofParts (negative : Bool) (m : Nat) (e : Int) : Double :=
  if h : Canonical (oddForm m e).1 (oddForm m e).2 then .finite negative _ _ h
  else .infinite negative

/-- The whole number nearest to a quotient, a half going to the even neighbour. -/
def roundQuotient (num den : Nat) : Nat :=
  let q := num / den
  let r := num % den
  if 2 * r < den then q else if den < 2 * r then q + 1 else q + q % 2

/-- The largest `k` with `2 ^ k ≤ num / den`, for positive `num` and `den`. -/
def floorLog2 (num den : Nat) : Int :=
  let k : Int := (num.log2 : Int) - den.log2
  let reaches :=
    if 0 ≤ k then den * Nat.pow 2 k.toNat ≤ num else den ≤ num * Nat.pow 2 (-k).toNat
  if reaches then k else k - 1

/-- The number nearest to a ratio, infinite when it is out of range. -/
def ofRatio (negative : Bool) (num den : Nat) : Double :=
  if num = 0 then zero negative
  else
    let e := max (floorLog2 num den - 52) (-1074)
    let m :=
      if 0 ≤ e then roundQuotient num (den * Nat.pow 2 e.toNat)
      else roundQuotient (num * Nat.pow 2 (-e).toNat) den
    ofParts negative m e

/-- The number nearest to `digits * 10 ^ exponent`. A magnitude of at least `10 ^ 400`, or below
`10 ^ (-400)`, is decided without being computed. -/
def ofDecimal (negative : Bool) (digits : Nat) (exponent : Int) : Double :=
  if digits = 0 then zero negative
  else if 400 < exponent then .infinite negative
  else if exponent + (digits.log2 / 3 : Nat) + 2 < -400 then zero negative
  else if 0 ≤ exponent then ofRatio negative (digits * Nat.pow 10 exponent.toNat) 1
  else ofRatio negative digits (Nat.pow 10 (-exponent).toNat)

/-- The number nearest to a whole number, which is itself when it fits; none when it is out of
range. -/
def ofInt? (n : Int) : Option Double :=
  if h : Canonical (oddForm n.natAbs 0).1 (oddForm n.natAbs 0).2 then
    some (.finite (n < 0) _ _ h)
  else
    match ofRatio (n < 0) n.natAbs 1 with
    | .infinite _ => none
    | d => some d

/-- A magnitude with a sign. -/
def signed (negative : Bool) (n : Nat) : Int := if negative then -n else n

/-- The whole number that a number is, if it is one. -/
def toInt? : Double → Option Int
  | .finite negative m e _ =>
    if 0 ≤ e then some (signed negative (m * Nat.pow 2 e.toNat)) else none
  | _ => none

/-- The whole number reached by cutting off the fraction of a finite number. -/
def truncate? : Double → Option Int
  | .finite negative m e _ =>
    some (signed negative (if 0 ≤ e then m * Nat.pow 2 e.toNat else m / Nat.pow 2 (-e).toNat))
  | _ => none

/-- Whether a number is neither infinite nor NaN. -/
def isFinite : Double → Bool
  | .finite .. => true
  | _ => false

/-- Zero of either sign. -/
def isZero : Double → Bool
  | .finite _ m _ _ => m == 0
  | _ => false

theorem truncate?_eq_toInt? {d : Double} {n : Int} (h : d.toInt? = some n) :
    d.truncate? = some n := by
  cases d with
  | finite negative m e canonical =>
    simp only [toInt?] at h
    split at h <;> simp_all [truncate?]
  | _ => simp [toInt?] at h

end Double
end LiveSurface
