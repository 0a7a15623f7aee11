import Mathlib.Data.Rat.Floor
import LiveSurface.Number.Double

/-!
# Whole parts of binary64 numbers

A finite binary64 number has a rational value. Cutting off its fraction gives the whole number next
to this value on the side of zero (`truncate?_eq`).
-/
namespace LiveSurface.Double

/-- The value of a finite number. -/
def value? : Double → Option ℚ
  | .finite negative m e _ => some ((if negative then -1 else 1) * ((m : ℚ) * 2 ^ e))
  | _ => none

/-- The whole number next to a ratio on the side of zero. -/
def towardZero (q : ℚ) : ℤ := if 0 ≤ q then ⌊q⌋ else ⌈q⌉

theorem towardZero_of_nonneg {q : ℚ} (positive : 0 ≤ q) : towardZero q = ⌊q⌋ := if_pos positive

theorem towardZero_neg {q : ℚ} (positive : 0 ≤ q) : towardZero (-q) = -⌊q⌋ := by
  unfold towardZero
  split
  · next reversed =>
    have zero : q = 0 := le_antisymm (neg_nonneg.mp reversed) positive
    simp [zero]
  · exact Int.ceil_neg

/-- A power of two is multiplied with as a whole number, or is divided by. -/
theorem floor_magnitude (m : Nat) (e : Int) :
    ⌊(m : ℚ) * 2 ^ e⌋ =
      ((if 0 ≤ e then m * Nat.pow 2 e.toNat else m / Nat.pow 2 (-e).toNat : Nat) : ℤ) := by
  by_cases whole : 0 ≤ e
  · obtain ⟨k, rfl⟩ := Int.eq_ofNat_of_zero_le whole
    have product : (m : ℚ) * 2 ^ (k : ℤ) = ((m * Nat.pow 2 k : ℕ) : ℚ) := by
      rw [zpow_natCast, Nat.pow_eq]
      push_cast
      rfl
    rw [if_pos whole, Int.toNat_natCast, product, Int.floor_natCast]
  · obtain ⟨k, rfl⟩ : ∃ k : ℕ, e = -(k : ℤ) := ⟨(-e).toNat, by omega⟩
    have quotient : (m : ℚ) * 2 ^ (-(k : ℤ)) = (m : ℚ) / ((Nat.pow 2 k : ℕ) : ℚ) := by
      rw [zpow_neg, zpow_natCast, Nat.pow_eq, ← div_eq_mul_inv]
      push_cast
      rfl
    rw [if_neg whole, neg_neg, Int.toNat_natCast, quotient, Rat.floor_natCast_div_natCast]
    rfl

/-- Cutting off the fraction of a finite number rounds its value toward zero. -/
theorem truncate?_eq (d : Double) : d.truncate? = d.value?.map towardZero := by
  cases d with
  | finite negative m e canonical =>
    have positive : (0 : ℚ) ≤ (m : ℚ) * 2 ^ e :=
      mul_nonneg (Nat.cast_nonneg m) (zpow_nonneg (by decide) e)
    cases negative with
    | false =>
      simp only [truncate?, value?, Option.map_some, signed, Bool.false_eq_true, ↓reduceIte,
        one_mul]
      rw [towardZero_of_nonneg positive, floor_magnitude]
    | true =>
      simp only [truncate?, value?, Option.map_some, signed, ↓reduceIte, neg_one_mul]
      rw [towardZero_neg positive, floor_magnitude]
  | _ => rfl

end LiveSurface.Double
