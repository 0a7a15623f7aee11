import LiveSurface.Number.Double

/-!
# Whole numbers in binary64

A whole number that some binary64 number is equal to goes through binary64 unchanged
(`ofInt?_of_exact`): its odd form is canonical, so that it is not rounded.
-/
namespace LiveSurface.Double

/-- A whole number that a binary64 number is equal to. -/
def Exact (n : Int) : Prop := ∃ d : Double, d.toInt? = some n

theorem oddForm_odd {m : Nat} (odd : m % 2 = 1) (e : Int) : oddForm m e = (m, e) := by
  have positive : m ≠ 0 := by omega
  have notEven : ¬ m % 2 = 0 := by omega
  rw [oddForm, if_neg positive, if_neg notEven]

theorem oddForm_mul_pow {m : Nat} (odd : m % 2 = 1) (k : Nat) (e : Int) :
    oddForm (m * Nat.pow 2 k) e = (m, e + k) := by
  induction k generalizing e with
  | zero => simpa using oddForm_odd odd e
  | succ k ih =>
    have double : m * Nat.pow 2 (k + 1) = 2 * (m * Nat.pow 2 k) := by
      have succ : Nat.pow 2 (k + 1) = Nat.pow 2 k * 2 := rfl
      rw [succ, ← Nat.mul_assoc, Nat.mul_comm]
    have positive : 0 < m * Nat.pow 2 k := Nat.mul_pos (by omega) (Nat.pow_pos (by decide))
    rw [double, oddForm, if_neg (by omega), if_pos (by omega),
      Nat.mul_div_cancel_left _ (by decide), ih]
    simp only [Prod.mk.injEq, true_and]
    omega

theorem natAbs_signed (negative : Bool) (n : Nat) : (signed negative n).natAbs = n := by
  cases negative <;> simp [signed]

/-- The odd form of a whole number is the form of the binary64 number that it is equal to. -/
theorem oddForm_of_toInt? {negative : Bool} {m : Nat} {e n : Int} {canonical : Canonical m e}
    (equal : (finite negative m e canonical).toInt? = some n) :
    0 ≤ e ∧ n.natAbs = m * Nat.pow 2 e.toNat ∧ oddForm n.natAbs 0 = (m, e) := by
  simp only [toInt?] at equal
  split at equal
  · next whole =>
    cases equal
    rw [natAbs_signed]
    refine ⟨whole, rfl, ?_⟩
    rcases canonical with ⟨rfl, rfl⟩ | ⟨odd, -⟩
    · rw [Nat.zero_mul, oddForm, if_pos rfl]
    · rw [oddForm_mul_pow odd, Int.zero_add, Int.toNat_of_nonneg whole]
  · cases equal

theorem signed_natAbs (n : Int) : signed (n < 0) n.natAbs = n := by
  by_cases negative : n < 0
  · rw [signed, if_pos (decide_eq_true negative)]
    omega
  · rw [signed, if_neg (by simpa using negative)]
    omega

/-- A whole number that a binary64 number is equal to is not rounded. -/
theorem ofInt?_of_exact {n : Int} (exact : Exact n) :
    ∃ d, ofInt? n = some d ∧ d.toInt? = some n := by
  obtain ⟨d, equal⟩ := exact
  cases d with
  | finite negative m e canonical =>
    obtain ⟨whole, magnitude, odd⟩ := oddForm_of_toInt? equal
    have fits : Canonical (oddForm n.natAbs 0).1 (oddForm n.natAbs 0).2 := by rwa [odd]
    refine ⟨_, dif_pos fits, ?_⟩
    simp only [toInt?, odd, whole, ↓reduceIte, ← magnitude]
    rw [signed_natAbs]
  | _ => cases equal

end LiveSurface.Double
