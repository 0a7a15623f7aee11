import LiveSurface.Proofs.Number.Range

/-!
# The binary64 number of a whole number

The binary64 number that a whole number becomes is a whole number again, and lies within half of
the last of its 53 bits (`toInt?_of_ofInt?`). It is the same number exactly where binary64 has this
number, as it does up to 53 bits (`exact_of_natAbs_le`).
-/
namespace LiveSurface.Double

/-- A quotient is rounded by at most one half. -/
theorem roundQuotient_near (num : Nat) {den : Nat} (positive : 0 < den) :
    2 * num ≤ 2 * (roundQuotient num den * den) + den ∧
      2 * (roundQuotient num den * den) ≤ 2 * num + den := by
  have whole := Nat.div_add_mod' num den
  have rest := Nat.mod_lt num positive
  have next : (num / den + 1) * den = num / den * den + den := Nat.succ_mul ..
  simp only [roundQuotient]
  split
  · omega
  · split
    · omega
    · -- exactly in the middle, so that either neighbour is as near
      rcases Nat.mod_two_eq_zero_or_one (num / den) with even | odd
      · rw [even, Nat.add_zero]
        omega
      · rw [odd]
        omega

theorem toInt?_of_ofParts {negative : Bool} {m e : Nat} (positive : m ≠ 0)
    {d : Double} (made : ofParts negative m e = d) (finite : ∀ sign, d ≠ .infinite sign) :
    d.toInt? = some (signed negative (m * Nat.pow 2 e)) := by
  obtain ⟨o, k, odd, rfl⟩ := exists_odd_mul positive
  unfold ofParts at made
  split at made
  · subst made
    have exponent : (0 : Int) ≤ e + k := by omega
    simp only [toInt?, oddForm_mul_pow odd, exponent, ↓reduceIte]
    have whole : ((e : Int) + k).toNat = k + e := by omega
    rw [whole, pow_two_add, Nat.mul_assoc]
  · exact absurd made.symm (finite negative)

theorem natAbs_sub_signed (n : Int) {a b : Nat} (below : 2 * n.natAbs ≤ 2 * a + b)
    (above : 2 * a ≤ 2 * n.natAbs + b) : 2 * (n - signed (n < 0) a).natAbs ≤ b := by
  by_cases negative : n < 0
  · simp only [signed, negative, decide_true, ↓reduceIte]
    omega
  · simp only [signed, negative, decide_false, Bool.false_eq_true, ↓reduceIte]
    omega

/-- The binary64 number of a whole number is whole, it is the same number exactly if binary64 has
that number, and it is at most half of the last of 53 bits away. -/
theorem toInt?_of_ofInt? {n : Int} {d : Double} (made : ofInt? n = some d) :
    ∃ m, d.toInt? = some m ∧ (m = n ↔ Exact n) ∧
      2 * (n - m).natAbs ≤ Nat.pow 2 (n.natAbs.log2 - 52) := by
  have near : ∃ m, d.toInt? = some m ∧
      2 * (n - m).natAbs ≤ Nat.pow 2 (n.natAbs.log2 - 52) := by
    unfold ofInt? at made
    split at made
    · next canonical =>
      refine ⟨n, ?_, by simp⟩
      cases made
      by_cases zero : n = 0
      · subst zero
        simp [toInt?, oddForm, signed]
      · obtain ⟨o, k, odd, split⟩ := exists_odd_mul (Int.natAbs_ne_zero.mpr zero)
        have form : oddForm n.natAbs 0 = (o, 0 + (k : Int)) := by rw [split, oddForm_mul_pow odd]
        have exponent : (0 : Int) ≤ 0 + k := by omega
        simp only [toInt?, form, exponent, ↓reduceIte]
        rw [Int.zero_add, Int.toNat_natCast, ← split, signed_natAbs]
    · next rounded =>
      have long := le_log2_of_not_canonical rounded
      rw [ofRatio_one long] at made
      have unit : 0 < Nat.pow 2 (n.natAbs.log2 - 52) := Nat.pow_pos (by decide)
      have nearest := roundQuotient_near n.natAbs unit
      obtain ⟨least, most⟩ := step_bounds long
      obtain ⟨full, -⟩ := roundQuotient_step_bounds unit least most
      refine ⟨_, ?_, natAbs_sub_signed n nearest.1 nearest.2⟩
      split at made
      · cases made
      · next finite =>
        cases made
        exact toInt?_of_ofParts (by omega) rfl finite
  obtain ⟨m, whole, close⟩ := near
  refine ⟨m, whole, ⟨?_, ?_⟩, close⟩
  · rintro rfl
    exact ⟨d, whole⟩
  · intro exact
    obtain ⟨d', made', whole'⟩ := ofInt?_of_exact exact
    rw [made] at made'
    cases made'
    rw [whole] at whole'
    exact Option.some.inj whole'

/-- Binary64 has every whole number of up to 53 bits, and the next power of two. -/
theorem exact_of_natAbs_le {n : Int} (short : n.natAbs ≤ Nat.pow 2 53) : Exact n := by
  by_cases zero : n = 0
  · subst zero
    exact ⟨.zero false, rfl⟩
  · have positive : n.natAbs ≠ 0 := Int.natAbs_ne_zero.mpr zero
    obtain ⟨o, k, odd, split⟩ := exists_odd_mul positive
    have inside : n.natAbs * Nat.pow 2 0 < top := by
      have bits : Nat.pow 2 53 < top := by decide +kernel
      rw [show Nat.pow 2 0 = 1 from rfl, Nat.mul_one]
      exact Nat.lt_of_le_of_lt short bits
    have canonical : Canonical o k := by
      have reached := (canonical_oddForm_iff positive short 0).mpr inside
      rw [split, oddForm_mul_pow odd] at reached
      simpa using reached
    refine ⟨.finite (n < 0) o k canonical, ?_⟩
    simp only [toInt?, Int.natCast_nonneg, ↓reduceIte, Int.toNat_natCast]
    rw [← split, signed_natAbs]

end LiveSurface.Double
