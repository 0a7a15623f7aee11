import LiveSurface.Proofs.Number.Exact
import Mathlib.Data.Nat.Factorization.Basic

/-!
# The range of binary64

A whole number has a nearest binary64 number as long as its magnitude is below
`2 ^ 1024 - 2 ^ 970`, the middle between the largest binary64 number and the first power of two
that is out of range (`ofInt?_isSome_iff`). From the middle on, the significand is rounded up to
54 bits.
-/
namespace LiveSurface.Double

/-- The first power of two out of range. -/
def top : Nat := Nat.pow 2 1024

/-- Half the distance between the largest binary64 numbers. -/
def halfStep : Nat := Nat.pow 2 970

/-- The least magnitude that is rounded out of range. -/
def overflow : Nat := top - halfStep

/-- There are `2 ^ 54` half steps up to the first power of two out of range. -/
theorem top_eq : top = 18014398509481984 * halfStep := by decide +kernel

theorem overflow_eq : overflow = 18014398509481983 * halfStep := by
  have := top_eq
  unfold overflow
  omega

theorem pow_two_add (j k : Nat) : Nat.pow 2 (j + k) = Nat.pow 2 j * Nat.pow 2 k := by
  rw [Nat.pow_eq, Nat.pow_eq, Nat.pow_eq, Nat.pow_add]

theorem halfStep_pos : 0 < halfStep := by
  unfold halfStep
  generalize 970 = k
  exact Nat.pow_pos (by decide)

theorem pow_two_steps (e : Nat) :
    Nat.pow 2 e ≤ halfStep ∨ Nat.pow 2 e = 2 * halfStep ∨ 4 * halfStep ≤ Nat.pow 2 e := by
  unfold halfStep
  generalize 970 = k
  rcases Nat.lt_trichotomy e (k + 1) with small | rfl | large
  · exact .inl (Nat.pow_le_pow_right (by decide) (by omega))
  · exact .inr (.inl ((pow_two_add k 1).trans (Nat.mul_comm ..)))
  · have next : Nat.pow 2 (2 + k) ≤ Nat.pow 2 e := Nat.pow_le_pow_right (by decide) (by omega)
    rw [pow_two_add] at next
    exact .inr (.inr next)

theorem add_log2_lt_iff {m : Nat} (positive : m ≠ 0) (k b : Nat) :
    k + m.log2 < b ↔ m * Nat.pow 2 k < Nat.pow 2 b := by
  have unit : 0 < Nat.pow 2 k := Nat.pow_pos (by decide)
  by_cases room : k ≤ b
  · have parts : Nat.pow 2 b = Nat.pow 2 (b - k) * Nat.pow 2 k := by
      rw [← pow_two_add, Nat.sub_add_cancel room]
    rw [parts, Nat.mul_lt_mul_right unit, Nat.pow_eq, ← Nat.log2_lt positive]
    omega
  · have larger : Nat.pow 2 b ≤ Nat.pow 2 k := Nat.pow_le_pow_right (by decide) (by omega)
    have least : Nat.pow 2 k ≤ m * Nat.pow 2 k := Nat.le_mul_of_pos_left _ (by omega)
    omega

/-- A multiple below a larger power of two stays below it by a whole step. -/
theorem add_step_le {m k b : Nat} (room : k ≤ b) (below : m * Nat.pow 2 k < Nat.pow 2 b) :
    m * Nat.pow 2 k + Nat.pow 2 k ≤ Nat.pow 2 b := by
  have parts : Nat.pow 2 b = Nat.pow 2 (b - k) * Nat.pow 2 k := by
    rw [← pow_two_add, Nat.sub_add_cancel room]
  rw [parts] at below ⊢
  rw [← Nat.succ_mul]
  exact Nat.mul_le_mul_right _ (Nat.lt_of_mul_lt_mul_right below)

theorem lt_top_iff {m : Nat} (positive : m ≠ 0) (k : Nat) :
    k + m.log2 < 1024 ↔ m * Nat.pow 2 k < top := by
  unfold top
  generalize 1024 = b
  exact add_log2_lt_iff positive k b

theorem add_step_le_top {m k : Nat} (room : k ≤ 1024) (below : m * Nat.pow 2 k < top) :
    m * Nat.pow 2 k + Nat.pow 2 k ≤ top := by
  unfold top at below ⊢
  generalize 1024 = b at room below ⊢
  exact add_step_le room below

theorem roundQuotient_bounds (num den : Nat) :
    num / den ≤ roundQuotient num den ∧ roundQuotient num den ≤ num / den + 1 := by
  simp only [roundQuotient]
  have := Nat.mod_two_eq_zero_or_one (num / den)
  split
  · omega
  · split <;> omega

/-- A quotient is rounded up to an even number from the middle below it on. -/
theorem roundQuotient_lt_iff {num den b : Nat} (positive : 0 < den) (even : b % 2 = 0) :
    roundQuotient num den < b ↔ 2 * num + den < 2 * (b * den) := by
  have bounds := roundQuotient_bounds num den
  have whole := Nat.div_add_mod' num den
  have rest := Nat.mod_lt num positive
  rcases Nat.lt_trichotomy (num / den + 1) b with below | last | beyond
  · have := Nat.mul_le_mul_right den (show num / den + 2 ≤ b by omega)
    rw [Nat.add_mul] at this
    omega
  · -- the number below `b` is odd, so that a half goes up
    have product : b * den = num / den * den + den := by rw [← last, Nat.add_mul, Nat.one_mul]
    simp only [roundQuotient]
    split
    · omega
    · split <;> omega
  · have := Nat.mul_le_mul_right den (show b ≤ num / den by omega)
    omega

theorem exists_odd_mul {m : Nat} (positive : m ≠ 0) :
    ∃ o k, o % 2 = 1 ∧ m = o * Nat.pow 2 k := by
  obtain ⟨k, o, odd, split⟩ := Nat.exists_eq_two_pow_mul_odd positive
  exact ⟨o, k, Nat.odd_iff.mp odd, split.trans (Nat.mul_comm ..)⟩

/-- A significand of at most 53 bits, or the next power of two, with an exponent that is not
negative, is in range when its value is below the first power of two out of range. -/
theorem canonical_oddForm_iff {m : Nat} (positive : m ≠ 0) (short : m ≤ Nat.pow 2 53) (e : Nat) :
    Canonical (oddForm m e).1 (oddForm m e).2 ↔ m * Nat.pow 2 e < top := by
  obtain ⟨o, k, odd, rfl⟩ := exists_odd_mul positive
  have narrow : o < Nat.pow 2 53 := by
    have unit : 0 < Nat.pow 2 k := Nat.pow_pos (by decide)
    have least : o ≤ o * Nat.pow 2 k := Nat.le_mul_of_pos_right _ unit
    have even : Nat.pow 2 53 % 2 = 0 := by decide
    omega
  rw [oddForm_mul_pow odd, Nat.mul_assoc, ← pow_two_add, ← lt_top_iff (by omega)]
  simp only [Canonical, odd, narrow, true_and]
  omega

/-- A number that needs no rounding lies below the overflow: from the largest numbers on it is a
whole step away from the first power of two out of range. -/
theorem lt_overflow_of_canonical {m : Nat}
    (canonical : Canonical (oddForm m 0).1 (oddForm m 0).2) : m < overflow := by
  have unit := halfStep_pos
  have equal := top_eq
  rw [overflow_eq]
  by_cases zero : m = 0
  · omega
  · obtain ⟨o, k, odd, rfl⟩ := exists_odd_mul zero
    simp only [oddForm_mul_pow odd] at canonical
    rcases canonical with ⟨none, -⟩ | ⟨-, narrow, -, room⟩
    · omega
    · have inside : o * Nat.pow 2 k < top := (lt_top_iff (by omega) k).mp (by omega)
      have step := add_step_le_top (show k ≤ 1024 by omega) inside
      rcases pow_two_steps k with small | last | large
      · have bits : Nat.pow 2 53 = 9007199254740992 := rfl
        have rest := Nat.mul_le_mul (show o ≤ 9007199254740992 by omega) small
        omega
      · omega
      · omega

/-- A number of more than 53 bits is rounded to 53 bits. -/
theorem ofRatio_one {n : Nat} (long : 52 ≤ n.log2) (negative : Bool) :
    ofRatio negative n 1 =
      ofParts negative (roundQuotient n (Nat.pow 2 (n.log2 - 52))) (n.log2 - 52 : Nat) := by
  have positive : n ≠ 0 := by
    rintro rfl
    simp at long
  have reaches : Nat.pow 2 n.log2 ≤ n := Nat.log2_self_le positive
  have single : Nat.log2 1 = 0 := rfl
  have floor : floorLog2 n 1 = n.log2 := by
    simp only [floorLog2, single, Int.natCast_zero, Int.sub_zero, Int.natCast_nonneg,
      Int.toNat_natCast, Nat.one_mul, reaches, ↓reduceIte]
  have exponent : max (floorLog2 n 1 - 52) (-1074) = ((n.log2 - 52 : Nat) : Int) := by
    rw [floor]
    omega
  simp only [ofRatio, if_neg positive, exponent, Int.natCast_nonneg, ↓reduceIte, Int.toNat_natCast,
    Nat.one_mul]

/-- A number that is rounded has 53 bits in steps of its last bit: it lies from `2 ^ 52` to below
`2 ^ 53` of them. -/
theorem step_bounds {n : Nat} (long : 52 ≤ n.log2) :
    4503599627370496 * Nat.pow 2 (n.log2 - 52) ≤ n ∧
      n < 9007199254740992 * Nat.pow 2 (n.log2 - 52) := by
  have positive : n ≠ 0 := by
    rintro rfl
    simp at long
  have least : Nat.pow 2 n.log2 ≤ n := Nat.log2_self_le positive
  have most : n < Nat.pow 2 (n.log2 + 1) := Nat.lt_log2_self
  obtain ⟨e, exponent⟩ : ∃ e, n.log2 = 52 + e := ⟨n.log2 - 52, by omega⟩
  rw [exponent, pow_two_add] at least
  rw [exponent, Nat.add_right_comm, pow_two_add] at most
  rw [exponent, Nat.add_sub_cancel_left]
  exact ⟨least, most⟩

variable {n step half : Nat}

theorem roundQuotient_step_bounds (positive : 0 < step) (least : 4503599627370496 * step ≤ n)
    (most : n < 9007199254740992 * step) :
    4503599627370496 ≤ roundQuotient n step ∧ roundQuotient n step ≤ 9007199254740992 := by
  have bounds := roundQuotient_bounds n step
  have short : n / step < 9007199254740992 := (Nat.div_lt_iff_lt_mul positive).mpr most
  have full : 4503599627370496 ≤ n / step := (Nat.le_div_iff_mul_le positive).mpr least
  omega

/-- Rounding to 53 bits leads out of range exactly from the overflow on. Only where the step is that
of the largest numbers does this depend on the rounding. -/
theorem roundQuotient_mul_lt_iff (positive : 0 < step) (least : 4503599627370496 * step ≤ n)
    (most : n < 9007199254740992 * step)
    (steps : step ≤ half ∨ step = 2 * half ∨ 4 * half ≤ step) :
    roundQuotient n step * step < 18014398509481984 * half ↔ n < 18014398509481983 * half := by
  obtain ⟨full, short⟩ := roundQuotient_step_bounds positive least most
  rcases steps with small | rfl | large
  · have rounded := Nat.mul_le_mul short small
    omega
  · have even : 9007199254740992 % 2 = 0 := by decide
    have up : roundQuotient n (2 * half) < 9007199254740992 ↔
        2 * n + 2 * half < 2 * (9007199254740992 * (2 * half)) := roundQuotient_lt_iff positive even
    have scaled : roundQuotient n (2 * half) * (2 * half) < 9007199254740992 * (2 * half) ↔
        roundQuotient n (2 * half) < 9007199254740992 := Nat.mul_lt_mul_right positive
    omega
  · have rounded := Nat.mul_le_mul full large
    omega

/-- A number that is rounded stays in range below the overflow. -/
theorem canonical_rounded_iff (long : 52 ≤ n.log2) :
    Canonical (oddForm (roundQuotient n (Nat.pow 2 (n.log2 - 52))) (n.log2 - 52 : Nat)).1
      (oddForm (roundQuotient n (Nat.pow 2 (n.log2 - 52))) (n.log2 - 52 : Nat)).2 ↔
      n < overflow := by
  have unit : 0 < Nat.pow 2 (n.log2 - 52) := Nat.pow_pos (by decide)
  obtain ⟨least, most⟩ := step_bounds long
  obtain ⟨full, short⟩ := roundQuotient_step_bounds unit least most
  rw [canonical_oddForm_iff (by omega) short, top_eq, overflow_eq]
  exact roundQuotient_mul_lt_iff unit least most (pow_two_steps _)

/-- A number that needs rounding has 53 bits at least. -/
theorem le_log2_of_not_canonical {m : Nat}
    (rounded : ¬ Canonical (oddForm m 0).1 (oddForm m 0).2) : 52 ≤ m.log2 := by
  have positive : m ≠ 0 := by
    rintro rfl
    exact rounded (.inl (by simp [oddForm]))
  by_contra short
  have bits : m < Nat.pow 2 52 := (Nat.log2_lt positive).mp (by omega)
  have small : m ≤ Nat.pow 2 53 := by
    have double : Nat.pow 2 53 = 2 * Nat.pow 2 52 := rfl
    omega
  have low : m * Nat.pow 2 0 < top := (lt_top_iff positive 0).mp (by omega)
  exact rounded ((canonical_oddForm_iff positive small 0).mpr low)

/-- A whole number has a nearest binary64 number exactly when it lies below the overflow. -/
theorem ofInt?_isSome_iff (n : Int) : (ofInt? n).isSome ↔ n.natAbs < overflow := by
  unfold ofInt?
  generalize n.natAbs = m
  by_cases exact : Canonical (oddForm m 0).1 (oddForm m 0).2
  · simpa [exact] using lt_overflow_of_canonical exact
  · have long := le_log2_of_not_canonical exact
    rw [dif_neg exact, ofRatio_one long, ofParts, ← canonical_rounded_iff long]
    generalize roundQuotient m (Nat.pow 2 (m.log2 - 52)) = significand
    generalize ((m.log2 - 52 : Nat) : Int) = exponent
    by_cases fits : Canonical (oddForm significand exponent).1 (oddForm significand exponent).2
    · simp [fits]
    · simp [fits]

theorem overflow_le_pow_ten : overflow ≤ (Int.pow 10 309).natAbs := by decide +kernel

end LiveSurface.Double
