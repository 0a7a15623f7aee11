import LiveSurface.Text.Lowercase

/-!
# Words in any case

A word of ASCII letters other than k is the small form of a text in all scripts exactly if it is its
small form in ASCII (`lowered_eq_iff`): no letter outside ASCII has a small letter in such a word.
-/
namespace LiveSurface.Text

/-- The characters of ASCII other than k, which is the small letter of the sign of Kelvin too. -/
def Plain (c : Char) : Prop := c.toNat < 128 ∧ c ≠ 'k'

instance : DecidablePred Plain := fun _ => inferInstanceAs (Decidable (_ ∧ _))

/-- A word of such characters. -/
def PlainWord (word : String) : Prop := ∀ c ∈ word.toList, Plain c

instance : DecidablePred PlainWord := fun word => List.decidableBAll Plain word.toList

/-- A run beyond ASCII leads to characters beyond ASCII, but for the sign of Kelvin. -/
theorem small_of_run {first last step : Nat} {distance : Int}
    (run : (first, last, step, distance) ∈ capitalRuns) {n : Nat} (least : first ≤ n)
    (most : n ≤ last) (foreign : 128 ≤ n) :
    (n + distance).toNat = 'k'.toNat ∨
      128 ≤ (n + distance).toNat ∧ Nat.isValidChar (n + distance).toNat := by
  have table : ∀ run ∈ capitalRuns, run.2.1 < 128 ∨
      (run.1 = run.2.1 ∧ run.1 + run.2.2.2 = 'k'.toNat) ∨ 128 ≤ run.1 + run.2.2.2 ∧
        (run.2.1 + run.2.2.2 < 0xd800 ∨
          0xdfff < run.1 + run.2.2.2 ∧ run.2.1 + run.2.2.2 < 0x110000) := by
    decide +kernel
  have entry := table _ run
  simp only at entry
  unfold Nat.isValidChar
  omega

theorem exists_not_plain {c : Char} (foreign : 128 ≤ c.toNat) : ∃ l ∈ small c, ¬ Plain l := by
  unfold small
  rw [if_neg (by omega)]
  split
  · exact ⟨'\u0307', by simp, by decide⟩
  · dsimp only
    split
    · next first last step distance found =>
      refine ⟨_, List.mem_singleton_self _, ?_⟩
      have range := List.find?_some found
      simp only [Bool.and_eq_true, decide_eq_true_eq] at range
      rcases small_of_run (List.mem_of_find?_eq_some found) range.1.1 range.1.2 foreign with
        kelvin | ⟨outside, valid⟩
      · rw [kelvin]
        decide
      · rintro ⟨inside, -⟩
        rw [Char.ofNat, dif_pos valid] at inside
        exact absurd outside (Nat.not_le_of_lt inside)
    · exact ⟨c, List.mem_singleton_self _, fun plain => by have := plain.1; omega⟩

theorem smallFrom_eq_iff {word : List Char} (plain : ∀ c ∈ word, Plain c) (before cs : List Char) :
    smallFrom before cs = word ↔ cs.map Char.toLower = word := by
  induction cs generalizing before word with
  | nil => rfl
  | cons c rest ih =>
    by_cases ascii : c.toNat < 128
    · have other : c ≠ '\u03a3' := by
        rintro rfl
        exact absurd ascii (by decide)
      have letter : smallFrom before (c :: rest) = c.toLower :: smallFrom (c :: before) rest := by
        simp [smallFrom, small, other, ascii]
      rw [letter, List.map_cons]
      cases word with
      | nil => simp
      | cons first others =>
        rw [List.cons.injEq, List.cons.injEq, ih (List.forall_mem_cons.mp plain).2]
    · -- the first letter is foreign on both sides
      have foreign : 128 ≤ c.toNat := by omega
      refine iff_of_false ?_ ?_
      · rintro rfl
        rw [smallFrom] at plain
        split at plain
        · obtain ⟨l, member, strange⟩ := exists_not_plain foreign
          exact strange (plain l (List.mem_append_left _ member))
        · split at plain
          · exact absurd (plain _ List.mem_cons_self) (by decide)
          · exact absurd (plain _ List.mem_cons_self) (by decide)
      · rintro rfl
        have kept : c.toLower = c := dif_neg fun capital => by
          have : c.toNat ≤ 90 := capital.2
          omega
        have inside := (plain c.toLower List.mem_cons_self).1
        rw [kept] at inside
        omega

/-- A text is such a word in small letters exactly if it is in the letters of ASCII. -/
theorem lowered_eq_iff {s word : String} (plain : PlainWord word) :
    lowered s = word ↔ s.map Char.toLower = word := by
  rw [← String.toList_inj, ← String.toList_inj, lowered, String.toList_ofList, String.toList_map]
  exact smallFrom_eq_iff plain [] s.toList

/-- Whether a text in small letters is one of some such words is seen in the letters of ASCII. -/
theorem lowered_mem_iff {words : List String} (plain : ∀ word ∈ words, PlainWord word)
    (s : String) : lowered s ∈ words ↔ s.map Char.toLower ∈ words := by
  constructor
  · intro member
    rwa [(lowered_eq_iff (plain _ member)).mp rfl]
  · intro member
    rwa [(lowered_eq_iff (plain _ member)).mpr rfl]

end LiveSurface.Text
