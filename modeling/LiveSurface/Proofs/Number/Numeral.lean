import LiveSurface.Number.Numeral

/-!
# Numerals of natural numbers

The decimal digits of a natural number are read as that number (`whole_toString`), up to the most
digits that are read at all.
-/
namespace LiveSurface

namespace Text

theorem toList_toString (n : Nat) : (toString n).toList = Nat.toDigits 10 n := by
  rw [Nat.toString_eq_repr, Nat.toList_repr]

theorem isDigit_of_mem_toString {n : Nat} {c : Char} (member : c ∈ (toString n).toList) :
    c.isDigit :=
  Nat.isDigit_of_mem_toDigits (by decide) (by decide) (toList_toString n ▸ member)

theorem toString_ne_nil (n : Nat) : (toString n).toList ≠ [] := by
  rw [toList_toString]
  exact Nat.toDigits_ne_nil

theorem toNat_of_isDigit {c : Char} (digit : c.isDigit) : 48 ≤ c.toNat ∧ c.toNat ≤ 57 := by
  simpa [Char.isDigit, UInt32.le_iff_toNat_le] using digit

/-- Digits are read as the number that they write. -/
theorem numeral_eq_ofDigitChars {cs : List Char} (digits : ∀ c ∈ cs, c.isDigit) (start : Nat) :
    numeral start cs = Nat.ofDigitChars 10 cs start := by
  induction cs generalizing start with
  | nil => rfl
  | cons c rest ih =>
    rw [List.forall_mem_cons] at digits
    have value : asciiDigit? c = some (c.toNat - '0'.toNat) := if_pos (toNat_of_isDigit digits.1)
    have first : numeral start (c :: rest) = numeral (10 * start + (c.toNat - '0'.toNat)) rest := by
      rw [numeral, List.foldl_cons, value]
      rfl
    rw [first, ih digits.2]
    rfl

end Text

namespace Numeral

open Text

variable {cs : List Char}

theorem toAscii_of_isDigit {c : Char} (digit : c.isDigit) : toAscii c = c := by
  have := toNat_of_isDigit digit
  exact if_pos (by omega)

theorem isAsciiBlank_of_isDigit {c : Char} (digit : c.isDigit) : isAsciiBlank c = false := by
  have range := toNat_of_isDigit digit
  refine Bool.eq_false_iff.mpr fun blank => ?_
  rcases (Bool.or_eq_true _ _).mp blank with space | control
  · rw [eq_of_beq space] at range
    exact absurd range (by decide)
  · have low : c ≤ '\r' := of_decide_eq_true ((Bool.and_eq_true _ _).mp control).2
    have : c.toNat ≤ 13 := low
    omega

theorem ungroup?_of_isDigit (digits : ∀ c ∈ cs, c.isDigit) (after : Bool) :
    ungroup? after cs = some cs := by
  induction cs generalizing after with
  | nil => rfl
  | cons c rest ih =>
    rw [List.forall_mem_cons] at digits
    have digit : c ≠ '_' := by
      rintro rfl
      exact absurd digits.1 (by decide)
    rw [ungroup?, ih digits.2, Option.map_some]
    simpa using digit

/-- A row of digits that is not too long is read as the number that it writes. -/
theorem wholeAscii_of_isDigit (digits : ∀ c ∈ cs, c.isDigit) (some' : cs ≠ [])
    (short : cs.length ≤ maxDigits) : wholeAscii cs = .ok (Nat.ofDigitChars 10 cs 0) := by
  have trimmed : trimBy isAsciiBlank cs = cs :=
    trimBy_eq_self_iff.mpr
      ⟨fun c first => isAsciiBlank_of_isDigit (digits c (List.mem_of_mem_head? first)),
        fun c last => isAsciiBlank_of_isDigit (digits c (List.mem_of_getLast? last))⟩
  have unsigned : sign cs = (false, cs) := by
    unfold sign
    split
    · exact absurd (digits '-' List.mem_cons_self) (by decide)
    · exact absurd (digits '+' List.mem_cons_self) (by decide)
    · rfl
  have run : cs.takeWhile (fun c => c.isDigit || c == '_') = cs := by
    have all : ∀ c ∈ cs, (c.isDigit || c == '_') = true := fun c member => by
      rw [digits c member, Bool.true_or]
    have whole := @List.takeWhile_append_of_pos Char _ cs [] all
    simpa using whole
  simp only [wholeAscii, trimmed, unsigned, run, ungroup?_of_isDigit digits]
  rw [if_neg (by omega), if_neg (by simpa using some'), numeral_eq_ofDigitChars digits]
  rfl

theorem whole_toString {n : Nat} (short : (toString n).length ≤ maxDigits) :
    whole (toString n) = .ok n := by
  have digits : ∀ c ∈ (toString n).toList, c.isDigit := fun c => isDigit_of_mem_toString
  have ascii : (toString n).toList.map toAscii = (toString n).toList :=
    (List.map_congr_left fun c member => toAscii_of_isDigit (digits c member)).trans (List.map_id _)
  rw [whole, ascii, wholeAscii_of_isDigit digits (toString_ne_nil n) short, toList_toString,
    Nat.ofDigitChars_ten_toDigits]

end Numeral
end LiveSurface
