import Mathlib.Data.List.Forall2
import Mathlib.Data.Nat.Digits.Defs
import LiveSurface.Proofs.Number.Numeral
import LiveSurface.Proofs.Text.Lines
import LiveSurface.Value.Conversion

/-!
# How whole numbers are spelt

A whole number is spelt by digits in groups, between which single underscores stand, after an
optional sign and between blanks (`Spells`). Exactly the spellings are read, each as the number that
its digits write: in text blanks and digits of every script count (`whole_eq_ok_iff`), in bytes
those of ASCII alone (`wholeAscii_byteNumeral_eq_ok_iff`).
-/
namespace LiveSurface.Numeral

open Text

/-- Which characters are blank, and which are digits of what value. -/
structure Script where
  isBlank : Char → Bool
  digit? : Char → Option Nat

/-- The blanks and the digits of ASCII. -/
def Script.ascii : Script := ⟨isAsciiBlank, asciiDigit?⟩

/-- The blanks and the digits of all scripts. -/
def Script.every : Script := ⟨isWhiteSpace, digitValue?⟩

/-- Digits with their values. An underscore may stand between two of them. -/
inductive Grouped (script : Script) : List Char → List Nat → Prop
  | last {c : Char} {d : Nat} (digit : script.digit? c = some d) : Grouped script [c] [d]
  | next {c : Char} {d : Nat} {cs : List Char} {ds : List Nat} (digit : script.digit? c = some d)
      (rest : Grouped script cs ds) : Grouped script (c :: cs) (d :: ds)
  | apart {c : Char} {d : Nat} {cs : List Char} {ds : List Nat} (digit : script.digit? c = some d)
      (rest : Grouped script cs ds) : Grouped script (c :: '_' :: cs) (d :: ds)

/-- What may stand before the digits. -/
def IsSign (cs : List Char) : Prop := cs = [] ∨ cs = ['+'] ∨ cs = ['-']

/-- The whole number that is spelt by digits in groups, not more than are read. -/
inductive Spells (script : Script) : List Char → Int → Prop
  | mk {before sign body after : List Char} {digits : List Nat}
      (blank_before : ∀ c ∈ before, script.isBlank c) (signs : IsSign sign)
      (grouped : Grouped script body digits) (short : digits.length ≤ maxDigits)
      (blank_after : ∀ c ∈ after, script.isBlank c) :
      Spells script (before ++ (sign ++ (body ++ after)))
        (Double.signed (sign == ['-']) (Nat.ofDigits 10 digits.reverse))

theorem isSome_asciiDigit? (c : Char) : (asciiDigit? c).isSome = c.isDigit := by
  rw [Bool.eq_iff_iff]
  constructor
  · intro digit
    unfold asciiDigit? at digit
    split at digit
    · next range =>
      have low : 48 ≤ c.toNat := range.1
      have high : c.toNat ≤ 57 := range.2
      simpa [Char.isDigit, UInt32.le_iff_toNat_le] using ⟨low, high⟩
    · cases digit
  · intro digit
    have range : '0' ≤ c ∧ c ≤ '9' := toNat_of_isDigit digit
    simp [asciiDigit?, range]

theorem isDigit_of_asciiDigit? {c : Char} {d : Nat} (digit : asciiDigit? c = some d) :
    c.isDigit := by
  rw [← isSome_asciiDigit?, digit]
  rfl

/-! ## Groups of digits -/

/-- Digits with their values, without anything between them. -/
abbrev Valued : List Char → List Nat → Prop := List.Forall₂ fun c d => asciiDigit? c = some d

theorem Grouped.head {script : Script} {cs : List Char} {ds : List Nat}
    (grouped : Grouped script cs ds) :
    ∃ c d rest, cs = c :: rest ∧ script.digit? c = some d := by
  cases grouped with
  | last digit => exact ⟨_, _, _, rfl, digit⟩
  | next digit _ => exact ⟨_, _, _, rfl, digit⟩
  | apart digit _ => exact ⟨_, _, _, rfl, digit⟩

theorem Grouped.all {cs : List Char} {ds : List Nat} (grouped : Grouped .ascii cs ds) :
    ∀ c ∈ cs, (c.isDigit || c == '_') = true := by
  induction grouped with
  | last digit => simpa using Or.inl (isDigit_of_asciiDigit? digit)
  | next digit _ ih =>
    exact List.forall_mem_cons.mpr ⟨by simp [isDigit_of_asciiDigit? digit], ih⟩
  | apart digit _ ih =>
    refine List.forall_mem_cons.mpr ⟨by simp [isDigit_of_asciiDigit? digit], ?_⟩
    exact List.forall_mem_cons.mpr ⟨by simp, ih⟩

theorem Grouped.getLast {cs : List Char} {ds : List Nat} (grouped : Grouped .ascii cs ds) :
    ∀ c ∈ cs.getLast?, c.isDigit := by
  induction grouped with
  | last digit => simpa using isDigit_of_asciiDigit? digit
  | next digit rest ih =>
    obtain ⟨c, d, cs, rfl, -⟩ := rest.head
    rwa [List.getLast?_cons_cons]
  | apart digit rest ih =>
    obtain ⟨c, d, cs, rfl, -⟩ := rest.head
    rwa [List.getLast?_cons_cons, List.getLast?_cons_cons]

theorem ungroup?_cons {c : Char} (other : c ≠ '_') (after : Bool) (rest : List Char) :
    ungroup? after (c :: rest) = (ungroup? c.isDigit rest).map (c :: ·) := by
  rw [ungroup?]
  exact fun same => absurd same other

theorem ungroup?_of_grouped {cs : List Char} {ds : List Nat} (grouped : Grouped .ascii cs ds)
    (after : Bool) : ∃ digits, ungroup? after cs = some digits ∧ Valued digits ds := by
  have other {c : Char} {d : Nat} (digit : asciiDigit? c = some d) : c ≠ '_' := by
    rintro rfl
    cases digit
  induction grouped generalizing after with
  | @last c d digit =>
    exact ⟨[c], by simp [ungroup?_cons (other digit), ungroup?], .cons digit .nil⟩
  | @next c d cs ds digit rest ih =>
    obtain ⟨digits, read, valued⟩ := ih c.isDigit
    exact ⟨c :: digits, by rw [ungroup?_cons (other digit), read, Option.map_some],
      .cons digit valued⟩
  | @apart c d cs ds digit rest ih =>
    obtain ⟨digits, read, valued⟩ := ih false
    obtain ⟨first, _, more, rfl, begins⟩ := rest.head
    refine ⟨c :: digits, ?_, .cons digit valued⟩
    rw [ungroup?_cons (other digit), isDigit_of_asciiDigit? digit, ungroup?,
      isDigit_of_asciiDigit? begins]
    simp [read]

/-- What is left of groups are their digits. After a digit an underscore may come first. -/
theorem grouped_of_ungroup? {after : Bool} {cs digits : List Char}
    (run : ∀ c ∈ cs, (c.isDigit || c == '_') = true) (some_char : cs ≠ [])
    (read : ungroup? after cs = some digits) :
    ∃ ds, Valued digits ds ∧ (Grouped .ascii cs ds ∨
      after = true ∧ ∃ rest, cs = '_' :: rest ∧ Grouped .ascii rest ds) := by
  fun_induction ungroup? after cs generalizing digits with
  | case1 => exact absurd rfl some_char
  | case2 after d more digit ih =>
    obtain ⟨-, run⟩ := List.forall_mem_cons.mp run
    obtain ⟨ds, valued, grouped | ⟨none_before, -⟩⟩ := ih run nofun read
    · exact ⟨ds, valued, .inr ⟨(Bool.and_eq_true_iff.mp digit).1, _, rfl, grouped⟩⟩
    · cases none_before
  | case3 => cases read
  | case4 => cases read
  | case5 after c rest other ih =>
    obtain ⟨first, run⟩ := List.forall_mem_cons.mp run
    obtain ⟨others, ungrouped, rfl⟩ := Option.map_eq_some_iff.mp read
    have isDigit : c.isDigit := by simpa [show c ≠ '_' from other] using first
    obtain ⟨d, digit⟩ := Option.isSome_iff_exists.mp ((isSome_asciiDigit? c).trans isDigit)
    by_cases end_here : rest = []
    · subst end_here
      cases ungrouped
      exact ⟨[d], .cons digit .nil, .inl (.last digit)⟩
    · obtain ⟨ds, valued, grouped | ⟨-, rest, rfl, grouped⟩⟩ := ih run end_here ungrouped
      · exact ⟨d :: ds, .cons digit valued, .inl (.next digit grouped)⟩
      · exact ⟨d :: ds, .cons digit valued, .inl (.apart digit grouped)⟩

/-- Digits write the number that has them in base ten. -/
theorem numeral_of_valued {digits : List Char} {ds : List Nat} (valued : Valued digits ds) :
    numeral 0 digits = Nat.ofDigits 10 ds.reverse := by
  have folded (start : Nat) :
      numeral start digits = ds.foldl (fun n d => d + 10 * n) start := by
    induction valued generalizing start with
    | nil => rfl
    | @cons c d digits ds digit _ ih =>
      rw [List.foldl_cons, ← ih, numeral, List.foldl_cons, digit, Nat.add_comm]
      rfl
  rw [folded, Nat.ofDigits_eq_foldr, List.foldr_reverse]
  rfl

/-! ## Signs and blanks -/

theorem sign_cases (cs : List Char) :
    ∃ first, IsSign first ∧ cs = first ++ (sign cs).2 ∧ (sign cs).1 = (first == ['-']) := by
  unfold sign
  split
  · exact ⟨['-'], .inr (.inr rfl), rfl, rfl⟩
  · exact ⟨['+'], .inr (.inl rfl), rfl, rfl⟩
  · exact ⟨[], .inl rfl, rfl, rfl⟩

theorem sign_append {first body : List Char} (signs : IsSign first)
    (digit : ∀ c ∈ body.head?, c.isDigit) :
    sign (first ++ body) = (first == ['-'], body) := by
  rcases signs with rfl | rfl | rfl
  · unfold sign
    split
    · next rest same =>
      have : '-' ∈ body.head? := by rw [← List.nil_append body, same]; rfl
      exact absurd (digit _ this) (by decide)
    · next rest same =>
      have : '+' ∈ body.head? := by rw [← List.nil_append body, same]; rfl
      exact absurd (digit _ this) (by decide)
    · rfl
  · rfl
  · rfl

theorem exists_trimBy (p : Char → Bool) (cs : List Char) :
    ∃ before after, (∀ c ∈ before, p c) ∧ (∀ c ∈ after, p c) ∧
      cs = before ++ (trimBy p cs ++ after) := by
  refine ⟨cs.takeWhile p, ((cs.dropWhile p).reverse.takeWhile p).reverse,
    fun c member => List.mem_takeWhile_imp member, fun c member =>
      List.mem_takeWhile_imp (List.mem_reverse.mp member), ?_⟩
  rw [trimBy, ← List.reverse_append, List.takeWhile_append_dropWhile, List.reverse_reverse,
    List.takeWhile_append_dropWhile]

theorem spells_of_wholeAscii {cs : List Char} {n : Int} (read : wholeAscii cs = .ok n) :
    Spells .ascii cs n := by
  obtain ⟨before, after, blank_before, blank_after, parts⟩ := exists_trimBy isAsciiBlank cs
  obtain ⟨first, signs, signed, negative⟩ := sign_cases (trimBy isAsciiBlank cs)
  generalize bodyEq : (sign (trimBy isAsciiBlank cs)).2 = body at signed
  simp only [wholeAscii, negative, bodyEq] at read
  split at read
  · cases read
  · next digits ungrouped =>
    split at read
    · cases read
    · next short =>
      split at read
      · cases read
      · next complete =>
        simp only [Bool.or_eq_true, List.isEmpty_iff, decide_eq_true_eq, not_or] at complete
        have whole : body.takeWhile (fun c => c.isDigit || c == '_') = body :=
          (List.takeWhile_prefix _).eq_of_length_le (by omega)
        rw [whole] at ungrouped
        have some_char : body ≠ [] := by
          rintro rfl
          cases ungrouped
          exact complete.1 rfl
        obtain ⟨ds, valued, grouped | ⟨no_digit, -⟩⟩ :=
          grouped_of_ungroup? (List.takeWhile_eq_self_iff.mp whole) some_char ungrouped
        · have few : ds.length ≤ maxDigits := by
            rw [← valued.length_eq]
            omega
          rw [numeral_of_valued valued] at read
          cases read
          rw [parts, signed, List.append_assoc]
          exact .mk blank_before signs grouped few blank_after
        · cases no_digit

theorem wholeAscii_of_spells {cs : List Char} {n : Int} (spells : Spells .ascii cs n) :
    wholeAscii cs = .ok n := by
  obtain @⟨before, first, body, after, ds, blank_before, signs, grouped, short, blank_after⟩ :=
    spells
  obtain ⟨c, d, rest, begins, digit⟩ := grouped.head
  have starts : ∀ c ∈ body.head?, c.isDigit := by
    rw [begins]
    simpa using isDigit_of_asciiDigit? digit
  have ends : ∀ c ∈ (first ++ body).getLast?, isAsciiBlank c = false := fun c member => by
    rw [List.getLast?_append_of_ne_nil _ (by rw [begins]; nofun)] at member
    exact isAsciiBlank_of_isDigit (grouped.getLast c member)
  have trimmed : trimBy isAsciiBlank (before ++ (first ++ (body ++ after))) = first ++ body := by
    refine (trimBy_append_left blank_before _).trans ?_
    rw [← List.append_assoc]
    refine (trimBy_append_right blank_after _).trans (trimBy_eq_self_iff.mpr ⟨?_, ends⟩)
    rcases signs with rfl | rfl | rfl
    · exact fun c member => isAsciiBlank_of_isDigit (starts c member)
    · rintro c ⟨⟩
      rfl
    · rintro c ⟨⟩
      rfl
  have whole : body.takeWhile (fun c => c.isDigit || c == '_') = body :=
    List.takeWhile_eq_self_iff.mpr grouped.all
  obtain ⟨digits, ungrouped, valued⟩ := ungroup?_of_grouped grouped false
  have some_digit : digits ≠ [] := by
    rintro rfl
    cases valued
    cases grouped
  have length := valued.length_eq
  rw [wholeAscii, trimmed, sign_append signs starts]
  simp only [whole, ungrouped, numeral_of_valued valued]
  rw [if_neg (by omega), if_neg (by simpa using some_digit)]

/-- In ASCII exactly the spellings of whole numbers are read. -/
theorem wholeAscii_eq_ok_iff {cs : List Char} {n : Int} :
    wholeAscii cs = .ok n ↔ Spells .ascii cs n :=
  ⟨spells_of_wholeAscii, wholeAscii_of_spells⟩

/-! ## Other scripts -/

/-- The characters that stand beside blanks and digits. -/
def marks : List Char := ['_', '+', '-']

theorem toNat_lt_of_mark {m : Char} (mark : m ∈ marks) : m.toNat < 128 := by
  simp only [marks, List.mem_cons, List.not_mem_nil, or_false] at mark
  rcases mark with rfl | rfl | rfl <;> decide

/-- A character outside ASCII is no mark, whatever else it is rewritten to. -/
theorem mark_iff_of_foreign {c rewritten m : Char} (mark : m ∈ marks) (foreign : 128 ≤ c.toNat)
    (other : rewritten ∉ marks) : rewritten = m ↔ c = m := by
  refine iff_of_false (fun same => other (same ▸ mark)) ?_
  rintro rfl
  exact Nat.not_lt.mpr foreign (toNat_lt_of_mark mark)

/-- Characters of one script that are rewritten to those of another. -/
structure Script.Becomes (script other : Script) (rewrite : Char → Char) : Prop where
  isBlank (c : Char) : other.isBlank (rewrite c) = script.isBlank c
  digit? (c : Char) : other.digit? (rewrite c) = script.digit? c
  mark (c : Char) : ∀ m ∈ marks, rewrite c = m ↔ c = m

namespace Script.Becomes

variable {script other : Script} {rewrite : Char → Char}

theorem grouped_map (becomes : script.Becomes other rewrite) {cs : List Char} {ds : List Nat} :
    Grouped other (cs.map rewrite) ds ↔ Grouped script cs ds := by
  constructor
  · intro grouped
    generalize written : cs.map rewrite = text at grouped
    induction grouped generalizing cs with
    | last digit =>
      obtain ⟨c, rfl, rfl⟩ := List.map_eq_singleton_iff.mp written
      exact .last (becomes.digit? c ▸ digit)
    | next digit _ ih =>
      obtain ⟨c, rest, rfl, rfl, others⟩ := List.map_eq_cons_iff.mp written
      exact .next (becomes.digit? c ▸ digit) (ih others)
    | apart digit _ ih =>
      obtain ⟨c, marked, rfl, rfl, later⟩ := List.map_eq_cons_iff.mp written
      obtain ⟨mark, rest, rfl, same, others⟩ := List.map_eq_cons_iff.mp later
      obtain rfl := (becomes.mark mark '_' List.mem_cons_self).mp same
      exact .apart (becomes.digit? c ▸ digit) (ih others)
  · intro grouped
    induction grouped with
    | @last c d digit => exact .last ((becomes.digit? c).trans digit)
    | @next c d cs ds digit _ ih => exact .next ((becomes.digit? c).trans digit) ih
    | @apart c d cs ds digit _ ih =>
      have mark : rewrite '_' = '_' := (becomes.mark '_' '_' List.mem_cons_self).mpr rfl
      rw [List.map_cons, List.map_cons, mark]
      exact .apart ((becomes.digit? c).trans digit) ih

theorem map_eq_sign_iff (becomes : script.Becomes other rewrite) {cs : List Char} {m : Char}
    (sign : m ∈ ['+', '-']) : cs.map rewrite = [m] ↔ cs = [m] := by
  rw [List.map_eq_singleton_iff]
  constructor
  · rintro ⟨c, rfl, same⟩
    rw [(becomes.mark c m (List.mem_cons_of_mem _ sign)).mp same]
  · rintro rfl
    exact ⟨m, rfl, (becomes.mark m m (List.mem_cons_of_mem _ sign)).mpr rfl⟩

theorem isSign_map (becomes : script.Becomes other rewrite) {cs : List Char} :
    IsSign (cs.map rewrite) ↔ IsSign cs := by
  rw [IsSign, becomes.map_eq_sign_iff (by simp), becomes.map_eq_sign_iff (by simp),
    List.map_eq_nil_iff]
  rfl

theorem minus_map (becomes : script.Becomes other rewrite) (cs : List Char) :
    (cs.map rewrite == ['-']) = (cs == ['-']) := by
  rw [Bool.eq_iff_iff, beq_iff_eq, beq_iff_eq]
  exact becomes.map_eq_sign_iff (by simp)

/-- Rewritten characters spell the same whole numbers. -/
theorem spells_map (becomes : script.Becomes other rewrite) {cs : List Char} {n : Int} :
    Spells other (cs.map rewrite) n ↔ Spells script cs n := by
  constructor
  · intro spells
    generalize written : cs.map rewrite = text at spells
    obtain ⟨blank_before, signs, grouped, short, blank_after⟩ := spells
    obtain ⟨before, signed, rfl, rfl, unread⟩ := List.map_eq_append_iff.mp written
    obtain ⟨sign, unsigned, rfl, rfl, ends⟩ := List.map_eq_append_iff.mp unread
    obtain ⟨body, after, rfl, rfl, rfl⟩ := List.map_eq_append_iff.mp ends
    rw [becomes.minus_map]
    refine .mk (fun c member => ?_) (becomes.isSign_map.mp signs) (becomes.grouped_map.mp grouped)
      short fun c member => ?_
    · exact (becomes.isBlank c).symm.trans (blank_before _ (List.mem_map_of_mem member))
    · exact (becomes.isBlank c).symm.trans (blank_after _ (List.mem_map_of_mem member))
  · rintro ⟨blank_before, signs, grouped, short, blank_after⟩
    rw [List.map_append, List.map_append, List.map_append, ← becomes.minus_map]
    refine .mk (fun c member => ?_) (becomes.isSign_map.mpr signs) (becomes.grouped_map.mpr grouped)
      short fun c member => ?_
    · obtain ⟨c, inside, rfl⟩ := List.mem_map.mp member
      exact (becomes.isBlank c).trans (blank_before c inside)
    · obtain ⟨c, inside, rfl⟩ := List.mem_map.mp member
      exact (becomes.isBlank c).trans (blank_after c inside)

end Script.Becomes

theorem not_isBlank_of_digitValue? {c : Char} {d : Nat} (digit : digitValue? c = some d) :
    isBlank c = false := by
  have apart : ∀ first ∈ digitZeros, ∀ d < 10, isBlank (Char.ofNat (first + d)) = false := by
    decide +kernel
  obtain ⟨first, found, rfl⟩ := Option.map_eq_some_iff.mp digit
  have range := List.find?_some found
  simp only [Bool.and_eq_true, decide_eq_true_eq] at range
  have blank := apart first (List.mem_of_find?_eq_some found) (c.toNat - first) (by omega)
  rwa [show first + (c.toNat - first) = c.toNat by omega, Char.ofNat_toNat] at blank

theorem isWhiteSpace_eq_isBlank {c : Char} (foreign : 128 ≤ c.toNat) :
    isWhiteSpace c = isBlank c := by
  have separator : ¬ c ≤ '\x1f' := fun low => by
    have : c.toNat ≤ 31 := low
    omega
  simp [isBlank, separator]

/-- ASCII and all scripts agree on the blanks and the digits that are in ASCII. -/
theorem agrees_in_ascii {c : Char} (ascii : c.toNat < 128) :
    isAsciiBlank c = isWhiteSpace c ∧ asciiDigit? c = digitValue? c := by
  have table : ∀ n < 128, isAsciiBlank (Char.ofNat n) = isWhiteSpace (Char.ofNat n) ∧
      asciiDigit? (Char.ofNat n) = digitValue? (Char.ofNat n) := by
    decide +kernel
  simpa only [Char.ofNat_toNat] using table c.toNat ascii

/-- What a character becomes in ASCII: itself, a space, a digit or a question mark. -/
inductive InAscii (c : Char) : Char → Prop
  | self (ascii : c.toNat < 128) : InAscii c c
  | space (foreign : 128 ≤ c.toNat) (blank : isBlank c = true) : InAscii c ' '
  | digit {d : Nat} (foreign : 128 ≤ c.toNat) (digit : digitValue? c = some d) :
      InAscii c (digitChar d)
  | other (foreign : 128 ≤ c.toNat) (solid : isBlank c = false) (none : digitValue? c = none) :
      InAscii c '?'

theorem inAscii (c : Char) : InAscii c (toAscii c) := by
  unfold toAscii
  by_cases ascii : c.toNat < 128
  · rw [if_pos ascii]
    exact .self ascii
  · rw [if_neg ascii]
    have foreign : 128 ≤ c.toNat := by omega
    cases blank : isBlank c with
    | true => exact .space foreign blank
    | false =>
      cases digit : digitValue? c with
      | none => exact .other foreign blank digit
      | some d => exact .digit foreign digit

/-- Every script is rewritten to ASCII. -/
theorem becomes_toAscii : Script.every.Becomes .ascii toAscii := by
  have digits : ∀ d < 10, asciiDigit? (digitChar d) = some d ∧
      isAsciiBlank (digitChar d) = false ∧ digitChar d ∉ marks := by decide
  refine ⟨fun c => ?_, fun c => ?_, fun c m mark => ?_⟩
  · have image := inAscii c
    show isAsciiBlank (toAscii c) = isWhiteSpace c
    generalize toAscii c = ascii at image
    cases image with
    | self ascii => exact (agrees_in_ascii ascii).1
    | space foreign blank => rw [isWhiteSpace_eq_isBlank foreign, blank]; rfl
    | digit foreign digit =>
      rw [isWhiteSpace_eq_isBlank foreign, not_isBlank_of_digitValue? digit]
      exact (digits _ (digitValue?_lt digit)).2.1
    | other foreign solid => rw [isWhiteSpace_eq_isBlank foreign, solid]; rfl
  · have image := inAscii c
    show asciiDigit? (toAscii c) = digitValue? c
    generalize toAscii c = ascii at image
    cases image with
    | self ascii => exact (agrees_in_ascii ascii).2
    | space foreign blank =>
      cases digit : digitValue? c with
      | none => rfl
      | some d => simp [not_isBlank_of_digitValue? digit] at blank
    | digit foreign digit => exact (digits _ (digitValue?_lt digit)).1.trans digit.symm
    | other foreign solid none => exact none.symm
  · have image := inAscii c
    generalize toAscii c = ascii at image
    cases image with
    | self ascii => rfl
    | space foreign blank => exact mark_iff_of_foreign mark foreign (by decide)
    | digit foreign digit =>
      exact mark_iff_of_foreign mark foreign (digits _ (digitValue?_lt digit)).2.2
    | other foreign solid => exact mark_iff_of_foreign mark foreign (by decide)

theorem becomes_byte :
    Script.ascii.Becomes .ascii fun c => if c.toNat < 128 then c else '?' := by
  refine ⟨fun c => ?_, fun c => ?_, fun c m mark => ?_⟩ <;> by_cases ascii : c.toNat < 128
  · rw [if_pos ascii]
  · have foreign : isAsciiBlank c = false := by
      rw [isAsciiBlank, Bool.or_eq_false_iff, Bool.and_eq_false_iff]
      refine ⟨beq_eq_false_iff_ne.mpr ?_, .inr (decide_eq_false fun low => ?_)⟩
      · rintro rfl
        exact ascii (by decide)
      · have : c.toNat ≤ 13 := low
        omega
    rw [if_neg ascii]
    exact foreign.symm
  · rw [if_pos ascii]
  · have foreign : asciiDigit? c = none := if_neg fun range => by
      have : c.toNat ≤ 57 := range.2
      omega
    rw [if_neg ascii]
    exact foreign.symm
  · rw [if_pos ascii]
  · rw [if_neg ascii]
    exact mark_iff_of_foreign mark (Nat.not_lt.mp ascii) (by decide)

/-- In text exactly the spellings of whole numbers in any script are read. -/
theorem whole_eq_ok_iff {s : String} {n : Int} : whole s = .ok n ↔ Spells .every s.toList n :=
  wholeAscii_eq_ok_iff.trans becomes_toAscii.spells_map

/-- In bytes exactly the spellings of whole numbers in ASCII are read. -/
theorem wholeAscii_byteNumeral_eq_ok_iff {s : String} {n : Int} :
    wholeAscii (Value.byteNumeral s) = .ok n ↔ Spells .ascii s.toList n :=
  wholeAscii_eq_ok_iff.trans becomes_byte.spells_map

end LiveSurface.Numeral
