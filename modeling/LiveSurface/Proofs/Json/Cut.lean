import LiveSurface.Proofs.Json.Grammar

/-!
# Texts that are cut

Outside strings a JSON text holds nothing but blanks and printable characters of ASCII. So a text
that is cut before any other character is cut inside a string, and what stands before the cut is no
JSON (`cuts_of_writes`).
-/
namespace LiveSurface.Json

/-- Reading that stops because the text is malformed. -/
def Malformed {α : Type} (result : Except Stop α) : Prop :=
  ∃ problem rest, result = .error (.malformed problem rest)

variable {text read head tail : List Char} {e : Char}

/-- Every character may stand outside strings. -/
def Ordinary (text : List Char) : Prop := ∀ c ∈ text, isOrdinary c = true

instance : Decidable (Ordinary text) := decidable_of_iff (text.all isOrdinary) List.all_eq_true

theorem ordinary_cons {c : Char} {cs : List Char} :
    Ordinary (c :: cs) ↔ isOrdinary c = true ∧ Ordinary cs :=
  List.forall_mem_cons

theorem ordinary_append {xs ys : List Char} : Ordinary (xs ++ ys) ↔ Ordinary xs ∧ Ordinary ys :=
  List.forall_mem_append

theorem ordinary_of_isBlank {blank : List Char} (blanks : ∀ c ∈ blank, isBlank c) :
    Ordinary blank :=
  fun c member => by simp [isOrdinary, blanks c member]

theorem ordinary_of_isDigit {ds : List Char} (digits : ∀ c ∈ ds, c.isDigit) : Ordinary ds :=
  fun c member => isOrdinary_of_isDigit (digits c member)

theorem isOrdinary_of_hexValue? {c : Char} {n : Nat} (known : hexValue? c = some n) :
    isOrdinary c = true := by
  have between : ∀ low high : Char, 32 ≤ low.toNat → high.toNat < 127 → low ≤ c ∧ c ≤ high →
      isOrdinary c = true := by
    intro low high above below range
    have atLeast : low.toNat ≤ c.toNat := UInt32.le_iff_toNat_le.mp range.1
    have atMost : c.toNat ≤ high.toNat := UInt32.le_iff_toNat_le.mp range.2
    simp only [isOrdinary, Bool.or_eq_true, Bool.and_eq_true, decide_eq_true_eq]
    omega
  rw [hexValue?] at known
  split at known
  · exact between '0' '9' (by decide) (by decide) ‹_ ∧ _›
  · split at known
    · exact between 'a' 'f' (by decide) (by decide) ‹_ ∧ _›
    · split at known
      · exact between 'A' 'F' (by decide) (by decide) ‹_ ∧ _›
      · cases known

theorem ordinary_of_unit? {a b c d : Char} {unit : Nat} (digits : unit? [a, b, c, d] = some unit) :
    Ordinary [a, b, c, d] := by
  simp only [unit?, Option.bind_eq_bind, Option.bind_eq_some_iff] at digits
  obtain ⟨_, first, _, second, _, third, _, fourth, -⟩ := digits
  simp [Ordinary, isOrdinary_of_hexValue? first, isOrdinary_of_hexValue? second,
    isOrdinary_of_hexValue? third, isOrdinary_of_hexValue? fourth]

theorem isOrdinary_of_plainEscape? {letter c : Char} (known : plainEscape? letter = some c) :
    isOrdinary letter = true := by
  unfold plainEscape? at known
  split at known <;> first | decide | cases known

theorem ordinary_of_numeric {v : Value} (numeric : Numeric text v) : Ordinary text := by
  have sign : ∀ negative, Ordinary (minus negative)
    | true | false => by decide
  cases numeric with
  | whole negative whole _ =>
    exact ordinary_append.mpr ⟨sign negative, ordinary_of_isDigit whole.digits⟩
  | decimal negative whole fractional exponential _ =>
    refine ordinary_append.mpr ⟨sign negative, ordinary_append.mpr
      ⟨ordinary_of_isDigit whole.digits, ordinary_append.mpr ⟨?_, ?_⟩⟩⟩
    · cases fractional with
      | absent => exact List.forall_mem_nil _
      | present _ digits => exact ordinary_cons.mpr ⟨by decide, ordinary_of_isDigit digits⟩
    · cases exponential with
      | absent => exact List.forall_mem_nil _
      | present marks signs _ digits =>
        refine ordinary_cons.mpr ⟨?_, ordinary_append.mpr ⟨?_, ordinary_of_isDigit digits⟩⟩
        · rcases marks with rfl | rfl <;> decide
        · rcases signs with rfl | rfl | rfl <;> decide

theorem not_cut (ordinary : Ordinary text) (foreign : isOrdinary e = false) :
    text ≠ head ++ e :: tail := by
  rintro rfl
  rw [ordinary e (by simp)] at foreign
  cases foreign

/-- A cut falls into the first part of a text or behind it. -/
theorem cut_cases {xs ys : List Char} (cut : xs ++ ys = head ++ e :: tail) :
    (∃ rest, xs = head ++ e :: rest) ∨ ∃ more, head = xs ++ more ∧ ys = more ++ e :: tail := by
  rcases List.append_eq_append_iff.mp cut with ⟨more, begins, ends⟩ | ⟨more, begins, ends⟩
  · exact .inr ⟨more, begins, ends⟩
  · cases more with
    | nil => exact .inr ⟨[], by simpa using begins.symm, by simpa using ends.symm⟩
    | cons c more =>
      obtain rfl : e = c := (List.cons.inj ends).1
      exact .inl ⟨more, begins⟩

/-- A cut before a foreign character falls behind a first part that is ordinary. -/
theorem cut_append (xs : List Char) {ys : List Char} (cut : xs ++ ys = head ++ e :: tail)
    (ordinary : Ordinary xs) (foreign : isOrdinary e = false) :
    ∃ more, head = xs ++ more ∧ ys = more ++ e :: tail := by
  rcases cut_cases cut with ⟨rest, inside⟩ | behind
  · exact absurd inside (not_cut ordinary foreign)
  · exact behind

theorem ordinary_escape {a b c d : Char} {unit : Nat} (digits : unit? [a, b, c, d] = some unit) :
    Ordinary ['\\', 'u', a, b, c, d] :=
  ordinary_append.mpr ⟨show Ordinary ['\\', 'u'] by decide, ordinary_of_unit? digits⟩

theorem unitEscape_of_end {a b c d : Char} {unit : Nat} (digits : unit? [a, b, c, d] = some unit) :
    unitEscape ['u', a, b, c, d] = .error (.malformed .hexadecimalEscape ['u', a, b, c, d]) := by
  simp [unitEscape, digits]

/-- A first half is read alone where its second half is not read. -/
theorem unitEscape_half {a b c d f g h i : Char} {high : Nat}
    (first : unit? [a, b, c, d] = some high) (isHigh : isHighHalf high = true) :
    unitEscape ['u', a, b, c, d, '\\', 'u', f, g, h, i] = .ok (none, 5) := by
  have one : ∀ cs, unit? (a :: b :: c :: d :: cs) = some high := fun _ => first
  simp [unitEscape, one, unitChar?, isHigh]

/-- What stands before a cut in a string is not read as a string. -/
theorem stringFrom_of_cut (spells : Spells text read) (cut : text = head ++ e :: tail)
    (foreign : isOrdinary e = false) (start : List Char) (before : List (Option Char)) :
    Malformed (stringFrom start 0 before head) := by
  induction spells generalizing head before with
  | nil => simp at cut
  | @raw c text read quote slash control _ ih =>
    cases head with
    | nil => exact ⟨_, _, rfl⟩
    | cons h head =>
      obtain ⟨rfl, inside⟩ := List.cons.inj cut
      have := ih inside (some c :: before)
      simpa [stringFrom, quote, slash, Nat.not_lt.mpr control] using this
  | @escape letter c text read known _ ih =>
    obtain ⟨head, rfl, inside⟩ := cut_append ['\\', letter] cut
      (by simp [Ordinary, isOrdinary_of_plainEscape? known]; decide) foreign
    have := ih inside (some c :: before)
    simpa [stringFrom, known, plainEscape?_ne_u known] using this
  | @unit a b c d char text read digits _ ih =>
    obtain ⟨head, rfl, inside⟩ := cut_append ['\\', 'u', a, b, c, d] cut (ordinary_escape digits)
      foreign
    by_cases last : head = []
    · subst last
      simp [Malformed, stringFrom, unitEscape_of_end digits]
    · have := ih inside (some char :: before)
      simpa [stringFrom, unitEscape_char digits last] using this
  | @pair a b c d f g h i high low text read first isHigh second isLow _ ih =>
    obtain ⟨head, rfl, inside⟩ := cut_append ['\\', 'u', a, b, c, d, '\\', 'u', f, g, h, i] cut
      (ordinary_append.mpr ⟨ordinary_escape first, ordinary_escape second⟩) foreign
    by_cases last : head = []
    · subst last
      have alone : unitEscape ['u', a, b, c, d, '\\', 'u', f, g, h, i] = .ok (none, 5) :=
        unitEscape_half first isHigh
      simp [Malformed, stringFrom, alone, unitEscape_of_end second]
    · have := ih inside
        (some (Char.ofNat (0x10000 + (high - 0xd800) * 0x400 + (low - 0xdc00))) :: before)
      simpa [stringFrom, unitEscape_two first isHigh second isLow last] using this

theorem string_of_cut {s : String} (quotes : Quotes text s) (cut : text = head ++ e :: tail)
    (foreign : isOrdinary e = false) :
    ∃ quoted, head = '"' :: quoted ∧ Malformed (string quoted) := by
  obtain ⟨spells⟩ := quotes
  obtain ⟨head, rfl, inside⟩ := cut_append ['"'] cut (by decide) foreign
  refine ⟨head, rfl, ?_⟩
  rcases cut_cases inside with ⟨rest, within⟩ | ⟨more, rfl, behind⟩
  · exact stringFrom_of_cut spells within foreign _ []
  · exact absurd behind (not_cut (by decide) foreign)

/-- What stands before a cut in a text is malformed. -/
def Cuts (text : List Char) : Prop :=
  ∀ head e tail, text = head ++ e :: tail → isOrdinary e = false →
    ∀ steps, 2 * head.length ≤ steps → Malformed (value steps head)

theorem Solid.of_cut {more : List Char} (solid : Solid text)
    (cut : text ++ more = head ++ e :: tail)
    (foreign : isOrdinary e = false) : Solid head := by
  obtain ⟨c, rest, rfl, notBlank, ordinary, notEnd⟩ := solid
  obtain ⟨head, rfl, -⟩ := cut_append [c] cut (by simpa [Ordinary] using ordinary) foreign
  exact ⟨c, head, rfl, notBlank, ordinary, notEnd⟩

theorem Solid.skip_self (solid : Solid text) : skip text = text := by
  have := solid.skip_text []
  rwa [List.append_nil] at this

/-- A cut falls into the text of a value or behind the blanks after it. -/
theorem padded_of_cut {p : Padded} (cuts : Cuts p.text) {more : List Char}
    (cut : p.text ++ (p.after ++ more) = head ++ e :: tail) (foreign : isOrdinary e = false) :
    (∀ steps, 2 * head.length ≤ steps → Malformed (value steps head)) ∨
      ∃ rest, head = p.text ++ (p.after ++ rest) ∧ more = rest ++ e :: tail := by
  rcases cut_cases cut with ⟨rest, within⟩ | ⟨head, rfl, behind⟩
  · exact .inl (cuts head e rest within foreign)
  · obtain ⟨head, rfl, past⟩ := cut_append _ behind (ordinary_of_isBlank p.blank_after) foreign
    exact .inr ⟨head, rfl, past⟩

theorem items_of_malformed {steps : Nat} (bad : Malformed (value steps head))
    (before : List Value) : Malformed (items (steps + 1) before head) := by
  obtain ⟨problem, rest, bad⟩ := bad
  exact ⟨problem, rest, by simp [items, bad]⟩

theorem items_of_cut (item : Padded × Value) (more : List (Padded × Value))
    (each : ∀ i ∈ item :: more, Writes i.1.text i.2 ∧ Cuts i.1.text)
    (cut : item.1.text ++ (item.1.after ++ closing ']' (more.map (·.1.chars))) =
      head ++ e :: tail) (foreign : isOrdinary e = false) (steps : Nat)
    (enough : 2 * head.length + 1 ≤ steps) (before : List Value) :
    Malformed (items steps before head) := by
  induction more generalizing item steps head before with
  | nil =>
    obtain ⟨steps, rfl⟩ : ∃ fewer, steps = fewer + 1 := ⟨steps - 1, by omega⟩
    rcases padded_of_cut (each item List.mem_cons_self).2 cut foreign with bad | ⟨rest, -, past⟩
    · exact items_of_malformed (bad steps (by omega)) before
    · exact absurd past (not_cut (by decide) foreign)
  | cons next more ih =>
    obtain ⟨steps, rfl⟩ : ∃ fewer, steps = fewer + 1 := ⟨steps - 1, by omega⟩
    obtain ⟨writes, cuts⟩ := each item List.mem_cons_self
    rcases padded_of_cut cuts cut foreign with bad | ⟨head, rfl, past⟩
    · exact items_of_malformed (bad steps (by omega)) before
    · have shape := closing_items next more ']' []
      simp only [List.append_nil] at shape
      rw [shape, ← List.cons_append] at past
      obtain ⟨head, rfl, later⟩ := cut_append _ past
        (ordinary_cons.mpr ⟨by decide, ordinary_of_isBlank next.1.blank_before⟩) foreign
      simp only [List.length_append, List.length_cons] at enough
      have value := value_of_writes writes steps _ (by omega)
        (endsNumber_after item.1.blank_after (.inr (.inl rfl)) (next.1.before ++ head))
      have solid := (each next (by simp)).1.solid.of_cut later foreign
      rw [List.cons_append, items_next value (skip_to item.1.blank_after (by decide) _),
        skip_append next.1.blank_before, solid.skip_self]
      exact ih next (fun i member => each i (List.mem_cons_of_mem _ member)) later steps
        (by omega) _

theorem fields_of_malformed_name {steps : Nat} (bad : Malformed (string head)) (before : Fields) :
    Malformed (fields (steps + 1) before ('"' :: head)) := by
  obtain ⟨problem, rest, bad⟩ := bad
  exact ⟨problem, rest, by simp [fields, bad]⟩

theorem fields_of_malformed_body {steps : Nat} {cs after body : List Char} {key : String}
    (name : ∃ quoted, cs = '"' :: quoted ∧ string quoted = .ok (key, after))
    (colon : skip after = ':' :: body) (start : skip body = head)
    (bad : Malformed (value steps head)) (before : Fields) :
    Malformed (fields (steps + 1) before cs) := by
  obtain ⟨quoted, rfl, name⟩ := name
  obtain ⟨problem, rest, bad⟩ := bad
  exact ⟨problem, rest, by simp [fields, name, colon, start, bad]⟩

theorem name_of_cut (m : Member) {more : List Char}
    (cut : m.name.text ++ (m.name.after ++ ':' :: (m.body.chars ++ more)) = head ++ e :: tail)
    (foreign : isOrdinary e = false) :
    (∃ quoted, head = '"' :: quoted ∧ Malformed (string quoted)) ∨
      ∃ rest, head = m.name.text ++ (m.name.after ++ ':' :: (m.body.before ++ rest)) ∧
        m.body.text ++ (m.body.after ++ more) = rest ++ e :: tail := by
  rcases cut_cases cut with ⟨rest, within⟩ | ⟨head, rfl, behind⟩
  · exact .inl (string_of_cut m.quotes within foreign)
  · rw [Padded.chars_append, ← List.cons_append, ← List.append_assoc] at behind
    obtain ⟨head, rfl, past⟩ := cut_append _ behind (ordinary_append.mpr
      ⟨ordinary_of_isBlank m.name.blank_after,
        ordinary_cons.mpr ⟨by decide, ordinary_of_isBlank m.body.blank_before⟩⟩) foreign
    exact .inr ⟨head, by simp, past⟩

/-- A cut falls into a member, which is malformed then, or behind it. -/
theorem member_of_cut (m : Member) {v : Value} (writes : Writes m.body.text v)
    (cuts : Cuts m.body.text) {more : List Char}
    (cut : m.name.text ++ (m.name.after ++ ':' :: (m.body.chars ++ more)) = head ++ e :: tail)
    (foreign : isOrdinary e = false) :
    (∀ steps before, 2 * head.length ≤ steps → Malformed (fields (steps + 1) before head)) ∨
      ∃ rest, head = m.name.text ++ (m.name.after ++ ':' :: (m.body.chars ++ rest)) ∧
        more = rest ++ e :: tail := by
  rcases name_of_cut m cut foreign with ⟨quoted, rfl, bad⟩ | ⟨rest, rfl, body⟩
  · exact .inl fun _ before _ => fields_of_malformed_name bad before
  rcases padded_of_cut cuts body foreign with bad | ⟨rest, rfl, past⟩
  · have start : skip (m.body.before ++ rest) = rest := by
      rw [skip_append m.body.blank_before, (writes.solid.of_cut body foreign).skip_self]
    refine .inl fun steps before enough => ?_
    simp only [List.length_append, List.length_cons] at enough
    exact fields_of_malformed_body (string_of_quotes m.quotes _)
      (skip_to m.name.blank_after (by decide) _) start (bad steps (by omega)) before
  · exact .inr ⟨rest, by rw [Padded.chars_append], past⟩

theorem fields_of_cut (member : Member × Value) (more : List (Member × Value))
    (each : ∀ m ∈ member :: more, Writes m.1.body.text m.2 ∧ Cuts m.1.body.text)
    (cut : member.1.name.text ++ (member.1.name.after ++ ':' :: (member.1.body.chars ++
      closing '\x7d' (more.map (·.1.chars)))) = head ++ e :: tail) (foreign : isOrdinary e = false)
    (steps : Nat) (enough : 2 * head.length + 1 ≤ steps) (before : Fields) :
    Malformed (fields steps before head) := by
  induction more generalizing member steps head before with
  | nil =>
    obtain ⟨steps, rfl⟩ : ∃ fewer, steps = fewer + 1 := ⟨steps - 1, by omega⟩
    obtain ⟨writes, cuts⟩ := each member List.mem_cons_self
    rcases member_of_cut member.1 writes cuts cut foreign with bad | ⟨rest, -, past⟩
    · exact bad steps before (by omega)
    · exact absurd past (not_cut (by decide) foreign)
  | cons next more ih =>
    obtain ⟨steps, rfl⟩ : ∃ fewer, steps = fewer + 1 := ⟨steps - 1, by omega⟩
    obtain ⟨writes, cuts⟩ := each member List.mem_cons_self
    rcases member_of_cut member.1 writes cuts cut foreign with bad | ⟨head, rfl, past⟩
    · exact bad steps before (by omega)
    · have shape := closing_members next more '\x7d' []
      simp only [List.append_nil] at shape
      rw [shape, ← List.cons_append] at past
      obtain ⟨head, rfl, later⟩ := cut_append _ past
        (ordinary_cons.mpr ⟨by decide, ordinary_of_isBlank next.1.name.blank_before⟩) foreign
      simp only [Padded.length_chars, List.length_append, List.length_cons] at enough
      have value := value_of_writes writes steps _ (by omega)
        (endsNumber_after member.1.body.blank_after (.inr (.inl rfl)) (next.1.name.before ++ head))
      have solid := next.1.quotes.solid.of_cut later foreign
      rw [List.cons_append, fields_next (string_of_quotes member.1.quotes _)
        (skip_to member.1.name.blank_after (by decide) _) (writes.solid.skip_chars _) value
        (skip_to member.1.body.blank_after (by decide) _), skip_append next.1.name.blank_before,
        solid.skip_self]
      exact ih next (fun m found => each m (List.mem_cons_of_mem _ found)) later steps
        (by omega) _

theorem cuts_of_list {blank : List Char} (blanks : ∀ c ∈ blank, isBlank c)
    (items : List (Padded × Value)) (each : ∀ i ∈ items, Writes i.1.text i.2 ∧ Cuts i.1.text) :
    Cuts (enclosed '[' ']' blank (items.map (·.1.chars))) := by
  intro head e tail cut foreign steps enough
  cases items with
  | nil =>
    have ordinary : Ordinary (enclosed '[' ']' blank []) := ordinary_cons.mpr
      ⟨by decide, ordinary_append.mpr ⟨ordinary_of_isBlank blanks, by decide⟩⟩
    exact absurd cut (not_cut ordinary foreign)
  | cons item more =>
    have blanks : ∀ c ∈ blank ++ item.1.before, isBlank c :=
      List.forall_mem_append.mpr ⟨blanks, item.1.blank_before⟩
    rw [List.map_cons, enclosed_cons, Padded.chars_append, ← List.append_assoc,
      ← List.cons_append] at cut
    obtain ⟨head, rfl, inside⟩ := cut_append _ cut
      (ordinary_cons.mpr ⟨by decide, ordinary_of_isBlank blanks⟩) foreign
    simp only [List.length_append, List.length_cons] at enough
    obtain ⟨steps, rfl⟩ : ∃ fewer, steps = fewer + 1 := ⟨steps - 1, by omega⟩
    have bad := items_of_cut item more each inside foreign steps (by omega) []
    have solid := (each item List.mem_cons_self).1.solid.of_cut inside foreign
    have start : skip (blank ++ item.1.before ++ head) = head := by
      rw [skip_append blanks, solid.skip_self]
    obtain ⟨c, rest, rfl, -, -, notEnd, -⟩ := solid
    rwa [List.cons_append, value_items start notEnd]

theorem cuts_of_obj {blank : List Char} (blanks : ∀ c ∈ blank, isBlank c)
    (members : List (Member × Value))
    (each : ∀ m ∈ members, Writes m.1.body.text m.2 ∧ Cuts m.1.body.text) :
    Cuts (enclosed '\x7b' '\x7d' blank (members.map (·.1.chars))) := by
  intro head e tail cut foreign steps enough
  cases members with
  | nil =>
    have ordinary : Ordinary (enclosed '\x7b' '\x7d' blank []) := ordinary_cons.mpr
      ⟨by decide, ordinary_append.mpr ⟨ordinary_of_isBlank blanks, by decide⟩⟩
    exact absurd cut (not_cut ordinary foreign)
  | cons member more =>
    have blanks : ∀ c ∈ blank ++ member.1.name.before, isBlank c :=
      List.forall_mem_append.mpr ⟨blanks, member.1.name.blank_before⟩
    rw [List.map_cons, enclosed_cons, Member.chars, List.append_assoc, Padded.chars_append,
      List.cons_append, ← List.append_assoc, ← List.cons_append] at cut
    obtain ⟨head, rfl, inside⟩ := cut_append _ cut
      (ordinary_cons.mpr ⟨by decide, ordinary_of_isBlank blanks⟩) foreign
    simp only [List.length_append, List.length_cons] at enough
    obtain ⟨steps, rfl⟩ : ∃ fewer, steps = fewer + 1 := ⟨steps - 1, by omega⟩
    have bad := fields_of_cut member more each inside foreign steps (by omega) []
    have solid := member.1.quotes.solid.of_cut inside foreign
    have start : skip (blank ++ member.1.name.before ++ head) = head := by
      rw [skip_append blanks, solid.skip_self]
    obtain ⟨c, rest, rfl, -, -, -, notEnd⟩ := solid
    rwa [List.cons_append, value_fields start notEnd]

/-- What stands before a cut in a text that writes a value is malformed. -/
theorem cuts_of_writes {v : Value} (writes : Writes text v) : Cuts text := by
  induction writes with
  | null => exact fun head e tail cut foreign => absurd cut (not_cut (by decide) foreign)
  | true => exact fun head e tail cut foreign => absurd cut (not_cut (by decide) foreign)
  | false => exact fun head e tail cut foreign => absurd cut (not_cut (by decide) foreign)
  | number numeric =>
    exact fun head e tail cut foreign => absurd cut (not_cut (ordinary_of_numeric numeric) foreign)
  | str quotes =>
    intro head e tail cut foreign steps enough
    obtain ⟨quoted, rfl, problem, rest, bad⟩ := string_of_cut quotes cut foreign
    obtain ⟨steps, rfl⟩ : ∃ fewer, steps = fewer + 1 := ⟨steps - 1, by simp at enough; omega⟩
    exact ⟨problem, rest, by simp [value, bad, Except.map]⟩
  | list blanks items each ih =>
    exact cuts_of_list blanks items fun i member => ⟨each i member, ih i member⟩
  | obj blanks members each ih =>
    exact cuts_of_obj blanks members fun m member => ⟨each m member, ih m member⟩

end LiveSurface.Json
