import LiveSurface.Json.Reader
import LiveSurface.Proofs.Number.Numeral

/-!
# What JSON texts write

The grammar of JSON relates a text to the value that it writes (`Writes`), without a word about how
texts are read. The reader gives the value that a text writes and leaves what follows the text
(`value_of_writes`); only a number has to be told where it ends.
-/
namespace LiveSurface.Json

/-! ## The grammar -/

/-- What may stand between the quotes of a string, with the characters that it stands for. A half of
a character that stands alone is no character, and an escape of it spells nothing. -/
inductive Spells : List Char → List Char → Prop
  | nil : Spells [] []
  | raw {c : Char} {text read : List Char} (quote : c ≠ '"') (slash : c ≠ '\\')
      (control : 32 ≤ c.toNat) (rest : Spells text read) : Spells (c :: text) (c :: read)
  | escape {letter c : Char} {text read : List Char} (known : plainEscape? letter = some c)
      (rest : Spells text read) : Spells ('\\' :: letter :: text) (c :: read)
  | unit {a b c d char : Char} {text read : List Char}
      (digits : unit? [a, b, c, d] = some char.toNat) (rest : Spells text read) :
      Spells ('\\' :: 'u' :: a :: b :: c :: d :: text) (char :: read)
  | pair {a b c d e f g h : Char} {high low : Nat} {text read : List Char}
      (first : unit? [a, b, c, d] = some high) (isHigh : isHighHalf high = true)
      (second : unit? [e, f, g, h] = some low) (isLow : isLowHalf low = true)
      (rest : Spells text read) :
      Spells ('\\' :: 'u' :: a :: b :: c :: d :: '\\' :: 'u' :: e :: f :: g :: h :: text)
        (Char.ofNat (0x10000 + (high - 0xd800) * 0x400 + (low - 0xdc00)) :: read)

/-- A string in its quotes. -/
inductive Quotes : List Char → String → Prop
  | mk {text read : List Char} (spells : Spells text read) :
      Quotes ('"' :: (text ++ ['"'])) (String.ofList read)

/-- One or more digits, the first of them no zero unless it stands alone. -/
structure IsWhole (ds : List Char) : Prop where
  some_digit : ds ≠ []
  digits : ∀ c ∈ ds, c.isDigit
  zero_alone : ds.head? = some '0' → ds = ['0']

/-- What may stand behind a whole part, with the digits of the fraction. -/
inductive Fraction : List Char → List Char → Prop
  | absent : Fraction [] []
  | present {ds : List Char} (some_digit : ds ≠ []) (digits : ∀ c ∈ ds, c.isDigit) :
      Fraction ('.' :: ds) ds

/-- What may stand at the end of a number, with the exponent that it gives. -/
inductive Exponent : List Char → Option Int → Prop
  | absent : Exponent [] none
  | present {mark : Char} {sign ds : List Char} (marks : mark = 'e' ∨ mark = 'E')
      (signs : sign = [] ∨ sign = ['+'] ∨ sign = ['-']) (some_digit : ds ≠ [])
      (digits : ∀ c ∈ ds, c.isDigit) :
      Exponent (mark :: (sign ++ ds)) (some (Double.signed (sign == ['-']) (Text.numeral 0 ds)))

/-- The sign of a number. -/
def minus (negative : Bool) : List Char := if negative then ['-'] else []

/-- Whole numbers, of no more digits than are read, and decimals. -/
inductive Numeric : List Char → Value → Prop
  | whole (negative : Bool) {ds : List Char} (whole : IsWhole ds)
      (short : ds.length ≤ Numeral.maxDigits) :
      Numeric (minus negative ++ ds) (.int (Double.signed negative (Text.numeral 0 ds)))
  | decimal (negative : Bool) {ds fraction behind exponent : List Char} {e : Option Int}
      (whole : IsWhole ds) (fractional : Fraction fraction behind)
      (exponential : Exponent exponent e) (more : fraction ≠ [] ∨ exponent ≠ []) :
      Numeric (minus negative ++ (ds ++ (fraction ++ exponent)))
        (.real (Double.ofDecimal negative (Text.numeral 0 (ds ++ behind))
          (e.getD 0 - behind.length)))

/-- A text with blanks before and after it. -/
structure Padded where
  before : List Char
  text : List Char
  after : List Char
  blank_before : ∀ c ∈ before, isBlank c
  blank_after : ∀ c ∈ after, isBlank c

/-- The characters of a padded text. -/
def Padded.chars (p : Padded) : List Char := p.before ++ (p.text ++ p.after)

theorem Padded.chars_append (p : Padded) (rest : List Char) :
    p.chars ++ rest = p.before ++ (p.text ++ (p.after ++ rest)) := by
  simp [chars]

theorem Padded.length_chars (p : Padded) :
    p.chars.length = p.before.length + (p.text.length + p.after.length) := by
  simp [chars]

theorem blank_nil : ∀ c ∈ ([] : List Char), isBlank c := nofun

/-- A text without the blanks before it. -/
def Padded.flushLeft (p : Padded) : Padded :=
  { p with before := [], blank_before := blank_nil }

/-- A text without the blanks after it. -/
def Padded.flushRight (p : Padded) : Padded :=
  { p with after := [], blank_after := blank_nil }

/-- A name and the text of a value. -/
structure Member where
  name : Padded
  key : String
  quotes : Quotes name.text key
  body : Padded

/-- The characters of a member. -/
def Member.chars (m : Member) : List Char := m.name.chars ++ ':' :: m.body.chars

theorem Member.length_chars (m : Member) :
    m.chars.length = m.name.chars.length + (m.body.chars.length + 1) := by
  simp [chars]

/-- The text of a list or an object: its parts between commas, or blanks when there are none. -/
def enclosed (first last : Char) (blank : List Char) (parts : List (List Char)) : List Char :=
  first :: (blank ++ (List.intercalate [','] parts ++ [last]))

/-- A text writes a value. Of members with one name the last value stays, at the first place. -/
inductive Writes : List Char → Value → Prop
  | null : Writes ['n', 'u', 'l', 'l'] .null
  | true : Writes ['t', 'r', 'u', 'e'] (.bool true)
  | false : Writes ['f', 'a', 'l', 's', 'e'] (.bool false)
  | number {text : List Char} {v : Value} (numeric : Numeric text v) : Writes text v
  | str {text : List Char} {s : String} (quotes : Quotes text s) : Writes text (.str s)
  | list {blank : List Char} (blanks : ∀ c ∈ blank, isBlank c) (items : List (Padded × Value))
      (each : ∀ item ∈ items, Writes item.1.text item.2) :
      Writes (enclosed '[' ']' blank (items.map (·.1.chars))) (.list (items.map (·.2)))
  | obj {blank : List Char} (blanks : ∀ c ∈ blank, isBlank c) (members : List (Member × Value))
      (each : ∀ member ∈ members, Writes member.1.body.text member.2) :
      Writes (enclosed '\x7b' '\x7d' blank (members.map (·.1.chars)))
        (.obj (Entries.update [] (members.map fun member => (member.1.key, member.2))))

theorem isBlank_iff {c : Char} : isBlank c ↔ c = ' ' ∨ c = '\t' ∨ c = '\n' ∨ c = '\r' := by
  simp [isBlank, or_assoc]

theorem skip_append {blank : List Char} (blanks : ∀ c ∈ blank, isBlank c) (rest : List Char) :
    skip (blank ++ rest) = skip rest :=
  List.dropWhile_append_of_pos blanks

theorem skip_of_not_blank {c : Char} (solid : isBlank c = false) (rest : List Char) :
    skip (c :: rest) = c :: rest :=
  List.dropWhile_cons_of_neg (by simp [solid])

theorem skip_to {blank : List Char} (blanks : ∀ c ∈ blank, isBlank c) {c : Char}
    (solid : isBlank c = false) (rest : List Char) : skip (blank ++ c :: rest) = c :: rest := by
  rw [skip_append blanks, skip_of_not_blank solid]

/-! ## Strings -/

variable {text read rest : List Char}

theorem plainEscape?_ne_u {letter c : Char} (known : plainEscape? letter = some c) :
    letter ≠ 'u' := by
  rintro rfl
  cases known

theorem isHalf_toNat (c : Char) : isHighHalf c.toNat = false ∧ isLowHalf c.toNat = false := by
  have valid : c.toNat < 0xd800 ∨ 0xdfff < c.toNat ∧ c.toNat < 0x110000 := c.valid
  simp only [isHighHalf, isLowHalf, Bool.and_eq_false_iff, decide_eq_false_iff_not]
  omega

theorem unitChar?_toNat (c : Char) : unitChar? c.toNat = some c := by
  obtain ⟨high, low⟩ := isHalf_toNat c
  simp [unitChar?, high, low]

/-- The escape of a character is read alone, whatever stands behind it. -/
theorem unitEscape_char {a b c d char : Char} (digits : unit? [a, b, c, d] = some char.toNat)
    (more : rest ≠ []) : unitEscape ('u' :: a :: b :: c :: d :: rest) = .ok (some char, 5) := by
  have some' : rest.isEmpty = false := by simpa using more
  have first : unit? (a :: b :: c :: d :: rest) = some char.toNat := digits
  simp [unitEscape, first, some', (isHalf_toNat char).1, unitChar?_toNat]

/-- Two halves of a character are read together. -/
theorem unitEscape_two {a b c d e f g h : Char} {high low : Nat}
    (first : unit? [a, b, c, d] = some high) (isHigh : isHighHalf high = true)
    (second : unit? [e, f, g, h] = some low) (isLow : isLowHalf low = true) (more : rest ≠ []) :
    unitEscape ('u' :: a :: b :: c :: d :: '\\' :: 'u' :: e :: f :: g :: h :: rest) =
      .ok (some (Char.ofNat (0x10000 + (high - 0xd800) * 0x400 + (low - 0xdc00))), 11) := by
  have some' : rest.isEmpty = false := by simpa using more
  have one : ∀ cs, unit? (a :: b :: c :: d :: cs) = some high := fun _ => first
  have two : ∀ cs, unit? (e :: f :: g :: h :: cs) = some low := fun _ => second
  simp [unitEscape, one, two, isHigh, isLow, some']

theorem joined_of_chars (read rest : List Char) :
    joined (read.map some) rest = .ok (String.ofList read.reverse, rest) := by
  simp [joined]

/-- A string is read up to the quote that ends it. -/
theorem stringFrom_of_spells (spells : Spells text read)
    (start before rest : List Char) :
    stringFrom start 0 (before.map some) (text ++ '"' :: rest) =
      .ok (String.ofList (before.reverse ++ read), rest) := by
  induction spells generalizing before with
  | nil => simpa [stringFrom] using joined_of_chars before rest
  | @raw c _ _ quote slash control _ ih =>
    have longer := ih (c :: before)
    simpa [stringFrom, quote, slash, Nat.not_lt.mpr control] using longer
  | @escape letter c _ _ known _ ih =>
    have longer := ih (c :: before)
    simpa [stringFrom, known, plainEscape?_ne_u known] using longer
  | @unit _ _ _ _ char _ _ digits _ ih =>
    have longer := ih (char :: before)
    simpa [stringFrom, unitEscape_char digits] using longer
  | @pair _ _ _ _ _ _ _ _ high low _ _ first isHigh second isLow _ ih =>
    have longer := ih (Char.ofNat (0x10000 + (high - 0xd800) * 0x400 + (low - 0xdc00)) :: before)
    simpa [stringFrom, unitEscape_two first isHigh second isLow] using longer

theorem string_of_quotes {s : String} (quotes : Quotes text s) (rest : List Char) :
    ∃ body, text ++ rest = '"' :: body ∧ string body = .ok (s, rest) := by
  obtain ⟨spells⟩ := quotes
  rename_i text read
  refine ⟨text ++ '"' :: rest, by simp, ?_⟩
  exact stringFrom_of_spells spells _ [] rest

/-! ## Numbers -/

/-- A text that cannot go on a number. -/
def EndsNumber (rest : List Char) : Prop :=
  ∀ c ∈ rest.head?, c.isDigit = false ∧ c ≠ '.' ∧ c ≠ 'e' ∧ c ≠ 'E'

theorem digits_append {ds rest : List Char} (all : ∀ c ∈ ds, c.isDigit)
    (stop : ∀ c ∈ rest.head?, c.isDigit = false) : digits (ds ++ rest) = (ds, rest) := by
  have none_left : rest.takeWhile Char.isDigit = [] ∧ rest.dropWhile Char.isDigit = rest := by
    cases rest with
    | nil => exact ⟨rfl, rfl⟩
    | cons c rest => simp [stop c rfl]
  rw [digits, List.takeWhile_append_of_pos all, List.dropWhile_append_of_pos all, none_left.1,
    none_left.2, List.append_nil]

theorem wholePart_append {ds rest : List Char} (whole : IsWhole ds)
    (stop : ∀ c ∈ rest.head?, c.isDigit = false) : wholePart (ds ++ rest) = (ds, rest) := by
  obtain ⟨some_digit, all, zero_alone⟩ := whole
  cases ds with
  | nil => exact absurd rfl some_digit
  | cons c ds =>
    by_cases zero : c = '0'
    · subst zero
      rw [zero_alone rfl]
      rfl
    · rw [← digits_append all stop]
      simp [wholePart, zero]

theorem fractionPart_append {fraction behind rest : List Char}
    (fractional : Fraction fraction behind)
    (stop : ∀ c ∈ rest.head?, c.isDigit = false ∧ c ≠ '.') :
    fractionPart (fraction ++ rest) = (behind, rest) := by
  cases fractional with
  | absent =>
    cases rest with
    | nil => rfl
    | cons c rest => simp [fractionPart, (stop c rfl).2]
  | present some_digit all =>
    rw [List.cons_append, fractionPart, digits_append all fun c first => (stop c first).1]
    cases behind with
    | nil => exact absurd rfl some_digit
    | cons c ds => rfl

theorem sign_append {sign ds : List Char} (signs : sign = [] ∨ sign = ['+'] ∨ sign = ['-'])
    (some_digit : ds ≠ []) (all : ∀ c ∈ ds, c.isDigit) (rest : List Char) :
    Numeral.sign (sign ++ (ds ++ rest)) = (sign == ['-'], ds ++ rest) := by
  cases ds with
  | nil => exact absurd rfl some_digit
  | cons c ds =>
    have digit := all c List.mem_cons_self
    have plus : c ≠ '+' := by
      rintro rfl
      exact absurd digit (by decide)
    have minus : c ≠ '-' := by
      rintro rfl
      exact absurd digit (by decide)
    rcases signs with rfl | rfl | rfl
    · simp [Numeral.sign, plus, minus]
    · rfl
    · rfl

theorem exponentPart_append {exponent rest : List Char} {e : Option Int}
    (exponential : Exponent exponent e) (stop : EndsNumber rest) :
    exponentPart (exponent ++ rest) = (e, rest) := by
  cases exponential with
  | absent =>
    cases rest with
    | nil => rfl
    | cons c rest => simp [exponentPart, (stop c rfl).2.2]
  | @present mark sign ds marks signs some_digit all =>
    have signed := sign_append signs some_digit all rest
    have found := digits_append all fun c first => (stop c first).1
    rw [List.cons_append, List.append_assoc, exponentPart, if_pos marks, signed]
    cases ds with
    | nil => exact absurd rfl some_digit
    | cons d ds => simp only [found]

/-- Neither a fraction nor an exponent begins with a digit, and what begins with a point is a
fraction. -/
theorem head_of_exponent {exponent rest : List Char} {e : Option Int}
    (exponential : Exponent exponent e) (stop : EndsNumber rest) :
    ∀ c ∈ (exponent ++ rest).head?, c.isDigit = false ∧ c ≠ '.' := by
  cases exponential with
  | absent => exact fun c first => ⟨(stop c first).1, (stop c first).2.1⟩
  | present marks _ _ _ =>
    intro c first
    cases first
    rcases marks with rfl | rfl <;> decide

theorem head_of_fraction {fraction behind rest : List Char} (fractional : Fraction fraction behind)
    (stop : ∀ c ∈ rest.head?, c.isDigit = false) :
    ∀ c ∈ (fraction ++ rest).head?, c.isDigit = false := by
  cases fractional with
  | absent => exact stop
  | present _ _ =>
    intro c first
    cases first
    decide

theorem unsigned_of_whole {ds rest : List Char} (whole : IsWhole ds)
    (short : ds.length ≤ Numeral.maxDigits) (stop : EndsNumber rest) (start : List Char)
    (negative : Bool) : unsigned start negative (ds ++ rest) =
      .ok (.int (Double.signed negative (Text.numeral 0 ds)), rest) := by
  have first := wholePart_append whole fun c first => (stop c first).1
  have second := fractionPart_append .absent (fun c first => ⟨(stop c first).1, (stop c first).2.1⟩)
  have third := exponentPart_append .absent stop
  rw [List.nil_append] at second third
  simp [unsigned, first, second, third, whole.some_digit, Nat.not_lt.mpr short]

theorem unsigned_of_decimal {ds fraction behind exponent rest : List Char} {e : Option Int}
    (whole : IsWhole ds) (fractional : Fraction fraction behind)
    (exponential : Exponent exponent e) (more : fraction ≠ [] ∨ exponent ≠ [])
    (stop : EndsNumber rest) (start : List Char) (negative : Bool) :
    unsigned start negative (ds ++ (fraction ++ (exponent ++ rest))) =
      .ok (.real (Double.ofDecimal negative (Text.numeral 0 (ds ++ behind))
        (e.getD 0 - behind.length)), rest) := by
  have stop₂ := head_of_exponent exponential stop
  have stop₁ := head_of_fraction fractional fun c first => (stop₂ c first).1
  have real : ¬ (behind = [] ∧ e = none) := by
    rintro ⟨none_behind, rfl⟩
    cases exponential
    cases fractional with
    | absent => simp at more
    | present some_digit _ => exact some_digit none_behind
  simp [unsigned, wholePart_append whole stop₁, fractionPart_append fractional stop₂,
    exponentPart_append exponential stop, whole.some_digit, real]

theorem number_minus {ds : List Char} (whole : IsWhole ds) (negative : Bool) (rest : List Char) :
    number (minus negative ++ (ds ++ rest)) =
      unsigned (minus negative ++ (ds ++ rest)) negative (ds ++ rest) := by
  cases negative with
  | true => rfl
  | false =>
    cases ds with
    | nil => exact absurd rfl whole.some_digit
    | cons c ds =>
      have digit := whole.digits c List.mem_cons_self
      have other : c ≠ '-' := by
        rintro rfl
        exact absurd digit (by decide)
      simp [number, minus, other]

/-- No digit or sign begins a word, and behind a minus no word goes on with a digit. -/
theorem plain_of_digits {ds : List Char} (whole : IsWhole ds) (negative : Bool) (rest : List Char) :
    plain (minus negative ++ (ds ++ rest)) = number (minus negative ++ (ds ++ rest)) := by
  have none_found : (words.find? fun word =>
      word.1.toList.isPrefixOf (minus negative ++ (ds ++ rest))) = none := by
    cases ds with
    | nil => exact absurd rfl whole.some_digit
    | cons c ds =>
      have digit := whole.digits c List.mem_cons_self
      have letter : ∀ l : Char, l.isDigit = false → l ≠ c := by
        rintro l other rfl
        rw [digit] at other
        cases other
      cases negative <;> simp [words, minus, letter]
  rw [plain, none_found]

/-- A number is read as far as it goes. -/
theorem plain_of_numeric {v : Value} (numeric : Numeric text v) (stop : EndsNumber rest) :
    plain (text ++ rest) = .ok (v, rest) := by
  cases numeric with
  | whole negative whole short =>
    rw [List.append_assoc, plain_of_digits whole, number_minus whole,
      unsigned_of_whole whole short stop]
  | decimal negative whole fractional exponential more =>
    simp only [List.append_assoc]
    rw [plain_of_digits whole, number_minus whole,
      unsigned_of_decimal whole fractional exponential more stop]

/-! ## Values -/

/-- What stands behind a part of a list or an object, up to its end. -/
def closing (last : Char) : List (List Char) → List Char
  | [] => [last]
  | part :: parts => ',' :: (part ++ closing last parts)

theorem enclosed_cons (first last : Char) (blank part : List Char) (parts : List (List Char)) :
    enclosed first last blank (part :: parts) =
      first :: (blank ++ (part ++ closing last parts)) := by
  have joined : List.intercalate [','] (part :: parts) ++ [last] = part ++ closing last parts := by
    induction parts generalizing part with
    | nil => simp [closing]
    | cons other parts ih => simp [List.intercalate_cons_cons, closing, ih]
  rw [enclosed, joined]

theorem endsNumber_of_head (head : ∀ c ∈ rest.head?, isBlank c ∨ c = ',' ∨ c = ']' ∨ c = '\x7d') :
    EndsNumber rest := by
  intro c first
  rcases head c first with blank | rfl | rfl | rfl
  · rcases isBlank_iff.mp blank with rfl | rfl | rfl | rfl <;> decide
  all_goals decide

theorem endsNumber_after {after : List Char} (blanks : ∀ c ∈ after, isBlank c) {sign : Char}
    (stops : isBlank sign ∨ sign = ',' ∨ sign = ']' ∨ sign = '\x7d') (rest : List Char) :
    EndsNumber (after ++ sign :: rest) := by
  refine endsNumber_of_head fun c first => ?_
  cases after with
  | nil =>
    cases first
    exact stops
  | cons blank after =>
    cases first
    exact .inl (blanks _ List.mem_cons_self)

/-- The characters that may stand outside strings: blanks and what is printable in ASCII. -/
def isOrdinary (c : Char) : Bool := isBlank c || (32 ≤ c.toNat && c.toNat < 127)

/-- A text whose first character is ordinary, but neither blank nor a closing bracket. -/
def Solid (text : List Char) : Prop :=
  ∃ c more, text = c :: more ∧ isBlank c = false ∧ isOrdinary c = true ∧ c ≠ ']' ∧ c ≠ '\x7d'

theorem Solid.skip_text (solid : Solid text) (rest : List Char) :
    skip (text ++ rest) = text ++ rest := by
  obtain ⟨c, more, rfl, notBlank, -⟩ := solid
  exact skip_of_not_blank notBlank _

theorem Solid.skip_chars {p : Padded} (solid : Solid p.text) (rest : List Char) :
    skip (p.chars ++ rest) = p.text ++ (p.after ++ rest) := by
  rw [Padded.chars_append, skip_append p.blank_before, solid.skip_text]

theorem isOrdinary_of_isDigit {c : Char} (digit : c.isDigit) : isOrdinary c = true := by
  have := Text.toNat_of_isDigit digit
  simp only [isOrdinary, Bool.or_eq_true, Bool.and_eq_true, decide_eq_true_eq]
  omega

theorem head_of_whole {ds : List Char} (whole : IsWhole ds) (negative : Bool) (rest : List Char) :
    ∃ c more, minus negative ++ (ds ++ rest) = c :: more ∧ (c = '-' ∨ c.isDigit) := by
  cases negative with
  | true => exact ⟨_, _, rfl, .inl rfl⟩
  | false =>
    cases ds with
    | nil => exact absurd rfl whole.some_digit
    | cons c ds => exact ⟨c, _, rfl, .inr (whole.digits c List.mem_cons_self)⟩

theorem head_of_numeric {v : Value} (numeric : Numeric text v) :
    ∃ c more, text = c :: more ∧ (c = '-' ∨ c.isDigit) := by
  cases numeric with
  | whole negative whole _ =>
    have := head_of_whole whole negative []
    rwa [List.append_nil] at this
  | decimal negative whole _ _ _ => exact head_of_whole whole negative _

theorem Quotes.solid {s : String} (quotes : Quotes text s) : Solid text := by
  cases quotes
  exact ⟨_, _, rfl, by decide, by decide, by decide, by decide⟩

theorem Writes.solid {v : Value} (writes : Writes text v) : Solid text := by
  cases writes with
  | number numeric =>
    obtain ⟨c, more, rfl, begins⟩ := head_of_numeric numeric
    refine ⟨c, more, rfl, Bool.eq_false_iff.mpr fun blank => ?_, ?_, ?_, ?_⟩
    · rcases isBlank_iff.mp blank with rfl | rfl | rfl | rfl <;> exact absurd begins (by decide)
    · rcases begins with rfl | digit
      · decide
      · exact isOrdinary_of_isDigit digit
    · rintro rfl
      exact absurd begins (by decide)
    · rintro rfl
      exact absurd begins (by decide)
  | str quotes => exact quotes.solid
  | _ => exact ⟨_, _, rfl, by decide, by decide, by decide, by decide⟩

/-- A text is read as a value with whatever follows it, if that does not go on a number. -/
def Reads (text : List Char) (v : Value) : Prop :=
  ∀ steps rest, text.length ≤ steps → EndsNumber rest → value steps (text ++ rest) = .ok (v, rest)

theorem items_last {steps : Nat} {cs after : List Char} {v : Value}
    (read : value steps cs = .ok (v, after)) (close : skip after = ']' :: rest)
    (before : List Value) :
    items (steps + 1) before cs = .ok (.list (before.reverse ++ [v]), rest) := by
  simp [items, read, close]

theorem items_next {steps : Nat} {cs after : List Char} {v : Value}
    (read : value steps cs = .ok (v, after)) (comma : skip after = ',' :: rest)
    (before : List Value) :
    items (steps + 1) before cs = items steps (v :: before) (skip rest) := by
  simp [items, read, comma]

theorem closing_items (next : Padded × Value) (more : List (Padded × Value)) (last : Char)
    (rest : List Char) : closing last ((next :: more).map (·.1.chars)) ++ rest =
      ',' :: (next.1.before ++ (next.1.text ++ (next.1.after ++
        (closing last (more.map (·.1.chars)) ++ rest)))) := by
  simp [closing, Padded.chars_append]

theorem items_of_reads (item : Padded × Value) (more : List (Padded × Value))
    (each : ∀ i ∈ item :: more, Solid i.1.text ∧ Reads i.1.text i.2) (steps : Nat)
    (enough : (item.1.text ++ (item.1.after ++ closing ']' (more.map (·.1.chars)))).length ≤ steps)
    (before : List Value) (rest : List Char) :
    items steps before
        (item.1.text ++ (item.1.after ++ (closing ']' (more.map (·.1.chars)) ++ rest))) =
      .ok (.list (before.reverse ++ (item :: more).map (·.2)), rest) := by
  induction more generalizing item steps before with
  | nil =>
    obtain ⟨-, reads⟩ := each item List.mem_cons_self
    simp only [List.map_nil, closing, List.length_append, List.length_singleton] at enough ⊢
    obtain ⟨steps, rfl⟩ : ∃ fewer, steps = fewer + 1 := ⟨steps - 1, by omega⟩
    have value := reads steps _ (by omega)
      (endsNumber_after item.1.blank_after (.inr (.inr (.inl rfl))) rest)
    exact items_last value (skip_to item.1.blank_after (by decide) _) before
  | cons next more ih =>
    obtain ⟨-, reads⟩ := each item List.mem_cons_self
    obtain ⟨solid, -⟩ := each next (List.mem_cons_of_mem _ List.mem_cons_self)
    simp only [List.map_cons, closing, Padded.length_chars, List.length_append,
      List.length_cons] at enough
    obtain ⟨steps, rfl⟩ : ∃ fewer, steps = fewer + 1 := ⟨steps - 1, by omega⟩
    have value := fun rest =>
      reads steps _ (by omega) (endsNumber_after item.1.blank_after (.inr (.inl rfl)) rest)
    have later := ih next (fun i member => each i (List.mem_cons_of_mem _ member)) steps
      (by simp only [List.length_append]; omega) (item.2 :: before)
    rw [closing_items, items_next (value _) (skip_to item.1.blank_after (by decide) _),
      skip_append next.1.blank_before, solid.skip_text, later]
    simp

theorem fields_last {steps : Nat} {cs body after : List Char} {key : String} {v : Value}
    (name : ∃ quoted, cs = '"' :: quoted ∧ string quoted = .ok (key, after))
    (colon : skip after = ':' :: body) {inside after : List Char} (start : skip body = inside)
    (read : value steps inside = .ok (v, after)) (close : skip after = '\x7d' :: rest)
    (before : Fields) :
    fields (steps + 1) before cs = .ok (.obj (Entries.set before key v), rest) := by
  obtain ⟨quoted, rfl, name⟩ := name
  simp [fields, name, colon, start, read, close]

theorem fields_next {steps : Nat} {cs body after : List Char} {key : String} {v : Value}
    (name : ∃ quoted, cs = '"' :: quoted ∧ string quoted = .ok (key, after))
    (colon : skip after = ':' :: body) {inside after : List Char} (start : skip body = inside)
    (read : value steps inside = .ok (v, after)) (comma : skip after = ',' :: rest)
    (before : Fields) :
    fields (steps + 1) before cs = fields steps (Entries.set before key v) (skip rest) := by
  obtain ⟨quoted, rfl, name⟩ := name
  simp [fields, name, colon, start, read, comma]

theorem closing_members (next : Member × Value) (more : List (Member × Value)) (last : Char)
    (rest : List Char) : closing last ((next :: more).map (·.1.chars)) ++ rest =
      ',' :: (next.1.name.before ++ (next.1.name.text ++ (next.1.name.after ++
        ':' :: (next.1.body.chars ++ (closing last (more.map (·.1.chars)) ++ rest))))) := by
  simp [closing, Member.chars, Padded.chars_append]

theorem fields_of_reads (member : Member × Value) (more : List (Member × Value))
    (each : ∀ m ∈ member :: more, Solid m.1.body.text ∧ Reads m.1.body.text m.2) (steps : Nat)
    (enough : (member.1.name.text ++ (member.1.name.after ++ ':' :: (member.1.body.chars ++
      closing '\x7d' (more.map (·.1.chars))))).length ≤ steps) (before : Fields)
    (rest : List Char) :
    fields steps before (member.1.name.text ++ (member.1.name.after ++ ':' ::
        (member.1.body.chars ++ (closing '\x7d' (more.map (·.1.chars)) ++ rest)))) =
      .ok (.obj (Entries.update before
        ((member :: more).map fun m => (m.1.key, m.2))), rest) := by
  induction more generalizing member steps before with
  | nil =>
    obtain ⟨solid, reads⟩ := each member List.mem_cons_self
    simp only [List.map_nil, closing, Padded.length_chars, List.length_append,
      List.length_cons] at enough
    obtain ⟨steps, rfl⟩ : ∃ fewer, steps = fewer + 1 := ⟨steps - 1, by omega⟩
    have value := reads steps _ (by omega)
      (endsNumber_after member.1.body.blank_after (.inr (.inr (.inr rfl))) rest)
    exact fields_last (string_of_quotes member.1.quotes _)
      (skip_to member.1.name.blank_after (by decide) _) (solid.skip_chars _) value
      (skip_to member.1.body.blank_after (by decide) _) before
  | cons next more ih =>
    obtain ⟨solid, reads⟩ := each member List.mem_cons_self
    simp only [List.map_cons, closing, Member.length_chars, Padded.length_chars,
      List.length_append, List.length_cons] at enough
    obtain ⟨steps, rfl⟩ : ∃ fewer, steps = fewer + 1 := ⟨steps - 1, by omega⟩
    have value := fun rest =>
      reads steps _ (by omega) (endsNumber_after member.1.body.blank_after (.inr (.inl rfl)) rest)
    have later := ih next (fun m found => each m (List.mem_cons_of_mem _ found)) steps
      (by simp only [Padded.length_chars, List.length_append, List.length_cons]; omega)
      (Entries.set before member.1.key member.2)
    rw [closing_members, fields_next (string_of_quotes member.1.quotes _)
      (skip_to member.1.name.blank_after (by decide) _) (solid.skip_chars _) (value _)
      (skip_to member.1.body.blank_after (by decide) _), skip_append next.1.name.blank_before,
      next.1.quotes.solid.skip_text, later]
    rfl

theorem value_of_quotes {s : String} (quotes : Quotes text s) : Reads text (.str s) := by
  intro steps rest enough _
  have size : text ≠ [] := by
    rintro rfl
    cases quotes
  obtain ⟨steps, rfl⟩ : ∃ fewer, steps = fewer + 1 :=
    ⟨steps - 1, by have := List.length_pos_iff.mpr size; omega⟩
  obtain ⟨inside, begins, read⟩ := string_of_quotes quotes rest
  rw [begins, value, read]
  rfl

theorem value_items {cs more : List Char} {c : Char} (begins : skip cs = c :: more)
    (notEnd : c ≠ ']') (steps : Nat) :
    value (steps + 1) ('[' :: cs) = items steps [] (c :: more) := by
  simp [value, begins, notEnd]

theorem value_fields {cs more : List Char} {c : Char} (begins : skip cs = c :: more)
    (notEnd : c ≠ '\x7d') (steps : Nat) :
    value (steps + 1) ('\x7b' :: cs) = fields steps [] (c :: more) := by
  simp [value, begins, notEnd]

theorem value_of_list {blank : List Char} (blanks : ∀ c ∈ blank, isBlank c)
    (items : List (Padded × Value)) (each : ∀ i ∈ items, Solid i.1.text ∧ Reads i.1.text i.2) :
    Reads (enclosed '[' ']' blank (items.map (·.1.chars))) (.list (items.map (·.2))) := by
  intro steps rest enough _
  obtain ⟨steps, rfl⟩ : ∃ fewer, steps = fewer + 1 :=
    ⟨steps - 1, by simp [enclosed] at enough; omega⟩
  cases items with
  | nil => simp [enclosed, value, skip_append blanks, skip_of_not_blank, isBlank]
  | cons item more =>
    obtain ⟨solid, -⟩ := each item List.mem_cons_self
    rw [List.map_cons, enclosed_cons] at enough ⊢
    simp only [List.length_cons, List.length_append, Padded.length_chars] at enough
    have all := items_of_reads item more each steps
      (by simp only [List.length_append]; omega) [] rest
    have start : skip (blank ++ (item.1.chars ++ closing ']' (more.map (·.1.chars))) ++ rest) =
        item.1.text ++ (item.1.after ++ (closing ']' (more.map (·.1.chars)) ++ rest)) := by
      rw [List.append_assoc, skip_append blanks, List.append_assoc, solid.skip_chars]
    obtain ⟨c, text, begins, -, -, notEnd, -⟩ := solid
    rw [begins] at all start
    rw [List.cons_append, value_items start notEnd]
    exact all

theorem value_of_obj {blank : List Char} (blanks : ∀ c ∈ blank, isBlank c)
    (members : List (Member × Value))
    (each : ∀ m ∈ members, Solid m.1.body.text ∧ Reads m.1.body.text m.2) :
    Reads (enclosed '\x7b' '\x7d' blank (members.map (·.1.chars)))
      (.obj (Entries.update [] (members.map fun member => (member.1.key, member.2)))) := by
  intro steps rest enough _
  obtain ⟨steps, rfl⟩ : ∃ fewer, steps = fewer + 1 :=
    ⟨steps - 1, by simp [enclosed] at enough; omega⟩
  cases members with
  | nil => simp [enclosed, value, skip_append blanks, skip_of_not_blank, isBlank, Entries.update]
  | cons member more =>
    rw [List.map_cons, enclosed_cons] at enough ⊢
    simp only [List.length_cons, List.length_append, Member.length_chars,
      Padded.length_chars] at enough
    have all := fields_of_reads member more each steps
      (by simp only [List.length_append, List.length_cons, Padded.length_chars]; omega) [] rest
    have solid := member.1.quotes.solid
    have start : skip (blank ++ (member.1.chars ++ closing '\x7d' (more.map (·.1.chars))) ++ rest) =
        member.1.name.text ++ (member.1.name.after ++ ':' ::
          (member.1.body.chars ++ (closing '\x7d' (more.map (·.1.chars)) ++ rest))) := by
      rw [List.append_assoc, skip_append blanks, List.append_assoc, Member.chars,
        List.append_assoc, Padded.chars_append, skip_append member.1.name.blank_before,
        solid.skip_text, List.cons_append]
    obtain ⟨c, name, begins, -, -, -, notEnd⟩ := solid
    rw [begins] at all start
    rw [List.cons_append, value_fields start notEnd]
    exact all

theorem value_of_word {word : List Char} {v : Value} (some_char : word ≠ [])
    (read : ∀ steps rest, value (steps + 1) (word ++ rest) = .ok (v, rest)) : Reads word v := by
  intro steps rest enough _
  obtain ⟨steps, rfl⟩ : ∃ fewer, steps = fewer + 1 :=
    ⟨steps - 1, by have := List.length_pos_iff.mpr some_char; omega⟩
  exact read steps rest

theorem value_of_numeric {v : Value} (numeric : Numeric text v) : Reads text v := by
  intro steps rest enough stop
  have number := plain_of_numeric numeric stop
  obtain ⟨c, more, rfl, begins⟩ := head_of_numeric numeric
  obtain ⟨steps, rfl⟩ : ∃ fewer, steps = fewer + 1 :=
    ⟨steps - 1, by simp at enough; omega⟩
  have other : ∀ bracket : Char, bracket ≠ '-' → bracket.isDigit = false → c ≠ bracket := by
    rintro bracket notMinus notDigit rfl
    simp [notMinus, notDigit] at begins
  rw [← number]
  simp [value, other]

/-- The reader gives what a text writes, and leaves what follows the text. -/
theorem value_of_writes {v : Value} (writes : Writes text v) : Reads text v := by
  induction writes with
  | null => exact value_of_word (by simp) fun _ _ => rfl
  | true => exact value_of_word (by simp) fun _ _ => rfl
  | false => exact value_of_word (by simp) fun _ _ => rfl
  | number numeric => exact value_of_numeric numeric
  | str quotes => exact value_of_quotes quotes
  | list blanks items each ih =>
    exact value_of_list blanks items fun i member => ⟨(each i member).solid, ih i member⟩
  | obj blanks members each ih =>
    exact value_of_obj blanks members fun m member => ⟨(each m member).solid, ih m member⟩

/-! ## Whole texts -/

theorem read_ofList (cs : List Char) :
    Json.read (String.ofList cs) = (document cs).mapError (Stop.fault cs) := by
  rw [Json.read, String.toList_ofList]

theorem read_of_malformed {cs rest : List Char} {problem : Problem}
    (stopped : document cs = .error (.malformed problem rest)) :
    ∃ place, Json.read (String.ofList cs) = .error (.malformed problem place) :=
  ⟨Place.after (cs.take (cs.length - rest.length)), by rw [read_ofList, stopped]; rfl⟩

theorem Solid.append (solid : Solid text) (rest : List Char) : Solid (text ++ rest) := by
  obtain ⟨c, more, rfl, first⟩ := solid
  exact ⟨c, more ++ rest, rfl, first⟩

theorem document_of_solid {blank : List Char} (blanks : ∀ c ∈ blank, isBlank c)
    (solid : Solid text) : document (blank ++ text) =
      match value (2 * (blank ++ text).length + 2) text with
      | .error stop => .error stop
      | .ok (v, rest) =>
        match skip rest with
        | [] => .ok v
        | rest => .error (.malformed .textAfterEnd rest) := by
  have start : skip (blank ++ text) = text := by
    have := solid.skip_text []
    rwa [List.append_nil, ← skip_append blanks] at this
  have unmarked : ∀ rest, blank ++ text ≠ '\ufeff' :: rest := by
    intro rest same
    cases blank with
    | nil =>
      obtain ⟨c, more, rfl, -, ordinary, -⟩ := solid
      cases same
      exact absurd ordinary (by decide)
    | cons c blank =>
      cases same
      exact absurd (blanks _ List.mem_cons_self) (by decide)
  generalize blank ++ text = cs at start unmarked
  unfold document
  split
  · rename_i rest
    exact absurd rfl (unmarked rest)
  · rw [start]
    cases value (2 * cs.length + 2) text <;> rfl

/-- A text with blanks around it is read as the value that it writes. -/
theorem read_of_writes {p : Padded} {v : Value} (writes : Writes p.text v) :
    Json.read (String.ofList p.chars) = .ok v := by
  have ends : EndsNumber p.after := endsNumber_of_head fun c first =>
    .inl (p.blank_after c (List.mem_of_mem_head? first))
  have value := value_of_writes writes (2 * p.chars.length + 2) p.after
    (by rw [Padded.length_chars]; omega) ends
  have close : skip p.after = [] := by
    have := skip_append p.blank_after []
    rwa [List.append_nil] at this
  have whole : document p.chars = .ok v := by
    rw [Padded.chars] at value ⊢
    rw [document_of_solid p.blank_before (writes.solid.append p.after), value]
    simp [close]
  rw [read_ofList, whole]
  rfl

end LiveSurface.Json
