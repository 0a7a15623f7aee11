import LiveSurface.Batch
import LiveSurface.Proofs.Json.Cut
import LiveSurface.Proofs.Text.Lines

/-!
# Messages in lines

A text of rows, each of them blank or one message, is cut into lines not only at its line feeds. So
more than one message is read back exactly if no message holds a character that ends a line
(`read_of_rows`). Such a character can stand in the strings of a message alone.
-/
namespace LiveSurface

namespace Batch

open Json

/-! ## Rows -/

/-- A row of a text: blanks, or a message with blanks around it. -/
inductive Row
  | blank (cs : List Char)
  | message (written : Padded) (fields : Fields)

namespace Row

/-- The characters of a row. -/
def chars : Row → List Char
  | blank cs => cs
  | message written _ => written.chars

/-- The message of a row. -/
def message? : Row → Option Value
  | blank _ => none
  | message _ fields => some (.obj fields)

/-- The row holds what it should, and neither a line feed nor a carriage return. -/
structure Proper (row : Row) : Prop where
  unbroken : ∀ c ∈ row.chars, c ≠ '\n' ∧ c ≠ '\r'
  blanks : ∀ cs, row = blank cs → ∀ c ∈ cs, Text.isBlank c
  writes : ∀ written fields, row = message written fields → Writes written.text (.obj fields)

/-- No character of the message ends a line. -/
def Intact : Row → Prop
  | blank _ => True
  | message written _ => ∀ c ∈ written.text, Text.isLineEnd c = false

instance : (row : Row) → Decidable row.Intact
  | blank _ => inferInstanceAs (Decidable True)
  | message written _ =>
    decidable_of_iff (written.text.all fun c => !Text.isLineEnd c) (by simp [Intact])

end Row

/-- The text of rows, with line feeds between them. -/
def text (rows : List Row) : List Char := List.intercalate ['\n'] (rows.map Row.chars)

/-- The messages of rows. -/
def messages (rows : List Row) : List Value := rows.filterMap Row.message?

/-! ## Lines that are read -/

/-- The lines that are read, given the reversed beginning of the current line. -/
def spokenFrom (current cs : List Char) : List String :=
  ((Text.linesFrom current cs).map String.ofList).filter fun line => Text.trim line ≠ ""

theorem readLines_ofList (cs : List Char) :
    readLines (String.ofList cs) = (spokenFrom [] cs).mapM Json.read := by
  rw [readLines, Text.lines, String.toList_ofList, spokenFrom]

theorem trim_ofList_eq_empty_iff {cs : List Char} :
    Text.trim (String.ofList cs) = "" ↔ ∀ c ∈ cs, Text.isBlank c := by
  rw [Text.trim, String.toList_ofList, ← Text.trimBy_eq_nil_iff, ← String.toList_inj,
    String.toList_ofList]
  rfl

/-- What ends a line parts what is read before it from what is read behind it. -/
theorem spokenFrom_end {c : Char} (ends : Text.isLineEnd c = true) (other : c ≠ '\r')
    (current rest : List Char) :
    spokenFrom current (c :: rest) = spokenFrom current [] ++ spokenFrom [] rest := by
  have blank : Text.trim "" = "" := by decide
  rw [spokenFrom, Text.linesFrom_cons other, if_pos ends]
  cases current with
  | nil => simp [spokenFrom, Text.linesFrom, blank]
  | cons d current =>
    rw [← List.singleton_append, List.map_append, List.filter_append]
    rfl

theorem spokenFrom_go {c : Char} (plain : Text.isLineEnd c = false) (other : c ≠ '\r')
    (current rest : List Char) :
    spokenFrom current (c :: rest) = spokenFrom (c :: current) rest := by
  rw [spokenFrom, Text.linesFrom_cons other, plain]
  rfl

/-- A line feed parts a text into two that are read apart. -/
theorem spokenFrom_append {cs : List Char} (noReturn : ∀ c ∈ cs, c ≠ '\r')
    (current rest : List Char) :
    spokenFrom current (cs ++ '\n' :: rest) = spokenFrom current cs ++ spokenFrom [] rest := by
  induction cs generalizing current with
  | nil => exact spokenFrom_end (by decide) (by decide) current rest
  | cons c cs ih =>
    obtain ⟨other, noReturn⟩ := List.forall_mem_cons.mp noReturn
    rw [List.cons_append]
    cases ends : Text.isLineEnd c with
    | true =>
      rw [spokenFrom_end ends other, spokenFrom_end ends other, ih noReturn, List.append_assoc]
    | false => rw [spokenFrom_go ends other, spokenFrom_go ends other, ih noReturn]

theorem spokenFrom_of_blank {cs : List Char} (blanks : ∀ c ∈ cs, Text.isBlank c) :
    spokenFrom [] cs = [] := by
  refine List.filter_eq_nil_iff.mpr fun line member => ?_
  obtain ⟨chars, found, rfl⟩ := List.mem_map.mp member
  have inside : ∀ c ∈ chars, Text.isBlank c := fun c member =>
    blanks c ((Text.mem_of_mem_linesFrom [] cs chars found c member).resolve_left (by simp))
  have blank : Text.trim (String.ofList chars) = "" := trim_ofList_eq_empty_iff.mpr inside
  simp [blank]

/-- A text without ends of lines that is not all blank is one line that is read. -/
theorem spokenFrom_of_plain {cs : List Char} (plain : ∀ c ∈ cs, Text.isLineEnd c = false)
    (solid : ∃ c ∈ cs, Text.isBlank c = false) : spokenFrom [] cs = [String.ofList cs] := by
  obtain ⟨c, member, notBlank⟩ := solid
  have spoken : Text.trim (String.ofList cs) ≠ "" := fun blank => by
    rw [trim_ofList_eq_empty_iff.mp blank c member] at notBlank
    cases notBlank
  rw [spokenFrom, Text.linesFrom_of_plain plain (List.ne_nil_of_mem member)]
  simp [spoken]

theorem spokenFrom_plain {cs : List Char} (plain : ∀ c ∈ cs, Text.isLineEnd c = false)
    (current rest : List Char) :
    spokenFrom current (cs ++ rest) = spokenFrom (cs.reverse ++ current) rest := by
  rw [spokenFrom, Text.linesFrom_append plain, spokenFrom]

/-- A line that is cut off at its first end is read first. -/
theorem spokenFrom_of_cut {head tail : List Char} {e : Char}
    (plain : ∀ c ∈ head, Text.isLineEnd c = false) (ends : Text.isLineEnd e = true)
    (other : e ≠ '\r') (solid : ∃ c ∈ head, Text.isBlank c = false) :
    spokenFrom [] (head ++ e :: tail) = String.ofList head :: spokenFrom [] tail := by
  have begun : spokenFrom [] (head ++ e :: tail) = spokenFrom [] head ++ spokenFrom [] tail := by
    have whole := spokenFrom_plain plain [] []
    rw [List.append_nil] at whole
    rw [spokenFrom_plain plain, spokenFrom_end ends other, whole]
  rw [begun, spokenFrom_of_plain plain solid, List.singleton_append]

/-! ## Rows and lines -/

namespace Row

theorem braces {text : List Char} {fields : Fields} (writes : Writes text (.obj fields)) :
    ∃ inside, text = '\x7b' :: (inside ++ ['\x7d']) := by
  cases writes with
  | number numeric => cases numeric
  | obj blanks members each => exact ⟨_, by rw [enclosed, ← List.append_assoc]⟩

variable {written : Padded} {fields : Fields}

theorem unbroken_pad (proper : (message written fields).Proper) :
    ∀ c ∈ written.before ++ written.after, Text.isLineEnd c = false := by
  intro c member
  have blank : Json.isBlank c := by
    rcases List.mem_append.mp member with first | last
    · exact written.blank_before c first
    · exact written.blank_after c last
  have unbroken := proper.unbroken c (by
    rw [chars, Padded.chars]
    rcases List.mem_append.mp member with first | last <;> simp [*])
  rcases isBlank_iff.mp blank with rfl | rfl | rfl | rfl
  · decide
  · decide
  · exact absurd rfl unbroken.1
  · exact absurd rfl unbroken.2

/-- An intact message is one line, which is read as the message. -/
theorem spoken_of_intact (proper : (message written fields).Proper)
    (intact : (message written fields).Intact) :
    spokenFrom [] written.chars = [String.ofList written.chars] := by
  obtain ⟨inside, braced⟩ := braces (proper.writes _ _ rfl)
  refine spokenFrom_of_plain (fun c member => ?_)
    ⟨'\x7b', by simp [Padded.chars, braced], by decide⟩
  have pad := unbroken_pad proper c
  simp only [Padded.chars, List.mem_append] at member pad
  rcases member with first | text | last
  · exact pad (.inl first)
  · exact intact c text
  · exact pad (.inr last)

/-- What ends a line, but is no line feed or carriage return, stands in strings alone. -/
theorem isOrdinary_of_isLineEnd {e : Char} (ends : Text.isLineEnd e = true) (feed : e ≠ '\n')
    (carriage : e ≠ '\r') : isOrdinary e = false := by
  refine Bool.eq_false_iff.mpr fun ordinary => ?_
  rcases (Bool.or_eq_true _ _).mp ordinary with blank | printable
  · rcases isBlank_iff.mp blank with rfl | rfl | rfl | rfl
    · exact absurd ends (by decide)
    · exact absurd ends (by decide)
    · exact feed rfl
    · exact carriage rfl
  · simp only [Bool.and_eq_true, decide_eq_true_eq] at printable
    simp only [Text.isLineEnd, Bool.or_eq_true, Bool.and_eq_true, decide_eq_true_eq, beq_iff_eq,
      Char.le_def, UInt32.le_iff_toNat_le] at ends
    rcases ends with (((⟨-, low⟩ | ⟨-, low⟩) | rfl) | rfl) | rfl
    · have : e.toNat ≤ 13 := low
      omega
    · have : e.toNat ≤ 30 := low
      omega
    · exact absurd printable (by decide)
    · exact absurd printable (by decide)
    · exact absurd printable (by decide)

/-- The first line of a broken message ends inside a string, and is malformed. -/
theorem spoken_of_broken (proper : (message written fields).Proper)
    (broken : ¬ (message written fields).Intact) :
    ∃ line more, spokenFrom [] written.chars = line :: more ∧
      ∃ problem place, Json.read line = .error (.malformed problem place) := by
  have writes := proper.writes _ _ rfl
  have some_end : (written.text.find? Text.isLineEnd).isSome := by
    simpa [Intact, List.find?_isSome] using broken
  obtain ⟨e, found⟩ := Option.isSome_iff_exists.mp some_end
  obtain ⟨ends, head, tail, cut, plain⟩ := List.find?_eq_some_iff_append.mp found
  have line : written.chars = (written.before ++ head) ++ e :: (tail ++ written.after) := by
    simp [Padded.chars, cut]
  have unbroken := proper.unbroken e (by rw [chars, line]; simp)
  have foreign := isOrdinary_of_isLineEnd ends unbroken.1 unbroken.2
  have solid : Solid head := writes.solid.of_cut (by rw [List.append_nil, cut]) foreign
  have opened : '\x7b' ∈ head := by
    obtain ⟨inside, braced⟩ := braces writes
    obtain ⟨c, more, rfl, -⟩ := solid
    rw [braced] at cut
    rw [(List.cons.inj cut).1]
    exact List.mem_cons_self
  have begins : ∀ c ∈ written.before ++ head, Text.isLineEnd c = false := by
    intro c member
    rcases List.mem_append.mp member with first | inside
    · exact unbroken_pad proper c (List.mem_append_left _ first)
    · simpa using plain c inside
  have solidLine : ∃ c ∈ written.before ++ head, Text.isBlank c = false :=
    ⟨'\x7b', List.mem_append_right _ opened, by decide⟩
  rw [line]
  refine ⟨_, _, spokenFrom_of_cut begins ends unbroken.2 solidLine, ?_⟩
  obtain ⟨problem, rest, bad⟩ := cuts_of_writes writes head e tail cut foreign
    (2 * (written.before ++ head).length + 2) (by rw [List.length_append]; omega)
  have stopped : document (written.before ++ head) = .error (.malformed problem rest) := by
    rw [document_of_solid written.blank_before solid, bad]
  exact ⟨problem, read_of_malformed stopped⟩

end Row

/-- The rows as lines that end in line feeds. -/
def ended (rows : List Row) : List Char := rows.flatMap fun row => row.chars ++ ['\n']

theorem spokenFrom_ended {rows : List Row} (proper : ∀ row ∈ rows, row.Proper) :
    spokenFrom [] (ended rows) = rows.flatMap fun row => spokenFrom [] row.chars := by
  induction rows with
  | nil => rfl
  | cons row rows ih =>
    obtain ⟨first, proper⟩ := List.forall_mem_cons.mp proper
    rw [ended, List.flatMap_cons, List.append_assoc, List.singleton_append, ← ended,
      spokenFrom_append (fun c member => (first.unbroken c member).2), ih proper,
      List.flatMap_cons]

/-- Rows of intact messages are read as their messages. -/
theorem mapM_spoken_of_intact {rows : List Row} (proper : ∀ row ∈ rows, row.Proper)
    (intact : ∀ row ∈ rows, row.Intact) :
    (rows.flatMap fun row => spokenFrom [] row.chars).mapM Json.read = .ok (messages rows) := by
  induction rows with
  | nil => rfl
  | cons row rows ih =>
    obtain ⟨first, proper⟩ := List.forall_mem_cons.mp proper
    obtain ⟨whole, intact⟩ := List.forall_mem_cons.mp intact
    rw [List.flatMap_cons, List.mapM_append, ih proper intact]
    cases row with
    | blank cs =>
      rw [Row.chars, spokenFrom_of_blank (first.blanks cs rfl)]
      rfl
    | message written fields =>
      rw [Row.chars, Row.spoken_of_intact first whole]
      simp [read_of_writes (first.writes _ _ rfl), messages, Row.message?, bind, Except.bind, pure,
        Except.pure]

/-- Rows with a broken message are not read. -/
theorem mapM_spoken_of_broken {rows : List Row} (proper : ∀ row ∈ rows, row.Proper)
    (broken : ∃ row ∈ rows, ¬ row.Intact) : ∃ problem place,
      (rows.flatMap fun row => spokenFrom [] row.chars).mapM Json.read =
        .error (.malformed problem place) := by
  induction rows with
  | nil => simp at broken
  | cons row rows ih =>
    obtain ⟨first, proper⟩ := List.forall_mem_cons.mp proper
    by_cases whole : row.Intact
    · have later : ∃ row ∈ rows, ¬ row.Intact := by
        obtain ⟨other, member, notWhole⟩ := broken
        rcases List.mem_cons.mp member with rfl | member
        · exact absurd whole notWhole
        · exact ⟨other, member, notWhole⟩
      obtain ⟨problem, place, bad⟩ := ih proper later
      have here := @mapM_spoken_of_intact [row] (by simpa using first) (by simpa using whole)
      rw [List.flatMap_singleton] at here
      exact ⟨problem, place, by rw [List.flatMap_cons, List.mapM_append, here, bad]; rfl⟩
    · cases row with
      | blank cs => exact absurd trivial whole
      | message written fields =>
        obtain ⟨line, more, spoken, problem, place, bad⟩ := Row.spoken_of_broken first whole
        refine ⟨problem, place, ?_⟩
        rw [List.flatMap_cons, Row.chars, spoken, List.cons_append, List.mapM_cons, bad]
        rfl

variable {rows : List Row}

theorem messages_append (before after : List Row) :
    messages (before ++ after) = messages before ++ messages after :=
  List.filterMap_append

theorem messages_message (written : Padded) (fields : Fields) (rows : List Row) :
    messages (.message written fields :: rows) = .obj fields :: messages rows :=
  rfl

theorem ended_cons (row : Row) (rows : List Row) :
    ended (row :: rows) = row.chars ++ '\n' :: ended rows := by
  simp [ended]

theorem first_message (rows : List Row) : messages rows = [] ∨ ∃ before written fields after,
    rows = before ++ .message written fields :: after ∧ messages before = [] := by
  induction rows with
  | nil => exact .inl rfl
  | cons row rows ih =>
    cases row with
    | message written fields => exact .inr ⟨[], written, fields, rows, rfl, rfl⟩
    | blank cs =>
      rcases ih with none_there | ⟨before, written, fields, after, rfl, blank⟩
      · exact .inl none_there
      · exact .inr ⟨.blank cs :: before, written, fields, after, rfl, blank⟩

theorem last_message (rows : List Row) : messages rows = [] ∨ ∃ before written fields after,
    rows = before ++ .message written fields :: after ∧ messages after = [] := by
  rcases first_message rows.reverse with none_there | ⟨before, written, fields, after, same, blank⟩
  · rw [messages, List.filterMap_reverse, List.reverse_eq_nil_iff] at none_there
    exact .inl none_there
  · refine .inr ⟨after.reverse, written, fields, before.reverse, ?_, ?_⟩
    · rw [← List.reverse_reverse rows, same]
      simp
    · rw [messages, List.filterMap_reverse, List.reverse_eq_nil_iff]
      exact blank

theorem isBlank_of_messages (proper : ∀ row ∈ rows, row.Proper) (blank : messages rows = []) :
    ∀ c ∈ ended rows, Text.isBlank c := by
  intro c member
  obtain ⟨row, there, inside⟩ := List.mem_flatMap.mp member
  rcases List.mem_append.mp inside with inside | feed
  · cases row with
    | blank cs => exact (proper _ there).blanks cs rfl c inside
    | message written fields =>
      cases List.filterMap_eq_nil_iff.mp blank _ there
  · rw [List.mem_singleton.mp feed]
    decide

theorem isBlank_of_pad {c : Char} (blank : Json.isBlank c) : Text.isBlank c := by
  rcases isBlank_iff.mp blank with rfl | rfl | rfl | rfl <;> decide

theorem ended_eq (some_row : rows ≠ []) : ended rows = text rows ++ ['\n'] := by
  induction rows with
  | nil => exact absurd rfl some_row
  | cons row rows ih =>
    cases rows with
    | nil => simp [ended, text]
    | cons next rows =>
      rw [ended_cons, ih (by simp)]
      simp [text, List.intercalate_cons_cons]

theorem trimBy_text (rows : List Row) :
    Text.trimBy Text.isBlank (text rows) = Text.trimBy Text.isBlank (ended rows) := by
  by_cases none_there : rows = []
  · subst none_there
    rfl
  · rw [ended_eq none_there, Text.trimBy_append_right
      (List.forall_mem_singleton.mpr (by decide))]

theorem noReturn_of_mem_ended (proper : ∀ row ∈ rows, row.Proper) :
    ∀ c ∈ ended rows, c ≠ '\r' := by
  intro c member
  obtain ⟨row, there, inside⟩ := List.mem_flatMap.mp member
  rcases List.mem_append.mp inside with inside | feed
  · exact ((proper row there).unbroken c inside).2
  · rw [List.mem_singleton.mp feed]
    decide

theorem noReturn_of_mem_text (proper : ∀ row ∈ rows, row.Proper) : ∀ c ∈ text rows, c ≠ '\r' := by
  intro c member
  have some_row : rows ≠ [] := by
    rintro rfl
    cases member
  refine noReturn_of_mem_ended proper c ?_
  rw [ended_eq some_row]
  exact List.mem_append_left _ member

theorem read_eq (proper : ∀ row ∈ rows, row.Proper) :
    read (String.ofList (text rows)) =
      if Text.trimBy Text.isBlank (ended rows) = [] then .ok []
      else readTrimmed (String.ofList (Text.trimBy Text.isBlank (ended rows))) := by
  have unified : Text.unified (String.ofList (text rows)) = String.ofList (text rows) := by
    rw [Text.unified, String.toList_ofList, Text.unifyEnds_eq_self (noReturn_of_mem_text proper)]
  have trimmed : Text.trim (String.ofList (text rows)) =
      String.ofList (Text.trimBy Text.isBlank (ended rows)) := by
    rw [Text.trim, String.toList_ofList, trimBy_text]
  have empty : ∀ cs : List Char, String.ofList cs = "" ↔ cs = [] := fun cs => by
    rw [← String.toList_inj, String.toList_ofList]
    rfl
  simp [read, unified, trimmed, empty]

/-! ## What is read -/

theorem head?_braces {cs : List Char} {fields : Fields} (writes : Writes cs (.obj fields)) :
    cs.head? = some '\x7b' ∧ cs.getLast? = some '\x7d' := by
  obtain ⟨inside, rfl⟩ := Row.braces writes
  exact ⟨rfl, by rw [← List.cons_append, List.getLast?_append]; rfl⟩

/-- Between blank rows, a text in braces is what is read, without the blanks around it. -/
theorem read_kept {before after kept : List Char} (proper : ∀ row ∈ rows, row.Proper)
    (shape : ended rows = before ++ (kept ++ after)) (blank : ∀ c ∈ before, Text.isBlank c)
    (blank' : ∀ c ∈ after, Text.isBlank c) (first : kept.head? = some '\x7b')
    (last : kept.getLast? = some '\x7d') :
    read (String.ofList (text rows)) = readTrimmed (String.ofList kept) := by
  have trimmed : Text.trimBy Text.isBlank (ended rows) = kept := by
    rw [shape, Text.trimBy_append_left blank, Text.trimBy_append_right blank',
      Text.trimBy_eq_self_iff, first, last]
    constructor <;> rintro c ⟨⟩ <;> decide
  have some_char : kept ≠ [] := by
    rintro rfl
    cases first
  rw [read_eq proper, trimmed, if_neg some_char]

theorem isBlank_before (proper : ∀ row ∈ rows, row.Proper) (blank : messages rows = [])
    (p : Padded) : ∀ c ∈ ended rows ++ p.before, Text.isBlank c :=
  List.forall_mem_append.mpr
    ⟨isBlank_of_messages proper blank, fun c member => isBlank_of_pad (p.blank_before c member)⟩

theorem isBlank_after (proper : ∀ row ∈ rows, row.Proper) (blank : messages rows = [])
    (p : Padded) : ∀ c ∈ p.after ++ '\n' :: ended rows, Text.isBlank c :=
  List.forall_mem_append.mpr ⟨fun c member => isBlank_of_pad (p.blank_after c member),
    List.forall_mem_cons.mpr ⟨by decide, isBlank_of_messages proper blank⟩⟩

/-- Rows from a first to a last message, without the blanks at the ends. -/
def flushRows (first last : Padded) (f g : Fields) (between : List Row) : List Row :=
  .message first.flushLeft f :: (between ++ [.message last.flushRight g])

/-- The text of these rows. -/
def flushText (first last : Padded) (between : List Row) : List Char :=
  first.text ++ (first.after ++ '\n' :: (ended between ++ (last.before ++ last.text)))

section Many

variable {before between after : List Row} {first last : Padded} {f g : Fields}

theorem ended_flushRows :
    ended (flushRows first last f g between) = flushText first last between ++ ['\n'] := by
  simp [flushRows, flushText, ended, Row.chars, Padded.chars, Padded.flushLeft, Padded.flushRight]

theorem ended_many :
    ended (before ++ .message first f :: (between ++ .message last g :: after)) =
      (ended before ++ first.before) ++
        (flushText first last between ++ (last.after ++ '\n' :: ended after)) := by
  simp [flushText, ended, Row.chars, Padded.chars]

theorem braces_flushText (writes : Writes first.text (.obj f))
    (writes' : Writes last.text (.obj g)) :
    (flushText first last between).head? = some '\x7b' ∧
      (flushText first last between).getLast? = some '\x7d' := by
  rw [flushText, List.head?_append, (head?_braces writes).1, ← List.cons_append,
    ← List.append_assoc, ← List.append_assoc, ← List.append_assoc, List.getLast?_append,
    (head?_braces writes').2]
  exact ⟨rfl, rfl⟩

/-- More than one message is no JSON text. -/
theorem read_flushText (writes : Writes first.text (.obj f)) (writes' : Writes last.text (.obj g)) :
    ∃ place, Json.read (String.ofList (flushText first last between)) =
      .error (.malformed .textAfterEnd place) := by
  obtain ⟨behind, shape⟩ : ∃ behind,
      behind = first.after ++ '\n' :: (ended between ++ (last.before ++ last.text)) := ⟨_, rfl⟩
  have ends : EndsNumber behind := by
    rw [shape]
    exact endsNumber_after first.blank_after (.inl rfl) _
  have more : skip behind ≠ [] := by
    intro none_left
    obtain ⟨inside, braced⟩ := Row.braces writes'
    have := List.dropWhile_eq_nil_iff.mp none_left '\x7b' (by simp [shape, braced])
    exact absurd this (by decide)
  have value := value_of_writes writes (2 * ([] ++ (first.text ++ behind)).length + 2) behind
    (by simp only [List.length_append]; omega) ends
  have stopped : document ([] ++ (first.text ++ behind)) =
      .error (.malformed .textAfterEnd (skip behind)) := by
    rw [document_of_solid (by simp) (writes.solid.append _), value]
    cases left : skip behind with
    | nil => exact absurd left more
    | cons c rest => simp only [left]
  rw [flushText, ← shape]
  exact read_of_malformed stopped

theorem proper_flushRows (proper : (Row.message first f).Proper)
    (proper' : (Row.message last g).Proper) (others : ∀ row ∈ between, row.Proper) :
    ∀ row ∈ flushRows first last f g between, row.Proper := by
  have left : (Row.message first.flushLeft f).Proper :=
    { unbroken := fun c member => proper.unbroken c (List.mem_append_right _ member)
      blanks := nofun
      writes := by
        rintro _ _ ⟨⟩
        exact proper.writes first f rfl }
  have right : (Row.message last.flushRight g).Proper :=
    { unbroken := fun c member => proper'.unbroken c (by
        simp only [Row.chars, Padded.chars, Padded.flushRight, List.append_nil] at member ⊢
        rw [← List.append_assoc]
        exact List.mem_append_left _ member)
      blanks := nofun
      writes := by
        rintro _ _ ⟨⟩
        exact proper'.writes last g rfl }
  rw [flushRows, List.forall_mem_cons, List.forall_mem_append, List.forall_mem_singleton]
  exact ⟨left, others, right⟩

/-- Rows of more than one message are read line by line. -/
theorem read_many (proper : ∀ row ∈ before ++ .message first f ::
      (between ++ .message last g :: after), row.Proper)
    (blank : messages before = []) (blank' : messages after = []) :
    (∀ row ∈ flushRows first last f g between, row.Proper) ∧
      read (String.ofList
          (text (before ++ .message first f :: (between ++ .message last g :: after)))) =
        ((flushRows first last f g between).flatMap fun row => spokenFrom [] row.chars).mapM
          Json.read := by
  have kept := read_kept proper ended_many
  rw [List.forall_mem_append, List.forall_mem_cons, List.forall_mem_append,
    List.forall_mem_cons] at proper
  obtain ⟨properBefore, one, properBetween, other, properAfter⟩ := proper
  have writes := one.writes _ _ rfl
  have writes' := other.writes _ _ rfl
  have proper := proper_flushRows one other properBetween
  refine ⟨proper, ?_⟩
  obtain ⟨opened, closed⟩ := @braces_flushText between _ _ _ _ writes writes'
  rw [kept (isBlank_before properBefore blank first) (isBlank_after properAfter blank' last) opened
    closed]
  obtain ⟨place, unread⟩ := @read_flushText between first last f g writes writes'
  have spoken : spokenFrom [] (flushText first last between) =
      (flushRows first last f g between).flatMap fun row => spokenFrom [] row.chars := by
    have noReturn : ∀ c ∈ flushText first last between, c ≠ '\r' := by
      intro c member
      have inside : c ∈ ended (flushRows first last f g between) := by
        rw [ended_flushRows]
        exact List.mem_append_left _ member
      exact noReturn_of_mem_ended proper c inside
    have parted := spokenFrom_append noReturn [] []
    rw [← ended_flushRows, spokenFrom_ended proper] at parted
    rw [parted]
    exact (List.append_nil _).symm
  rw [readTrimmed, unread, ← spoken, ← readLines_ofList]

end Many

theorem intact_of_messages (blank : messages rows = []) : ∀ row ∈ rows, row.Intact := by
  intro row member
  cases row with
  | blank cs => trivial
  | message written fields => cases List.filterMap_eq_nil_iff.mp blank _ member

theorem read_none (proper : ∀ row ∈ rows, row.Proper) (blank : messages rows = []) :
    read (String.ofList (text rows)) = .ok [] := by
  rw [read_eq proper, if_pos (Text.trimBy_eq_nil_iff.mpr (isBlank_of_messages proper blank))]

theorem read_one {before after : List Row} {written : Padded} {fields : Fields}
    (proper : ∀ row ∈ before ++ .message written fields :: after, row.Proper)
    (blank : messages before = []) (blank' : messages after = []) :
    read (String.ofList (text (before ++ .message written fields :: after))) =
      .ok [.obj fields] := by
  have shape : ended (before ++ .message written fields :: after) =
      (ended before ++ written.before) ++
        (written.text ++ (written.after ++ '\n' :: ended after)) := by
    simp [ended, Row.chars, Padded.chars]
  have kept := read_kept proper shape
  rw [List.forall_mem_append, List.forall_mem_cons] at proper
  obtain ⟨properBefore, one, properAfter⟩ := proper
  have writes := one.writes _ _ rfl
  obtain ⟨opened, closed⟩ := head?_braces writes
  have message := @read_of_writes ⟨[], written.text, [], by simp, by simp⟩ _ writes
  simp only [Padded.chars, List.append_nil, List.nil_append] at message
  rw [kept (isBlank_before properBefore blank written) (isBlank_after properAfter blank' written)
    opened closed, readTrimmed, message]

/-- The row of an object with one member. -/
def single (key text : List Char) (v : Value) : Row :=
  .message ⟨[], '\x7b' :: '"' :: (key ++ '"' :: ':' :: ' ' :: (text ++ ['\x7d'])), [], blank_nil,
    blank_nil⟩ [(String.ofList key, v)]

theorem proper_single {key text : List Char} {v : Value} (spells : Spells key key)
    (writes : Writes text v) (plain : ∀ c ∈ key ++ text, c ≠ '\n' ∧ c ≠ '\r') :
    (single key text v).Proper := by
  obtain ⟨plainKey, plainText⟩ := List.forall_mem_append.mp plain
  refine ⟨?_, nofun, ?_⟩
  · intro c member
    simp only [single, Row.chars, Padded.chars, List.nil_append, List.append_nil, List.mem_cons,
      List.mem_append, List.not_mem_nil, or_false] at member
    rcases member with rfl | rfl | inKey | rfl | rfl | rfl | inText | rfl
    · decide
    · decide
    · exact plainKey c inKey
    · decide
    · decide
    · decide
    · exact plainText c inText
    · decide
  · rintro _ _ ⟨⟩
    have name : Quotes ('"' :: (key ++ ['"'])) (String.ofList key) := ⟨spells⟩
    have written := @Writes.obj [] (by simp)
      [(⟨⟨[], '"' :: (key ++ ['"']), [], by simp, by simp⟩, String.ofList key, name,
        ⟨[' '], text, [], List.forall_mem_singleton.mpr (by decide), by simp⟩⟩, v)]
      (by simpa using writes)
    simpa [enclosed, Member.chars, Padded.chars, Entries.update, Entries.set] using written

/-- A row with a text of three characters, and one with a word behind it. -/
def pairRows (c : Char) : List Row :=
  [single ['a'] ['"', 'x', c, 'y', '"'] (.str (String.ofList ['x', c, 'y'])), .blank [' '],
    single ['b'] ['t', 'r', 'u', 'e'] (.bool true)]

theorem proper_pairRows {c : Char} (quote : c ≠ '"') (slash : c ≠ '\\') (control : 32 ≤ c.toNat) :
    ∀ row ∈ pairRows c, row.Proper := by
  have spells : ∀ d : Char, d ≠ '"' → d ≠ '\\' → 32 ≤ d.toNat → Spells [d] [d] :=
    fun d quote slash control => .raw quote slash control .nil
  have text : Spells ['x', c, 'y'] ['x', c, 'y'] :=
    .raw (by decide) (by decide) (by decide) (.raw quote slash control
      (spells 'y' (by decide) (by decide) (by decide)))
  have other : c ≠ '\n' ∧ c ≠ '\r' := by
    constructor <;> rintro rfl <;> exact absurd control (by decide)
  simp only [pairRows, List.forall_mem_cons]
  refine ⟨?_, ?_, ?_, List.forall_mem_nil _⟩
  · exact proper_single (spells 'a' (by decide) (by decide) (by decide)) (.str ⟨text⟩)
      (by simpa using other)
  · refine ⟨by simp [Row.chars], ?_, nofun⟩
    rintro _ ⟨⟩
    exact List.forall_mem_singleton.mpr (by decide)
  · exact proper_single (spells 'b' (by decide) (by decide) (by decide)) .true (by simp)

/-- A text of proper rows is read as its messages, if these are no more than one or if none of them
holds a character that ends a line; otherwise it is malformed. -/
theorem read_of_rows (proper : ∀ row ∈ rows, row.Proper) :
    ((messages rows).length ≤ 1 ∨ (∀ row ∈ rows, row.Intact) →
      read (String.ofList (text rows)) = .ok (messages rows)) ∧
    (2 ≤ (messages rows).length → (∃ row ∈ rows, ¬ row.Intact) →
      ∃ problem place, read (String.ofList (text rows)) = .error (.malformed problem place)) := by
  rcases first_message rows with blank | ⟨before, first, f, rest, rfl, blank⟩
  · refine ⟨fun _ => by rw [read_none proper blank, blank], fun several => ?_⟩
    rw [blank] at several
    cases several
  rcases last_message rest with blank' | ⟨between, last, g, after, rfl, blank'⟩
  · have only : messages (before ++ .message first f :: rest) = [.obj f] := by
      rw [messages_append, messages_message, blank, blank', List.nil_append]
    refine ⟨fun _ => by rw [read_one proper blank blank', only], fun several => ?_⟩
    rw [only, List.length_singleton] at several
    omega
  · obtain ⟨properFlush, lines⟩ := read_many proper blank blank'
    have same : messages (before ++ .message first f :: (between ++ .message last g :: after)) =
        messages (flushRows first last f g between) := by
      simp only [flushRows, messages_append, messages_message, blank, blank', List.nil_append]
      rfl
    have several : ¬ (messages (flushRows first last f g between)).length ≤ 1 := by
      simp [flushRows, messages_append, messages_message]
    have intact : (∀ row ∈ before ++ .message first f :: (between ++ .message last g :: after),
        row.Intact) ↔ ∀ row ∈ flushRows first last f g between, row.Intact := by
      have none_before := intact_of_messages blank
      have none_after := intact_of_messages blank'
      simp only [flushRows, List.forall_mem_append, List.forall_mem_cons]
      exact ⟨fun all => ⟨all.2.1, all.2.2.1, all.2.2.2.1, List.forall_mem_nil _⟩,
        fun all => ⟨none_before, all.1, all.2.1, all.2.2.1, none_after⟩⟩
    rw [lines, same]
    constructor
    · rintro (few | whole)
      · exact absurd few several
      · exact mapM_spoken_of_intact properFlush (intact.mp whole)
    · rintro - ⟨row, member, broken⟩
      refine mapM_spoken_of_broken properFlush ?_
      have notAll : ¬ ∀ row ∈ flushRows first last f g between, row.Intact := fun all =>
        broken (intact.mpr all row member)
      simpa only [not_forall, exists_prop] using notAll

theorem read_of_rows_of_pairs :
    (∀ row ∈ pairRows '\u00e9', row.Proper) ∧ (∀ row ∈ pairRows '\u2028', row.Proper) ∧
    read (String.ofList (text (pairRows '\u00e9'))) =
      .ok [.obj [("a", .str "x\u00e9y")], .obj [("b", .bool true)]] ∧
    ∃ problem place, read (String.ofList (text (pairRows '\u2028'))) =
      .error (.malformed problem place) := by
  have accent : ∀ row ∈ pairRows '\u00e9', row.Proper :=
    proper_pairRows (by decide) (by decide) (by decide)
  have separator : ∀ row ∈ pairRows '\u2028', row.Proper :=
    proper_pairRows (by decide) (by decide) (by decide)
  have broken : ∃ row ∈ pairRows '\u2028', ¬ row.Intact := ⟨_, List.mem_cons_self, by decide⟩
  exact ⟨accent, separator, (read_of_rows accent).1 (.inr (by decide)),
    (read_of_rows separator).2 (by decide) broken⟩

/-- A line separator in a text, which JSON leaves as it is, breaks the message in two. -/
theorem unread_of_separator : (∀ row ∈ pairRows '\u2028', row.Proper) ∧
    messages (pairRows '\u2028') =
      [.obj [("a", .str "x\u2028y")], .obj [("b", .bool true)]] ∧
    read (String.ofList (text (pairRows '\u2028'))) =
      .error (.malformed .unterminated ⟨6, 1, 7⟩) :=
  ⟨proper_pairRows (by decide) (by decide) (by decide), by decide +kernel, by decide +kernel⟩

end Batch
end LiveSurface
