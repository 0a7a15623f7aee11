/-!
# Blanks and lines

Which characters are blank, trimming of blanks, and the cut of a text into its lines. Trimming looks
at both ends of a text (`trimBy_eq_self_iff`). The lines of a text hold no line boundary
(`not_isLineEnd_of_mem_lines`), and a boundary at the very end of a text opens no further line.
-/
namespace LiveSurface.Text

/-- The blanks of ASCII alone: the space and the five controls from tab to carriage return. -/
def isAsciiBlank (c : Char) : Bool :=
  c == ' ' || ('\t' ≤ c && c ≤ '\r')

/-- The characters with the Unicode property White_Space. -/
def isWhiteSpace (c : Char) : Bool :=
  isAsciiBlank c || c == '\x85' || c == '\xa0' || c == '\u1680' || ('\u2000' ≤ c && c ≤ '\u200a') ||
    c == '\u2028' || c == '\u2029' || c == '\u202f' || c == '\u205f' || c == '\u3000'

/-- Trimming also takes the four information separators of ASCII for blanks. -/
def isBlank (c : Char) : Bool :=
  isWhiteSpace c || ('\x1c' ≤ c && c ≤ '\x1f')

/-- Removes the characters of a class from both ends. -/
def trimBy (p : Char → Bool) (cs : List Char) : List Char :=
  ((cs.dropWhile p).reverse.dropWhile p).reverse

/-- Removes blanks from both ends. -/
def trim (s : String) : String :=
  String.ofList (trimBy isBlank s.toList)

/-- The characters that end a line. -/
def isLineEnd (c : Char) : Bool :=
  ('\n' ≤ c && c ≤ '\r') || ('\x1c' ≤ c && c ≤ '\x1e') || c == '\x85' || c == '\u2028' ||
    c == '\u2029'

/-- The lines of a text, given the reversed beginning of the current line. A carriage return
directly before a line feed is one boundary with it. -/
def linesFrom (current : List Char) : List Char → List (List Char)
  | [] => if current.isEmpty then [] else [current.reverse]
  | '\r' :: '\n' :: rest => current.reverse :: linesFrom [] rest
  | c :: rest =>
    if isLineEnd c then current.reverse :: linesFrom [] rest else linesFrom (c :: current) rest

/-- The lines of a text, without their boundaries. -/
def lines (s : String) : List String :=
  (linesFrom [] s.toList).map String.ofList

/-- Writes every carriage return, alone or with a line feed after it, as a line feed. -/
def unifyEnds : List Char → List Char
  | [] => []
  | '\r' :: '\n' :: rest => '\n' :: unifyEnds rest
  | '\r' :: rest => '\n' :: unifyEnds rest
  | c :: rest => c :: unifyEnds rest

/-- A text with line feeds for the other two common line ends. -/
def unified (s : String) : String := String.ofList (unifyEnds s.toList)

theorem dropWhile_eq_self_iff {p : Char → Bool} {cs : List Char} :
    cs.dropWhile p = cs ↔ ∀ c ∈ cs.head?, p c = false := by
  cases cs with
  | nil => simp
  | cons c rest =>
    cases blank : p c with
    | false => simp [blank]
    | true =>
      have shorter := (List.dropWhile_sublist (l := rest) p).length_le
      have other : rest.dropWhile p ≠ c :: rest := fun same => by
        rw [same, List.length_cons] at shorter
        omega
      simp [blank, other]

/-- A text is left alone by trimming exactly if neither of its ends is in the class. -/
theorem trimBy_eq_self_iff {p : Char → Bool} {cs : List Char} :
    trimBy p cs = cs ↔ (∀ c ∈ cs.head?, p c = false) ∧ ∀ c ∈ cs.getLast?, p c = false := by
  have ends : cs.reverse.dropWhile p = cs.reverse ↔ ∀ c ∈ cs.getLast?, p c = false := by
    rw [dropWhile_eq_self_iff, List.head?_reverse]
  rw [← ends, ← dropWhile_eq_self_iff]
  constructor
  · intro same
    have part : (trimBy p cs).Sublist (cs.dropWhile p) :=
      List.reverse_sublist.mp (by
        rw [trimBy, List.reverse_reverse]
        exact List.dropWhile_sublist p)
    rw [same] at part
    have first := (List.dropWhile_sublist p).eq_of_length_le part.length_le
    refine ⟨first, ?_⟩
    rw [trimBy, first] at same
    rw [← List.reverse_eq_iff]
    exact same
  · rintro ⟨first, last⟩
    rw [trimBy, first, last, List.reverse_reverse]

theorem not_isLineEnd_of_mem_linesFrom (current text : List Char)
    (plain : ∀ c ∈ current, isLineEnd c = false) :
    ∀ line ∈ linesFrom current text, ∀ c ∈ line, isLineEnd c = false := by
  fun_induction linesFrom current text with
  | case1 current => simp_all
  | case2 current _ => simpa using plain
  | case3 current rest ih => simpa using ⟨plain, ih (by simp)⟩
  | case4 current c rest _ _ ih => simpa using ⟨plain, ih (by simp)⟩
  | case5 current c rest _ notEnd ih => exact ih (by simpa using ⟨by simpa using notEnd, plain⟩)

theorem not_isLineEnd_of_mem_lines {s line : String} (h : line ∈ lines s) :
    ∀ c ∈ line.toList, isLineEnd c = false := by
  obtain ⟨cs, mem, rfl⟩ := List.mem_map.1 h
  simpa using not_isLineEnd_of_mem_linesFrom [] s.toList (by simp) cs mem

end LiveSurface.Text
