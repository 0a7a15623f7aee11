import Mathlib.Data.List.DropRight
import LiveSurface.Text.Blank

/-!
# Lines of a text

How trimming and the cut into lines treat a text that is put together of parts. Lines that are not
empty are read back from their text, joined by line feeds, exactly if none of them holds a character
that ends a line (`lines_intercalate_eq_iff`), and what is read back is never longer
(`length_le_of_mem_lines_intercalate`).
-/
namespace LiveSurface.Text

variable {p : Char → Bool}

theorem trimBy_append_left {before : List Char} (all : ∀ c ∈ before, p c) (cs : List Char) :
    trimBy p (before ++ cs) = trimBy p cs := by
  rw [trimBy, trimBy, List.dropWhile_append_of_pos all]

theorem trimBy_append_right {after : List Char} (all : ∀ c ∈ after, p c) (cs : List Char) :
    trimBy p (cs ++ after) = trimBy p cs := by
  have reversed : ∀ c ∈ after.reverse, p c := fun c member => all c (List.mem_reverse.mp member)
  rw [trimBy, trimBy, List.dropWhile_append]
  cases left : cs.dropWhile p with
  | nil => simp [List.dropWhile_eq_nil_iff.mpr all]
  | cons c rest =>
    simp only [List.isEmpty_cons, Bool.false_eq_true, ↓reduceIte]
    rw [List.reverse_append, List.dropWhile_append_of_pos reversed]

theorem trimBy_eq_nil_iff {cs : List Char} : trimBy p cs = [] ↔ ∀ c ∈ cs, p c := by
  constructor
  · intro none_left c member
    rw [← List.takeWhile_append_dropWhile (p := p) (l := cs)] at member
    rcases List.mem_append.mp member with first | later
    · exact List.mem_takeWhile_imp first
    · exact List.rdropWhile_eq_nil_iff.mp none_left c later
  · intro all
    have := trimBy_append_left all []
    rwa [List.append_nil] at this

theorem unifyEnds_eq_self {cs : List Char} (noReturn : ∀ c ∈ cs, c ≠ '\r') : unifyEnds cs = cs := by
  fun_induction unifyEnds cs with
  | case1 => rfl
  | case2 rest _ => exact absurd rfl (noReturn '\r' List.mem_cons_self)
  | case3 rest _ _ => exact absurd rfl (noReturn '\r' List.mem_cons_self)
  | case4 c rest _ _ ih => rw [ih fun c member => noReturn c (List.mem_cons_of_mem _ member)]

theorem linesFrom_cons {c : Char} (other : c ≠ '\r') (current rest : List Char) :
    linesFrom current (c :: rest) =
      if isLineEnd c then current.reverse :: linesFrom [] rest
      else linesFrom (c :: current) rest := by
  rw [linesFrom]
  exact fun _ same => absurd same other

theorem linesFrom_append {cs : List Char} (plain : ∀ c ∈ cs, isLineEnd c = false)
    (current rest : List Char) :
    linesFrom current (cs ++ rest) = linesFrom (cs.reverse ++ current) rest := by
  induction cs generalizing current with
  | nil => rfl
  | cons c cs ih =>
    obtain ⟨first, plain⟩ := List.forall_mem_cons.mp plain
    have other : c ≠ '\r' := by
      rintro rfl
      exact absurd first (by decide)
    rw [List.cons_append, linesFrom_cons other, first, List.reverse_cons, List.append_assoc]
    exact ih plain (c :: current)

theorem linesFrom_of_plain {cs : List Char} (plain : ∀ c ∈ cs, isLineEnd c = false)
    (some_char : cs ≠ []) : linesFrom [] cs = [cs] := by
  have := linesFrom_append plain [] []
  rw [List.append_nil, List.append_nil] at this
  simp [this, linesFrom, some_char]

theorem mem_of_mem_linesFrom (current cs : List Char) :
    ∀ line ∈ linesFrom current cs, ∀ c ∈ line, c ∈ current ∨ c ∈ cs := by
  fun_induction linesFrom current cs with
  | case1 current => simp_all
  | case2 current _ => simp
  | case3 current rest ih =>
    refine List.forall_mem_cons.mpr ⟨fun c inside => .inl (List.mem_reverse.mp inside), ?_⟩
    intro line member c inside
    have later := (ih line member c inside).resolve_left (by simp)
    exact .inr (List.mem_cons_of_mem _ (List.mem_cons_of_mem _ later))
  | case4 current d rest _ _ ih =>
    refine List.forall_mem_cons.mpr ⟨fun c inside => .inl (List.mem_reverse.mp inside), ?_⟩
    intro line member c inside
    have later := (ih line member c inside).resolve_left (by simp)
    exact .inr (List.mem_cons_of_mem _ later)
  | case5 current d rest _ _ ih =>
    intro line member c inside
    rcases ih line member c inside with begun | later
    · rcases List.mem_cons.mp begun with rfl | begun
      · exact .inr List.mem_cons_self
      · exact .inl begun
    · exact .inr (List.mem_cons_of_mem _ later)

/-- No character of a text ends a line. -/
def OneLine (s : String) : Prop := ∀ c ∈ s.toList, isLineEnd c = false

theorem all_eq_true_iff_oneLine (s : String) :
    (s.toList.all fun c => !isLineEnd c) = true ↔ OneLine s := by
  simp [OneLine]

instance : DecidablePred OneLine := fun s => decidable_of_iff _ (all_eq_true_iff_oneLine s)

@[simp] theorem oneLine_append {s t : String} : OneLine (s ++ t) ↔ OneLine s ∧ OneLine t := by
  simp only [OneLine, String.toList_append, List.forall_mem_append]

theorem oneLine_of_mem_lines {s line : String} (member : line ∈ lines s) : OneLine line :=
  not_isLineEnd_of_mem_lines member

theorem linesFrom_intercalate {rows : List (List Char)} (solid : ∀ cs ∈ rows, cs ≠ [])
    (plain : ∀ cs ∈ rows, ∀ c ∈ cs, isLineEnd c = false) :
    linesFrom [] (['\n'].intercalate rows) = rows := by
  induction rows with
  | nil => rfl
  | cons cs rest ih =>
    obtain ⟨first, solid⟩ := List.forall_mem_cons.mp solid
    obtain ⟨begins, plain⟩ := List.forall_mem_cons.mp plain
    have others := ih solid plain
    cases rest with
    | nil =>
      rw [List.intercalate_singleton]
      exact linesFrom_of_plain begins first
    | cons next rest =>
      rw [List.intercalate_cons_cons, List.append_assoc, linesFrom_append begins,
        List.singleton_append, linesFrom_cons (by decide), if_pos (by decide), List.append_nil,
        List.reverse_reverse, others]

/-- Lines are read back from their text exactly if no line holds the end of another. -/
theorem lines_intercalate_eq_iff {rows : List String} (solid : ∀ line ∈ rows, line ≠ "") :
    lines ("\n".intercalate rows) = rows ↔ ∀ line ∈ rows, OneLine line := by
  constructor
  · intro same line member
    rw [← same] at member
    exact oneLine_of_mem_lines member
  · intro plain
    rw [lines, String.toList_intercalate]
    have read : linesFrom [] (['\n'].intercalate (rows.map String.toList)) =
        rows.map String.toList := by
      refine linesFrom_intercalate ?_ ?_
      · intro cs member
        obtain ⟨line, inside, rfl⟩ := List.mem_map.mp member
        exact mt String.toList_eq_nil_iff.mp (solid line inside)
      · intro cs member
        obtain ⟨line, inside, rfl⟩ := List.mem_map.mp member
        exact plain line inside
    rw [show "\n".toList = ['\n'] from rfl, read, List.map_map]
    simp [Function.comp_def]

theorem infix_of_mem_linesFrom (current cs : List Char) :
    ∀ line ∈ linesFrom current cs, line <:+: current.reverse ++ cs := by
  fun_induction linesFrom current cs with
  | case1 current => simp_all
  | case2 current _ => simp
  | case3 current rest ih =>
    refine List.forall_mem_cons.mpr ⟨List.infix_append_left, fun line member => ?_⟩
    have later : line <:+: rest := ih line member
    exact List.infix_append_of_infix_right (List.infix_cons (List.infix_cons later))
  | case4 current d rest _ _ ih =>
    refine List.forall_mem_cons.mpr ⟨List.infix_append_left, fun line member => ?_⟩
    have later : line <:+: rest := ih line member
    exact List.infix_append_of_infix_right (List.infix_cons later)
  | case5 current d rest _ _ ih =>
    intro line member
    have inside := ih line member
    rwa [List.reverse_cons, List.append_assoc] at inside

/-- A stretch of text without a mark lies on one side of it. -/
theorem infix_or_infix {mark : Char} {part before after : List Char} (free : mark ∉ part)
    (inside : part <:+: before ++ mark :: after) : part <:+: before ∨ part <:+: after := by
  have empty {start : List Char} (within : mark ∉ start) (first : start <+: mark :: after) :
      start = [] := by
    rcases List.prefix_cons_iff.mp first with none_there | ⟨rest, rfl, -⟩
    · exact none_there
    · exact absurd List.mem_cons_self within
  rcases List.infix_append_iff.mp inside with left | right | ⟨start, rest, rfl, ending, begins⟩
  · exact .inl left
  · rcases List.infix_cons_iff.mp right with first | later
    · exact .inl (by rw [empty free first]; exact List.nil_infix)
    · exact .inr later
  · rw [empty (fun member => free (List.mem_append_right _ member)) begins, List.append_nil]
    exact .inl ending.isInfix

/-- The lines of joined lines are no longer than these are. -/
theorem length_le_of_mem_lines_intercalate {rows : List String} {most : Nat}
    (short : ∀ row ∈ rows, row.length ≤ most) {line : String}
    (member : line ∈ lines ("\n".intercalate rows)) : line.length ≤ most := by
  have free : '\n' ∉ line.toList := fun inside =>
    absurd (not_isLineEnd_of_mem_lines member _ inside) (by decide)
  obtain ⟨cs, read, rfl⟩ := List.mem_map.mp member
  have inside := infix_of_mem_linesFrom _ _ cs read
  rw [String.toList_intercalate, List.reverse_nil, List.nil_append] at inside
  rw [String.toList_ofList] at free
  rw [String.length_ofList]
  clear member read
  induction rows with
  | nil => simp_all
  | cons row rest ih =>
    obtain ⟨first, short⟩ := List.forall_mem_cons.mp short
    cases rest with
    | nil =>
      have own : cs <:+: row.toList := by simpa using inside
      exact Nat.le_trans own.length_le (by rwa [String.length_toList])
    | cons next rest =>
      have parted : cs <:+:
          row.toList ++ '\n' :: ['\n'].intercalate ((next :: rest).map String.toList) := by
        simpa using inside
      rcases infix_or_infix free parted with own | later
      · exact Nat.le_trans own.length_le (by rwa [String.length_toList])
      · exact ih short later

end LiveSurface.Text
