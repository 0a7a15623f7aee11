/-!
# Control sequences of terminals

A control sequence is an escape and an opening bracket, then parameters, then intermediate
characters, then one final character. Text that is printed loses its control sequences; what only
starts like one stays.
-/
namespace LiveSurface.Text.Terminal

/-- The characters of the parameters of a control sequence. -/
def isParameter (c : Char) : Bool := '0' ≤ c && c ≤ '?'

/-- The characters between the parameters and the final character. -/
def isIntermediate (c : Char) : Bool := ' ' ≤ c && c ≤ '/'

/-- The characters that end a control sequence. -/
def isFinal (c : Char) : Bool := '@' ≤ c && c ≤ '~'

/-- What follows the control sequence that a text starts with, if it starts with one. -/
def afterSequence? : List Char → Option (List Char)
  | '\x1b' :: '[' :: rest =>
    match (rest.dropWhile isParameter).dropWhile isIntermediate with
    | c :: rest => if isFinal c then some rest else none
    | [] => none
  | _ => none

theorem length_lt_of_afterSequence? {cs rest : List Char} (h : afterSequence? cs = some rest) :
    rest.length < cs.length := by
  unfold afterSequence? at h
  split at h
  · rename_i more
    have parameters := (List.dropWhile_suffix (l := more) isParameter).length_le
    have intermediates :=
      (List.dropWhile_suffix (l := more.dropWhile isParameter) isIntermediate).length_le
    split at h
    · rename_i eq
      split at h
      · simp_all
        omega
      · simp at h
    · simp at h
  · simp at h

/-- A text without its control sequences. -/
def plain (cs : List Char) : List Char :=
  match _h : afterSequence? cs with
  | some rest => plain rest
  | none =>
    match cs with
    | [] => []
    | c :: rest => c :: plain rest
termination_by cs.length
decreasing_by
  · exact length_lt_of_afterSequence? _h
  · simp

/-- A text without escapes has no control sequences. -/
theorem plain_eq_self {cs : List Char} (h : '\x1b' ∉ cs) : plain cs = cs := by
  induction cs with
  | nil => simp [plain, afterSequence?]
  | cons c rest ih =>
    obtain ⟨first, others⟩ := not_or.1 (mt List.mem_cons.2 h)
    have none : afterSequence? (c :: rest) = none := by
      unfold afterSequence?
      split
      · simp_all
      · rfl
    unfold plain
    split
    · simp_all
    · simp [ih others]

/-- The form in which a text is printed. -/
def printed (s : String) : String := String.ofList (plain s.toList)

end LiveSurface.Text.Terminal
