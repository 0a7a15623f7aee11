import LiveSurface.Proofs.Render.Ancestry
import LiveSurface.Proofs.Render.Budget

/-!
# Limits

A limit that is met shows in the tree: each component that is spent beyond the limit on components
is an error of its own (`Shows.countP_isBeyond`), and so is each component that stands too deep.
Where no such error is, the limits made no difference, and larger limits give the same tree for the
same budget (`resolve_larger`).
-/
namespace LiveSurface

/-- How many components were spent beyond the limit. -/
def Limits.excess (limits : Limits) (spent : Int) : Nat := (spent - limits.maxNodes).toNat

namespace Node

instance (node : Node) (message : String) : Decidable (node.IsError message) :=
  inferInstanceAs (Decidable (_ ∧ _))

/-- Whether a node is an error with the message that goes with its identifier. -/
def tells (node : Node) (message : String → String) : Bool :=
  node.componentId.any fun id => node.IsError (message id)

/-- Whether a node is an error of the limit on components. -/
def isBeyond (limits : Limits) (node : Node) : Bool := node.tells (overLimit limits.maxNodes)

/-- Whether a node is an error of the limit on the depth. -/
def isTooDeep (limits : Limits) (node : Node) : Bool :=
  node.tells fun id => (Failure.tooDeep limits.maxDepth id).message

/-- Whether a node is an error of a limit. -/
def isLimit (limits : Limits) (node : Node) : Bool := node.isBeyond limits || node.isTooDeep limits

theorem tells_of_kind {node : Node} (other : node.kind ≠ .error) (message : String → String) :
    node.tells message = false := by
  unfold tells
  cases node.componentId with
  | none => rfl
  | some id => exact decide_eq_false fun error => other error.1

theorem tells_failed (id kind text : String) (message : String → String) :
    (failed id kind text).tells message = true ↔ text = message id := by
  have own : (failed id kind text).componentId = some id := rfl
  rw [tells, own, Option.any_some, decide_eq_true_eq]
  exact failed_isError

end Node

namespace Pass

variable {registry : Registry} {limits larger : Limits} {reports : Bool}

/-- The error of a component that failed is not that of the limit on components. -/
theorem diagnostic_isBeyond {definition : Definition} {id : String} {scope : Scope}
    {failure : Failure}
    (outlined : outline registry limits reports definition id scope = .error failure)
    (kind : String) (trail : List String) :
    (failure.diagnostic id kind trail).isBeyond limits = false := by
  refine Bool.eq_false_iff.mpr fun beyond => ?_
  rcases outline_error outlined with ⟨-, rfl⟩ | ⟨-, -, rfl⟩ | ⟨-, -, own⟩
  · rw [Node.isBeyond, Node.tells_of_kind NodeKind.noConfusion] at beyond
    cases beyond
  · exact overLimit_ne_tooDeep _ _ _ _ ((Node.tells_failed ..).mp beyond).symm
  · rw [own.diagnostic_eq] at beyond
    exact own.ne_overLimit _ _ ((Node.tells_failed ..).mp beyond)

theorem framed_tells {definition : Definition} {id : String} {scope : Scope} {frame : Frame}
    (outlined : outline registry limits reports definition id scope = .ok (some frame))
    (children : List Node) (message : String → String) :
    (frame.node id children).tells message = false := by
  refine Node.tells_of_kind ?_ message
  exact kind_ne_error_of_outline outlined

theorem Ends.countP_isBeyond {id : String} {scope : Scope} {spent after : Int}
    {node : Option Node} (ends : Ends registry limits reports id scope spent node after) :
    (Node.flattenAll node.toList).countP (Node.isBeyond limits) + limits.excess spent =
      limits.excess after := by
  have single : ∀ tree ∈ node, Node.flattenAll node.toList = [tree] := by
    rintro tree rfl
    exact flattenAll_leaf ends.children
  cases ends with
  | absent missing =>
    rw [single _ rfl, List.countP_singleton, Node.isBeyond,
      Node.tells_of_kind NodeKind.noConfusion]
    simp
  | overLimit found beyond =>
    have told := (Node.tells_failed id ‹Definition›.kind _
      (LiveSurface.overLimit limits.maxNodes)).mpr rfl
    rw [single _ rfl, List.countP_singleton, Node.isBeyond, told, if_pos rfl]
    unfold Limits.excess
    omega
  | refused found within outlined =>
    rw [single _ rfl, List.countP_singleton, diagnostic_isBeyond outlined]
    unfold Limits.excess
    simp
    omega
  | nothing found within outlined =>
    unfold Limits.excess
    simp [Node.flattenAll]
    omega

/-- Each component that is spent beyond the limit shows as an error of the limit, and nothing else
does. -/
theorem Shows.countP_isBeyond {row : List (String × Scope)} {spent after : Int}
    {nodes : List Node} (shown : Shows registry limits reports row spent nodes after) :
    (Node.flattenAll nodes).countP (Node.isBeyond limits) + limits.excess spent =
      limits.excess after := by
  induction shown with
  | nil spent => exact Nat.zero_add _
  | ends first _ ih =>
    have head := first.countP_isBeyond
    rw [flattenAll_append, List.countP_append]
    omega
  | @framed id scope row spent middle after definition frame children nodes _ within outlined _ _
      ihBelow ih =>
    have inside : limits.excess (spent + 1) = limits.excess spent := by
      unfold Limits.excess
      omega
    rw [flattenAll_framed, List.countP_cons, List.countP_append, Node.isBeyond,
      framed_tells outlined]
    simp only [Bool.false_eq_true, ↓reduceIte]
    omega

/-- What a component decides by itself is the same where there is more room, unless it stands too
deep. -/
theorem outline_larger (deeper : limits.maxDepth ≤ larger.maxDepth) {definition : Definition}
    {id : String} {scope : Scope} {result : Except Failure (Option Frame)}
    (outlined : outline registry limits reports definition id scope = result)
    (shallow : result ≠ .error (.tooDeep limits.maxDepth id)) :
    outline registry larger reports definition id scope = result := by
  unfold outline at outlined ⊢
  by_cases again : id ∈ scope.trail
  · simpa only [again, ↓reduceIte] using outlined
  · by_cases deep : limits.maxDepth ≤ scope.trail.length
    · simp only [again, deep, ↓reduceIte] at outlined
      exact absurd outlined.symm shallow
    · have room : ¬ larger.maxDepth ≤ scope.trail.length := by omega
      simpa only [again, deep, room, ↓reduceIte] using outlined

theorem Ends.enlarge (deeper : limits.maxDepth ≤ larger.maxDepth)
    (more : limits.maxNodes ≤ larger.maxNodes) {id : String} {scope : Scope} {spent after : Int}
    {node : Option Node} (ends : Ends registry limits reports id scope spent node after)
    (free : ∀ part ∈ Node.flattenAll node.toList, part.isLimit limits = false) :
    Ends registry larger reports id scope spent node after := by
  have own : ∀ tree ∈ node, tree.isLimit limits = false := by
    rintro tree rfl
    refine free tree ?_
    rw [Option.toList_some, flattenAll_leaf ends.children]
    exact List.mem_singleton_self tree
  cases ends with
  | absent missing => exact .absent missing
  | @overLimit definition found beyond =>
    have told := (Node.tells_failed id definition.kind _
      (LiveSurface.overLimit limits.maxNodes)).mpr rfl
    have none' := own _ rfl
    rw [Node.isLimit, Node.isBeyond, told] at none'
    cases none'
  | @refused definition failure found within outlined =>
    have shallow : failure ≠ .tooDeep limits.maxDepth id := by
      rintro rfl
      have told := (Node.tells_failed id definition.kind _
        fun id => (Failure.tooDeep limits.maxDepth id).message).mpr rfl
      have none' := own _ rfl
      rw [Node.isLimit, Bool.or_eq_false_iff] at none'
      exact Bool.noConfusion (told.symm.trans none'.2)
    refine .refused found (by omega) (outline_larger deeper outlined ?_)
    exact fun same => shallow (Except.error.inj same)
  | nothing found within outlined =>
    exact .nothing found (by omega) (outline_larger deeper outlined (by simp))

/-- What is shown without an error of the limits is shown with larger limits. -/
theorem Shows.enlarge (deeper : limits.maxDepth ≤ larger.maxDepth)
    (more : limits.maxNodes ≤ larger.maxNodes) {row : List (String × Scope)}
    {spent after : Int} {nodes : List Node}
    (shown : Shows registry limits reports row spent nodes after)
    (free : ∀ part ∈ Node.flattenAll nodes, part.isLimit limits = false) :
    Shows registry larger reports row spent nodes after := by
  induction shown with
  | nil spent => exact .nil spent
  | ends first _ ih =>
    rw [flattenAll_append, List.forall_mem_append] at free
    exact .ends (first.enlarge deeper more free.1) (ih free.2)
  | framed found within outlined _ _ ihBelow ih =>
    rw [flattenAll_framed, List.forall_mem_cons, List.forall_mem_append] at free
    refine .framed found (by omega) ?_ (ihBelow free.2.1) (ih free.2.2)
    exact outline_larger deeper outlined (by simp)

/-- Two passes over one registry that start with all of their budget, the second with limits that
are no smaller. Each component that the first spends beyond its limit is one error of that limit,
and there are no others. If it shows no error of its limits then the second shows the same tree and
spends as much; so where their trees differ, the first shows an error of its limits. -/
theorem resolve_larger (registry : Registry) (limits larger : Limits) (reports : Bool)
    (id : String) (scope : Scope) (deeper : limits.maxDepth ≤ larger.maxDepth)
    (more : limits.maxNodes ≤ larger.maxNodes) :
    ∃ node after node' after',
      (plain registry limits reports).resolve id scope 0 = (.ok node, after) ∧
      (plain registry larger reports).resolve id scope 0 = (.ok node', after') ∧
      (((Node.flattenAll node.toList).countP (Node.isBeyond limits) : Nat) : Int) =
        max 0 (after - limits.maxNodes) ∧
      ((∀ part ∈ Node.flattenAll node.toList, part.isLimit limits = false) →
        node' = node ∧ after' = after) ∧
      (node' ≠ node → ∃ part ∈ Node.flattenAll node.toList, part.isLimit limits = true) := by
  obtain ⟨node, after, made, shown⟩ := resolve_shows registry limits reports id scope 0
  obtain ⟨node', after', made', -⟩ := resolve_shows registry larger reports id scope 0
  have transparent (free : ∀ part ∈ Node.flattenAll node.toList, part.isLimit limits = false) :
      node' = node ∧ after' = after := by
    have same := (shown.enlarge deeper more free).resolve_eq
    rw [made'] at same
    cases same
    exact ⟨rfl, rfl⟩
  refine ⟨node, after, node', after', made, made', ?_, transparent, ?_⟩
  · have counted := shown.countP_isBeyond
    unfold Limits.excess at counted
    omega
  · intro differs
    refine Decidable.of_not_not fun none' => differs (transparent ?_).1
    intro part member
    refine Bool.eq_false_iff.mpr fun limit => none' ⟨part, member, limit⟩

/-- A column of two dividers needs a budget of three: with two the second divider is an error, and
with more nothing changes. -/
theorem resolve_larger_of_two_dividers :
    let children : Children := ⟨some ["a", "b"], none⟩
    let registry : Registry :=
      [⟨"root", none, "Column", .obj [("children", children.toValue)]⟩,
        ⟨"a", none, "Divider", .null⟩, ⟨"b", none, "Divider", .null⟩]
    let divider (id : String) : Node :=
      .mk .divider id none [("orientation", .str "horizontal")] none []
    let column : Node :=
      .mk .column "root" none [("alignment", .str "start")] none [divider "a", divider "b"]
    let shown (limits : Limits) := (plain registry limits true).resolve "root" ⟨.null, []⟩ 0
    (∃ node, shown ⟨2, 2⟩ = (.ok node, 3) ∧
      (Node.flattenAll node.toList).countP (Node.isBeyond ⟨2, 2⟩) = 1) ∧
    (∀ part ∈ column.flatten, part.isLimit ⟨2, 3⟩ = false) ∧
    shown ⟨2, 3⟩ = (.ok (some column), 3) ∧ shown ⟨5, 9⟩ = (.ok (some column), 3) := by
  intro children registry divider column shown
  have free : ∀ part ∈ Node.flattenAll [column], part.isLimit ⟨2, 3⟩ = false := by decide
  refine ⟨?_, free, rfl, ?_⟩
  · obtain ⟨node, after, _, _, made, -, counted, -⟩ :=
      resolve_larger registry ⟨2, 2⟩ ⟨5, 9⟩ true "root" ⟨.null, []⟩ (by decide) (by decide)
    have spent : (shown ⟨2, 2⟩).2 = 3 := by decide
    simp only [shown, made] at spent
    subst spent
    exact ⟨node, made, Int.ofNat.inj counted⟩
  · obtain ⟨node, after, node', after', made, made', -, transparent, -⟩ :=
      resolve_larger registry ⟨2, 3⟩ ⟨5, 9⟩ true "root" ⟨.null, []⟩ (by decide) (by decide)
    have known : (plain registry ⟨2, 3⟩ true).resolve "root" ⟨.null, []⟩ 0 =
      (.ok (some column), 3) := rfl
    rw [known] at made
    cases made
    obtain ⟨rfl, rfl⟩ := transparent free
    exact made'

end Pass
end LiveSurface
