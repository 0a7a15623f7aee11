import LiveSurface.Proofs.Render.Ample
import Mathlib.Data.List.Basic

/-!
# Definitions and their own subtrees

What a registry holds under an identifier matters only to the nodes of that component and to what
stands below them. Two registries that differ in one definition show the same, but for the subtrees
of its component, while neither pass runs out of its budget (`resolve_prune_eq`). Only a button
reads the definition of another component, the text that it takes its label from.
-/
namespace LiveSurface

namespace Node

mutual

/-- A node without the subtrees of the component with an identifier, nothing when the node is of
that component. -/
def prune (x : String) : Node → Option Node
  | mk kind id text props action children =>
    if id = some x then none else some (mk kind id text props action (pruneAll x children))
termination_by structural node => node

/-- Nodes without the subtrees of the component with an identifier. -/
def pruneAll (x : String) : List Node → List Node
  | [] => []
  | node :: rest => (prune x node).toList ++ pruneAll x rest
termination_by structural nodes => nodes

end

theorem pruneAll_eq (x : String) (nodes : List Node) :
    pruneAll x nodes = nodes.filterMap (prune x) := by
  induction nodes with
  | nil => rfl
  | cons node rest ih =>
    rw [pruneAll, ih, List.filterMap_cons]
    cases prune x node <;> rfl

theorem prune_of_componentId {x : String} {node : Node} (own : node.componentId = some x) :
    node.prune x = none := by
  obtain ⟨kind, id, text, props, action, children⟩ := node
  have same : id = some x := own
  rw [prune, if_pos same]

end Node

theorem Frame.prune_node {x id : String} (other : id ≠ x) (frame : Frame) (children : List Node) :
    (frame.node id children).prune x =
      some (frame.node id (children.filterMap (Node.prune x))) := by
  have apart : ¬ some id = some x := fun same => other (Option.some.inj same)
  rw [Frame.node, Node.prune, if_neg apart, Node.pruneAll_eq]
  rfl

/-- The component that a definition of a button takes its label from. -/
def Definition.labelTarget? (definition : Definition) : Option String :=
  match Component.parse definition.kind definition.props with
  | .ok (.button target _ _) => target
  | _ => none

namespace Pass

variable {registry other : Registry} {limits : Limits} {reports : Bool} {x : String}

/-- What a component decides by itself is the same for registries that differ only in a component
that it does not take its label from. -/
theorem outline_congr (same : ∀ key, key ≠ x → registry.get? key = other.get? key)
    {definition : Definition} (apart : definition.labelTarget? ≠ some x) (limits : Limits)
    (reports : Bool) (id : String) (scope : Scope) :
    outline registry limits reports definition id scope =
      outline other limits reports definition id scope := by
  unfold outline
  cases parsed : Component.parse definition.kind definition.props with
  | error fault => rfl
  | ok component =>
    cases component with
    | button target primary action =>
      have named : definition.labelTarget? = target := by
        simp only [Definition.labelTarget?, parsed]
      have labels : ∀ key, target.filter (· ≠ "") = some key →
          registry.get? key = other.get? key := by
        intro key chosen
        refine same key ?_
        rintro rfl
        exact apart (named.trans (Option.filter_eq_some_iff.mp chosen).1)
      simp only [frame?, label_congr labels]
    | _ => rfl

theorem ample_prune_self (id : String) (scope : Scope) :
    (ample registry limits reports id scope).bind (Node.prune id) = none := by
  cases found : registry.get? id with
  | none =>
    rw [ample_absent found]
    exact Node.prune_of_componentId rfl
  | some definition =>
    cases outlined : outline registry limits reports definition id scope with
    | error failure =>
      rw [ample_refused found outlined]
      exact Node.prune_of_componentId (failure.diagnostic_componentId ..)
    | ok frame =>
      cases frame with
      | none =>
        rw [ample_nothing found outlined]
        rfl
      | some frame =>
        rw [ample_framed found outlined]
        exact Node.prune_of_componentId rfl

/-- With an ample budget a definition matters only to the subtrees of its own component. -/
theorem ample_prune_eq (same : ∀ key, key ≠ x → registry.get? key = other.get? key)
    (apart : ∀ definition ∈ registry, definition.labelTarget? ≠ some x) (id : String)
    (scope : Scope) :
    (ample registry limits reports id scope).bind (Node.prune x) =
      (ample other limits reports id scope).bind (Node.prune x) := by
  by_cases self : id = x
  · subst self
    rw [ample_prune_self, ample_prune_self]
  · have here := same id self
    cases found : registry.get? id with
    | none =>
      rw [found] at here
      rw [ample_absent found, ample_absent here.symm]
    | some definition =>
      rw [found] at here
      have outlines := outline_congr same (apart definition (List.mem_of_find?_eq_some found))
        limits reports id scope
      cases outlined : outline registry limits reports definition id scope with
      | error failure =>
        rw [outlined] at outlines
        rw [ample_refused found outlined, ample_refused here.symm outlines.symm]
      | ok frame =>
        rw [outlined] at outlines
        cases frame with
        | none => rw [ample_nothing found outlined, ample_nothing here.symm outlines.symm]
        | some frame =>
          rw [ample_framed found outlined, ample_framed here.symm outlines.symm]
          rw [Option.bind_some, Option.bind_some, frame.prune_node self, frame.prune_node self,
            List.filterMap_filterMap, List.filterMap_filterMap]
          congr 2
          refine List.filterMap_congr fun entry member => ?_
          have deeper := room_of_below outlined member
          exact ample_prune_eq same apart entry.1 entry.2
termination_by limits.maxDepth - scope.trail.length
decreasing_by exact deeper

/-- Two registries that differ only in what they hold for one component show the same but for the
subtrees of that component, if no button takes its label from it and both passes end within the
budget. Nothing is left of either tree when the component is the root. -/
theorem resolve_prune_eq (registry other : Registry) (limits : Limits) (reports : Bool)
    (x id : String) (data : Value)
    (same : ∀ key, key ≠ x → registry.get? key = other.get? key)
    (apart : ∀ definition ∈ registry ++ other, definition.labelTarget? ≠ some x) :
    ∃ node after node' after',
      (plain registry limits reports).resolve id ⟨data, []⟩ 0 = (.ok node, after) ∧
      (plain other limits reports).resolve id ⟨data, []⟩ 0 = (.ok node', after') ∧
      (after ≤ limits.maxNodes → after' ≤ limits.maxNodes →
        node.bind (Node.prune x) = node'.bind (Node.prune x) ∧
        (id = x → node.bind (Node.prune x) = none ∧ node'.bind (Node.prune x) = none)) := by
  obtain ⟨node, after, made, enough⟩ := resolve_ample registry limits reports id ⟨data, []⟩ 0
  obtain ⟨node', after', made', enough'⟩ := resolve_ample other limits reports id ⟨data, []⟩ 0
  refine ⟨node, after, node', after', made, made', ?_⟩
  intro within within'
  rw [enough within, enough' within']
  constructor
  · exact ample_prune_eq same (fun definition member => apart definition (by simp [member])) id _
  · rintro rfl
    exact ⟨ample_prune_self id _, ample_prune_self id _⟩

/-- A text that turns into a component of an unknown kind leaves its siblings as they were. -/
theorem resolve_prune_eq_of_unknown :
    let registry : Registry :=
      [⟨"root", none, "Row",
          .obj [("children", .obj [("explicitList", .list [.str "a", .str "x", .str "b"])])]⟩,
        ⟨"x", none, "Text", .null⟩, ⟨"b", none, "Divider", .null⟩]
    let other := registry.upsert ⟨"x", none, "Gauge", .null⟩
    (∀ key, key ≠ "x" → registry.get? key = other.get? key) ∧
    (∀ definition ∈ registry ++ other, definition.labelTarget? ≠ some "x") ∧
    ∃ node node',
      (plain registry ⟨3, 5⟩ true).resolve "root" ⟨.null, []⟩ 0 = (.ok node, 3) ∧
      (plain other ⟨3, 5⟩ true).resolve "root" ⟨.null, []⟩ 0 = (.ok node', 3) ∧
      node.bind (Node.prune "x") = node'.bind (Node.prune "x") := by
  intro registry other
  have same : ∀ key, key ≠ "x" → registry.get? key = other.get? key := by
    intro key differs
    rw [Registry.get?_upsert, if_neg (Ne.symm differs)]
  have apart : ∀ definition ∈ registry ++ other, definition.labelTarget? ≠ some "x" := by decide
  obtain ⟨node, after, node', after', made, made', equal⟩ :=
    resolve_prune_eq registry other ⟨3, 5⟩ true "x" "root" .null same apart
  have spent : ((plain registry ⟨3, 5⟩ true).resolve "root" ⟨.null, []⟩ 0).2 = 3 := by decide
  have spent' : ((plain other ⟨3, 5⟩ true).resolve "root" ⟨.null, []⟩ 0).2 = 3 := by decide
  rw [made] at spent
  rw [made'] at spent'
  cases spent
  cases spent'
  exact ⟨same, apart, node, node', made, made', (equal (by decide) (by decide)).1⟩

end Pass
end LiveSurface
