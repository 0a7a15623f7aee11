import LiveSurface.Proofs.Number.Numeral
import LiveSurface.Proofs.Render.Derivation

/-!
# Nodes and the components around them

The way on which a component is shown is the row of identifiers of the nodes around its node. So
the limits and the cycles of a pass can be told from its tree alone (`resolve_placed`): a
component is a cycle exactly when it stands below itself, and it is too deep exactly when as many
nodes stand around it as the limit allows.
-/
namespace LiveSurface

namespace Node

/-- A node of a tree and the nodes around it, the outermost first. -/
inductive Occurs : Node → List Node → Node → Prop
  | root (tree : Node) : Occurs tree [] tree
  | child {tree child node : Node} {above : List Node} (member : child ∈ tree.children)
    (inside : Occurs child above node) : Occurs tree (tree :: above) node

theorem Occurs.of_leaf {tree node : Node} {above : List Node} (leaf : tree.children = [])
    (occurs : Occurs tree above node) : above = [] ∧ node = tree := by
  cases occurs with
  | root => exact ⟨rfl, rfl⟩
  | child member inside => simp [leaf] at member

/-- An error node with a message. -/
def IsError (node : Node) (message : String) : Prop :=
  node.kind = .error ∧ Entries.get? node.props "message" = some (.str message)

/-- What the node of the component with an identifier tells about the components around it. -/
structure Placed (node : Node) (limits : Limits) (trail : List String) (id : String) : Prop where
  identified : node.componentId = some id
  nodup : trail.Nodup
  length_le : trail.length ≤ limits.maxDepth
  cycle : node.kind = .cycle →
    id ∈ trail ∧ Entries.get? node.props "trail" = some (.list (trail.map .str))
  tooDeep : ∀ limit other, node.IsError (Failure.tooDeep limit other).message →
    trail.length = limits.maxDepth ∧ id ∉ trail
  shown : node.kind ≠ .error → node.kind ≠ .notFound → node.kind ≠ .cycle →
    id ∉ trail ∧ trail.length < limits.maxDepth
  again : id ∈ trail → ¬ node.IsError (overLimit limits.maxNodes id) → node.kind = .cycle

end Node

theorem getElem?_append_of_some {a b : String} {i : Nat} {c : Char}
    (found : a.toList[i]? = some c) : (a ++ b).toList[i]? = some c := by
  obtain ⟨inside, -⟩ := List.getElem?_eq_some_iff.mp found
  rw [String.toList_append, List.getElem?_append_left inside, found]

theorem Failure.tooDeep_getElem? {i : Nat} {c : Char} (limit : Nat) (id : String)
    (found : "maximum component depth (".toList[i]? = some c) :
    (Failure.tooDeep limit id).message.toList[i]? = some c :=
  getElem?_append_of_some (getElem?_append_of_some (getElem?_append_of_some
    (getElem?_append_of_some found)))

theorem overLimit_getElem? {i : Nat} {c : Char} (limit : Nat) (id : String)
    (found : "maximum components per render (".toList[i]? = some c) :
    (overLimit limit id).toList[i]? = some c :=
  getElem?_append_of_some (getElem?_append_of_some (getElem?_append_of_some
    (getElem?_append_of_some found)))

/-- The error of the limit on components is not the error of the limit on the depth. -/
theorem overLimit_ne_tooDeep (nodes depth : Nat) (id other : String) :
    overLimit nodes id ≠ (Failure.tooDeep depth other).message := by
  intro same
  have deep := Failure.tooDeep_getElem? (i := 17) (c := ' ') depth other (by decide)
  have beyond := overLimit_getElem? (i := 17) (c := 's') nodes id (by decide)
  rw [same, deep] at beyond
  exact absurd beyond (by decide)

theorem toString_getElem? (n : Nat) : ∃ c, (toString n).toList[0]? = some c ∧ c.isDigit := by
  cases digits : (toString n).toList with
  | nil => exact absurd digits (Text.toString_ne_nil n)
  | cons c rest => exact ⟨c, rfl, Text.isDigit_of_mem_toString (digits ▸ List.mem_cons_self)⟩

theorem invalid_getElem? (failure : Validation.Invalid) :
    ∃ c, failure.message.toList[0]? = some c ∧ c.isDigit := by
  obtain ⟨c, found, digit⟩ := toString_getElem? (failure.first :: failure.rest).length
  refine ⟨c, ?_, digit⟩
  simp only [Validation.Invalid.message, List.map_cons, String.intercalate_cons_cons]
  exact getElem?_append_of_some (getElem?_append_of_some (getElem?_append_of_some
    (getElem?_append_of_some (getElem?_append_of_some (getElem?_append_of_some found)))))

theorem notObject_of_parse {kind name type : String} {props : Value}
    (refused : Component.parse kind props = .error (.notObject name type)) :
    ∃ known : Kind, name = known.name := by
  unfold Component.parse at refused
  cases named : Kind.ofName? kind with
  | none => simp [named] at refused
  | some known =>
    simp only [named] at refused
    split at refused
    · cases read : (Component.read known []).named known.modelName <;> rw [read] at refused <;>
        cases refused
    · next body =>
      cases read : (Component.read known body).named known.modelName <;> rw [read] at refused <;>
        cases refused
    · cases refused
      exact ⟨known, (Kind.name_of_ofName? named).symm⟩

/-- The error of properties that do not pass their checks begins as the error of no limit does. -/
theorem parse_getElem?_ne {kind : String} {props : Value} {fault : Component.Fault}
    (refused : Component.parse kind props = .error fault) :
    fault.message.toList[0]? ≠ some 'm' := by
  intro same
  cases fault with
  | invalid failure =>
    obtain ⟨c, found, digit⟩ := invalid_getElem? failure
    rw [Component.Fault.message, found] at same
    cases same
    exact absurd digit (by decide)
  | notObject name type =>
    obtain ⟨known, rfl⟩ := notObject_of_parse refused
    have capital : known.name.toList[0]?.any (· ≠ 'm') = true := by cases known <;> decide
    obtain ⟨c, found, other⟩ := (Option.any_eq_true _ _).mp capital
    have first : (Component.Fault.notObject known.name type).message.toList[0]? = some c :=
      getElem?_append_of_some (getElem?_append_of_some found)
    rw [first] at same
    cases same
    exact absurd other (by decide)

namespace Failure

theorem Own.getElem?_ne {failure : Failure} (own : failure.Own) :
    failure.message.toList[0]? ≠ some 'm' := by
  cases own with
  | properties refused => exact parse_getElem?_ne refused
  | unwritten =>
    have first : (Failure.unwritten .unwritten).message.toList[0]? = some 'E' :=
      getElem?_append_of_some (by decide)
    rw [first]
    decide

theorem Own.ne_tooDeep {failure : Failure} (own : failure.Own) (depth : Nat) (id : String) :
    failure.message ≠ (tooDeep depth id).message := by
  intro same
  have deep := tooDeep_getElem? (i := 0) (c := 'm') depth id (by decide)
  rw [← same] at deep
  exact own.getElem?_ne deep

theorem Own.ne_overLimit {failure : Failure} (own : failure.Own) (limit : Nat) (id : String) :
    failure.message ≠ overLimit limit id := by
  intro same
  have beyond := overLimit_getElem? (i := 0) (c := 'm') limit id (by decide)
  rw [← same] at beyond
  exact own.getElem?_ne beyond

theorem Own.diagnostic_eq {failure : Failure} (own : failure.Own) (id kind : String)
    (trail : List String) : failure.diagnostic id kind trail = .failed id kind failure.message := by
  cases own <;> rfl

end Failure

/-- The components around a place are registered and distinct, and no more than the limit. -/
structure Limits.Way (limits : Limits) (registry : Registry) (trail : List String) : Prop where
  registered : ∀ id ∈ trail, registry.get? id ≠ none
  nodup : trail.Nodup
  length_le : trail.length ≤ limits.maxDepth

theorem Limits.Way.enter {limits : Limits} {registry : Registry} {trail : List String}
    {id : String} {definition : Definition} (way : limits.Way registry trail)
    (found : registry.get? id = some definition) (new : id ∉ trail)
    (room : trail.length < limits.maxDepth) : limits.Way registry (trail ++ [id]) := by
  refine ⟨?_, ?_, ?_⟩
  · intro other member
    rcases List.mem_append.mp member with around | same
    · exact way.registered other around
    · rw [List.mem_singleton.mp same, found]
      exact Option.some_ne_none definition
  · refine List.nodup_append.mpr ⟨way.nodup, by simp, ?_⟩
    intro other around last same
    rw [List.mem_singleton.mp same]
    intro equal
    exact new (equal ▸ around)
  · rw [List.length_append, List.length_singleton]
    exact room

theorem Node.failed_isError {id kind message other : String} :
    (Node.failed id kind message).IsError other ↔ message = other := by
  simp [Node.IsError, Node.failed, Node.kind, Node.props, Entries.get?]

/-- An error is placed when its message tells of a limit only where that limit is met. -/
theorem Node.failed_placed {limits : Limits} {trail : List String} {id kind message : String}
    (nodup : trail.Nodup) (length_le : trail.length ≤ limits.maxDepth)
    (tooDeep : ∀ limit other, message = (Failure.tooDeep limit other).message →
      trail.length = limits.maxDepth ∧ id ∉ trail)
    (beyond : id ∈ trail → message = overLimit limits.maxNodes id) :
    (Node.failed id kind message).Placed limits trail id where
  identified := rfl
  nodup := nodup
  length_le := length_le
  cycle cyclic := by cases cyclic
  tooDeep limit other error := tooDeep limit other (Node.failed_isError.mp error)
  shown other := absurd rfl other
  again around other := absurd (Node.failed_isError.mpr (beyond around)) other

namespace Pass

variable {registry : Registry} {limits : Limits} {reports : Bool}

theorem absent_placed {trail : List String} {id : String} (way : limits.Way registry trail)
    (missing : registry.get? id = none) : (Node.absent id).Placed limits trail id where
  identified := rfl
  nodup := way.nodup
  length_le := way.length_le
  cycle cyclic := by cases cyclic
  tooDeep _ _ error := by cases error.1
  shown _ other := absurd rfl other
  again around _ := absurd missing (way.registered id around)

theorem diagnostic_placed {definition : Definition} {id : String} {scope : Scope}
    {failure : Failure} (way : limits.Way registry scope.trail)
    (outlined : outline registry limits reports definition id scope = .error failure)
    (kind : String) : (failure.diagnostic id kind scope.trail).Placed limits scope.trail id := by
  rcases outline_error outlined with ⟨again, rfl⟩ | ⟨new, deep, rfl⟩ |
    ⟨new, room, own⟩
  · exact {
      identified := rfl
      nodup := way.nodup
      length_le := way.length_le
      cycle := fun _ => ⟨again, rfl⟩
      tooDeep := fun _ _ error => by cases error.1
      shown := fun _ _ other => absurd rfl other
      again := fun _ _ => rfl }
  · refine Node.failed_placed way.nodup way.length_le ?_ ?_
    · intro _ _ _
      have := way.length_le
      exact ⟨by omega, new⟩
    · intro around
      exact absurd around new
  · rw [own.diagnostic_eq]
    refine Node.failed_placed way.nodup way.length_le ?_ ?_
    · intro limit other same
      exact absurd same (own.ne_tooDeep limit other)
    · intro around
      exact absurd around new

/-- A component that ends is placed on its way. -/
theorem Ends.placed {id : String} {scope : Scope} {spent after : Int} {tree : Node}
    (ends : Ends registry limits reports id scope spent (some tree) after)
    (way : limits.Way registry scope.trail) : tree.Placed limits scope.trail id := by
  cases ends with
  | absent missing => exact absent_placed way missing
  | overLimit found beyond =>
    refine Node.failed_placed way.nodup way.length_le ?_ ?_
    · intro limit other same
      exact absurd same (overLimit_ne_tooDeep _ limit _ other)
    · intro _
      rfl
  | refused found within outlined => exact diagnostic_placed way outlined _

theorem framed_placed {definition : Definition} {id : String} {scope : Scope} {frame : Frame}
    (way : limits.Way registry scope.trail)
    (outlined : outline registry limits reports definition id scope = .ok (some frame))
    (children : List Node) : (frame.node id children).Placed limits scope.trail id := by
  obtain ⟨new, room, component, -, framed⟩ := outline_ok outlined
  obtain ⟨kind, same⟩ := kind_of_frame framed
  have shape : (frame.node id children).kind = NodeKind.ofKind kind := same
  exact {
    identified := rfl
    nodup := way.nodup
    length_le := way.length_le
    cycle := fun cyclic => by rw [shape] at cyclic; cases kind <;> cases cyclic
    tooDeep := fun _ _ error => by
      have := error.1
      rw [shape] at this
      cases kind <;> cases this
    shown := fun _ _ _ => ⟨new, room⟩
    again := fun around => absurd around new }

/-- Every node of the trees of a row is placed on the way of the row and the nodes around it. -/
theorem Shows.placed {row : List (String × Scope)} {spent after : Int} {nodes : List Node}
    (shown : Shows registry limits reports row spent nodes after) {trail : List String}
    (standing : ∀ entry ∈ row, entry.2.trail = trail) (way : limits.Way registry trail) :
    ∀ tree ∈ nodes, ∀ above node, tree.Occurs above node → ∃ id inner,
      above.map Node.componentId = inner.map some ∧ node.Placed limits (trail ++ inner) id := by
  induction shown generalizing trail with
  | nil spent => simp
  | @ends id scope row spent middle after node nodes first rest ih =>
    intro tree member above node occurs
    rcases List.mem_append.mp member with head | tail
    · have same : scope.trail = trail := standing (id, scope) (by simp)
      obtain rfl := Option.mem_toList.mp head
      obtain ⟨rfl, rfl⟩ := occurs.of_leaf first.children
      refine ⟨id, [], rfl, ?_⟩
      rw [List.append_nil, ← same]
      exact first.placed (same ▸ way)
    · exact ih (fun entry member => standing entry (by simp [member])) way tree tail above node
        occurs
  | @framed id scope row spent middle after definition frame children nodes found within outlined
      below rest ihBelow ih =>
    intro tree member above node occurs
    have same : scope.trail = trail := standing (id, scope) (by simp)
    rcases List.mem_cons.mp member with rfl | tail
    · cases occurs with
      | root =>
        refine ⟨id, [], rfl, ?_⟩
        rw [List.append_nil, ← same]
        exact framed_placed (same ▸ way) outlined children
      | child member inside =>
        obtain ⟨new, room, component, -, framed⟩ := outline_ok outlined
        have deeper : ∀ entry ∈ frame.below, entry.2.trail = trail ++ [id] := by
          intro entry member
          rw [trail_of_below framed member, Scope.enter, same]
        obtain ⟨inner, others, around, placed⟩ := ihBelow deeper
          (way.enter found (same ▸ new) (same ▸ room)) _ member _ _ inside
        refine ⟨inner, id :: others, ?_, ?_⟩
        · rw [List.map_cons, List.map_cons, around]
          rfl
        · rwa [List.append_assoc] at placed
    · exact ih (fun entry member => standing entry (by simp [member])) way tree tail above node
        occurs

/-- Every node of the tree of a component tells where it stands: the identifiers of the nodes
around it are the way to it, and with its own identifier they decide whether it is a cycle or too
deep. -/
theorem resolve_placed (registry : Registry) (limits : Limits) (reports : Bool) (id : String)
    (data : Value) (spent : Int) :
    ∃ tree after,
      (plain registry limits reports).resolve id ⟨data, []⟩ spent = (.ok tree, after) ∧
      ∀ root ∈ tree, ∀ above node, root.Occurs above node → ∃ trail own,
        above.map Node.componentId = trail.map some ∧ node.Placed limits trail own := by
  obtain ⟨tree, after, made, shown⟩ := resolve_shows registry limits reports id ⟨data, []⟩ spent
  have standing : ∀ entry ∈ [(id, (⟨data, []⟩ : Scope))], entry.2.trail = [] := by simp
  have way : limits.Way registry [] := ⟨by simp, List.nodup_nil, Nat.zero_le _⟩
  refine ⟨tree, after, made, ?_⟩
  intro root same above node occurs
  obtain ⟨own, trail, around, placed⟩ :=
    shown.placed standing way root (Option.mem_toList.mpr same) above node occurs
  exact ⟨trail, own, around, placed⟩

/-- A column that lists itself holds a cycle, placed below the column. -/
theorem resolve_placed_of_self_reference :
    let registry : Registry :=
      [⟨"root", none, "Column", .obj [("children", .obj [("explicitList", .list [.str "root"])])]⟩]
    ∃ tree after,
      (plain registry ⟨3, 5⟩ true).resolve "root" ⟨.null, []⟩ 0 = (.ok (some tree), after) ∧
      ∃ node, tree.Occurs [tree] node ∧ node.kind = .cycle ∧ ∃ trail own,
        [tree.componentId] = trail.map some ∧ node.Placed ⟨3, 5⟩ trail own := by
  intro registry
  obtain ⟨tree, after, made, placed⟩ := resolve_placed registry ⟨3, 5⟩ true "root" .null 0
  let column : Frame := { kind := .column, props := [("alignment", .str "start")] }
  let cyclic := Node.circular "root" ["root"]
  have known : (plain registry ⟨3, 5⟩ true).resolve "root" ⟨.null, []⟩ 0 =
      (.ok (some (column.node "root" [cyclic])), 2) := by rfl
  rw [known] at made
  cases made
  have occurs : (column.node "root" [cyclic]).Occurs [column.node "root" [cyclic]] cyclic :=
    .child (List.mem_singleton_self cyclic) (.root cyclic)
  obtain ⟨trail, own, around, told⟩ := placed _ rfl _ _ occurs
  exact ⟨_, _, known, cyclic, occurs, rfl, trail, own, around, told⟩

end Pass
end LiveSurface
