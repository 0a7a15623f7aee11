import LiveSurface.Proofs.Render.Budget
import LiveSurface.Proofs.Render.Children
import LiveSurface.Proofs.Render.Containment
import LiveSurface.Proofs.Validation.Actions

/-!
# Where nodes and reports come from

Every node below a surface stands for a component: it is missing, it is a diagnostic of a registered
component, or it has the kind that the component is registered with. A node can be activated exactly
if it is a button whose definition describes an action, and the host listens. Activating all nodes
reports each of these actions once, parents before their children (`surface_justified`).
-/
namespace LiveSurface

open Validation

namespace Node

section
variable {σ : Type} (report : String → List Value → σ → σ)

/-- Activates a node by itself: a host that listens receives its action by name. -/
def press (node : Node) (state : σ) : σ :=
  match node.action with
  | some action => report action.name action.payload state
  | none => state

mutual

/-- Activates a node and then all nodes below it. -/
def activate : Node → σ → σ
  | mk kind id text props action children, state =>
    activateAll children (press report (mk kind id text props action children) state)
termination_by structural node => node

/-- Activates nodes one after another, each with all nodes below it. -/
def activateAll : List Node → σ → σ
  | [], state => state
  | node :: rest, state => activateAll rest (activate node state)
termination_by structural nodes => nodes

end

mutual

/-- Nodes are activated depth first, and a parent before its children. -/
theorem activate_eq (node : Node) (state : σ) :
    activate report node state =
      node.flatten.foldl (fun state part => press report part state) state := by
  cases node with
  | mk kind id text props action children =>
    rw [activate, flatten, List.foldl_cons, activateAll_eq]

theorem activateAll_eq (nodes : List Node) (state : σ) :
    activateAll report nodes state =
      (flattenAll nodes).foldl (fun state part => press report part state) state := by
  cases nodes with
  | nil => rfl
  | cons node rest => rw [activateAll, flattenAll, List.foldl_append, activate_eq, activateAll_eq]

end

/-- What a host receives of a tree is the action of each node that has one, once and in order. -/
theorem activate_eq_foldl_reports (node : Node) (state : σ) :
    activate report node state =
      node.reports.foldl (fun state action => report action.name action.payload state) state := by
  rw [activate_eq, reports, List.foldl_filterMap]
  congr 1
  funext state part
  unfold press
  cases part.action <;> rfl

end

end Node

/-- What a definition describes as its action, unless that is null. -/
def Definition.action? (definition : Definition) : Option Value :=
  definition.props.fieldsOrNone.filled? "action"

namespace Node

/-- What a node with an identifier stands for: a component that is not registered, a registered one
that could not be shown, or one that is shown as a node of its kind. -/
inductive Origin (registry : Registry) (id : String) (node : Node) : Prop
  | absent (kind : node.kind = .notFound) (missing : registry.get? id = none)
  | circular {definition : Definition} (kind : node.kind = .cycle)
    (found : registry.get? id = some definition)
  | failed {definition : Definition} (kind : node.kind = .error)
    (found : registry.get? id = some definition)
    (named : Entries.get? node.props "component_kind" = some (.str definition.kind))
  | shown {definition : Definition} {known : Kind} (kind : node.kind = .ofKind known)
    (found : registry.get? id = some definition) (named : definition.kind = known.name)

/-- A node that stands for a component, and can be activated exactly if it is a button, the host
listens, and the definition describes an action. A report says what this action is described by. -/
structure Justified (registry : Registry) (reports : Bool) (node : Node) : Prop where
  origin : ∃ id, node.componentId = some id ∧ node.Origin registry id
  actionable : node.action.isSome = true ↔ node.kind = .button ∧ reports = true ∧
    ∃ id definition described, node.componentId = some id ∧ registry.get? id = some definition ∧
      definition.action? = some described
  reported : ∀ action, node.action = some action →
    ∃ id definition described, node.componentId = some id ∧ registry.get? id = some definition ∧
      definition.action? = some described ∧
      Action.Reported described action.name action.payload

theorem Justified.of_inert {registry : Registry} {reports : Bool} {node : Node} {id : String}
    (own : node.componentId = some id) (origin : node.Origin registry id)
    (inert : node.action = none) (kind : node.kind ≠ .button) :
    node.Justified registry reports where
  origin := ⟨id, own, origin⟩
  actionable := by simp [inert, kind]
  reported action acts := nomatch inert.symm.trans acts

end Node

/-- The checked action of a component. -/
def Component.action? : Component → Option Action
  | .button _ _ action => action
  | _ => none

theorem Component.read_of_parse {kind : String} {props : Value} {component : Component}
    {known : Kind} (named : Kind.ofName? kind = some known)
    (parsed : parse kind props = .ok component) :
    read known props.fieldsOrNone = .valid component := by
  rw [parse, named] at parsed
  cases props with
  | null => exact valid_of_named parsed
  | obj body => exact valid_of_named parsed
  | _ => cases parsed

theorem Component.action?_of_parse {definition : Definition} {target : Option String}
    {primary : Bool} {action : Option Action}
    (parsed : parse definition.kind definition.props = .ok (.button target primary action)) :
    definition.action?.map (record Action.read) = action.map .valid := by
  have known : Kind.ofName? definition.kind = some .button := (kind?_of_parse parsed).symm
  have valid := read_of_parse known parsed
  simp only [read, Checked.map_eq, Checked.seq_eq, Checked.apply_eq_valid_iff,
    Checked.map_eq_valid_iff] at valid
  obtain ⟨_, _, ⟨_, _, ⟨_, -, rfl⟩, -, rfl⟩, acts, made⟩ := valid
  cases made
  exact maybe_eq_valid_iff.mp acts

namespace Pass

variable {registry : Registry} {limits : Limits} {reports : Bool}

theorem frame_of_component {component : Component} {scope : Scope} {frame : Frame}
    (framed : frame? registry reports scope component = .ok (some frame)) :
    (∃ kind, component.kind? = some kind ∧ frame.kind = .ofKind kind) ∧
      frame.action = if reports then component.action? else none := by
  cases component with
  | text descriptor hint =>
    obtain ⟨text, -, same⟩ := Result.map_eq_ok_iff.mp framed
    cases same
    exact ⟨⟨.text, rfl, rfl⟩, by simp [Component.action?]⟩
  | button target primary action =>
    obtain ⟨label, -, same⟩ := Result.map_eq_ok_iff.mp framed
    cases same
    exact ⟨⟨.button, rfl, rfl⟩, rfl⟩
  | list children =>
    simp only [frame?, Except.ok.injEq, Option.map_eq_some_iff] at framed
    obtain ⟨scopes, -, rfl⟩ := framed
    exact ⟨⟨.list, rfl, rfl⟩, by simp [Component.action?]⟩
  | unknown kind body => cases framed
  | _ =>
    cases framed
    exact ⟨⟨_, rfl, rfl⟩, by simp [Component.action?]⟩

theorem Ends.justified {id : String} {scope : Scope} {spent after : Int} {node : Node}
    (ends : Ends registry limits reports id scope spent (some node) after) :
    node.Justified registry reports := by
  cases ends with
  | absent missing => exact .of_inert rfl (.absent rfl missing) rfl (by rintro ⟨⟩)
  | overLimit found beyond => exact .of_inert rfl (.failed rfl found rfl) rfl (by rintro ⟨⟩)
  | refused found within outlined =>
    rename_i definition failure
    cases cyclic : failure.isCycle with
    | true =>
      rw [Failure.diagnostic, if_pos cyclic]
      exact .of_inert rfl (.circular rfl found) rfl (by rintro ⟨⟩)
    | false =>
      rw [Failure.diagnostic, if_neg (by simp [cyclic])]
      exact .of_inert rfl (.failed rfl found rfl) rfl (by rintro ⟨⟩)

/-- A component that is shown as a frame is shown as a node of its kind. -/
theorem justified_of_outline {definition : Definition} {id : String} {scope : Scope}
    {frame : Frame} (found : registry.get? id = some definition)
    (outlined : outline registry limits reports definition id scope = .ok (some frame))
    (children : List Node) : (frame.node id children).Justified registry reports := by
  obtain ⟨-, -, component, parsed, framed⟩ := outline_ok outlined
  obtain ⟨⟨known, same, kind⟩, acts⟩ := frame_of_component framed
  have named : definition.kind = known.name :=
    (Kind.name_of_ofName? ((Component.kind?_of_parse parsed).symm.trans same)).symm
  have origin : (frame.node id children).Origin registry id := .shown kind found named
  have acts : (frame.node id children).action = if reports then component.action? else none := acts
  cases component with
  | button target primary action =>
    cases same
    have described := Component.action?_of_parse parsed
    refine ⟨⟨id, rfl, origin⟩, ?_, fun own acted => ?_⟩
    · have set := congrArg Option.isSome described
      rw [Option.isSome_map, Option.isSome_map] at set
      rw [acts, Component.action?]
      constructor
      · intro acted
        cases reports with
        | false => cases acted
        | true =>
          obtain ⟨raw, given⟩ := Option.isSome_iff_exists.mp (set.trans acted)
          exact ⟨kind, rfl, id, definition, raw, rfl, found, given⟩
      · rintro ⟨-, rfl, _, other, raw, own, found', given⟩
        cases own
        cases found.symm.trans found'
        rw [if_pos rfl, ← set, given]
        rfl
    · rw [acts] at acted
      cases reports with
      | false => cases acted
      | true =>
        obtain rfl : action = some own := acted
        obtain ⟨raw, given, checked⟩ := Option.map_eq_some_iff.mp described
        obtain ⟨body, rfl, read⟩ := record_eq_valid_iff.mp checked
        exact ⟨id, definition, _, rfl, found, given, Action.reported_of_read read⟩
  | unknown kind body => cases same
  | _ =>
    cases same
    exact .of_inert rfl origin (by simpa [Component.action?] using acts) fun button =>
      nomatch kind.symm.trans button

/-- Every node of a row and below it is justified. -/
theorem Shows.justified {row : List (String × Scope)} {spent after : Int} {nodes : List Node}
    (shown : Shows registry limits reports row spent nodes after) :
    ∀ node ∈ Node.flattenAll nodes, node.Justified registry reports := by
  induction shown with
  | nil spent => exact nofun
  | @ends id scope row spent middle after node nodes first rest ih =>
    rw [flattenAll_append, List.forall_mem_append]
    refine ⟨?_, ih⟩
    cases node with
    | none => exact nofun
    | some node =>
      rw [Option.toList_some, flattenAll_leaf first.children]
      simpa using first.justified
  | framed found within outlined below rest ihBelow ih =>
    rw [flattenAll_framed, List.forall_mem_cons, List.forall_mem_append]
    exact ⟨justified_of_outline found outlined _, ihBelow, ih⟩

end Pass

namespace Renderer

/-- The tree of a surface whose root is registered. -/
theorem surface_shows (limits : Limits) (reports : Bool) {surface : Surface} {root : String}
    (chosen : root? surface = some root) :
    ∃ (child : Option Node) (after : Int),
      (∃ props, Renderer.surface ⟨Node.primitives, limits, reports⟩ surface =
        .ok (.mk .surface surface.id none props none child.toList)) ∧
      Pass.Shows surface.components limits reports [(root, ⟨.obj surface.data, []⟩)] 0
        child.toList after := by
  obtain ⟨child, after, made, shown⟩ := Pass.resolve_shows surface.components limits reports root
    ⟨.obj surface.data, []⟩ 0
  have pass : (⟨Node.primitives, limits, reports⟩ : Renderer Node).pass surface =
      Pass.plain surface.components limits reports := rfl
  refine ⟨child, after, ?_, shown⟩
  simp only [Renderer.surface, surfaceOver, chosen, pass, made]
  exact ⟨_, rfl⟩

/-- Below a surface whose root is registered every node stands for a component and can be activated
exactly if it is a button whose definition describes an action and the host listens. When all nodes
are activated, the host receives the actions of the nodes that have one, each once, in the order of
the nodes, and a host that does not listen receives nothing. -/
theorem surface_justified (limits : Limits) (reports : Bool) {surface : Surface} {root : String}
    (chosen : root? surface = some root) :
    ∃ tree, Renderer.surface ⟨Node.primitives, limits, reports⟩ surface = .ok tree ∧
      tree.kind = .surface ∧ tree.componentId = some surface.id ∧
      (∀ node ∈ Node.flattenAll tree.children, node.Justified surface.components reports) ∧
      ∀ (σ : Type) (report : String → List Value → σ → σ) (state : σ),
        tree.activate report state =
          ((Node.flattenAll tree.children).filterMap Node.action).foldl
            (fun state action => report action.name action.payload state) state ∧
        (reports = false → tree.activate report state = state) := by
  obtain ⟨child, after, ⟨props, made⟩, shown⟩ := surface_shows limits reports chosen
  have justified := shown.justified
  refine ⟨_, made, rfl, rfl, justified, fun σ report state => ?_⟩
  have own : (Node.mk .surface surface.id none props none child.toList).reports =
      (Node.flattenAll child.toList).filterMap Node.action := rfl
  have activated := Node.activate_eq_foldl_reports report
    (.mk .surface surface.id none props none child.toList) state
  rw [own] at activated
  refine ⟨activated, fun silent => ?_⟩
  have nothing : (Node.flattenAll child.toList).filterMap Node.action = [] := by
    rw [List.filterMap_eq_nil_iff]
    intro node member
    rw [← Option.not_isSome_iff_eq_none, (justified node member).actionable]
    simp [silent]
  rw [activated, nothing]
  rfl

/-- A button that is shown twice, around a reference to nothing, is reported twice. -/
theorem surface_justified_of_repeated_button :
    let context : Value :=
      .obj [("key", .str "file"),
        ("value", .obj [("literalString", .null), ("path", .str "/name")])]
    let button : Definition := ⟨"b", none, "Button",
      .obj [("action", .obj [("name", .str "open"), ("context", .list [context])])]⟩
    let column : Definition := ⟨"root", none, "Column",
      .obj [("children", .obj [("explicitList", .list [.str "b", .str "gone", .str "b"])])]⟩
    let surface : Surface := { id := "s", root := some "root", components := [column, button] }
    let told : Value := .obj [("key", .str "file"), ("value", .obj [("path", .str "/name")])]
    root? surface = some "root" ∧
      ∃ tree, Renderer.surface ⟨Node.primitives, ⟨3, 5⟩, true⟩ surface = .ok tree ∧
        (Node.flattenAll tree.children).map Node.kind = [.column, .button, .notFound, .button] ∧
        (∀ node ∈ Node.flattenAll tree.children, node.Justified surface.components true) ∧
        tree.activate (fun name payload calls => calls ++ [(name, payload)]) [] =
          [("open", [told]), ("open", [told])] := by
  intro context button column surface told
  have chosen : root? surface = some "root" := by decide
  obtain ⟨tree, made, -, -, justified, activated⟩ := surface_justified ⟨3, 5⟩ true chosen
  refine ⟨chosen, tree, made, ?_, justified, ?_⟩
  · cases made
    rfl
  · rw [(activated _ _ _).1]
    cases made
    rfl

end Renderer
end LiveSurface
