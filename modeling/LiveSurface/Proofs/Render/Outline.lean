import LiveSurface.Proofs.Data.Parts
import LiveSurface.Proofs.Render.Resolution
import LiveSurface.Proofs.Result

/-!
# Components as frames

With the makers of plain nodes nothing about a host can fail, and all that a component decides by
itself is its frame: the node it becomes, but for the children, and the row of components whose
nodes are those children. `outline` gives the frame of a registered component, nothing for a
component that shows as nothing, or the failure that its error boundary turns into a diagnostic.
-/
namespace LiveSurface

namespace Node

/-- The node of an identifier that is not registered. -/
def absent (id : String) : Node :=
  .mk .notFound id (some s!"Component not found: {id}") [] none []

/-- The node of a component that could not be shown. -/
def failed (id kind message : String) : Node :=
  .mk .error id (some s!"Error rendering {kind}")
    [("component_kind", .str kind), ("message", .str message)] none []

/-- The node of a component that is reached again below itself. -/
def circular (id : String) (trail : List String) : Node :=
  .mk .cycle id (some s!"Circular reference to component: {id}")
    [("trail", .list (trail.map .str))] none []

end Node

/-- The diagnostic that stands in the place of a component that failed. -/
def Failure.diagnostic (failure : Failure) (id kind : String) (trail : List String) : Node :=
  if failure.isCycle then .circular id trail else .failed id kind failure.message

@[simp] theorem Failure.diagnostic_componentId (failure : Failure) (id kind : String)
    (trail : List String) : (failure.diagnostic id kind trail).componentId = some id := by
  unfold diagnostic
  split <;> rfl

@[simp] theorem Failure.diagnostic_children (failure : Failure) (id kind : String)
    (trail : List String) : (failure.diagnostic id kind trail).children = [] := by
  unfold diagnostic
  split <;> rfl

/-- What a component fails over by itself, wherever it stands: properties that do not pass their
checks, and texts that cannot be written. -/
inductive Failure.Own : Failure → Prop
  | properties {kind : String} {props : Value} {fault : Component.Fault}
    (refused : Component.parse kind props = .error fault) : Own (.properties fault)
  | unwritten : Own (.unwritten .unwritten)

/-- A node but for its children, and the components whose nodes are the children. -/
structure Frame where
  kind : NodeKind
  text : Option String := none
  props : Fields := []
  action : Option Action := none
  below : List (String × Scope) := []

/-- A frame around children. -/
def Frame.node (frame : Frame) (id : String) (children : List Node) : Node :=
  .mk frame.kind id frame.text frame.props frame.action children

namespace Pass

/-- A pass with the makers of plain nodes. -/
def plain (registry : Registry) (limits : Limits) (reports : Bool) : Pass Node :=
  ⟨Node.primitives, registry, limits, reports⟩

@[simp] theorem plain_primitives (registry : Registry) (limits : Limits) (reports : Bool) :
    (plain registry limits reports).primitives = Node.primitives := rfl

@[simp] theorem plain_registry (registry : Registry) (limits : Limits) (reports : Bool) :
    (plain registry limits reports).registry = registry := rfl

@[simp] theorem plain_limits (registry : Registry) (limits : Limits) (reports : Bool) :
    (plain registry limits reports).limits = limits := rfl

/-- The components below a card. -/
def cardScopes (target : Option String) (scope : Scope) : List (String × Scope) :=
  ((target.filter (· ≠ "")).map (·, scope)).toList

/-- The frame of a component inside a scope, if it shows as anything. -/
def frame? (registry : Registry) (reports : Bool) (scope : Scope) :
    Component → Except Failure (Option Frame)
  | .text descriptor hint =>
    let variant := Catalog.choose Catalog.textVariants "body" hint
    let level := (Catalog.headingLevel? variant).map fun level => ("heading_level", .int level)
    ((Descriptor.display descriptor scope.data).mapError .unwritten).map fun text : String =>
      some { kind := .text, text := some text, props := ("variant", .str variant) :: level.toList }
  | .button target primary action =>
    (label registry (target.filter (· ≠ "")) scope.data).map fun label : String =>
      some
        { kind := .button, text := some label, props := [("primary", .bool primary)],
          action := if reports then action else none }
  | .column children alignment =>
    .ok (some
      { kind := .column,
        props := [("alignment", .str (Catalog.choose Catalog.alignments "start" alignment))],
        below := columnScopes children scope })
  | .row children distribution =>
    .ok (some
      { kind := .row,
        props :=
          [("distribution", .str (Catalog.choose Catalog.distributions "start" distribution))],
        below := rowScopes children scope })
  | .card target => .ok (some { kind := .card, below := cardScopes target scope })
  | .list children =>
    .ok ((listScopes? children scope).map fun scopes => { kind := .list, below := scopes })
  | .icon name size =>
    let name := (name.filter (· ≠ "")).getD Catalog.defaultIcon
    let pixels := Catalog.iconPixels (Catalog.choose Catalog.sizes "medium" size)
    .ok (some
      { kind := .icon, text := Catalog.glyph name,
        props := [("name", .str name), ("pixel_size", .int pixels)] })
  | .divider orientation =>
    .ok (some
      { kind := .divider,
        props :=
          [("orientation", .str (Catalog.choose Catalog.orientations "horizontal" orientation))] })
  | .spacer size =>
    let size := Catalog.choose Catalog.sizes "medium" size
    .ok (some
      { kind := .spacer,
        props := [("size", .str size), ("units", .int (Catalog.spacerUnits size))] })
  | .unknown .. => .ok none

/-- What a registered component decides by itself. -/
def outline (registry : Registry) (limits : Limits) (reports : Bool) (definition : Definition)
    (id : String) (scope : Scope) : Except Failure (Option Frame) :=
  if id ∈ scope.trail then .error (.cycle id scope.trail)
  else if limits.maxDepth ≤ scope.trail.length then .error (.tooDeep limits.maxDepth id)
  else
    match Component.parse definition.kind definition.props with
    | .error fault => .error (.properties fault)
    | .ok component => frame? registry reports (scope.enter id) component

variable {registry : Registry} {limits : Limits} {reports : Bool}

/-- A component is made from its frame and what is shown in the row below it. -/
theorem make_plain (child : Resolve Node) (id : String) (component : Component) (scope : Scope)
    (spent : Int) :
    make (plain registry limits reports) child id component scope spent =
      match frame? registry reports scope component with
      | .error failure => (.error failure, spent)
      | .ok none => (.ok none, spent)
      | .ok (some frame) =>
        finish (each child frame.below spent) fun nodes => .ok (frame.node id nodes) := by
  cases component with
  | text descriptor hint =>
    simp only [make, plain, frame?, finish, Node.primitives, Frame.node]
    cases Descriptor.display descriptor scope.data with
    | error fault => rfl
    | ok text =>
      cases Catalog.headingLevel? (Catalog.choose Catalog.textVariants "body" hint) <;> rfl
  | button target primary action =>
    simp only [make, plain, frame?]
    cases label registry (target.filter (· ≠ "")) scope.data with
    | error fault => rfl
    | ok label => rfl
  | card target =>
    simp only [make, plain, frame?, cardScopes]
    cases target.filter (· ≠ "") with
    | none => rfl
    | some target =>
      simp only [Option.map_some, Option.toList_some, each]
      rcases child target scope spent with ⟨failure | node, after⟩
      · rfl
      · cases node <;> rfl
  | list children =>
    simp only [make, plain, frame?]
    cases listScopes? children scope <;> rfl
  | _ => rfl

/-- A label is the same for registries that hold the same for the component that it is taken
from. -/
theorem label_congr {other : Registry} {child : Option String}
    (same : ∀ key, child = some key → registry.get? key = other.get? key) (data : Value) :
    label registry child data = label other child data := by
  cases child with
  | none => rfl
  | some key => simp only [label, Option.bind_some, same key rfl]

theorem own_of_display {descriptor : Option Descriptor} {data : Value} {failure : Failure}
    (failed : (Descriptor.display descriptor data).mapError .unwritten = .error failure) :
    failure.Own := by
  obtain ⟨fault, shown, rfl⟩ := Result.mapError_eq_error_iff.mp failed
  rw [Descriptor.display_eq_error shown]
  exact .unwritten

theorem own_of_label {child : Option String} {data : Value} {failure : Failure}
    (failed : label registry child data = .error failure) : failure.Own := by
  unfold label at failed
  split at failed
  · cases failed
  · split at failed
    · split at failed
      · next parsed =>
        cases failed
        exact .properties parsed
      · exact own_of_display failed
      · cases failed
    · cases failed

theorem own_of_frame_error {component : Component} {scope : Scope} {failure : Failure}
    (framed : frame? registry reports scope component = .error failure) : failure.Own := by
  cases component with
  | text descriptor hint => exact own_of_display (Result.map_eq_error_iff.mp framed)
  | button target primary action => exact own_of_label (Result.map_eq_error_iff.mp framed)
  | _ => cases framed

/-- Why a component has no frame. -/
theorem outline_error {definition : Definition} {id : String} {scope : Scope} {failure : Failure}
    (outlined : outline registry limits reports definition id scope = .error failure) :
    (id ∈ scope.trail ∧ failure = .cycle id scope.trail) ∨
    (id ∉ scope.trail ∧ limits.maxDepth ≤ scope.trail.length ∧
      failure = .tooDeep limits.maxDepth id) ∨
    (id ∉ scope.trail ∧ scope.trail.length < limits.maxDepth ∧ failure.Own) := by
  unfold outline at outlined
  by_cases again : id ∈ scope.trail
  · simp only [again, ↓reduceIte, Except.error.injEq] at outlined
    exact .inl ⟨again, outlined.symm⟩
  · by_cases deep : limits.maxDepth ≤ scope.trail.length
    · simp only [again, deep, ↓reduceIte, Except.error.injEq] at outlined
      exact .inr (.inl ⟨again, deep, outlined.symm⟩)
    · simp only [again, deep, ↓reduceIte] at outlined
      refine .inr (.inr ⟨again, by omega, ?_⟩)
      split at outlined
      · next parsed =>
        cases outlined
        exact .properties parsed
      · exact own_of_frame_error outlined

/-- A component without a failure is new on the way, has room below it, and has properties that
pass their checks. -/
theorem outline_ok {definition : Definition} {id : String} {scope : Scope}
    {frame : Option Frame}
    (outlined : outline registry limits reports definition id scope = .ok frame) :
    id ∉ scope.trail ∧ scope.trail.length < limits.maxDepth ∧
      ∃ component, Component.parse definition.kind definition.props = .ok component ∧
        frame? registry reports (scope.enter id) component = .ok frame := by
  unfold outline at outlined
  by_cases again : id ∈ scope.trail
  · simp [again] at outlined
  · by_cases deep : limits.maxDepth ≤ scope.trail.length
    · simp [again, deep] at outlined
    · simp only [again, deep, ↓reduceIte] at outlined
      refine ⟨again, by omega, ?_⟩
      split at outlined
      · cases outlined
      · next component parsed => exact ⟨component, parsed, outlined⟩

theorem frame_of_text {descriptor : Option Descriptor} {hint : Option String} {scope : Scope}
    {frame : Frame}
    (framed : frame? registry reports scope (.text descriptor hint) = .ok (some frame)) :
    frame.kind = .text ∧ frame.below = [] := by
  obtain ⟨text, -, same⟩ := Result.map_eq_ok_iff.mp framed
  cases same
  exact ⟨rfl, rfl⟩

theorem frame_of_button {target : Option String} {primary : Bool} {action : Option Action}
    {scope : Scope} {frame : Frame}
    (framed : frame? registry reports scope (.button target primary action) = .ok (some frame)) :
    frame.kind = .button ∧ frame.below = [] := by
  obtain ⟨label, -, same⟩ := Result.map_eq_ok_iff.mp framed
  cases same
  exact ⟨rfl, rfl⟩

theorem frame_of_list {children : Option Children} {scope : Scope} {frame : Frame}
    (framed : frame? registry reports scope (.list children) = .ok (some frame)) :
    frame.kind = .list ∧ listScopes? children scope = some frame.below := by
  simp only [frame?, Except.ok.injEq, Option.map_eq_some_iff] at framed
  obtain ⟨scopes, bound, rfl⟩ := framed
  exact ⟨rfl, bound⟩

/-- What can stand below a component: nothing, or what its kind of container takes its children
from. -/
theorem below_of_frame {component : Component} {scope : Scope} {frame : Frame}
    (framed : frame? registry reports scope component = .ok (some frame)) :
    frame.below = [] ∨
    (∃ children alignment, component = .column children alignment ∧
      frame.below = columnScopes children scope) ∨
    (∃ children distribution, component = .row children distribution ∧
      frame.below = rowScopes children scope) ∨
    (∃ target, component = .card target ∧ frame.below = cardScopes target scope) ∨
    (∃ children, component = .list children ∧ listScopes? children scope = some frame.below) := by
  cases component with
  | text descriptor hint => exact .inl (frame_of_text framed).2
  | button target primary action => exact .inl (frame_of_button framed).2
  | column children alignment => cases framed; exact .inr (.inl ⟨_, _, rfl, rfl⟩)
  | row children distribution => cases framed; exact .inr (.inr (.inl ⟨_, _, rfl, rfl⟩))
  | card target => cases framed; exact .inr (.inr (.inr (.inl ⟨_, rfl, rfl⟩)))
  | list children => exact .inr (.inr (.inr (.inr ⟨_, rfl, (frame_of_list framed).2⟩)))
  | unknown kind body => cases framed
  | _ => cases framed; exact .inl rfl

/-- A component below another one stands where that one stands inside, perhaps with an element of
bound data as its data model. -/
theorem scope_of_below {component : Component} {scope : Scope} {frame : Frame}
    (framed : frame? registry reports scope component = .ok (some frame)) {entry : String × Scope}
    (member : entry ∈ frame.below) :
    entry.2 = scope ∨
    ∃ template : Template, ∃ items, template.items? scope.data = some items ∧
      ∃ item ∈ items, entry.2 = { scope with data := item } := by
  rcases below_of_frame framed with none | ⟨_, _, -, column⟩ | ⟨_, _, -, row⟩ | ⟨target, -, card⟩ |
    ⟨children, -, list⟩
  · simp [none] at member
  · exact .inl (scope_of_columnScopes (column ▸ member))
  · exact .inl (scope_of_rowScopes (row ▸ member))
  · rw [card] at member
    simp only [cardScopes, Option.mem_toList, Option.map_eq_some_iff] at member
    obtain ⟨_, -, rfl⟩ := member
    exact .inl rfl
  · exact .inr (scope_of_listScopes list member)

/-- What a data model passes to the values inside it is passed to the components below. -/
theorem data_of_below {motive : Value → Prop} (null : motive .null)
    (inside : ∀ {part v : Value}, part.Inside v → motive v → motive part)
    {component : Component} {scope : Scope} {frame : Frame} (holds : motive scope.data)
    (framed : frame? registry reports scope component = .ok (some frame)) {entry : String × Scope}
    (member : entry ∈ frame.below) : motive entry.2.data := by
  rcases scope_of_below framed member with same | ⟨_, _, elements, item, own, narrowed⟩
  · rw [same]
    exact holds
  · rw [narrowed]
    exact Template.items_of_inside null inside holds elements item own

theorem trail_of_below {component : Component} {scope : Scope} {frame : Frame}
    (framed : frame? registry reports scope component = .ok (some frame)) {entry : String × Scope}
    (member : entry ∈ frame.below) : entry.2.trail = scope.trail := by
  rcases scope_of_below framed member with same | ⟨_, _, _, item, _, narrowed⟩
  · rw [same]
  · rw [narrowed]

/-- Fewer components have room below a component than at the component. -/
theorem room_of_below {definition : Definition} {id : String} {scope : Scope} {frame : Frame}
    (outlined : outline registry limits reports definition id scope = .ok (some frame))
    {entry : String × Scope} (member : entry ∈ frame.below) :
    limits.maxDepth - entry.2.trail.length < limits.maxDepth - scope.trail.length := by
  obtain ⟨-, room, component, -, framed⟩ := outline_ok outlined
  rw [trail_of_below framed member, Scope.enter, List.length_append, List.length_singleton]
  omega

theorem kind_of_frame {component : Component} {scope : Scope} {frame : Frame}
    (framed : frame? registry reports scope component = .ok (some frame)) :
    ∃ kind : Kind, frame.kind = NodeKind.ofKind kind := by
  cases component with
  | text descriptor hint => exact ⟨.text, (frame_of_text framed).1⟩
  | button target primary action => exact ⟨.button, (frame_of_button framed).1⟩
  | column children alignment => cases framed; exact ⟨.column, rfl⟩
  | row children distribution => cases framed; exact ⟨.row, rfl⟩
  | card target => cases framed; exact ⟨.card, rfl⟩
  | list children => exact ⟨.list, (frame_of_list framed).1⟩
  | icon name size => cases framed; exact ⟨.icon, rfl⟩
  | divider orientation => cases framed; exact ⟨.divider, rfl⟩
  | spacer size => cases framed; exact ⟨.spacer, rfl⟩
  | unknown kind body => cases framed

theorem kind_ne_error_of_outline {definition : Definition} {id : String} {scope : Scope}
    {frame : Frame}
    (outlined : outline registry limits reports definition id scope = .ok (some frame)) :
    frame.kind ≠ .error := by
  obtain ⟨-, -, component, -, framed⟩ := outline_ok outlined
  obtain ⟨kind, same⟩ := kind_of_frame framed
  rw [same]
  cases kind <;> decide

end Pass
end LiveSurface
