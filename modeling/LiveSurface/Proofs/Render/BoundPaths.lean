import LiveSurface.Proofs.Render.Bisimulation
import LiveSurface.Render.Surfaces

/-!
# What a pass reads of the data

A pass reads its data model at the paths that texts and templates are bound to, and nowhere else:
models that hold the same at these paths show the same (`resolve_of_bound_paths`). Below a list the
model is an element of bound data, which both passes have in common; below everything else it is
the whole model, which goes on differing wherever nothing is bound.
-/
namespace LiveSurface

/-- The paths that a component is bound to, that of a text or that of the template its children are
made from. A row makes nothing from a template, and neither does a column that lists its
children. -/
def Component.bindings : Component → List String
  | .text descriptor _ => (descriptor.bind Descriptor.path).toList
  | .column (some ⟨none, some template⟩) _ | .list (some ⟨_, some template⟩) =>
    template.dataBinding.toList
  | _ => []

/-- The paths that a definition is bound to, none where its properties do not pass their checks. -/
def Definition.bindings (definition : Definition) : List String :=
  match Component.parse definition.kind definition.props with
  | .ok component => component.bindings
  | .error _ => []

/-- The paths that the components of a registry are bound to. -/
def Registry.bindings (registry : Registry) : List String := registry.flatMap Definition.bindings

/-- Two data models hold the same at each of some paths. -/
def Value.Agree (paths : List String) (data other : Value) : Prop :=
  ∀ path ∈ paths, data.read (Path.segments path) = other.read (Path.segments path)

instance (paths : List String) (data other : Value) : Decidable (Value.Agree paths data other) :=
  inferInstanceAs (Decidable (∀ path ∈ paths, _))

variable {data other : Value}

theorem Value.Agree.mono {paths more : List String} (agree : Value.Agree more data other)
    (part : paths ⊆ more) : Value.Agree paths data other := fun path member =>
  agree path (part member)

theorem Descriptor.path_of_get? {d : Descriptor} {path : String}
    (found : Entries.get? d.setFields "path" = some (.str path)) : d.path = some path := by
  have member : ("path", Value.str path) ∈ d.allFields :=
    List.mem_of_mem_filter (Entries.mem_of_get? found)
  cases named : d.path with
  | none => simp [Descriptor.allFields, orNull, named] at member
  | some own =>
    simp only [Descriptor.allFields, orNull, named, List.mem_cons, Prod.mk.injEq, Option.map_some,
      Option.getD_some, Value.str.injEq, List.not_mem_nil, or_false, String.reduceEq, false_and,
      true_and, false_or] at member
    rw [member]

theorem Descriptor.display_congr {descriptor : Option Descriptor}
    (agree : Value.Agree (descriptor.bind Descriptor.path).toList data other) :
    Descriptor.display descriptor data = Descriptor.display descriptor other := by
  cases descriptor with
  | none => rfl
  | some d =>
    simp only [Descriptor.display, Binding.resolveText, Binding.resolve]
    cases Binding.literal? d.setFields with
    | some literal => rfl
    | none =>
      dsimp only
      split
      · next path found =>
        have bound : path ∈ ((some d).bind Descriptor.path).toList := by
          simp [Descriptor.path_of_get? found]
        rw [agree path bound]
      · rfl

theorem Template.bound_congr {template : Template}
    (agree : Value.Agree template.dataBinding.toList data other) :
    template.bound data = template.bound other := by
  unfold bound
  cases named : template.dataBinding with
  | none => rfl
  | some path => simp only [agree path (by simp [named])]

namespace Registry

variable {registry : Registry}

theorem bindings_subset {id : String} {definition : Definition} {component : Component}
    (found : registry.get? id = some definition)
    (parsed : Component.parse definition.kind definition.props = .ok component) :
    component.bindings ⊆ registry.bindings := by
  intro path bound
  refine List.mem_flatMap.mpr ⟨definition, List.mem_of_find?_eq_some found, ?_⟩
  simpa only [Definition.bindings, parsed] using bound

end Registry

namespace Pass

variable {registry : Registry}

/-- The label of a button reads the path that its text is bound to. -/
theorem label_eq_of_agree (agree : Value.Agree registry.bindings data other)
    (child : Option String) : label registry child data = label registry child other := by
  cases child with
  | none => rfl
  | some id =>
    simp only [label, Option.bind_some]
    cases found : registry.get? id with
    | none => rfl
    | some definition =>
      dsimp only
      split
      · cases parsed : Component.parse definition.kind definition.props with
        | error fault => rfl
        | ok component =>
          cases component with
          | text descriptor hint =>
            have read := agree.mono (Registry.bindings_subset found parsed)
            simp only [Descriptor.display_congr read]
          | _ => rfl
      · rfl

/-- The same component on the same way, over data models that hold the same wherever a registry is
bound. An element of a list is one model for both. -/
structure Alike (registry : Registry) (a b : String × Scope) : Prop where
  id : a.1 = b.1
  trail : a.2.trail = b.2.trail
  data : Value.Agree registry.bindings a.2.data b.2.data

variable {scope scope' : Scope}

/-- Children that are chosen without the data stay where they stand. -/
theorem forall₂_alike (ids : List String) (trail : scope.trail = scope'.trail)
    (agree : Value.Agree registry.bindings scope.data scope'.data) :
    List.Forall₂ (Alike registry) (ids.map (·, scope)) (ids.map (·, scope')) := by
  rw [List.forall₂_map_left_iff, List.forall₂_map_right_iff, List.forall₂_same]
  intro id _
  exact ⟨rfl, trail, agree⟩

theorem columnScopes_alike {children : Option Children} {alignment : Option String}
    (trail : scope.trail = scope'.trail)
    (agree : Value.Agree registry.bindings scope.data scope'.data)
    (bound : (Component.column children alignment).bindings ⊆ registry.bindings) :
    List.Forall₂ (Alike registry) (columnScopes children scope) (columnScopes children scope') := by
  rcases children with _ | ⟨_ | ids, _ | template⟩
  · exact .nil
  · exact .nil
  · have keys : template.keys scope.data = template.keys scope'.data := by
      simp only [Template.keys, Template.bound_congr (agree.mono bound)]
    have rows : ∀ scope, columnScopes (some ⟨none, some template⟩) scope =
        ((template.keys scope.data).map (template.componentId ++ "-" ++ ·)).map (·, scope) := by
      intro scope
      simp only [columnScopes, Template.columnChildren, List.map_map]
      rfl
    rw [rows, rows, keys]
    exact forall₂_alike _ trail agree
  · exact forall₂_alike ids trail agree
  · exact forall₂_alike ids trail agree

theorem rowScopes_alike {children : Option Children} (trail : scope.trail = scope'.trail)
    (agree : Value.Agree registry.bindings scope.data scope'.data) :
    List.Forall₂ (Alike registry) (rowScopes children scope) (rowScopes children scope') := by
  rcases children with _ | ⟨_ | ids, template⟩
  · exact .nil
  · exact .nil
  · exact forall₂_alike ids trail agree

theorem cardScopes_alike {target : Option String} (trail : scope.trail = scope'.trail)
    (agree : Value.Agree registry.bindings scope.data scope'.data) :
    List.Forall₂ (Alike registry) (cardScopes target scope) (cardScopes target scope') := by
  unfold cardScopes
  cases target.filter (· ≠ "") with
  | none => exact .nil
  | some id => exact forall₂_alike [id] trail agree

theorem listScopes?_alike {children : Option Children} (trail : scope.trail = scope'.trail)
    (agree : Value.Agree registry.bindings scope.data scope'.data)
    (bound : (Component.list children).bindings ⊆ registry.bindings) :
    Option.Rel (List.Forall₂ (Alike registry)) (listScopes? children scope)
      (listScopes? children scope') := by
  rcases children with _ | ⟨ids, _ | template⟩
  · exact .none
  · exact .none
  · have items : template.items? scope.data = template.items? scope'.data := by
      simp only [Template.items?, Template.bound_congr (agree.mono bound)]
    simp only [listScopes?, Template.listChildren?, items]
    cases template.items? scope'.data with
    | none => exact .none
    | some items =>
      -- from here on the two passes have the same model
      refine .some ?_
      dsimp only
      rw [List.map_map, List.map_map, List.forall₂_map_left_iff, List.forall₂_map_right_iff,
        List.forall₂_same]
      intro item _
      exact ⟨rfl, trail, fun _ _ => rfl⟩

theorem inStep_of_agree (reports : Bool) {component : Component}
    (trail : scope.trail = scope'.trail)
    (agree : Value.Agree registry.bindings scope.data scope'.data)
    (bound : component.bindings ⊆ registry.bindings) :
    InStep (Alike registry) (frame? registry reports scope component)
      (frame? registry reports scope' component) := by
  cases component with
  | text descriptor hint =>
    have shown : Descriptor.display descriptor scope.data =
        Descriptor.display descriptor scope'.data := Descriptor.display_congr (agree.mono bound)
    simp only [frame?, shown]
    cases Descriptor.display descriptor scope'.data with
    | error fault => exact .fails _
    | ok text => exact .framed rfl .nil
  | button target primary action =>
    simp only [frame?, label_eq_of_agree agree]
    cases label registry (target.filter (· ≠ "")) scope'.data with
    | error failure => exact .fails failure
    | ok label => exact .framed rfl .nil
  | column children alignment => exact .framed rfl (columnScopes_alike trail agree bound)
  | row children distribution => exact .framed rfl (rowScopes_alike trail agree)
  | card target => exact .framed rfl (cardScopes_alike trail agree)
  | list children =>
    have rows := listScopes?_alike trail agree bound
    simp only [frame?]
    generalize listScopes? children scope = row at rows ⊢
    generalize listScopes? children scope' = row' at rows ⊢
    cases rows with
    | none => exact .nothing
    | some below => exact .framed rfl below
  | unknown kind body => exact .nothing
  | _ => exact .framed rfl .nil

/-- Passes over models that agree where the registry is bound never get out of step. -/
theorem bisimulation_of_alike (registry : Registry) (reports : Bool) :
    Bisimulation registry registry reports (Alike registry) where
  id := Alike.id
  trail := Alike.trail
  found alike := by rw [alike.id]
  framed alike found parsed := by
    refine inStep_of_agree reports ?_ alike.data (Registry.bindings_subset found parsed)
    simp only [Scope.enter, alike.id, alike.trail]

/-- A pass reads its data model through the bound paths and in no other way. Over models that hold
the same at each path that a text or a template of the registry is bound to, the same is shown from
each component, and the same is spent. So a surface does not change its looks with data that
nothing is bound to. -/
theorem resolve_of_bound_paths {ν : Type} :
    (∀ (pass : Pass ν) (data other : Value), Value.Agree pass.registry.bindings data other →
      ∀ id trail spent,
        pass.resolve id ⟨data, trail⟩ spent = pass.resolve id ⟨other, trail⟩ spent) ∧
    ∀ (renderer : Renderer ν) (surface : Surface) (other : Fields),
      Value.Agree surface.components.bindings (.obj surface.data) (.obj other) →
        renderer.surface surface = renderer.surface { surface with data := other } := by
  have shown : ∀ (pass : Pass ν) (data other : Value),
      Value.Agree pass.registry.bindings data other → ∀ id trail spent,
        pass.resolve id ⟨data, trail⟩ spent = pass.resolve id ⟨other, trail⟩ spent := by
    intro pass data other agree id trail spent
    have alike : Alike pass.registry (id, ⟨data, trail⟩) (id, ⟨other, trail⟩) := ⟨rfl, rfl, agree⟩
    exact (bisimulation_of_alike pass.registry pass.reports).resolve_eq alike spent
  refine ⟨shown, ?_⟩
  intro renderer surface other agree
  have roots : Renderer.root? surface = Renderer.root? { surface with data := other } := rfl
  simp only [Renderer.surface, Renderer.surfaceOver, ← roots]
  cases Renderer.root? surface with
  | none => rfl
  | some root =>
    simp only [shown (renderer.pass surface) (.obj surface.data) (.obj other) agree]
    rfl

/-- A title, a list of items and a column of rows named after keys show the same when only a note
changes that nothing is bound to. The column hands on the models that differ, and the list
elements that do not. -/
theorem resolve_of_bound_paths_of_note :
    let registry : Registry :=
      [⟨"root", none, "Column", .obj [("children", .obj [("template",
          .obj [("componentId", .str "row"), ("dataBinding", .str "/items")])])]⟩,
        ⟨"row-0", none, "Text", .obj [("text", .obj [("path", .str "/title")])]⟩,
        ⟨"row-1", none, "List", .obj [("children", .obj [("template",
          .obj [("componentId", .str "row-0"), ("dataBinding", .str "/items")])])]⟩]
    let items : Value := .list [.obj [("title", .str "a")], .obj [("title", .str "b")]]
    let data : Value := .obj [("items", items), ("title", .str "t"), ("note", .str "old")]
    let other : Value := .obj [("note", .null), ("title", .str "t"), ("items", items)]
    let pass := plain registry ⟨4, 9⟩ true
    Value.Agree registry.bindings data other ∧
    (pass.resolve "root" ⟨data, []⟩ 0).2 = 5 ∧
    pass.resolve "root" ⟨data, []⟩ 0 = pass.resolve "root" ⟨other, []⟩ 0 := by
  intro registry items data other pass
  have agree : Value.Agree registry.bindings data other := by decide
  refine ⟨agree, by decide, ?_⟩
  exact resolve_of_bound_paths.1 pass data other agree "root" [] 0

end Pass
end LiveSurface
