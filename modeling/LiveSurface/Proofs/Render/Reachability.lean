import LiveSurface.Proofs.Render.Bisimulation
import LiveSurface.Render.Surfaces

/-!
# What a pass reaches

A pass looks up the component that it starts from, the components that a definition refers to
wherever it comes to one, and nothing else. A set of identifiers that is closed under references is
therefore all that matters: registries that hold the same in it show the same from each of its
components, whatever else they hold and in whatever order (`resolve_of_reached`).
-/
namespace LiveSurface

/-- What a component refers to. A template of a column names components after keys of data that is
not known, so that it refers to all that it may name; a row takes nothing from a template, and
neither does a column that lists its children. -/
def Component.Refers (component : Component) (id : String) : Prop :=
  match component with
  | .column (some ⟨some ids, _⟩) _ | .row (some ⟨some ids, _⟩) _ => id ∈ ids
  | .column (some ⟨none, some template⟩) _ => ∃ key, id = template.componentId ++ "-" ++ key
  | .card target | .button target _ _ => target.filter (· ≠ "") = some id
  | .list (some ⟨_, some template⟩) => id = template.componentId
  | _ => False

/-- What a definition refers to, nothing where its properties do not pass their checks. -/
def Definition.Refers (definition : Definition) (id : String) : Prop :=
  ∃ component, Component.parse definition.kind definition.props = .ok component ∧
    component.Refers id

/-- The components of a set refer only to components of the set. -/
def Registry.Closed (registry : Registry) (reached : String → Prop) : Prop :=
  ∀ id definition, reached id → registry.get? id = some definition →
    ∀ target, definition.Refers target → reached target

namespace Pass

variable {ν : Type} {registry other : Registry} {reports : Bool} {reached : String → Prop}

theorem refers_of_below {component : Component} {scope : Scope} {frame : Frame}
    (framed : frame? registry reports scope component = .ok (some frame)) {entry : String × Scope}
    (member : entry ∈ frame.below) : component.Refers entry.1 := by
  rcases below_of_frame framed with none | ⟨children, _, rfl, column⟩ | ⟨children, _, rfl, row⟩ |
    ⟨target, rfl, card⟩ | ⟨children, rfl, list⟩
  · simp [none] at member
  · rw [column] at member
    unfold columnScopes at member
    split at member
    · obtain ⟨id, listed, rfl⟩ := List.mem_map.mp member
      exact listed
    · obtain ⟨⟨id, data⟩, made, rfl⟩ := List.mem_map.mp member
      obtain ⟨key, -, same⟩ := List.mem_map.mp made
      cases same
      exact ⟨key, rfl⟩
    · simp at member
  · rw [row] at member
    unfold rowScopes at member
    split at member
    · obtain ⟨id, listed, rfl⟩ := List.mem_map.mp member
      exact listed
    · simp at member
  · rw [card, cardScopes, Option.mem_toList] at member
    obtain ⟨id, chosen, rfl⟩ := Option.map_eq_some_iff.mp member
    exact chosen
  · unfold listScopes? at list
    split at list
    · obtain ⟨made, elements, same⟩ := Option.map_eq_some_iff.mp list
      obtain ⟨items, -, rfl⟩ := Option.map_eq_some_iff.mp elements
      rw [← same] at member
      obtain ⟨⟨id, data⟩, child, rfl⟩ := List.mem_map.mp member
      obtain ⟨item, -, equal⟩ := List.mem_map.mp child
      cases equal
      rfl
    · cases list

/-- What a component decides by itself is the same for registries that hold the same for what it
refers to. -/
theorem frame?_congr {component : Component}
    (same : ∀ id, component.Refers id → registry.get? id = other.get? id) (reports : Bool)
    (scope : Scope) :
    frame? registry reports scope component = frame? other reports scope component := by
  cases component with
  | button target primary action => simp only [frame?, label_congr same]
  | _ => rfl

/-- Passes over registries that hold the same in a closed set stay in step in it. -/
theorem bisimulation_of_closed (closed : registry.Closed reached)
    (same : ∀ id, reached id → registry.get? id = other.get? id) (reports : Bool) :
    Bisimulation registry other reports fun a b => a = b ∧ reached a.1 where
  id := by
    rintro a _ ⟨rfl, -⟩
    rfl
  trail := by
    rintro a _ ⟨rfl, -⟩
    rfl
  found := by
    rintro a _ ⟨rfl, inside⟩
    exact same a.1 inside
  framed := by
    rintro ⟨id, scope⟩ _ definition component ⟨rfl, inside⟩ found parsed
    have refers : ∀ target, component.Refers target → reached target := fun target refers =>
      closed id definition inside found target ⟨component, parsed, refers⟩
    rw [frame?_congr (fun target named => same target (refers target named))]
    cases framed : frame? other reports (scope.enter id) component with
    | error failure => exact .fails failure
    | ok frame =>
      cases frame with
      | none => exact .nothing
      | some frame =>
        refine .framed rfl (List.forall₂_same.mpr fun entry member => ⟨rfl, ?_⟩)
        exact refers entry.1 (refers_of_below framed member)

theorem resolve_eq_of_closed (pass : Pass ν) (closed : pass.registry.Closed reached)
    (same : ∀ id, reached id → pass.registry.get? id = other.get? id) {root : String}
    (inside : reached root) (scope : Scope) (spent : Int) :
    pass.resolve root scope spent =
      Pass.resolve { pass with registry := other } root scope spent := by
  have steps := bisimulation_of_closed closed same pass.reports
  exact steps.resolve_eq (a := (root, scope)) ⟨rfl, inside⟩ spent

end Pass

namespace Renderer

variable {ν : Type} {reached : String → Prop}

theorem root?_congr {surface : Surface} {other : Registry}
    (same : ∀ root, surface.root = some root → surface.components.get? root = other.get? root) :
    root? surface = root? { surface with components := other } := by
  unfold root?
  cases chosen : surface.root with
  | none => rfl
  | some root => simp only [Option.filter_some, Registry.contains, same root chosen]

/-- A surface with its root in a closed set shows the same with a registry that holds the same in
it. -/
theorem surface_eq_of_closed (renderer : Renderer ν) (surface : Surface) {other : Registry}
    (closed : surface.components.Closed reached)
    (inside : ∀ root, surface.root = some root → reached root)
    (same : ∀ id, reached id → surface.components.get? id = other.get? id) :
    renderer.surface surface = renderer.surface { surface with components := other } := by
  have roots : root? surface = root? { surface with components := other } :=
    root?_congr fun root chosen => same root (inside root chosen)
  simp only [Renderer.surface, surfaceOver, ← roots]
  cases chosen : root? surface with
  | none => rfl
  | some root =>
    have start := inside root (Option.filter_eq_some_iff.mp chosen).1
    have shown := (renderer.pass surface).resolve_eq_of_closed closed same start
      ⟨.obj surface.data, []⟩ 0
    simp only [shown]
    rfl

end Renderer

/-- A pass reads what is reachable and nothing else. With the same host, data, limits, place and
budget, registries that hold the same in a closed set show the same from each component of the set,
and the same is spent. So a surface with its root in a closed set does not change its looks when a
component outside the set is upserted, and no surface does when its components arrive in another
order, as long as the definitions of each one arrive in theirs. -/
theorem Pass.resolve_of_reached {ν : Type} :
    (∀ (pass : Pass ν) (other : Registry) (reached : String → Prop),
      pass.registry.Closed reached →
      (∀ id, reached id → pass.registry.get? id = other.get? id) →
      ∀ root, reached root → ∀ scope spent,
        pass.resolve root scope spent =
          Pass.resolve { pass with registry := other } root scope spent) ∧
    (∀ (renderer : Renderer ν) (surface : Surface) (reached : String → Prop),
      surface.components.Closed reached →
      (∀ root, surface.root = some root → reached root) →
      ∀ definition, ¬ reached definition.id →
        renderer.surface surface =
          renderer.surface { surface with components := surface.components.upsert definition }) ∧
    ∀ (renderer : Renderer ν) (surface : Surface) (entries others : List Value),
      (∀ id, (entries.filterMap Definition.decode?).filter (·.id = id) =
        (others.filterMap Definition.decode?).filter (·.id = id)) →
      renderer.surface { surface with components := surface.components.upsertAll entries } =
        renderer.surface { surface with components := surface.components.upsertAll others } := by
  refine ⟨?_, ?_, ?_⟩
  · intro pass other reached closed same root inside scope spent
    exact pass.resolve_eq_of_closed closed same inside scope spent
  · intro renderer surface reached closed inside definition outside
    refine renderer.surface_eq_of_closed surface closed inside ?_
    intro id within
    have apart : definition.id ≠ id := fun equal => outside (equal ▸ within)
    rw [Registry.get?_upsert, if_neg apart]
  · intro renderer surface entries others arrivals
    have everything : (surface.components.upsertAll entries).Closed fun _ => True :=
      fun _ _ _ _ _ _ => trivial
    refine renderer.surface_eq_of_closed
      { surface with components := surface.components.upsertAll entries } everything
      (fun _ _ => trivial) ?_
    intro id _
    rw [Registry.upsertAll, Registry.upsertAll, Registry.get?_foldl_upsert,
      Registry.get?_foldl_upsert, arrivals id]

/-- A card that refers to the root, but that nothing refers to, may come or go, also where a column
names its components after keys and a button takes its label from another component. -/
theorem Pass.resolve_of_reached_of_unreferenced :
    let root : Definition := ⟨"root", none, "Column", .obj [("children", .obj [("template",
      .obj [("componentId", .str "item"), ("dataBinding", .str "/items")])])]⟩
    let item : Definition := ⟨"item-0", none, "Button", .obj [("child", .str "label")]⟩
    let label : Definition :=
      ⟨"label", none, "Text", .obj [("text", .obj [("literalString", .str "Go")])]⟩
    let card : Definition := ⟨"x", none, "Card", .obj [("child", .str "root")]⟩
    let data : Value := .obj [("items", .list [.null, .null])]
    let pass := Pass.plain [root, item, label, card] ⟨3, 5⟩ true
    let other : Registry := [label, root, item]
    pass.registry.Closed (· ≠ "x") ∧
    (∀ id, id ≠ "x" → pass.registry.get? id = other.get? id) ∧
    (pass.resolve "root" ⟨data, []⟩ 0).2 = 2 ∧
    pass.resolve "root" ⟨data, []⟩ 0 =
      Pass.resolve { pass with registry := other } "root" ⟨data, []⟩ 0 := by
  intro root item label card data pass other
  have closed : pass.registry.Closed (· ≠ "x") := by
    rintro id definition outside found target ⟨component, parsed, refers⟩ rfl
    have member : definition ∈ [root, item, label, card] := List.mem_of_find?_eq_some found
    have own : definition.id = id := by simpa using List.find?_some found
    simp only [List.mem_cons, List.not_mem_nil, or_false] at member
    rcases member with rfl | rfl | rfl | rfl
    · have columns : Component.parse root.kind root.props =
          .ok (.column (some ⟨none, some ⟨"item", some "/items"⟩⟩) none) := by decide
      cases columns.symm.trans parsed
      obtain ⟨key, named⟩ := refers
      have lengths : "x".length = ("item" ++ "-" ++ key).length := congrArg String.length named
      have long : ("item" ++ "-").length = 5 := by decide
      have short : "x".length = 1 := by decide
      rw [String.length_append, long, short] at lengths
      omega
    · have buttons : Component.parse item.kind item.props =
          .ok (.button (some "label") false none) := by decide
      cases buttons.symm.trans parsed
      have same : some "label" = some "x" := refers
      exact absurd same (by decide)
    · have texts : Component.parse label.kind label.props =
          .ok (.text (some { literalString := some "Go" }) none) := by decide
      cases texts.symm.trans parsed
      exact refers
    · exact outside own.symm
  have same : ∀ id, id ≠ "x" → pass.registry.get? id = other.get? id := by
    intro id outside
    by_cases top : "root" = id
    · subst top
      decide
    · by_cases below : "item-0" = id
      · subst below
        decide
      · by_cases text : "label" = id
        · subst text
          decide
        · simp [pass, other, root, item, label, card, Registry.get?, top, below, text,
            Ne.symm outside]
  refine ⟨closed, same, by decide, ?_⟩
  exact Pass.resolve_of_reached.1 pass other (· ≠ "x") closed same "root" (by decide) _ _

end LiveSurface
