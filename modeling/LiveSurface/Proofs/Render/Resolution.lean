import LiveSurface.Render.Pass
import Mathlib.Data.List.Forall2

/-!
# The step of a pass

A pass calls itself for the components below a component, and every call stands one component
deeper on the way than the call it comes from. The depth that bounds the recursion is therefore the
depth that the limits allow: a pass is a fixed point of its own step (`resolve_eq_attempt`), and
the step mentions no bound but the limits.
-/
namespace LiveSurface.Pass

variable {ν : Type}

/-- One component of a pass, given a way to show the components below it. -/
def attempt (pass : Pass ν) (child : Resolve ν) : Resolve ν := fun id scope spent =>
  match pass.registry.get? id with
  | none => ((pass.primitives.notFound id).map some, spent)
  | some definition =>
    if pass.limits.maxNodes < spent + 1 then
      ((pass.primitives.error id definition.kind
        (overLimit pass.limits.maxNodes id)).map some, spent + 1)
    else
      contain pass.primitives id definition.kind scope.trail <|
        if id ∈ scope.trail then (.error (.cycle id scope.trail), spent + 1)
        else if pass.limits.maxDepth ≤ scope.trail.length then
          (.error (.tooDeep pass.limits.maxDepth id), spent + 1)
        else
          match Component.parse definition.kind definition.props with
          | .error fault => (.error (.properties fault), spent + 1)
          | .ok component => make pass child id component (scope.enter id) (spent + 1)

/-- Two rows show the same where their components do, pair by pair. -/
theorem each_congr {child other : Resolve ν} {row row' : List (String × Scope)}
    (same : List.Forall₂ (fun a b => ∀ spent, child a.1 a.2 spent = other b.1 b.2 spent) row row')
    (spent : Int) : each child row spent = each other row' spent := by
  induction same generalizing spent with
  | nil => rfl
  | cons first _ ih => simp only [each, first, ih]

theorem scope_of_columnScopes {children : Option Children} {scope : Scope}
    {entry : String × Scope} (member : entry ∈ columnScopes children scope) : entry.2 = scope := by
  unfold columnScopes at member
  split at member
  · obtain ⟨id, -, rfl⟩ := List.mem_map.mp member
    rfl
  · obtain ⟨⟨id, data⟩, made, rfl⟩ := List.mem_map.mp member
    obtain ⟨key, -, same⟩ := List.mem_map.mp made
    cases same
    rfl
  · simp at member

theorem scope_of_rowScopes {children : Option Children} {scope : Scope}
    {entry : String × Scope} (member : entry ∈ rowScopes children scope) : entry.2 = scope := by
  unfold rowScopes at member
  split at member
  · obtain ⟨id, -, rfl⟩ := List.mem_map.mp member
    rfl
  · simp at member

/-- A component below a list stands where the list stands, with an element of the bound data. -/
theorem scope_of_listScopes {children : Option Children} {scope : Scope}
    {scopes : List (String × Scope)} (bound : listScopes? children scope = some scopes)
    {entry : String × Scope} (member : entry ∈ scopes) :
    ∃ template : Template, ∃ items, template.items? scope.data = some items ∧
      ∃ item ∈ items, entry.2 = { scope with data := item } := by
  unfold listScopes? at bound
  split at bound
  · next template =>
    obtain ⟨made, elements, rfl⟩ := Option.map_eq_some_iff.mp bound
    obtain ⟨⟨id, data⟩, child, rfl⟩ := List.mem_map.mp member
    obtain ⟨items, found, rfl⟩ := Option.map_eq_some_iff.mp elements
    obtain ⟨item, inside, same⟩ := List.mem_map.mp child
    cases same
    exact ⟨template, items, found, data, inside, rfl⟩
  · cases bound

/-- A component is made the same from children that show the same where it stands. -/
theorem make_congr (pass : Pass ν) {child other : Resolve ν} {scope : Scope}
    (same : ∀ id below spent, below.trail = scope.trail →
      child id below spent = other id below spent)
    (id : String) (component : Component) (spent : Int) :
    make pass child id component scope spent = make pass other id component scope spent := by
  have rows : ∀ row : List (String × Scope), (∀ entry ∈ row, entry.2.trail = scope.trail) →
      ∀ spent, each child row spent = each other row spent := by
    intro row standing
    refine each_congr (List.forall₂_same.mpr ?_)
    intro entry member spent
    exact same entry.1 entry.2 spent (standing entry member)
  cases component with
  | column children alignment =>
    have row := rows (columnScopes children scope) fun entry member => by
      rw [scope_of_columnScopes member]
    simp only [make, row]
  | row children distribution =>
    have row := rows (rowScopes children scope) fun entry member => by
      rw [scope_of_rowScopes member]
    simp only [make, row]
  | list children =>
    simp only [make]
    cases bound : listScopes? children scope with
    | none => rfl
    | some scopes =>
      have row := rows scopes fun entry member => by
        obtain ⟨_, _, _, item, _, standing⟩ := scope_of_listScopes bound member
        rw [standing]
      simp only [row]
  | card target =>
    have below := fun target => same target scope spent rfl
    simp only [make, below]
  | _ => rfl

theorem resolveWithin_eq_attempt (pass : Pass ν) {left : Nat} {id : String} {scope : Scope}
    (room : pass.limits.maxDepth - scope.trail.length = left) (spent : Int) :
    resolveWithin pass left id scope spent = pass.attempt pass.resolve id scope spent := by
  unfold resolveWithin attempt
  cases pass.registry.get? id with
  | none => rfl
  | some definition =>
    dsimp only
    split
    · rfl
    · congr 1
      split
      · rfl
      · cases left with
        | zero =>
          have full : pass.limits.maxDepth ≤ scope.trail.length := by omega
          simp [full]
        | succ left =>
          have more : ¬ pass.limits.maxDepth ≤ scope.trail.length := by omega
          simp only [more, ↓reduceIte]
          cases Component.parse definition.kind definition.props with
          | error fault => rfl
          | ok component =>
            apply make_congr
            intro target below spent deeper
            have next : pass.limits.maxDepth - below.trail.length = left := by
              rw [deeper]
              simp [Scope.enter]
              omega
            rw [resolve, next]

/-- A pass is a fixed point of its step. -/
theorem resolve_eq_attempt (pass : Pass ν) (id : String) (scope : Scope) (spent : Int) :
    pass.resolve id scope spent = pass.attempt pass.resolve id scope spent :=
  resolveWithin_eq_attempt pass rfl spent

end LiveSurface.Pass
