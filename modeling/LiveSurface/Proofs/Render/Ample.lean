import LiveSurface.Proofs.Render.Derivation

/-!
# Passes with an ample budget

Components that stand side by side share one budget, and nothing else. Without the budget every
component shows as a tree of its own, which `ample` gives by recursion on the depth that is left; a
pass that ends within its budget shows exactly these trees (`Shows.eq_ample`).
-/
namespace LiveSurface.Pass

/-- The tree of a component when nothing runs out of budget. -/
def ample (registry : Registry) (limits : Limits) (reports : Bool) (id : String) (scope : Scope) :
    Option Node :=
  match registry.get? id with
  | none => some (.absent id)
  | some definition =>
    match _ : outline registry limits reports definition id scope with
    | .error failure => some (failure.diagnostic id definition.kind scope.trail)
    | .ok none => none
    | .ok (some frame) =>
      some (frame.node id (frame.below.attach.filterMap fun entry =>
        ample registry limits reports entry.1.1 entry.1.2))
termination_by limits.maxDepth - scope.trail.length
decreasing_by exact room_of_below ‹_› entry.2

variable {registry : Registry} {limits : Limits} {reports : Bool}

theorem ample_absent {id : String} {scope : Scope} (missing : registry.get? id = none) :
    ample registry limits reports id scope = some (.absent id) := by
  rw [ample, missing]

theorem ample_refused {id : String} {scope : Scope} {definition : Definition} {failure : Failure}
    (found : registry.get? id = some definition)
    (outlined : outline registry limits reports definition id scope = .error failure) :
    ample registry limits reports id scope =
      some (failure.diagnostic id definition.kind scope.trail) := by
  rw [ample]
  simp only [found]
  split <;> simp_all

theorem ample_nothing {id : String} {scope : Scope} {definition : Definition}
    (found : registry.get? id = some definition)
    (outlined : outline registry limits reports definition id scope = .ok none) :
    ample registry limits reports id scope = none := by
  rw [ample]
  simp only [found]
  split <;> simp_all

theorem ample_framed {id : String} {scope : Scope} {definition : Definition} {frame : Frame}
    (found : registry.get? id = some definition)
    (outlined : outline registry limits reports definition id scope = .ok (some frame)) :
    ample registry limits reports id scope =
      some (frame.node id
        (frame.below.filterMap fun entry => ample registry limits reports entry.1 entry.2)) := by
  rw [ample]
  simp only [found]
  split
  · simp_all
  · simp_all
  · next other same =>
    rw [outlined] at same
    cases same
    let tree := fun entry : String × Scope => ample registry limits reports entry.1 entry.2
    rw [List.filterMap_subtype (g := tree) fun entry member => rfl, List.unattach_attach]

/-- The component of a row that ends does so with an ample budget too. -/
theorem Ends.eq_ample {id : String} {scope : Scope} {spent after : Int} {node : Option Node}
    (ends : Ends registry limits reports id scope spent node after)
    (enough : after ≤ limits.maxNodes) : ample registry limits reports id scope = node := by
  cases ends with
  | absent missing => exact ample_absent missing
  | overLimit found beyond => omega
  | refused found within outlined => exact ample_refused found outlined
  | nothing found within outlined => exact ample_nothing found outlined

/-- A row that ends within the budget shows as its components do with an ample budget, each on its
own. -/
theorem Shows.eq_ample {row : List (String × Scope)} {spent after : Int} {nodes : List Node}
    (shown : Shows registry limits reports row spent nodes after)
    (enough : after ≤ limits.maxNodes) :
    nodes = row.filterMap fun entry => ample registry limits reports entry.1 entry.2 := by
  induction shown with
  | nil spent => rfl
  | ends first rest ih =>
    have head := first.eq_ample (Int.le_trans rest.advance enough)
    rw [ih enough, List.filterMap_cons, head]
    cases ‹Option Node› <;> rfl
  | framed found within outlined below rest ihBelow ih =>
    have children := ihBelow (Int.le_trans rest.advance enough)
    rw [ih enough, List.filterMap_cons, ample_framed found outlined, ← children]

/-- A pass that ends within the budget shows a component as with an ample budget. -/
theorem resolve_ample (registry : Registry) (limits : Limits) (reports : Bool) (id : String)
    (scope : Scope) (spent : Int) :
    ∃ node after, (plain registry limits reports).resolve id scope spent = (.ok node, after) ∧
      (after ≤ limits.maxNodes → node = ample registry limits reports id scope) := by
  obtain ⟨node, after, made, shown⟩ := resolve_shows registry limits reports id scope spent
  refine ⟨node, after, made, ?_⟩
  intro enough
  have single := shown.eq_ample enough
  cases node <;> cases tree : ample registry limits reports id scope <;> simp_all

end LiveSurface.Pass
