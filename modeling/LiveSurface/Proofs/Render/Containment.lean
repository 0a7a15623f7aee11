import LiveSurface.Proofs.Render.Resolution
import LiveSurface.Render.Surfaces

/-!
# Containment of failures

Every registered component has an error boundary. Only the makers of diagnostics and the maker of
missing references are called outside of the boundary of the component that they are about, and a
missing reference still stands inside the boundary of the component that refers to it, since the
root of a surface is registered. So whatever else fails in a host, with any wording and any code, a
surface is shown as long as its outermost diagnostics can be made (`surface_ok`).
-/
namespace LiveSurface

variable {ν : Type}

/-- The makers that no error boundary stands around at the root never fail. -/
structure Primitives.Diagnoses (host : Primitives ν) : Prop where
  error : ∀ id kind message, ∃ node, host.error id kind message = .ok node
  cycle : ∀ id trail, ∃ node, host.cycle id trail = .ok node
  surface : ∀ id child styles, ∃ node, host.surface id child styles = .ok node
  missingRoot : ∀ id, ∃ node, host.missingRoot id = .ok node

/-- The diagnostic that a host makes of a failure. -/
def Primitives.diagnose (host : Primitives ν) (failure : Failure) (id kind : String)
    (trail : List String) : Except HostFailure ν :=
  if failure.isCycle then host.cycle id trail else host.error id kind failure.message

theorem Primitives.diagnose_ok {host : Primitives ν} {id : String} {trail : List String}
    (error : ∀ id kind message, ∃ node, host.error id kind message = .ok node)
    (cycle : ∃ node, host.cycle id trail = .ok node) (failure : Failure) (kind : String) :
    ∃ node, host.diagnose failure id kind trail = .ok node := by
  unfold diagnose
  split
  · exact cycle
  · exact error id kind failure.message

namespace Pass

/-- An error boundary lets no failure through. -/
theorem contain_ok {host : Primitives ν} (diagnoses : host.Diagnoses) (id kind : String)
    (trail : List String) (made : Spent Failure (Option ν)) :
    ∃ node, (contain host id kind trail made).1 = .ok node := by
  obtain ⟨result, spent⟩ := made
  cases result with
  | ok node => exact ⟨node, rfl⟩
  | error failure =>
    obtain ⟨node, made⟩ :=
      host.diagnose_ok diagnoses.error (diagnoses.cycle id trail) failure kind
    refine ⟨some node, ?_⟩
    unfold Primitives.diagnose at made
    rw [contain, made]
    rfl

/-- A registered component shows, wherever it stands and whatever fails below it. -/
theorem resolve_ok (pass : Pass ν) (diagnoses : pass.primitives.Diagnoses) {id : String}
    {definition : Definition} (found : pass.registry.get? id = some definition) (scope : Scope)
    (spent : Int) : ∃ node, (pass.resolve id scope spent).1 = .ok node := by
  simp only [resolve_eq_attempt, attempt, found]
  by_cases beyond : pass.limits.maxNodes < spent + 1
  · obtain ⟨node, made⟩ :=
      diagnoses.error id definition.kind (overLimit pass.limits.maxNodes id)
    refine ⟨some node, ?_⟩
    simp only [beyond, ↓reduceIte, made]
    rfl
  · simp only [beyond, ↓reduceIte]
    exact contain_ok diagnoses id definition.kind scope.trail _

/-- The only failure that leaves a component is that of the maker of missing references, where the
component is missing. -/
theorem resolve_eq_error_iff (pass : Pass ν) (diagnoses : pass.primitives.Diagnoses) (id : String)
    (scope : Scope) (spent : Int) (failure : HostFailure) :
    (pass.resolve id scope spent).1 = .error failure ↔
      pass.registry.get? id = none ∧ pass.primitives.notFound id = .error failure := by
  cases found : pass.registry.get? id with
  | none =>
    simp only [resolve_eq_attempt, attempt, found, true_and]
    cases pass.primitives.notFound id <;> simp [Except.map]
  | some definition =>
    obtain ⟨node, made⟩ := pass.resolve_ok diagnoses found scope spent
    simp [made]

end Pass

namespace Renderer

theorem get?_of_root? {surface : Surface} {root : String} (chosen : root? surface = some root) :
    ∃ definition, surface.components.get? root = some definition := by
  have registered : surface.components.contains root = true := by
    have := (Option.filter_eq_some_iff.mp chosen).2
    simp only [Bool.and_eq_true] at this
    exact this.2
  exact Option.isSome_iff_exists.mp registered

theorem surfaceOver_ok (renderer : Renderer ν) (diagnoses : renderer.primitives.Diagnoses)
    (data : Value) (surface : Surface) : ∃ node, renderer.surfaceOver data surface = .ok node := by
  unfold surfaceOver
  cases chosen : root? surface with
  | none => exact diagnoses.missingRoot surface.id
  | some root =>
    obtain ⟨definition, found⟩ := get?_of_root? chosen
    obtain ⟨child, made⟩ := (renderer.pass surface).resolve_ok diagnoses found ⟨data, []⟩ 0
    simp only [made]
    exact diagnoses.surface surface.id child _

/-- Every surface is shown while the outermost diagnostics can be made, whichever of the other
makers fail and however they fail, over its own data model and over one of any type. -/
theorem surface_ok (renderer : Renderer ν) (diagnoses : renderer.primitives.Diagnoses)
    (surface : Surface) :
    (∃ node, renderer.surface surface = .ok node) ∧
      ∀ data, ∃ node, renderer.surfaceOver data surface = .ok node :=
  ⟨surfaceOver_ok renderer diagnoses (.obj surface.data) surface,
    fun data => surfaceOver_ok renderer diagnoses data surface⟩

/-- A surface is shown by a host that can make neither texts nor missing references, and passes
the latter off as a reference of a component to itself. -/
theorem surface_ok_of_failing_makers :
    let host : Primitives Node :=
      { Node.primitives with
        text := fun _ _ _ => .error (.plain "no texts")
        notFound := fun _ => .error (.coded "not here" cycleCode) }
    let surface : Surface :=
      { id := "s", root := some "root"
        components :=
          [⟨"root", none, "Row",
              .obj [("children", .obj [("explicitList", .list [.str "text", .str "gone"])])]⟩,
            ⟨"text", none, "Text", .null⟩] }
    host.Diagnoses ∧ ∃ node, Renderer.surface ⟨host, ⟨3, 5⟩, true⟩ surface = .ok node := by
  intro host surface
  have diagnoses : host.Diagnoses :=
    ⟨fun _ _ _ => ⟨_, rfl⟩, fun _ _ => ⟨_, rfl⟩, fun _ _ _ => ⟨_, rfl⟩, fun _ => ⟨_, rfl⟩⟩
  exact ⟨diagnoses, (surface_ok ⟨host, ⟨3, 5⟩, true⟩ diagnoses surface).1⟩

end Renderer
end LiveSurface
