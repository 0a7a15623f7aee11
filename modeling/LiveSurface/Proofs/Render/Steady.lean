import LiveSurface.Proofs.Render.Resolution
import Mathlib.Data.List.ReduceOption

/-!
# Counts that do not matter

What was spent before a component decides only whether the budget lasts. A component that ends
within the limit shows the same from every lower count and spends as much, whatever the host makes
of it (`resolve_steady`), and a row shows what its components show by themselves (`each_eq_mapM`).
-/
namespace LiveSurface

variable {ν : Type}

/-- Goes on with what was made, unless that failed. -/
def Spent.andThen {ε α β : Type} (made : Spent ε α) (next : α → Int → Spent ε β) : Spent ε β :=
  match made with
  | (.error failure, spent) => (.error failure, spent)
  | (.ok a, spent) => next a spent

namespace Pass

/-- Something that spends, shown from a count. It never gives back what was spent, and if it ends
within the limit then it shows the same from every lower count and spends as much. -/
structure Steady (limit : Nat) {ε α : Type} (shown : Int → Spent ε α) : Prop where
  advance : ∀ spent, spent ≤ (shown spent).2
  shift : ∀ spent start, start ≤ spent → (shown spent).2 ≤ limit →
    shown start = ((shown spent).1, start + ((shown spent).2 - spent))

namespace Steady

variable {limit : Nat} {ε ε' α β : Type}

theorem const (result : Except ε α) : Steady limit fun spent => (result, spent) where
  advance spent := Int.le_refl spent
  shift spent start _ _ := by simp

theorem map {shown : Int → Spent ε α} (steady : Steady limit shown)
    (f : Except ε α → Except ε' β) :
    Steady limit fun spent => (f (shown spent).1, (shown spent).2) where
  advance := steady.advance
  shift spent start earlier enough := by simp only [steady.shift spent start earlier enough]

theorem andThen {shown : Int → Spent ε α} {next : α → Int → Spent ε β}
    (first : Steady limit shown) (then' : ∀ a, Steady limit (next a)) :
    Steady limit fun spent => (shown spent).andThen next where
  advance spent := by
    have forth := first.advance spent
    generalize shown spent = made at forth ⊢
    obtain ⟨failure | a, middle⟩ := made
    · exact forth
    · exact Int.le_trans forth ((then' a).advance middle)
  shift spent start earlier enough := by
    have forth := first.advance spent
    have moved := first.shift spent start earlier
    generalize shown spent = made at forth moved enough ⊢
    obtain ⟨failure | a, middle⟩ := made
    · simp only [moved enough, Spent.andThen]
    · have on := (then' a).advance middle
      simp only [Spent.andThen] at forth on enough ⊢
      have moved' := (then' a).shift middle (start + (middle - spent)) (by omega) enough
      rw [moved (by omega)]
      simp only [moved', Prod.mk.injEq, true_and]
      omega

theorem spend {shown : Int → Spent ε α} (steady : Steady limit shown) (refused : Except ε α) :
    Steady limit fun spent =>
      if limit < spent + 1 then (refused, spent + 1) else shown (spent + 1) where
  advance spent := by
    have := steady.advance (spent + 1)
    split
    · simp only
      omega
    · omega
  shift spent start earlier enough := by
    by_cases beyond : limit < spent + 1
    · simp only [if_pos beyond] at enough
      omega
    · have before : ¬ (limit : Int) < start + 1 := by omega
      simp only [if_neg beyond] at enough
      simp only [if_neg beyond, if_neg before,
        steady.shift (spent + 1) (start + 1) (by omega) enough, Prod.mk.injEq, true_and]
      omega

end Steady

variable {limit : Nat} {child : Resolve ν} {row : List (String × Scope)}

theorem each_cons (child : Resolve ν) (entry : String × Scope) (rest : List (String × Scope))
    (spent : Int) :
    each child (entry :: rest) spent =
      (child entry.1 entry.2 spent).andThen fun node spent =>
        ((each child rest spent).1.map (node.toList ++ ·), (each child rest spent).2) := by
  simp only [each, Spent.andThen]
  rcases child entry.1 entry.2 spent with ⟨failure | node, middle⟩
  · rfl
  · dsimp only
    rcases each child rest middle with ⟨failure | nodes, after⟩ <;> rfl

theorem each_steady (steady : ∀ entry ∈ row, Steady limit (child entry.1 entry.2)) :
    Steady limit (each child row) := by
  induction row with
  | nil => exact .const (.ok [])
  | cons entry rest ih =>
    have others := ih fun entry member => steady entry (by simp [member])
    have whole := (steady entry (by simp)).andThen fun node =>
      others.map (Except.map (node.toList ++ ·))
    simpa only [← each_cons] using whole

/-- A row that ends within the limit shows what its components show by themselves, up to the first
one that lets a failure through. -/
theorem each_eq_mapM (steady : ∀ entry ∈ row, Steady limit (child entry.1 entry.2))
    {start spent : Int} (earlier : start ≤ spent) (enough : (each child row spent).2 ≤ limit) :
    (each child row spent).1 =
      (row.mapM fun entry => (child entry.1 entry.2 start).1).map List.reduceOption := by
  induction row generalizing spent with
  | nil => rfl
  | cons entry rest ih =>
    have first := steady entry (by simp)
    have left : ∀ entry ∈ rest, Steady limit (child entry.1 entry.2) := fun entry member =>
      steady entry (by simp [member])
    have forth := first.advance spent
    have moved := first.shift spent start earlier
    rw [each_cons] at enough ⊢
    rw [List.mapM_cons]
    generalize child entry.1 entry.2 spent = made at forth moved enough ⊢
    obtain ⟨failure | node, middle⟩ := made
    · rw [moved enough]
      rfl
    · simp only [Spent.andThen] at forth moved enough ⊢
      have on := (each_steady left).advance middle
      rw [moved (by omega), ih left (by omega) enough]
      cases rest.mapM fun entry => (child entry.1 entry.2 start).1 with
      | error failure => rfl
      | ok nodes => cases node <;> rfl

theorem finish_steady {α : Type} {made : Int → Spent HostFailure α} (steady : Steady limit made)
    (maker : α → Except HostFailure ν) : Steady limit fun spent => finish (made spent) maker := by
  have finished := steady.map fun result => (finish (result, 0) maker).1
  convert finished using 2 with spent
  rcases made spent with ⟨failure | parts, after⟩ <;> rfl

theorem contain_steady {made : Int → Spent Failure (Option ν)} (steady : Steady limit made)
    (host : Primitives ν) (id kind : String) (trail : List String) :
    Steady limit fun spent => contain host id kind trail (made spent) := by
  have contained := steady.map fun result => (contain host id kind trail (result, 0)).1
  convert contained using 2 with spent
  rcases made spent with ⟨failure | node, after⟩ <;> rfl

/-- A component is made from steady children in a steady way. -/
theorem make_steady (pass : Pass ν) (steady : ∀ id scope, Steady limit (child id scope))
    (id : String) (component : Component) (scope : Scope) :
    Steady limit fun spent => make pass child id component scope spent := by
  have rows (row : List (String × Scope)) : Steady limit (each child row) :=
    each_steady fun entry _ => steady entry.1 entry.2
  cases component with
  | text descriptor hint =>
    cases shown : Descriptor.display descriptor scope.data with
    | error fault =>
      simp only [make, shown]
      exact .const _
    | ok text =>
      simp only [make, shown]
      exact finish_steady (.const _) _
  | button target primary action =>
    cases labelled : label pass.registry (target.filter (· ≠ "")) scope.data with
    | error fault =>
      simp only [make, labelled]
      exact .const _
    | ok label =>
      simp only [make, labelled]
      exact finish_steady (.const _) _
  | column children alignment => exact finish_steady (rows _) _
  | row children distribution => exact finish_steady (rows _) _
  | card target =>
    simp only [make]
    cases target.filter (· ≠ "") with
    | none => exact finish_steady (.const _) _
    | some target => exact finish_steady (steady target scope) _
  | list children =>
    cases bound : listScopes? children scope with
    | none =>
      simp only [make, bound]
      exact .const _
    | some scopes =>
      simp only [make, bound]
      exact finish_steady (rows scopes) _
  | icon name size =>
    simp only [make]
    exact finish_steady (.const _) _
  | divider orientation =>
    simp only [make]
    exact finish_steady (.const _) _
  | spacer size =>
    simp only [make]
    exact finish_steady (.const _) _
  | unknown kind body => exact .const _

theorem resolveWithin_steady (pass : Pass ν) (left : Nat) (id : String) (scope : Scope) :
    Steady pass.limits.maxNodes fun spent => resolveWithin pass left id scope spent := by
  have refuse (failure : Failure) : Steady pass.limits.maxNodes fun spent =>
      ((.error failure, spent) : Spent Failure (Option ν)) := .const _
  induction left generalizing id scope with
  | zero =>
    unfold resolveWithin
    cases pass.registry.get? id with
    | none => exact .const _
    | some definition =>
      by_cases again : id ∈ scope.trail
      · simp only [again, ↓reduceIte]
        exact (contain_steady (refuse _) ..).spend _
      · simp only [again, ↓reduceIte]
        exact (contain_steady (refuse _) ..).spend _
  | succ left ih =>
    unfold resolveWithin
    cases pass.registry.get? id with
    | none => exact .const _
    | some definition =>
      by_cases again : id ∈ scope.trail
      · simp only [again, ↓reduceIte]
        exact (contain_steady (refuse _) ..).spend _
      · simp only [again, ↓reduceIte]
        cases Component.parse definition.kind definition.props with
        | error fault => exact (contain_steady (refuse _) ..).spend _
        | ok component =>
          exact (contain_steady (make_steady pass ih id component (scope.enter id)) ..).spend _

/-- What a component shows does not depend on what was spent before, while the budget lasts. -/
theorem resolve_steady (pass : Pass ν) (id : String) (scope : Scope) :
    Steady pass.limits.maxNodes (pass.resolve id scope) :=
  resolveWithin_steady ..

end Pass
end LiveSurface
