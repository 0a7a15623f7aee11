import LiveSurface.Proofs.Render.Outline

/-!
# Passes in step

Two passes of one host stay in step when, wherever they stand, they find the same definition, show
the same text and go on to components that are in step again. Nothing else makes a difference to
what they show and to what they spend, whatever the host makes of a component and whichever of its
makers fail (`Bisimulation.resolve_eq`).
-/
namespace LiveSurface.Pass

variable {ν : Type} {Same : String × Scope → String × Scope → Prop}

/-- What one component decides by itself in two passes: the same failure, nothing in both, or frames
with the same text around rows that are in step. -/
inductive InStep (Same : String × Scope → String × Scope → Prop) :
    Except Failure (Option Frame) → Except Failure (Option Frame) → Prop
  | fails (failure : Failure) : InStep Same (.error failure) (.error failure)
  | nothing : InStep Same (.ok none) (.ok none)
  | framed {frame other : Frame} (text : frame.text = other.text)
    (below : List.Forall₂ Same frame.below other.below) :
    InStep Same (.ok (some frame)) (.ok (some other))

/-- A relation between the components of two registries, each with its place, which two passes that
start in it never leave. -/
structure Bisimulation (registry other : Registry) (reports : Bool)
    (Same : String × Scope → String × Scope → Prop) : Prop where
  id : ∀ {a b}, Same a b → a.1 = b.1
  trail : ∀ {a b}, Same a b → a.2.trail = b.2.trail
  found : ∀ {a b}, Same a b → registry.get? a.1 = other.get? b.1
  framed : ∀ {a b definition component}, Same a b → registry.get? a.1 = some definition →
    Component.parse definition.kind definition.props = .ok component →
    InStep Same (frame? registry reports (a.2.enter a.1) component)
      (frame? other reports (b.2.enter b.1) component)

/-- Frames that show their texts are in step only where the texts are the same. -/
theorem eq_of_inStep_map {here there : Except Failure String} {frame : String → Frame}
    (frames : InStep Same (here.map fun text => some (frame text))
      (there.map fun text => some (frame text)))
    (shows : ∀ text, (frame text).text = some text) : here = there := by
  cases here with
  | error failure =>
    cases there with
    | error failure' =>
      cases frames
      rfl
    | ok text' => cases frames
  | ok text =>
    cases there with
    | error failure' => cases frames
    | ok text' =>
      cases frames with
      | framed same below =>
        rw [shows, shows] at same
        rw [Option.some.inj same]

theorem label_eq_of_inStep {registry other : Registry} {reports : Bool} {scope scope' : Scope}
    {target : Option String} {primary : Bool} {action : Option Action}
    (frames : InStep Same (frame? registry reports scope (.button target primary action))
      (frame? other reports scope' (.button target primary action))) :
    label registry (target.filter (· ≠ "")) scope.data =
      label other (target.filter (· ≠ "")) scope'.data := by
  simp only [frame?] at frames
  have same := eq_of_inStep_map frames
  exact same fun _ => rfl

theorem display_eq_of_inStep {registry other : Registry} {reports : Bool} {scope scope' : Scope}
    {descriptor : Option Descriptor} {hint : Option String}
    (frames : InStep Same (frame? registry reports scope (.text descriptor hint))
      (frame? other reports scope' (.text descriptor hint))) :
    Descriptor.display descriptor scope.data = Descriptor.display descriptor scope'.data := by
  simp only [frame?] at frames
  have same := eq_of_inStep_map frames
  have equal := same fun _ => rfl
  cases here : Descriptor.display descriptor scope.data with
  | error fault =>
    rw [here] at equal
    obtain ⟨other, there, same⟩ := Result.mapError_eq_error_iff.mp equal.symm
    cases same
    exact there.symm
  | ok text =>
    rw [here] at equal
    exact (Result.mapError_eq_ok_iff.mp equal.symm).symm

theorem listScopes?_rel_of_inStep {registry other : Registry} {reports : Bool}
    {scope scope' : Scope} {children : Option Children}
    (frames : InStep Same (frame? registry reports scope (.list children))
      (frame? other reports scope' (.list children))) :
    Option.Rel (List.Forall₂ Same) (listScopes? children scope) (listScopes? children scope') := by
  simp only [frame?] at frames
  generalize listScopes? children scope = here at frames ⊢
  generalize listScopes? children scope' = there at frames ⊢
  cases here with
  | none =>
    cases there with
    | none => exact .none
    | some row' => cases frames
  | some row =>
    cases there with
    | none => cases frames
    | some row' =>
      cases frames with
      | framed text below => exact .some below

/-- A component is made the same, by any host, where what it decides by itself is in step. -/
theorem make_eq_of_inStep (pass : Pass ν) {other : Registry} {child child' : Resolve ν}
    (shown : ∀ {a b}, Same a b → ∀ spent, child a.1 a.2 spent = child' b.1 b.2 spent)
    {component : Component} {scope scope' : Scope}
    (frames : InStep Same (frame? pass.registry pass.reports scope component)
      (frame? other pass.reports scope' component)) (id : String) (spent : Int) :
    make pass child id component scope spent =
      make { pass with registry := other } child' id component scope' spent := by
  have rows : ∀ {row row'}, List.Forall₂ Same row row' →
      ∀ spent, each child row spent = each child' row' spent :=
    fun paired => each_congr (paired.imp fun _ _ same => shown same)
  cases component with
  | text descriptor hint =>
    simp only [make, display_eq_of_inStep frames]
  | button target primary action => simp only [make, label_eq_of_inStep frames]
  | column children alignment =>
    cases frames with
    | framed text below => simp only [make, rows below]
  | row children distribution =>
    cases frames with
    | framed text below => simp only [make, rows below]
  | card target =>
    simp only [frame?, cardScopes] at frames
    simp only [make]
    generalize target.filter (· ≠ "") = chosen at frames ⊢
    cases chosen with
    | none => rfl
    | some target =>
      cases frames with
      | framed text below =>
        have first := (List.forall₂_cons.mp below).1
        simp only [shown first]
  | list children =>
    have rows := listScopes?_rel_of_inStep frames
    simp only [make]
    generalize listScopes? children scope = row at rows ⊢
    generalize listScopes? children scope' = row' at rows ⊢
    cases rows with
    | none => rfl
    | some below => simp only [rows below]
  | _ => rfl

namespace Bisimulation

theorem resolveWithin_eq {pass : Pass ν} {other : Registry}
    (steps : Bisimulation pass.registry other pass.reports Same) (left : Nat)
    {a b : String × Scope} (same : Same a b) (spent : Int) :
    resolveWithin pass left a.1 a.2 spent =
      resolveWithin { pass with registry := other } left b.1 b.2 spent := by
  induction left generalizing a b spent with
  | zero =>
    have trail := steps.trail same
    have found := steps.found same
    rw [← steps.id same] at found ⊢
    simp only [resolveWithin, trail, found]
  | succ left ih =>
    have trail := steps.trail same
    have found := steps.found same
    rw [← steps.id same] at found ⊢
    simp only [resolveWithin, trail, ← found]
    cases known : pass.registry.get? a.1 with
    | none => rfl
    | some definition =>
      cases parsed : Component.parse definition.kind definition.props with
      | error fault => simp only [parsed]
      | ok component =>
        -- what stands below is in step again, with one component less on the way
        have frames := steps.framed same known parsed
        rw [← steps.id same] at frames
        simp only [parsed, make_eq_of_inStep pass (fun {_ _} => ih) frames]

/-- Passes in step show the same and spend the same. -/
theorem resolve_eq {pass : Pass ν} {other : Registry}
    (steps : Bisimulation pass.registry other pass.reports Same) {a b : String × Scope}
    (same : Same a b) (spent : Int) :
    pass.resolve a.1 a.2 spent =
      Pass.resolve { pass with registry := other } b.1 b.2 spent := by
  simp only [resolve, ← steps.trail same]
  exact steps.resolveWithin_eq _ same spent

end Bisimulation
end LiveSurface.Pass
