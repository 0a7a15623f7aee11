import LiveSurface.Proofs.Settings.Configuration

/-!
# Settings from call to call

The settings that are kept change with the calls that come one after another. What each of them is
stems from the last call that did not fail and either reset it or offered a form for it
(`stems_run`). It therefore stays in its range, and a call that fails changes nothing (`run_kept`).
-/
namespace LiveSurface.Settings

/-- The settings that a call leaves. -/
def after (settings : Settings) (call : Call) : Settings := (call.perform.run.run settings).2

/-- The settings that calls leave, those that fail included. -/
def run (settings : Settings) (calls : List Call) : Settings := calls.foldl after settings

/-- A call and how it ended. -/
structure Event where
  call : Call
  ended : Except ValueFault Unit

/-- What a call does to the settings that are kept. -/
def event (settings : Settings) (call : Call) : Event := ⟨call, (call.perform.run.run settings).1⟩

/-- What calls do one after another. -/
def events (settings : Settings) : List Call → List Event
  | [] => []
  | call :: calls => settings.event call :: (settings.after call).events calls

/-- What an event makes of a setting whatever it was: its default, or the form that is offered. -/
inductive Event.Decides {kind : Setting.Kind} (setting : Setting kind) :
    Event → kind.Carrier → Prop
  | reset : Decides setting ⟨.reset, .ok ()⟩ (setting.of {})
  | configure {config : Value} {x : kind.Carrier} (offered : setting.Offered config x) :
      Decides setting ⟨.configure config, .ok ()⟩ x

/-- What a setting is after events: what the last of them to decide it made of it, and its default
if none did. -/
def Stems {kind : Setting.Kind} (setting : Setting kind) (events : List Event)
    (x : kind.Carrier) : Prop :=
  (∃ before event later, events = before ++ event :: later ∧ event.Decides setting x ∧
      ∀ other ∈ later, ∀ y, ¬ other.Decides setting y) ∨
    (∀ event ∈ events, ∀ y, ¬ event.Decides setting y) ∧ x = setting.of {}

section

variable {kind : Setting.Kind} {setting : Setting kind} {past : List Event} {event : Event}
  {x y : kind.Carrier}

theorem Stems.decided (decides : event.Decides setting x) : Stems setting (past ++ [event]) x :=
  .inl ⟨past, event, [], rfl, decides, nofun⟩

theorem Stems.passed (stems : Stems setting past x) (passes : ∀ y, ¬ event.Decides setting y) :
    Stems setting (past ++ [event]) x := by
  have still {later : List Event} (quiet : ∀ other ∈ later, ∀ y, ¬ other.Decides setting y) :
      ∀ other ∈ later ++ [event], ∀ y, ¬ other.Decides setting y :=
    List.forall_mem_append.mpr ⟨quiet, List.forall_mem_singleton.mpr passes⟩
  rcases stems with ⟨before, last, later, rfl, decides, quiet⟩ | ⟨quiet, same⟩
  · exact .inl ⟨before, last, later ++ [event], by simp, decides, still quiet⟩
  · exact .inr ⟨still quiet, same⟩

/-- The last member of a list with a property is found in one way only. -/
theorem last_unique {α : Type} {p : α → Prop} {before later before' later' : List α} {a b : α}
    (same : before ++ a :: later = before' ++ b :: later') (holds : p a) (holds' : p b)
    (none : ∀ c ∈ later, ¬ p c) (none' : ∀ c ∈ later', ¬ p c) : a = b := by
  rcases List.append_eq_append_iff.mp same with ⟨gap, -, tail⟩ | ⟨gap, -, tail⟩
  · cases gap with
    | nil => exact (List.cons.inj tail).1
    | cons c gap =>
      obtain ⟨rfl, rest⟩ := List.cons.inj tail
      exact absurd holds' (none b (by rw [rest]; simp))
  · cases gap with
    | nil => exact (List.cons.inj tail).1.symm
    | cons c gap =>
      obtain ⟨rfl, rest⟩ := List.cons.inj tail
      exact absurd holds (none' a (by rw [rest]; simp))

theorem Event.Decides.unique (first : event.Decides setting x) (second : event.Decides setting y) :
    x = y := by
  cases first with
  | reset =>
    cases second
    rfl
  | configure offered =>
    cases second with
    | configure other => exact offered_unique offered other

theorem Event.Decides.cases (decides : event.Decides setting x) :
    x = setting.of {} ∨ ∃ config, setting.Offered config x := by
  cases decides with
  | reset => exact .inl rfl
  | configure offered => exact .inr ⟨_, offered⟩

theorem Stems.unique (first : Stems setting past x) (second : Stems setting past y) : x = y := by
  rcases first with ⟨before, event, later, rfl, decides, quiet⟩ | ⟨quiet, rfl⟩
  · rcases second with ⟨before', event', later', same, decides', quiet'⟩ | ⟨quiet', -⟩
    · have last : event = event' :=
        last_unique (p := fun event => ∃ z, event.Decides setting z) same ⟨x, decides⟩
          ⟨y, decides'⟩ (fun other member ⟨z, there⟩ => quiet other member z there)
          (fun other member ⟨z, there⟩ => quiet' other member z there)
      subst last
      exact decides.unique decides'
    · exact absurd decides (quiet' event (by simp) x)
  · rcases second with ⟨before, event, later, rfl, decides, -⟩ | ⟨-, same⟩
    · exact absurd decides (quiet event (by simp) y)
    · exact same.symm

theorem Stems.minimum_le {setting : Setting .count} {n : Nat} (stems : Stems setting past n) :
    setting.minimum ≤ n := by
  have default : setting.minimum ≤ setting.of {} := by cases setting <;> decide
  rcases stems with ⟨-, event, -, -, decides, -⟩ | ⟨-, rfl⟩
  · rcases decides.cases with rfl | ⟨config, v, -, fits⟩
    · exact default
    · exact fits.2
  · exact default

end

/-- A configuration replaces the settings as a whole, or fails and leaves them. -/
theorem perform_configure (settings : Settings) (config : Value) :
    (Call.configure config).perform.run.run settings =
      match settings.configure config with
      | .ok replaced => (.ok (), replaced)
      | .error fault => (.error fault, settings) := by
  -- the settings that are read are those that are kept
  change ((do set (← (settings.configure config : Except ValueFault Settings)) :
    ExceptT ValueFault (StateM Settings) Unit)).run.run settings = _
  cases settings.configure config <;> rfl

/-- A configuration with an infinite count fails and leaves all settings, and any other one is taken
setting by setting. -/
theorem configure_ends (settings : Settings) (config : Value) :
    (settings.event (.configure config) = ⟨.configure config, .error .infinite⟩ ∧
        settings.after (.configure config) = settings) ∨
      (settings.event (.configure config) = ⟨.configure config, .ok ()⟩ ∧
        ∀ {kind : Setting.Kind} (setting : Setting kind),
          Takes (setting.Offered config) (setting.of settings)
            (setting.of (settings.after (.configure config)))) := by
  rw [event, after, perform_configure]
  by_cases infinite : Infinite config
  · rw [configure_of_infinite settings infinite]
    exact .inl ⟨rfl, rfl⟩
  · obtain ⟨replaced, done, takes⟩ := configure_of_finite settings infinite
    rw [done]
    exact .inr ⟨rfl, takes⟩

/-- A call that fails leaves the settings as they were. -/
theorem after_of_failed {settings : Settings} {call : Call} {fault : ValueFault}
    (failed : (settings.event call).ended = .error fault) : settings.after call = settings := by
  cases call with
  | reset => cases failed
  | configure config =>
    rcases configure_ends settings config with ⟨-, same⟩ | ⟨done, -⟩
    · exact same
    · rw [done] at failed
      cases failed

theorem of_after_of_not_offered {kind : Setting.Kind} {setting : Setting kind} {config : Value}
    (none : ∀ x, ¬ setting.Offered config x) (settings : Settings) :
    setting.of (settings.after (.configure config)) = setting.of settings := by
  rcases configure_ends settings config with ⟨-, same⟩ | ⟨-, takes⟩
  · rw [same]
  · exact (takes setting).kept none

/-- A call moves every setting on along what happens. -/
theorem Stems.step {kind : Setting.Kind} {setting : Setting kind} {past : List Event}
    {settings : Settings} (stems : Stems setting past (setting.of settings)) (call : Call) :
    Stems setting (past ++ [settings.event call]) (setting.of (settings.after call)) := by
  cases call with
  | reset => exact .decided .reset
  | configure config =>
    rcases configure_ends settings config with ⟨failed, same⟩ | ⟨done, takes⟩
    · rw [failed, same]
      exact stems.passed nofun
    · rw [done]
      rcases (takes setting).cases with offered | ⟨none, same⟩
      · exact .decided (.configure offered)
      · rw [same]
        refine stems.passed fun y decides => ?_
        cases decides with
        | configure offered => exact none y offered

/-- A run moves every setting on along what happens. -/
theorem stems_run {kind : Setting.Kind} {setting : Setting kind} {past : List Event}
    {settings : Settings} (stems : Stems setting past (setting.of settings)) (calls : List Call) :
    Stems setting (past ++ settings.events calls) (setting.of (settings.run calls)) := by
  induction calls generalizing past settings with
  | nil => simpa [events, run] using stems
  | cons call calls ih =>
    have later := ih (stems.step call)
    rwa [List.append_assoc] at later

theorem stems_of_default {kind : Setting.Kind} (setting : Setting kind) (calls : List Call) :
    Stems setting (({} : Settings).events calls) (setting.of (({} : Settings).run calls)) := by
  have begun : Stems setting [] (setting.of {}) := .inr ⟨nofun, rfl⟩
  exact stems_run begun calls

/-- What holds of the settings that calls leave, beginning with the defaults. -/
structure Kept (calls : List Call) (settings : Settings) : Prop where
  stems {kind : Setting.Kind} (setting : Setting kind) (x : kind.Carrier) :
    Stems setting (({} : Settings).events calls) x ↔ x = setting.of settings
  minimum_le (setting : Setting .count) : setting.minimum ≤ setting.of settings
  unchanged (call : Call) (fault : ValueFault) :
    (settings.event call).ended = .error fault → settings.after call = settings
  unspoilt {kind : Setting.Kind} (setting : Setting kind) (config : Value) :
    (∀ x, ¬ setting.Offered config x) →
      setting.of (settings.after (.configure config)) = setting.of settings

/-- After any calls, each setting is what the last of them that decided it made of it, and the
counts are in their ranges. A further call that fails changes nothing, and one that offers nothing
for a setting does not change this setting. -/
theorem run_kept (calls : List Call) : Kept calls (({} : Settings).run calls) := by
  refine ⟨?_, fun setting => (stems_of_default setting calls).minimum_le,
    fun call fault => after_of_failed, fun setting config none => of_after_of_not_offered none _⟩
  intro kind setting x
  constructor
  · intro other
    exact other.unique (stems_of_default setting calls)
  · rintro rfl
    exact stems_of_default setting calls

example :
    let block (fields : Fields) : Call := .configure (.obj [("renderer_config", .obj fields)])
    ({} : Settings).run
      [block [("max_nodes", .int 5)], .reset, block [("max_depth", .str " 1_0 ")],
        block [("max_depth", .int 0), ("max_surfaces", .bool true)],
        block [("max_depth", .int 3), ("max_nodes", .real (.infinite false))]] =
      { maxDepth := 10 } := by
  decide +kernel

end LiveSurface.Settings
