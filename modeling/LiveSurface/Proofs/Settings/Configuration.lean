import LiveSurface.Proofs.Number.Spelling
import LiveSurface.Proofs.Number.Truncation
import LiveSurface.Proofs.Result
import LiveSurface.Proofs.Text.Lowered
import LiveSurface.Settings

/-!
# What a configuration does to the settings

A setting takes the form of a value that fits it and stays as it was without one, whatever is given
for the other settings. Only an infinite number in the place of a count refuses a configuration, and
then as a whole (`configure_by_setting`).
-/
namespace LiveSurface

namespace Value

/-- The whole number that a value counts: itself, a real without its fraction, or what text or bytes
spell. -/
inductive Counts : Value → Int → Prop
  | int (n : Int) : Counts (.int n) n
  | real {d : Double} {q : ℚ} (finite : d.value? = some q) : Counts (.real d) (Double.towardZero q)
  | str {s : String} {n : Int} (spells : Numeral.Spells .every s.toList n) : Counts (.str s) n
  | bytes {s : String} {n : Int} (spells : Numeral.Spells .ascii s.toList n) : Counts (.bytes s) n

/-- The boolean that a value tells: itself, or what a word in any case and between blanks says. -/
inductive Tells : Value → Bool → Prop
  | bool (b : Bool) : Tells (.bool b) b
  | on {s : String} (word : Text.lowered (Text.trim s) ∈ Settings.onWords) : Tells (.str s) true
  | off {s : String} (word : Text.lowered (Text.trim s) ∈ Settings.offWords) :
      Tells (.str s) false

theorem counts_real_iff {d : Double} {n : Int} :
    Counts (.real d) n ↔ d.truncate? = some n := by
  rw [Double.truncate?_eq, Option.map_eq_some_iff]
  constructor
  · intro counts
    cases counts with
    | real finite => exact ⟨_, finite, rfl⟩
  · rintro ⟨q, finite, rfl⟩
    exact .real finite

/-- A value other than a boolean has the whole number that it counts. -/
theorem toWhole_eq_ok_iff {v : Value} {n : Int} (number : ∀ b, v ≠ .bool b) :
    v.toWhole = .ok n ↔ v.Counts n := by
  cases v with
  | bool b => exact absurd rfl (number b)
  | int m =>
    rw [toWhole, Except.ok.injEq]
    constructor
    · rintro rfl
      exact .int m
    · rintro ⟨⟩
      rfl
  | real d =>
    rw [counts_real_iff]
    cases cut : d.truncate? <;> simp [toWhole, cut]
  | str s =>
    rw [toWhole, Result.mapError_eq_ok_iff, Numeral.whole_eq_ok_iff]
    exact ⟨.str, fun | .str spells => spells⟩
  | bytes s =>
    rw [toWhole, Result.mapError_eq_ok_iff, Numeral.wholeAscii_byteNumeral_eq_ok_iff]
    exact ⟨.bytes, fun | .bytes spells => spells⟩
  | _ => exact ⟨nofun, nofun⟩

theorem Counts.unique {v : Value} {m n : Int} (first : v.Counts m) (second : v.Counts n) :
    m = n := by
  have number : ∀ b, v ≠ .bool b := by
    rintro b rfl
    cases first
  rw [← toWhole_eq_ok_iff number] at first second
  exact Except.ok.inj (first.symm.trans second)

/-- Infinite numbers alone are refused for being infinite. -/
theorem toWhole_eq_infinite_iff {v : Value} :
    v.toWhole = .error .infinite ↔ ∃ negative, v = .real (.infinite negative) := by
  have fault (written : String) (fault : Numeral.Fault) :
      wholeFault written fault ≠ .infinite := by cases fault <;> nofun
  cases v with
  | real d => cases d <;> simp [toWhole, Double.truncate?]
  | str s => cases read : Numeral.whole s <;> simp [toWhole, read, Except.mapError, fault]
  | bytes s =>
    cases read : Numeral.wholeAscii (byteNumeral s) <;>
      simp [toWhole, read, Except.mapError, fault]
  | _ => simp [toWhole]

end Value

/-! ## The five settings -/

/-- What a setting holds. -/
inductive Setting.Kind
  | count
  | switch

/-- The values of a kind of settings. -/
abbrev Setting.Kind.Carrier : Kind → Type
  | count => Nat
  | switch => Bool

/-- The settings by name. -/
inductive Setting : Setting.Kind → Type
  | maxDepth : Setting .count
  | maxNodes : Setting .count
  | maxSurfaces : Setting .count
  | honorDeleteSurface : Setting .switch
  | logUnknownComponents : Setting .switch

namespace Setting

variable {kind : Kind}

/-- The name of a setting in a configuration. -/
def name : Setting kind → String
  | maxDepth => "max_depth"
  | maxNodes => "max_nodes"
  | maxSurfaces => "max_surfaces"
  | honorDeleteSurface => "honor_delete_surface"
  | logUnknownComponents => "log_unknown_components"

/-- What settings say for one of them. -/
def of (settings : Settings) : Setting kind → kind.Carrier
  | maxDepth => settings.maxDepth
  | maxNodes => settings.maxNodes
  | maxSurfaces => settings.maxSurfaces
  | honorDeleteSurface => settings.honorDeleteSurface
  | logUnknownComponents => settings.logUnknownComponents

/-- The least count of a setting. -/
def minimum : Setting .count → Nat
  | maxDepth => 1
  | maxNodes => 1
  | maxSurfaces => 0

/-- A value fits a setting, in the form that the setting holds. -/
def Fits : {kind : Kind} → Setting kind → Value → kind.Carrier → Prop
  | .count, setting, v, n => v.Counts (n : Nat) ∧ setting.minimum ≤ n
  | .switch, _, v, b => v.Tells b

/-- What a block has for a setting, null where it has nothing. -/
def held (block : Fields) (setting : Setting kind) : Value :=
  (Entries.get? block setting.name).getD .null

/-- A configuration has a value under the name of a setting. -/
def Given (setting : Setting kind) (config v : Value) : Prop :=
  ∃ fields block, config = .obj fields ∧
    Entries.get? fields "renderer_config" = some (.obj block) ∧
    Entries.get? block setting.name = some v

/-- A configuration offers a form for a setting: it has a value that fits. -/
def Offered (setting : Setting kind) (config : Value) (x : kind.Carrier) : Prop :=
  ∃ v, setting.Given config v ∧ setting.Fits v x

end Setting

/-- What is taken of the forms that are offered: any that there is, and what was there before
without one. -/
structure Takes {α : Type} (offered : α → Prop) (before after : α) : Prop where
  form (x : α) : offered x → after = x
  kept : (∀ x, ¬ offered x) → after = before

namespace Takes

variable {α : Type} {offered : α → Prop} {before after x : α}

theorem of_none (none : ∀ x, ¬ offered x) : Takes offered before before :=
  ⟨fun x there => absurd there (none x), fun _ => rfl⟩

theorem of_only (there : offered x) (only : ∀ y, offered y → y = x) : Takes offered before x :=
  ⟨fun y other => (only y other).symm, fun none => absurd there (none x)⟩

theorem congr {other : α → Prop} (takes : Takes offered before after)
    (same : ∀ x, other x ↔ offered x) : Takes other before after :=
  ⟨fun x there => takes.form x ((same x).mp there),
    fun none => takes.kept fun x there => none x ((same x).mpr there)⟩

/-- Either a form is offered and taken, or what was there before is kept. -/
theorem cases (takes : Takes offered before after) :
    offered after ∨ (∀ x, ¬ offered x) ∧ after = before := by
  by_cases some_form : ∃ x, offered x
  · obtain ⟨x, there⟩ := some_form
    obtain rfl := takes.form x there
    exact .inl there
  · have none : ∀ x, ¬ offered x := fun x there => some_form ⟨x, there⟩
    exact .inr ⟨none, takes.kept none⟩

end Takes

namespace Settings

/-- A configuration with an infinite number in the place of a count. -/
def Infinite (config : Value) : Prop :=
  ∃ (setting : Setting .count) (negative : Bool),
    setting.Given config (.real (.infinite negative))

/-! ## One value -/

theorem count_of_whole {current minimum : Nat} {v : Value} {n : Int} (number : ∀ b, v ≠ .bool b)
    (whole : v.toWhole = .ok n) :
    count current minimum v = .ok (if n < minimum then current else n.toNat) := by
  rw [count, whole]
  exact number

theorem count_of_fault {current minimum : Nat} {v : Value} {fault : ValueFault}
    (number : ∀ b, v ≠ .bool b) (failed : v.toWhole = .error fault) :
    count current minimum v = if fault = .infinite then .error .infinite else .ok current := by
  rw [count, failed]
  · cases fault <;> rfl
  · exact number

/-- A count is refused exactly for an infinite number, and else takes what fits. -/
theorem count_cases (current minimum : Nat) (v : Value) :
    (∃ negative, v = .real (.infinite negative)) ∧
        count current minimum v = .error .infinite ∨
      (∀ negative, v ≠ .real (.infinite negative)) ∧ ∃ n, count current minimum v = .ok n ∧
        Takes (fun x : Nat => v.Counts x ∧ minimum ≤ x) current n := by
  by_cases boolean : ∃ b, v = .bool b
  · obtain ⟨b, rfl⟩ := boolean
    exact .inr ⟨nofun, current, rfl, .of_none fun x fits => by cases fits.1⟩
  · have number : ∀ b, v ≠ .bool b := fun b same => boolean ⟨b, same⟩
    cases whole : v.toWhole with
    | ok n =>
      have counts := (Value.toWhole_eq_ok_iff number).mp whole
      have finite : ∀ negative, v ≠ .real (.infinite negative) := fun negative same => by
        rw [Value.toWhole_eq_infinite_iff.mpr ⟨negative, same⟩] at whole
        cases whole
      refine .inr ⟨finite, _, count_of_whole number whole, ?_⟩
      by_cases low : n < minimum
      · rw [if_pos low]
        refine .of_none fun x fits => ?_
        have := counts.unique fits.1
        omega
      · rw [if_neg low]
        have natural : ((n.toNat : Nat) : Int) = n := by omega
        refine .of_only ⟨natural.symm ▸ counts, by omega⟩ fun y fits => ?_
        have := counts.unique fits.1
        omega
    | error fault =>
      have result := @count_of_fault current minimum v fault number whole
      by_cases infinite : ∃ negative, v = .real (.infinite negative)
      · rw [Value.toWhole_eq_infinite_iff.mpr infinite] at whole
        cases whole
        exact .inl ⟨infinite, result⟩
      · have other : fault ≠ .infinite := by
          rintro rfl
          exact infinite (Value.toWhole_eq_infinite_iff.mp whole)
        rw [if_neg other] at result
        refine .inr ⟨fun negative same => infinite ⟨negative, same⟩, current, result,
          .of_none fun x fits => ?_⟩
        rw [(Value.toWhole_eq_ok_iff number).mpr fits.1] at whole
        cases whole

theorem switch_takes (current : Bool) (v : Value) : Takes v.Tells current (switch current v) := by
  cases v with
  | bool b =>
    refine .of_only (.bool b) fun y told => ?_
    cases told
    rfl
  | str s =>
    have on : Text.lowered (Text.trim s) ∈ onWords ↔ (Text.trim s).map Char.toLower ∈ onWords :=
      Text.lowered_mem_iff (by decide) _
    have off : Text.lowered (Text.trim s) ∈ offWords ↔ (Text.trim s).map Char.toLower ∈ offWords :=
      Text.lowered_mem_iff (by decide) _
    have apart : ∀ w ∈ onWords, w ∉ offWords := by decide
    simp only [switch]
    split
    · next word =>
      refine .of_only (.on (on.mpr word)) fun y told => ?_
      cases told with
      | on => rfl
      | off other => exact absurd (off.mp other) (apart _ word)
    · next noOn =>
      split
      · next word =>
        refine .of_only (.off (off.mpr word)) fun y told => ?_
        cases told with
        | on other => exact absurd (on.mp other) noOn
        | off => rfl
      · next noOff =>
        refine .of_none fun y told => ?_
        cases told with
        | on other => exact noOn (on.mp other)
        | off other => exact noOff (off.mp other)
  | _ => exact .of_none fun y told => by cases told

/-! ## A whole configuration -/

/-- Reads a count for a setting from a block. -/
def readCount (settings : Settings) (block : Fields) (setting : Setting .count) :
    Except ValueFault Nat :=
  count (setting.of settings) setting.minimum (setting.held block)

theorem block?_eq_some_iff {config : Value} {block : Fields} :
    block? config = some block ↔ ∃ fields, config = .obj fields ∧
      Entries.get? fields "renderer_config" = some (.obj block) := by
  unfold block?
  split
  · split <;> simp_all
  · next other => simpa using fun fields same => absurd same (other fields)

section

variable {kind : Setting.Kind} {setting : Setting kind} {config : Value} {block : Fields}

theorem given_iff {v : Value} :
    setting.Given config v ↔
      ∃ block, block? config = some block ∧ Entries.get? block setting.name = some v := by
  simp only [Setting.Given, block?_eq_some_iff]
  constructor
  · rintro ⟨fields, block, own, found, held⟩
    exact ⟨block, ⟨fields, own, found⟩, held⟩
  · rintro ⟨block, ⟨fields, own, found⟩, held⟩
    exact ⟨fields, block, own, found, held⟩

theorem not_fits_null (x : kind.Carrier) : ¬ setting.Fits .null x := by
  cases kind with
  | count => exact fun fits => by cases fits.1
  | switch => exact nofun

/-- Where nothing stands under the name of a setting, null is as good. -/
theorem offered_iff (setting : Setting kind) (found : block? config = some block)
    (x : kind.Carrier) :
    setting.Offered config x ↔ setting.Fits (setting.held block) x := by
  simp only [Setting.Offered, given_iff, found, Option.some.injEq, exists_eq_left', Setting.held]
  cases Entries.get? block setting.name with
  | none => simpa using not_fits_null x
  | some v => simp

theorem not_offered (none_there : block? config = none) (x : kind.Carrier) :
    ¬ setting.Offered config x := by
  rintro ⟨v, given, -⟩
  obtain ⟨block, found, -⟩ := given_iff.mp given
  rw [none_there] at found
  cases found

theorem given_infinite_iff (found : block? config = some block) {negative : Bool} :
    setting.Given config (.real (.infinite negative)) ↔
      setting.held block = .real (.infinite negative) := by
  simp only [given_iff, found, Option.some.injEq, exists_eq_left', Setting.held]
  cases Entries.get? block setting.name <;> simp

theorem fits_unique {v : Value} {x y : kind.Carrier} (first : setting.Fits v x)
    (second : setting.Fits v y) : x = y := by
  cases kind with
  | count => exact Int.ofNat.inj (first.1.unique second.1)
  | switch =>
    have takes := switch_takes true v
    exact (takes.form x first).symm.trans (takes.form y second)

/-- A configuration offers at most one form for a setting. -/
theorem offered_unique {x y : kind.Carrier} (first : setting.Offered config x)
    (second : setting.Offered config y) : x = y := by
  obtain ⟨v, given, fits⟩ := first
  obtain ⟨w, given', fits'⟩ := second
  obtain ⟨block, found, held⟩ := given_iff.mp given
  obtain ⟨block', found', held'⟩ := given_iff.mp given'
  rw [found] at found'
  cases found'
  rw [held] at held'
  cases held'
  exact fits_unique fits fits'

theorem readCount_ends (settings : Settings) (block : Fields) (setting : Setting .count) :
    readCount settings block setting = .error .infinite ∨
      ∃ n, readCount settings block setting = .ok n := by
  rcases count_cases (setting.of settings) setting.minimum (setting.held block) with
    ⟨-, fails⟩ | ⟨-, n, reads, -⟩
  · exact .inl fails
  · exact .inr ⟨n, reads⟩

theorem readCount_of_finite (settings : Settings) (found : block? config = some block)
    (finite : ¬ Infinite config) (setting : Setting .count) :
    ∃ n, readCount settings block setting = .ok n ∧
      Takes (setting.Offered config) (setting.of settings) n := by
  rcases count_cases (setting.of settings) setting.minimum (setting.held block) with
    ⟨⟨negative, same⟩, -⟩ | ⟨-, n, reads, takes⟩
  · exact absurd ⟨setting, negative, (given_infinite_iff found).mpr same⟩ finite
  · exact ⟨n, reads, takes.congr (offered_iff setting found)⟩

/-- The three counts are read one after another, and then nothing fails any more. -/
theorem configure_eq (settings : Settings) (found : block? config = some block) :
    settings.configure config = (do
      let maxDepth ← readCount settings block .maxDepth
      let maxNodes ← readCount settings block .maxNodes
      let maxSurfaces ← readCount settings block .maxSurfaces
      pure { maxDepth, maxNodes, maxSurfaces,
             honorDeleteSurface :=
               switch settings.honorDeleteSurface (Setting.honorDeleteSurface.held block),
             logUnknownComponents := switch settings.logUnknownComponents
               (Setting.logUnknownComponents.held block) }) := by
  rw [configure, found]
  rfl

/-- An infinite count refuses a configuration, whichever count it is. -/
theorem configure_of_infinite (settings : Settings) (infinite : Infinite config) :
    settings.configure config = .error .infinite := by
  obtain ⟨setting, negative, given⟩ := infinite
  obtain ⟨block, found, -⟩ := given_iff.mp given
  have fails : readCount settings block setting = .error .infinite := by
    rcases count_cases (setting.of settings) setting.minimum (setting.held block) with
      ⟨-, fails⟩ | ⟨finite, -⟩
    · exact fails
    · exact absurd ((given_infinite_iff found).mp given) (finite negative)
  rw [configure_eq settings found]
  -- a count that is read before this one may fail too, and then in the same way
  rcases readCount_ends settings block .maxDepth with depth | ⟨maxDepth, depth⟩
  · rw [depth]
    rfl
  rcases readCount_ends settings block .maxNodes with nodes | ⟨maxNodes, nodes⟩
  · rw [depth, nodes]
    rfl
  cases setting with
  | maxDepth =>
    rw [fails] at depth
    cases depth
  | maxNodes =>
    rw [fails] at nodes
    cases nodes
  | maxSurfaces =>
    rw [depth, nodes, fails]
    rfl

/-- Without an infinite count every setting takes what is offered for it. -/
theorem configure_of_finite (settings : Settings) (finite : ¬ Infinite config) :
    ∃ after, settings.configure config = .ok after ∧
      ∀ {kind : Setting.Kind} (setting : Setting kind),
        Takes (setting.Offered config) (setting.of settings) (setting.of after) := by
  cases found : block? config with
  | none =>
    exact ⟨settings, by rw [configure, found], fun setting => .of_none (not_offered found)⟩
  | some block =>
    obtain ⟨maxDepth, depth, takesDepth⟩ := readCount_of_finite settings found finite .maxDepth
    obtain ⟨maxNodes, nodes, takesNodes⟩ := readCount_of_finite settings found finite .maxNodes
    obtain ⟨maxSurfaces, surfaces, takesSurfaces⟩ :=
      readCount_of_finite settings found finite .maxSurfaces
    rw [configure_eq settings found, depth, nodes, surfaces]
    refine ⟨_, rfl, fun setting => ?_⟩
    cases setting with
    | maxDepth => exact takesDepth
    | maxNodes => exact takesNodes
    | maxSurfaces => exact takesSurfaces
    | honorDeleteSurface => exact (switch_takes _ _).congr (offered_iff .honorDeleteSurface found)
    | logUnknownComponents =>
      exact (switch_takes _ _).congr (offered_iff .logUnknownComponents found)

end

/-- A configuration gives each setting the form of the value that it has for it, if this fits, and
leaves the setting as it was if not. It fails exactly for an infinite number in the place of a
count. -/
theorem configure_by_setting (settings : Settings) (config : Value) :
    (Infinite config ∧ settings.configure config = .error .infinite) ∨
      (¬ Infinite config ∧ ∃ after, settings.configure config = .ok after ∧
        ∀ {kind : Setting.Kind} (setting : Setting kind),
          Takes (setting.Offered config) (setting.of settings) (setting.of after)) := by
  by_cases infinite : Infinite config
  · exact .inl ⟨infinite, configure_of_infinite settings infinite⟩
  · exact .inr ⟨infinite, configure_of_finite settings infinite⟩

/-- An infinite depth keeps a configuration from setting the number of components too. -/
theorem refused_of_infinite_depth :
    let config : Value := .obj [("renderer_config",
      .obj [("max_depth", .real (.infinite false)), ("max_nodes", .int 5)])]
    (∀ n, ¬ Setting.maxDepth.Offered config n) ∧ Setting.maxNodes.Offered config 5 ∧
      ({} : Settings).configure config = .error .infinite := by
  intro config
  have found : block? config =
      some [("max_depth", .real (.infinite false)), ("max_nodes", .int 5)] := rfl
  refine ⟨fun n => ?_, ?_, rfl⟩
  · rw [offered_iff _ found]
    exact fun fits => nomatch Value.counts_real_iff.mp fits.1
  · rw [offered_iff _ found]
    exact ⟨.int 5, by decide⟩

end Settings
end LiveSurface
