import LiveSurface.Proofs.Surface.Failure
import LiveSurface.Proofs.Surface.History
import LiveSurface.Proofs.Surface.Replay
import LiveSurface.Proofs.Validation.Decoding

/-!
# Surfaces are sound

What holds of every surface at any time, whatever values a processor was given and whatever was
evicted: it has an identifier, a root that can be one, a data model with distinct keys, definitions
that were read from entries, and a version that counts the messages that were applied to it since it
came into being (`Surface.Sound`). One message keeps this (`Sound.apply`), and so does every run of
a processor (`run_sound`).
-/
namespace LiveSurface

namespace Event

/-- The surface that something happens to. -/
def id : Event → String
  | received id _ | removed id => id

end Event

namespace History

/-- How many messages were applied to a surface since it came into being. -/
def applied (id : String) : History → Nat
  | [] => 0
  | .received other applies :: earlier =>
    if other = id then applied id earlier + applies.toNat else applied id earlier
  | .removed other :: earlier => if other = id then 0 else applied id earlier

theorem applied_cons_of_ne {event : Event} {id : String} (apart : event.id ≠ id)
    (earlier : History) : applied id (event :: earlier) = applied id earlier := by
  cases event with
  | received other applies => exact if_neg apart
  | removed other => exact if_neg apart

theorem applied_received (id : String) (applies : Bool) (earlier : History) :
    applied id (.received id applies :: earlier) = applied id earlier + applies.toNat :=
  if_pos rfl

/-- A surface was never changed exactly if no message was applied to it. -/
theorem lastChange_eq_zero_iff (id : String) (history : History) :
    history.lastChange id = 0 ↔ history.applied id = 0 := by
  induction history with
  | nil => exact Iff.rfl
  | cons event earlier ih =>
    cases event with
    | received other applies =>
      simp only [lastChange, applied]
      by_cases own : other = id <;> cases applies <;> simp [own, ih]
    | removed other =>
      simp only [lastChange, applied]
      by_cases own : other = id <;> simp [own, ih]

theorem applied_of_not_made {id : String} {history : History} (absent : history.made id = 0) :
    history.applied id = 0 :=
  (lastChange_eq_zero_iff id history).mp (lastChange_of_not_made absent)

/-- No change is the last one of two surfaces. -/
theorem lastChange_inj {a b : String} {history : History}
    (same : history.lastChange a = history.lastChange b) (changed : history.lastChange a ≠ 0) :
    a = b := by
  induction history with
  | nil => exact absurd rfl changed
  | cons event earlier ih =>
    cases event with
    | received other applies =>
      have before := lastChange_le_changes a earlier
      have before' := lastChange_le_changes b earlier
      simp only [lastChange] at same changed
      split at same
      · next here =>
        split at same
        · next here' => rw [← here.1, here'.1]
        · omega
      · next apart =>
        rw [if_neg apart] at changed
        split at same
        · omega
        · exact ih same changed
    | removed other =>
      simp only [lastChange] at same changed
      split at same
      · next own => exact absurd (if_pos own) changed
      · next apart =>
        rw [if_neg apart] at changed
        split at same
        · exact absurd same changed
        · exact ih same changed

end History

/-- A message is for a surface with a name, and a root that it sets has a name too. -/
def Message.Named : Message → Prop
  | beginRendering id root _ => id ≠ "" ∧ root ≠ some ""
  | surfaceUpdate id _ | dataModelUpdate id .. => id ≠ ""
  | _ => True

theorem Validation.givenOr_nonEmpty_ne (name : String) (body : Fields) :
    givenOr name (nullable nonEmpty) none body ≠ some "" := by
  unfold givenOr given?
  cases Entries.get? body name with
  | none => simp
  | some v =>
    cases v with
    | str s => by_cases empty : s = "" <;> simp [nullable, nonEmpty, empty]
    | _ => simp [nullable, nonEmpty]

theorem Message.named_of_decode? {raw : Value} {message : Message}
    (decoded : decode? raw = some message) : message.Named := by
  obtain ⟨fields, form, body, -, picked, -, made⟩ := decode?_eq_some_iff.mp decoded
  have member := List.mem_of_find?_eq_some picked
  simp only [forms, List.mem_cons, List.not_mem_nil, or_false] at member
  rcases member with rfl | rfl | rfl | rfl | rfl <;>
    obtain ⟨id, given, rfl⟩ := Option.map_eq_some_iff.mp made
  · exact ⟨(Validation.given?_nonEmpty_eq_some_iff.mp given).2,
      Validation.givenOr_nonEmpty_ne "root" body⟩
  · exact (Validation.given?_nonEmpty_eq_some_iff.mp given).2
  · exact (Validation.given?_nonEmpty_eq_some_iff.mp given).2
  · trivial
  · trivial

theorem Message.Named.target {message : Message} (named : message.Named) {id : String}
    (target : message.target? = some id) : id ≠ "" := by
  cases message with
  | beginRendering other root styles =>
    cases target
    exact named.1
  | surfaceUpdate other components =>
    cases target
    exact named
  | dataModelUpdate other path contents value =>
    cases target
    exact named
  | userAction | deleteSurface => cases target

namespace Registry

theorem mem_upsert {registry : Registry} {new definition : Definition}
    (member : definition ∈ registry.upsert new) : definition = new ∨ definition ∈ registry := by
  induction registry with
  | nil => exact .inl (List.mem_singleton.mp member)
  | cons first rest ih =>
    by_cases same : first.id = new.id
    · simp only [upsert, same, ↓reduceIte, List.mem_cons] at member
      exact member.imp_right (List.mem_cons_of_mem _)
    · simp only [upsert, same, ↓reduceIte, List.mem_cons] at member
      rcases member with rfl | later
      · exact .inr List.mem_cons_self
      · exact (ih later).imp_right (List.mem_cons_of_mem _)

/-- What entries are upserted into holds nothing but what was there and what they describe. -/
theorem mem_upsertAll {registry : Registry} {entries : List Value} {definition : Definition}
    (member : definition ∈ registry.upsertAll entries) :
    definition ∈ registry ∨ ∃ raw ∈ entries, Definition.decode? raw = some definition := by
  have described : ∀ new ∈ entries.filterMap Definition.decode?,
      ∃ raw ∈ entries, Definition.decode? raw = some new := fun new => List.mem_filterMap.mp
  unfold upsertAll at member
  generalize entries.filterMap Definition.decode? = definitions at member described
  induction definitions generalizing registry with
  | nil => exact .inl member
  | cons first rest ih =>
    rw [List.forall_mem_cons] at described
    rcases ih member described.2 with before | new
    · rcases mem_upsert before with rfl | old
      · exact .inr described.1
      · exact .inl old
    · exact .inr new

end Registry

/-- Writes keep the keys of a model distinct. -/
theorem Fields.nodup_write {model : Fields} (distinct : (Entries.keys model).Nodup)
    (segments : List String) (payload : Fields) :
    (Entries.keys (Fields.write model segments payload)).Nodup := by
  rcases segments with _ | ⟨segment, _ | ⟨next, rest⟩⟩
  · simp only [Fields.write, Entries.update]
    induction payload generalizing model with
    | nil => exact distinct
    | cons entry payload ih => exact ih (Entries.nodup_set distinct entry.1 entry.2)
  · exact Entries.nodup_set distinct segment _
  · exact Entries.nodup_set distinct segment _

/-! ## One surface -/

/-- Data that is brought to a surface changes its data model alone. -/
theorem Surface.take_dataModelUpdate (surface : Surface) (distinct : surface.data.keys.Nodup)
    (id : String) (path : Option String) (contents : List Value) (value : Option Fields) :
    ∃ data : Fields,
      surface.take (.dataModelUpdate id path contents value) = { surface with data } ∧
        data.keys.Nodup := by
  cases written : Message.write? (.dataModelUpdate id path contents value) with
  | none => exact ⟨surface.data, by simp only [take, written], distinct⟩
  | some w =>
    exact ⟨_, by simp only [take, written], Fields.nodup_write distinct w.1 w.2⟩

/-- What holds of a surface with a history. -/
structure Surface.Sound (history : History) (surface : Surface) : Prop where
  named : surface.id ≠ ""
  root : surface.root ≠ some ""
  mapping : surface.data.keys.Nodup
  described : ∀ definition ∈ surface.components, ∃ raw, Definition.decode? raw = some definition
  counted : surface.version = history.applied surface.id + 1

namespace Surface.Sound

variable {surface : Surface} {history : History}

theorem of_untouched (sound : surface.untouched.Sound history) : surface.Sound history :=
  ⟨sound.named, sound.root, sound.mapping, sound.described, sound.counted⟩

theorem untouched (sound : surface.Sound history) : surface.untouched.Sound history :=
  ⟨sound.named, sound.root, sound.mapping, sound.described, sound.counted⟩

theorem new {id : String} (named : id ≠ "") (absent : history.made id = 0) :
    Surface.Sound history { id } where
  named := named
  root := by simp
  mapping := List.nodup_nil
  described definition member := by cases member
  counted := by rw [History.applied_of_not_made absent]

/-- What happens to other surfaces does not matter. -/
theorem pass (sound : surface.Sound history) {event : Event} (apart : event.id ≠ surface.id) :
    surface.Sound (event :: history) :=
  ⟨sound.named, sound.root, sound.mapping, sound.described, by
    rw [History.applied_cons_of_ne apart, sound.counted]⟩

/-- A message for a sound surface leaves it sound. -/
theorem receive (sound : surface.Sound history) {message : Message} (named : message.Named) :
    (surface.receive message).Sound (.received surface.id message.applies :: history) := by
  unfold Surface.receive
  cases applies : message.applies with
  | false =>
    refine ⟨sound.named, sound.root, sound.mapping, sound.described, ?_⟩
    rw [if_neg Bool.false_ne_true, History.applied_received, sound.counted]
    rfl
  | true =>
    have own := surface.take_id message
    rw [if_pos rfl]
    have counted : surface.version + 1 =
        History.applied (surface.take message).id (.received surface.id true :: history) + 1 := by
      rw [own, History.applied_received, sound.counted]
      rfl
    cases message with
    | beginRendering id root styles =>
      refine ⟨sound.named, ?_, sound.mapping, sound.described, counted⟩
      cases root with
      | none => exact sound.root
      | some root => exact named.2
    | surfaceUpdate id components =>
      refine ⟨sound.named, sound.root, sound.mapping, ?_, counted⟩
      intro definition member
      rcases Registry.mem_upsertAll member with old | ⟨raw, -, decoded⟩
      · exact sound.described definition old
      · exact ⟨raw, decoded⟩
    | dataModelUpdate id path contents value =>
      obtain ⟨data, taken, distinct⟩ :=
        surface.take_dataModelUpdate sound.mapping id path contents value
      rw [taken] at counted ⊢
      exact ⟨sound.named, sound.root, distinct, sound.described, counted⟩
    | userAction | deleteSurface =>
      exact ⟨sound.named, sound.root, sound.mapping, sound.described, counted⟩

end Surface.Sound

/-! ## All surfaces -/

namespace Processor

/-- A processor follows a history, and its surfaces are sound. -/
structure Sound (p : Processor) (history : History) : Prop where
  follows : p.Follows history
  surfaces : ∀ id surface, p.get? id = some surface → surface.Sound history

namespace Sound

variable {p : Processor} {history : History}

theorem fresh (honored : Bool) : Sound { honorDelete := honored } [] :=
  ⟨.fresh honored, fun _ _ found => by cases found⟩

theorem remove (sound : p.Sound history) (id : String) :
    (p.remove id).Sound (.removed id :: history) := by
  refine ⟨sound.follows.remove id, fun other surface found => ?_⟩
  rw [get?_remove] at found
  split at found
  · cases found
  · next apart =>
    refine (sound.surfaces other surface found).pass ?_
    rw [id_of_get? found]
    exact apart

theorem removeAll (sound : p.Sound history) (ids : List String) :
    (ids.foldr (fun id q => q.remove id) p).Sound (ids.map .removed ++ history) := by
  induction ids with
  | nil => exact sound
  | cons id ids ih => exact ih.remove id

theorem clear (sound : p.Sound history) : p.clear.Sound (p.ids.map .removed ++ history) := by
  have removed := sound.removeAll p.ids
  have same : (p.keep fun id => id ∉ p.ids) = p.clear := by
    rw [clear_eq_keep]
    exact keep_congr fun id there => by simpa using there
  rwa [foldr_remove, same] at removed

/-- A surface to which nothing happens is what it was, and one that receives a message was sound
before. -/
theorem apply (sound : p.Sound history) {message : Message} (named : message.Named) :
    (p.apply message).1.Sound ((message.event? p.honorDelete).toList ++ history) := by
  refine ⟨sound.follows.apply message, fun id surface found => ?_⟩
  have told := get?_apply p message id
  rw [found, Option.map_some] at told
  -- any other surface was there before
  have before (apart : ∀ event ∈ message.event? p.honorDelete, event.id ≠ id)
      (same : some surface.untouched = (p.get? id).map Surface.untouched) :
      surface.Sound ((message.event? p.honorDelete).toList ++ history) := by
    obtain ⟨old, there, equal⟩ := Option.map_eq_some_iff.mp same.symm
    have kept : surface.Sound history :=
      .of_untouched (equal ▸ (sound.surfaces id old there).untouched)
    cases event : message.event? p.honorDelete with
    | none => exact kept
    | some event' =>
      refine kept.pass ?_
      rw [id_of_get? found]
      exact apart event' event
  unfold Message.step at told
  split at told
  · next target =>
    have event : message.event? p.honorDelete = some (.received id message.applies) := by
      simp only [Message.event?, target]
    have old : (((p.get? id).map Surface.untouched).getD { id }).Sound history := by
      cases there : p.get? id with
      | none =>
        have absent : id ∉ p.ids := fun known => by
          rw [← get?_isSome_iff, there] at known
          cases known
        exact .new (named.target target) (sound.follows.made_eq_zero absent)
      | some surface => exact (sound.surfaces id surface there).untouched
    have own : (((p.get? id).map Surface.untouched).getD { id }).id = id := by
      cases there : p.get? id with
      | none => rfl
      | some surface =>
        have same : surface.id = id := id_of_get? there
        exact same
    have received := old.receive named
    rw [own, ← Option.some.inj told] at received
    rw [event]
    exact received.of_untouched
  · next other =>
    split at told
    · cases told
    · next kept =>
      refine before ?_ told
      rintro event happens rfl
      unfold Message.event? at happens
      split at happens
      · next target =>
        cases happens
        exact other target
      · cases honored : p.honorDelete with
        | false => simp [honored] at happens
        | true =>
          simp only [honored, ↓reduceIte, Option.mem_def, Option.map_eq_some_iff] at happens
          obtain ⟨gone, removed, rfl⟩ := happens
          exact kept ⟨honored, removed⟩

/-- Messages that were read from values leave a sound processor sound. -/
theorem process (sound : p.Sound history) (batch : List Value) :
    (p.process batch).Sound (.ofBatch p.honorDelete batch ++ history) :=
  process_of_apply (fun read before => before.apply (Message.named_of_decode? read)) sound batch

end Sound

/-! ## Runs -/

/-- What is done to a processor. -/
inductive Step
  | process (batch : List Value)
  | evict (id : String)
  | clear

def after (p : Processor) : Step → Processor
  | .process batch => p.process batch
  | .evict id => p.remove id
  | .clear => p.clear

def run (p : Processor) (steps : List Step) : Processor := steps.foldl after p

/-- What a step does to the surfaces. -/
def events (p : Processor) : Step → History
  | .process batch => .ofBatch p.honorDelete batch
  | .evict id => [.removed id]
  | .clear => p.ids.map .removed

/-- What happened along a run. -/
def history (p : Processor) : List Step → History
  | [] => []
  | step :: steps => (p.after step).history steps ++ p.events step

/-- Whether a step can remove a surface: a message that is honoured can, and so can the host. -/
def Step.removes (honored : Bool) : Step → Bool
  | .process batch => honored && (Message.among batch).any fun message => message.removed?.isSome
  | .evict _ | .clear => true

theorem Sound.after {p : Processor} {history : History} (sound : p.Sound history) (step : Step) :
    (p.after step).Sound (p.events step ++ history) := by
  cases step with
  | process batch => exact sound.process batch
  | evict id => exact sound.remove id
  | clear => exact sound.clear

theorem Sound.run {p : Processor} {history : History} (sound : p.Sound history)
    (steps : List Step) : (p.run steps).Sound (p.history steps ++ history) := by
  induction steps generalizing p history with
  | nil => exact sound
  | cons step steps ih =>
    rw [Processor.history, List.append_assoc]
    exact ih (sound.after step)

@[simp] theorem honorDelete_after (p : Processor) (step : Step) :
    (p.after step).honorDelete = p.honorDelete := by
  cases step with
  | process batch => exact p.honorDelete_process batch
  | evict id => rfl
  | clear => rfl

theorem honorDelete_run (p : Processor) (steps : List Step) :
    (p.run steps).honorDelete = p.honorDelete := by
  induction steps generalizing p with
  | nil => rfl
  | cons step steps ih => rw [run, List.foldl_cons, ← run, ih, honorDelete_after]

/-- Surfaces that nothing removes are there after a run, in their order. -/
theorem ids_prefix_run {p : Processor} {steps : List Step}
    (keeps : ∀ step ∈ steps, step.removes p.honorDelete = false) : p.ids <+: (p.run steps).ids := by
  induction steps generalizing p with
  | nil => exact List.prefix_refl _
  | cons step steps ih =>
    rw [List.forall_mem_cons] at keeps
    have first : p.ids <+: (p.after step).ids := by
      cases step with
      | process batch =>
        rw [Processor.after, process_eq]
        exact ids_prefix_applyAll keeps.1
      | evict id => cases keeps.1
      | clear => cases keeps.1
    exact first.trans (ih (by rw [honorDelete_after]; exact keeps.2))

/-- The surfaces of a processor at any time, after any batches of values, evictions and clearings.
Each is found under its own identifier, which is not empty, and its root is none or not empty; its
data model has distinct keys, and its definitions were read from entries, so that each has an
identifier and, as the one key of its component, a kind, neither of them empty. It was touched no
later than the last change, and no two surfaces were touched by one change. That it was never
touched, that its version is one, and that no message was applied to it since it came into being, is
the same. And as long as nothing removes surfaces, they stay and keep their order. -/
theorem run_sound (honored : Bool) (steps : List Step) :
    let start : Processor := { honorDelete := honored }
    let p := start.run steps
    let history := start.history steps
    (∀ surface ∈ p.surfaces,
      p.get? surface.id = some surface ∧ surface.id ≠ "" ∧ surface.root ≠ some "" ∧
      surface.data.keys.Nodup ∧
      (∀ definition ∈ surface.components, definition.id ≠ "" ∧ definition.kind ≠ "" ∧
        ∃ body, Definition.decode? (.obj body) = some definition ∧
          Entries.get? body "component" = some (.obj [(definition.kind, definition.props)])) ∧
      surface.touched ≤ p.mutations ∧
      (surface.touched = 0 ↔ history.applied surface.id = 0) ∧
      (surface.touched = 0 ↔ surface.version = 1)) ∧
    (∀ a ∈ p.surfaces, ∀ b ∈ p.surfaces, a.touched = b.touched → a.touched ≠ 0 → a = b) ∧
    ∀ more, (∀ step ∈ more, step.removes honored = false) → p.ids <+: (p.run more).ids := by
  intro start p history
  have sound : p.Sound history := by
    have whole := (Sound.fresh honored).run steps
    rwa [List.append_nil] at whole
  have own : ∀ surface ∈ p.surfaces, p.get? surface.id = some surface := fun surface member =>
    find?_of_mem sound.follows.nodup member
  refine ⟨?_, ?_, ?_⟩
  · intro surface member
    have each := sound.surfaces surface.id surface (own surface member)
    have touched := sound.follows.touched surface member
    have never : surface.touched = 0 ↔ history.applied surface.id = 0 := by
      rw [touched, History.lastChange_eq_zero_iff]
    refine ⟨own surface member, each.named, each.root, each.mapping, ?_, ?_, never, ?_⟩
    · intro definition inside
      obtain ⟨raw, decoded⟩ := each.described definition inside
      obtain ⟨body, rfl, ⟨-, named⟩, ⟨component, kind⟩, -⟩ :=
        Definition.decode?_eq_some_iff.mp decoded
      exact ⟨named, kind, body, decoded, component⟩
    · rw [touched, sound.follows.mutations]
      exact History.lastChange_le_changes ..
    · rw [never, each.counted]
      omega
  · intro a first b second same changed
    rw [sound.follows.touched a first, sound.follows.touched b second] at same
    rw [sound.follows.touched a first] at changed
    have equal := History.lastChange_inj same changed
    have found := own b second
    rw [← equal, own a first] at found
    exact Option.some.inj found
  · intro more keeps
    refine ids_prefix_run ?_
    have flag : p.honorDelete = honored := start.honorDelete_run steps
    rwa [flag]

/-- A surface whose first message gives no proper root, and one whose only message failed. -/
theorem run_sound_of_failed_update :
    let opening : Value :=
      .obj [("beginRendering", .obj [("surfaceId", .str "a"), ("root", .str "")])]
    let update := Message.numberUpdate "b" "n" (Int.pow 10 309)
    let steps : List Step := [.process [opening, update]]
    let more : List Step := [.process [opening, .null]]
    let p : Processor := run { honorDelete := true } steps
    p.surfaces = [{ id := "a", version := 2, touched := 1 }, { id := "b" }] ∧
    (∀ step ∈ more, step.removes true = false) ∧ p.ids <+: (p.run more).ids ∧
    ∀ surface ∈ p.surfaces, p.get? surface.id = some surface ∧ surface.touched ≤ p.mutations := by
  intro opening update steps more p
  let first : Processor :=
    { honorDelete := true, surfaces := [{ id := "a", version := 2, touched := 1 }], mutations := 1 }
  have opened : (Processor.receive { honorDelete := true } opening).1 = first := by decide
  have failed : first.receive update = (first.ensure "b", .failed .tooLarge) :=
    first.receive_numberUpdate (by decide) (by decide) Double.overflow_le_pow_ten
  have made : p = first.ensure "b" := by
    have both : p = ((Processor.receive { honorDelete := true } opening).1.receive update).1 := rfl
    rw [both, opened, failed]
  have keeps : ∀ step ∈ more, step.removes true = false := by
    intro step member
    obtain rfl := List.mem_singleton.mp member
    decide
  obtain ⟨sound, -, order⟩ := run_sound true steps
  refine ⟨by rw [made]; rfl, keeps, order more keeps, ?_⟩
  intro surface member
  obtain ⟨found, -, -, -, -, touched, -⟩ := sound surface member
  exact ⟨found, touched⟩

end Processor
end LiveSurface
