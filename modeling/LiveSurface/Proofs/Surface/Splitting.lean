import LiveSurface.Proofs.Data.Skipping
import LiveSurface.Proofs.Surface.Making
import LiveSurface.Proofs.Surface.Replay

/-!
# Updates in pieces

The components of one message, or its entries of data for the root, may as well come in two messages
one after the other: every surface is the same afterwards, and stays the same under all further
messages. Only the counts of changes tell the two apart (`process_split`). This rests on two facts:
changes of one surface compose, and no message sees the counts.
-/
namespace LiveSurface

namespace Contents

/-- Data that is put at the root is put there field by field. -/
theorem write_decoded {entries : List Value} {decoded : Fields}
    (read : decode entries = .ok decoded) (data : Fields) :
    Fields.write data [] decoded = Entries.update data (entries.filterMap given?) := by
  rw [decode_eq] at read
  split at read
  · cases read
  · cases read
    have empty : (Entries.keys ([] : Fields)).Nodup := List.nodup_nil
    exact Entries.update_update data empty _

end Contents

namespace Surface

theorem uncounted_take (surface : Surface) (message : Message) :
    (surface.uncounted.take message).uncounted = (surface.take message).uncounted :=
  (congrArg uncounted (take_counted surface message 1 0)).trans rfl

theorem take_contents (surface : Surface) {id : String} {path : Option String}
    (root : (path.map Path.segments).getD [] = []) {entries : List Value} {decoded : Fields}
    (read : Contents.decode entries = .ok decoded) :
    surface.take (.dataModelUpdate id path entries none) =
      { surface with
        data := Entries.update surface.data (entries.filterMap Contents.given?) } := by
  have payload : (if entries.isEmpty then (none : Option Fields).getD [] else decoded) =
      decoded := by
    cases entries with
    | nil => cases read; rfl
    | cons entry rest => rfl
  simp only [take, Message.write?, read, payload, root, Contents.write_decoded read]

/-- A message brings a surface what two others bring it one after the other. -/
def Brings (whole first second : Message) : Prop :=
  ∀ surface : Surface, surface.take whole = (surface.take first).take second

theorem brings_components (id : String) (xs ys : List Value) :
    Brings (.surfaceUpdate id (xs ++ ys)) (.surfaceUpdate id xs) (.surfaceUpdate id ys) := by
  intro surface
  simp only [take, Registry.upsertAll_append]

theorem brings_contents (id : String) {path path₁ path₂ : Option String}
    (root : (path.map Path.segments).getD [] = [])
    (root₁ : (path₁.map Path.segments).getD [] = [])
    (root₂ : (path₂.map Path.segments).getD [] = []) {xs ys : List Value} {before after : Fields}
    (readFirst : Contents.decode xs = .ok before) (readSecond : Contents.decode ys = .ok after) :
    Brings (.dataModelUpdate id path (xs ++ ys) none) (.dataModelUpdate id path₁ xs none)
      (.dataModelUpdate id path₂ ys none) := by
  intro surface
  have readWhole : Contents.decode (xs ++ ys) = .ok (Entries.update before after) :=
    Contents.decode_append_eq_ok_iff.mpr ⟨before, after, readFirst, readSecond, rfl⟩
  rw [take_contents surface root readWhole, take_contents surface root₁ readFirst,
    take_contents _ root₂ readSecond, List.filterMap_append, Entries.update_append]

end Surface

namespace Processor

/-- Processors that differ in nothing but the counts of changes. -/
structure SameButCounts (p q : Processor) : Prop where
  honorDelete : p.honorDelete = q.honorDelete
  surfaces : p.surfaces.map Surface.uncounted = q.surfaces.map Surface.uncounted

/-- A surface under its identifier, with a change made to it. -/
def changed (id : String) (f : Surface → Surface) (surface : Surface) : Surface :=
  if surface.id = id then (f surface).uncounted else surface.uncounted

theorem uncounted_change (p : Processor) (id : String) (f : Surface → Surface) :
    (p.change id f).surfaces.map Surface.uncounted = (p.ensure id).surfaces.map (changed id f) := by
  simp only [change, List.map_map]
  refine List.map_congr_left fun surface _ => ?_
  by_cases own : surface.id = id <;> simp [changed, own, Surface.uncounted]

/-- A change that does not see the counts finds the same surfaces without them. -/
theorem map_changed_uncounted (id : String) {f : Surface → Surface}
    (blind : ∀ surface, (f surface.uncounted).uncounted = (f surface).uncounted)
    (surfaces : List Surface) :
    (surfaces.map Surface.uncounted).map (changed id f) = surfaces.map (changed id f) := by
  rw [List.map_map]
  refine List.map_congr_left fun surface _ => ?_
  have same : surface.uncounted.id = surface.id := rfl
  simp only [Function.comp, changed, same, blind]
  rfl

theorem ensure_ensured (p : Processor) {id : String} (known : id ∈ p.ids) : p.ensure id = p :=
  if_pos known

/-- Two changes of one surface are one change. -/
theorem change_change (p : Processor) (id : String) {f g : Surface → Surface}
    (keeps : ∀ surface, (f surface).id = surface.id)
    (blind : ∀ surface, (g surface.uncounted).uncounted = (g surface).uncounted) :
    (p.change id (g ∘ f)).SameButCounts ((p.change id f).change id g) where
  honorDelete := by simp [change]
  surfaces := by
    have known : id ∈ (p.change id f).ids := by
      rw [ids_change p id keeps, ids_ensure]
      split
      · next known => exact known
      · simp
    rw [uncounted_change, uncounted_change, ensure_ensured _ known,
      ← map_changed_uncounted id blind, uncounted_change, List.map_map]
    refine List.map_congr_left fun surface _ => ?_
    by_cases own : surface.id = id
    · have kept : (f surface).uncounted.id = id := (keeps surface).trans own
      simp [changed, own, kept, blind]
    · simp [changed, own, Surface.uncounted]

namespace SameButCounts

variable {p q : Processor}

theorem ids (same : p.SameButCounts q) : p.ids = q.ids := by
  have names (r : Processor) : r.ids = (r.surfaces.map Surface.uncounted).map (·.id) := by
    rw [List.map_map]
    rfl
  rw [names, names, same.surfaces]

theorem ensure (same : p.SameButCounts q) (id : String) :
    (p.ensure id).SameButCounts (q.ensure id) := by
  unfold Processor.ensure
  rw [same.ids]
  split
  · exact same
  · exact ⟨same.honorDelete, by simp [same.surfaces]⟩

theorem change (same : p.SameButCounts q) (id : String) {f : Surface → Surface}
    (blind : ∀ surface, (f surface.uncounted).uncounted = (f surface).uncounted) :
    (p.change id f).SameButCounts (q.change id f) where
  honorDelete := by simp [Processor.change, same.honorDelete]
  surfaces := by
    rw [uncounted_change, uncounted_change, ← map_changed_uncounted id blind,
      (same.ensure id).surfaces, map_changed_uncounted id blind]

theorem remove (same : p.SameButCounts q) (id : String) :
    (p.remove id).SameButCounts (q.remove id) where
  honorDelete := same.honorDelete
  surfaces := by
    have kept (r : Processor) : (r.remove id).surfaces.map Surface.uncounted =
        (r.surfaces.map Surface.uncounted).filter fun surface => surface.id ≠ id := by
      rw [List.filter_map]
      rfl
    rw [kept, kept, same.surfaces]

theorem apply (same : p.SameButCounts q) (message : Message) :
    (p.apply message).1.SameButCounts (q.apply message).1 := by
  cases target : message.target? with
  | some id =>
    rw [apply_of_target target, apply_of_target target]
    cases message.fault? with
    | none => exact same.change id fun surface => surface.uncounted_take message
    | some fault => exact same.ensure id
  | none =>
    rw [apply_of_no_target target, apply_of_no_target target, same.honorDelete]
    cases message.removed? with
    | none => simpa using same
    | some id =>
      cases q.honorDelete with
      | false => exact same
      | true => exact same.remove id

theorem applyAll (same : p.SameButCounts q) (messages : List Message) :
    (p.applyAll messages).SameButCounts (q.applyAll messages) := by
  induction messages generalizing p q with
  | nil => exact same
  | cons message messages ih => exact ih (same.apply message)

theorem process (same : p.SameButCounts q) (batch : List Value) :
    (p.process batch).SameButCounts (q.process batch) := by
  rw [process_eq, process_eq]
  exact same.applyAll _

end SameButCounts

/-- A message that brings what two others bring can be replaced by them. -/
theorem apply_split {whole first second : Message} {id : String}
    (brings : Surface.Brings whole first second) (targets : ∀ message ∈ [whole, first, second],
      message.target? = some id ∧ message.fault? = none) (p : Processor) :
    (p.apply whole).1.SameButCounts ((p.apply first).1.apply second).1 := by
  simp only [List.forall_mem_cons] at targets
  obtain ⟨⟨target, applies⟩, ⟨target₁, applies₁⟩, ⟨target₂, applies₂⟩, -⟩ := targets
  have composed : (Surface.take · whole) = (Surface.take · second) ∘ (Surface.take · first) :=
    funext brings
  rw [apply_of_target target, apply_of_target target₁, apply_of_target target₂, applies, applies₁,
    applies₂]
  simp only [composed]
  exact p.change_change id (fun surface => surface.take_id first)
    fun surface => surface.uncounted_take second

/-- In any batch a message that brings what two others bring can be replaced by them. -/
theorem process_replaced (id : String) {whole first second : Value}
    {message message₁ message₂ : Message} (decoded : Message.decode? whole = some message)
    (decoded₁ : Message.decode? first = some message₁)
    (decoded₂ : Message.decode? second = some message₂)
    (brings : Surface.Brings message message₁ message₂)
    (targets : ∀ other ∈ [message, message₁, message₂],
      other.target? = some id ∧ other.fault? = none) (p : Processor) (before after : List Value) :
    (p.process (before ++ whole :: after)).SameButCounts
      (p.process (before ++ first :: second :: after)) := by
  have single : (p.process before).receive whole = (p.process before).apply message := by
    rw [receive, decoded]
  have double (q : Processor) : ((q.receive first).1.receive second).1 =
      ((q.apply message₁).1.apply message₂).1 := by
    simp only [receive, decoded₁, decoded₂]
  rw [process, process, List.foldl_append, List.foldl_append]
  simp only [List.foldl_cons]
  refine SameButCounts.process ?_ after
  exact (single ▸ double (p.process before) ▸ apply_split brings targets (p.process before))

/-- An update may come in two pieces. The components of a message, or its entries of data for the
root where none of them stops the reading, leave every surface as they do when the message is
replaced, anywhere in a batch, by one with the first part of them followed by one with the rest. -/
theorem process_split (p : Processor) (before after : List Value) {whole first second : Value}
    {id : String} (xs ys : List Value) :
    (Message.decode? whole = some (.surfaceUpdate id (xs ++ ys)) →
      Message.decode? first = some (.surfaceUpdate id xs) →
      Message.decode? second = some (.surfaceUpdate id ys) →
      (p.process (before ++ whole :: after)).SameButCounts
        (p.process (before ++ first :: second :: after))) ∧
    ∀ path path₁ path₂ : Option String, (∀ other ∈ [path, path₁, path₂],
        (other.map Path.segments).getD [] = []) →
      Message.decode? whole = some (.dataModelUpdate id path (xs ++ ys) none) →
      Message.decode? first = some (.dataModelUpdate id path₁ xs none) →
      Message.decode? second = some (.dataModelUpdate id path₂ ys none) →
      (∃ decoded, Contents.decode xs = .ok decoded) →
      (∃ decoded, Contents.decode ys = .ok decoded) →
      (p.process (before ++ whole :: after)).SameButCounts
        (p.process (before ++ first :: second :: after)) := by
  refine ⟨fun decoded decoded₁ decoded₂ => ?_, ?_⟩
  · refine process_replaced id decoded decoded₁ decoded₂ (Surface.brings_components id xs ys) ?_ p
      before after
    simp [Message.target?, Message.fault?]
  · rintro path path₁ path₂ roots decoded decoded₁ decoded₂ ⟨earlier, read₁⟩ ⟨later, read₂⟩
    simp only [List.forall_mem_cons] at roots
    obtain ⟨root, root₁, root₂, -⟩ := roots
    have read : Contents.decode (xs ++ ys) = .ok (Entries.update earlier later) :=
      Contents.decode_append_eq_ok_iff.mpr ⟨earlier, later, read₁, read₂, rfl⟩
    refine process_replaced id decoded decoded₁ decoded₂
      (Surface.brings_contents id root root₁ root₂ read₁ read₂) ?_ p before after
    simp [Message.target?, Message.fault?, read, read₁, read₂]

/-- Pieces that repeat identifiers and keys of one another, with entries among them that are passed
over. -/
theorem process_split_of_repeated :
    let component (id kind : String) : Value :=
      .obj [("id", .str id), ("component", .obj [(kind, .null)])]
    let entry (key value : String) : Value :=
      .obj [("key", .str key), ("valueString", .str value)]
    let update (entries : List Value) : Value :=
      .obj [("surfaceUpdate", .obj [("surfaceId", .str "s"), ("components", .list entries)])]
    let write (path : Fields) (entries : List Value) : Value :=
      .obj [("dataModelUpdate",
        .obj (("surfaceId", .str "s") :: path ++ [("contents", .list entries)]))]
    let first := [component "a" "Row", .null, component "b" "Card"]
    let second := [component "a" "Text", component "c" "Icon"]
    let earlier := [entry "m" "1", entry "" "2", entry "n" "3"]
    let later := [entry "m" "4", entry "k" "5"]
    let root : Fields := [("path", .str "/")]
    let p : Processor := { honorDelete := false }
    (p.process [update (first ++ second)]).SameButCounts
        (p.process [update first, update second]) ∧
      (p.process [write [] (earlier ++ later)]).SameButCounts
        (p.process [write root earlier, write [] later]) ∧
      (p.process [update (first ++ second)]).surfaces.map (·.components.kinds) =
        [["Text", "Card", "Icon"]] ∧
      (p.process [write [] (earlier ++ later)]).surfaces.map (·.data) =
        [[("m", .str "4"), ("n", .str "3"), ("k", .str "5")]] := by
  intro component entry update write first second earlier later root p
  have components := (@process_split p [] [] (update (first ++ second)) (update first)
    (update second) "s" first second).1 (by decide) (by decide) (by decide)
  have contents := (@process_split p [] [] (write [] (earlier ++ later)) (write root earlier)
    (write [] later) "s" earlier later).2 none (some "/") none (by decide) (by decide) (by decide)
    (by decide)
    ⟨[("m", .str "1"), ("n", .str "3")], by decide⟩
    ⟨[("m", .str "4"), ("k", .str "5")], by decide⟩
  exact ⟨components, contents, by decide, by decide⟩

end Processor
end LiveSurface
