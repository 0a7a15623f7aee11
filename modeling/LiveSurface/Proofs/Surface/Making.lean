import LiveSurface.Outbound.Messages
import LiveSurface.Proofs.Data.Skipping
import LiveSurface.Proofs.Data.Transfer
import LiveSurface.Proofs.Surface.Frame
import LiveSurface.Proofs.Validation.Decoding

/-!
# Surfaces made from messages

A fresh processor that is given messages for one surface has this surface and no other. The surface
is what the messages bring, one after another, to an empty one, and its counts tell how many they
were (`process_fresh`).
-/
namespace LiveSurface

open Validation Outbound

/-- Entries with keys of their own are added one after another. -/
theorem Entries.update_of_nodup {α : Type} {entries more : Entries α}
    (distinct : (keys (entries ++ more)).Nodup) : update entries more = entries ++ more := by
  induction more generalizing entries with
  | nil => exact (List.append_nil entries).symm
  | cons entry rest ih =>
    obtain ⟨key, v⟩ := entry
    have grouped : entries ++ (key, v) :: rest = (entries ++ [(key, v)]) ++ rest := by simp
    have new : key ∉ keys entries := by
      intro member
      rw [keys, List.map_append, List.map_cons, List.nodup_append] at distinct
      exact distinct.2.2 _ member _ List.mem_cons_self rfl
    rw [grouped] at distinct ⊢
    rw [update_cons, set_of_not_mem new, ih distinct]

namespace Message

theorem decode?_tagged {form : String × (Fields → Option Message)} (member : form ∈ forms)
    (body : Fields) : decode? (tagged form.1 body) = form.2 body := by
  have picked : forms.find? (fun other => Entries.has [(form.1, Value.obj body)] other.1) =
      some form := by
    simp only [forms, List.mem_cons, List.not_mem_nil, or_false] at member
    rcases member with rfl | rfl | rfl | rfl | rfl <;> rfl
  have found : Entries.get? [(form.1, Value.obj body)] form.1 = some (.obj body) := by
    simp [Entries.get?]
  refine Option.ext fun message => ?_
  rw [decode?_eq_some_iff]
  constructor
  · rintro ⟨fields, other, inside, same, picked', found', made⟩
    cases same
    cases picked.symm.trans picked'
    cases found.symm.trans found'
    exact made
  · intro made
    exact ⟨_, form, body, rfl, picked, found, made⟩

variable {body : Fields} {id : String}

theorem decode?_beginRendering (found : Entries.get? body "surfaceId" = some (.str id))
    (named : id ≠ "") :
    decode? (tagged "beginRendering" body) =
      some (beginRendering id (givenOr "root" (nullable nonEmpty) none body)
        (givenOr "styles" (nullable (record Styles.read)) none body)) := by
  have made : decode? (tagged "beginRendering" body) = forms[0].2 body :=
    @decode?_tagged forms[0] (List.getElem_mem _) body
  simp [made, forms, given?_nonEmpty_eq_some_iff.mpr ⟨found, named⟩]

theorem decode?_surfaceUpdate (named : id ≠ "") (entries : List Value) :
    decode? (tagged "surfaceUpdate" [("surfaceId", .str id), ("components", .list entries)]) =
      some (surfaceUpdate id entries) := by
  let body : Fields := [("surfaceId", .str id), ("components", .list entries)]
  have found : Entries.get? body "surfaceId" = some (.str id) := by simp [body, Entries.get?]
  have made : decode? (tagged "surfaceUpdate" body) = forms[1].2 body :=
    @decode?_tagged forms[1] (List.getElem_mem _) body
  have brought : givenOr "components" anyList [] body = entries := by
    simp [body, givenOr, given?, Entries.get?, anyList]
  simp [made, body, forms, given?_nonEmpty_eq_some_iff.mpr ⟨found, named⟩, brought]

theorem decode?_dataModelUpdate (found : Entries.get? body "surfaceId" = some (.str id))
    (named : id ≠ "") :
    decode? (tagged "dataModelUpdate" body) =
      some (dataModelUpdate id (givenOr "path" (nullable text) none body)
        (givenOr "contents" anyList [] body) (givenOr "value" (nullable object) none body)) := by
  have made : decode? (tagged "dataModelUpdate" body) = forms[2].2 body :=
    @decode?_tagged forms[2] (List.getElem_mem _) body
  simp [made, forms, given?_nonEmpty_eq_some_iff.mpr ⟨found, named⟩]

end Message

namespace Surface

theorem take_counted (surface : Surface) (message : Message) (version touched : Nat) :
    { surface with version, touched }.take message =
      { surface.take message with version, touched } := by
  unfold take
  split
  · rfl
  · rfl
  · split <;> rfl

end Surface

namespace Processor

/-- A processor with one surface, to which all changes were made. -/
def single (honored : Bool) (surface : Surface) (changes : Nat) : Processor where
  honorDelete := honored
  surfaces := [{ surface with version := changes + 1, touched := changes }]
  mutations := changes

variable {honored : Bool} {surface : Surface} {changes : Nat} {message : Message}

theorem apply_single (target : message.target? = some surface.id)
    (applies : message.fault? = none) :
    ((single honored surface changes).apply message).1 =
      single honored (surface.take message) (changes + 1) := by
  have known : (single honored surface changes).ensure surface.id =
      single honored surface changes := by simp [ensure, ids, single]
  rw [apply_of_target target, applies]
  simp only [change, known]
  simp [single, Surface.take_counted]

/-- The first message for a surface finds it empty. -/
theorem apply_fresh {id : String} (target : message.target? = some id) :
    Processor.apply { honorDelete := honored } message =
      (single honored { id } 0).apply message := by
  have made : (single honored { id } 0).ensure id = ensure { honorDelete := honored } id := by
    simp [ensure, ids, single]
  rw [apply_of_target target, apply_of_target target]
  simp only [change, made]

theorem applyAll_single {messages : List Message}
    (each : ∀ message ∈ messages, message.target? = some surface.id ∧ message.fault? = none) :
    (single honored surface changes).applyAll messages =
      single honored (messages.foldl Surface.take surface) (changes + messages.length) := by
  induction messages generalizing surface changes with
  | nil => rfl
  | cons message rest ih =>
    rw [List.forall_mem_cons] at each
    have first := @apply_single honored _ changes _ each.1.1 each.1.2
    have later : ∀ other ∈ rest,
        other.target? = some (surface.take message).id ∧ other.fault? = none := by
      rw [Surface.take_id]
      exact each.2
    rw [applyAll_cons, first, ih later, List.foldl_cons, List.length_cons, Nat.add_assoc,
      Nat.add_comm 1]

/-- A fresh processor makes one surface of messages for it that can all be applied. -/
theorem process_fresh (honored : Bool) {id : String} {batch : List Value}
    (messages : Message.among batch ≠ [])
    (each : ∀ message ∈ Message.among batch,
      message.target? = some id ∧ message.fault? = none) :
    process { honorDelete := honored } batch =
      single honored ((Message.among batch).foldl Surface.take { id })
        (Message.among batch).length := by
  rw [process_eq]
  generalize Message.among batch = read at messages each
  cases read with
  | nil => exact absurd rfl messages
  | cons message rest =>
    have first : message.target? = some id := (each message List.mem_cons_self).1
    have whole := @applyAll_single honored { id } 0 (message :: rest) each
    rw [Nat.zero_add] at whole
    rw [applyAll_cons, apply_fresh first, ← applyAll_cons, whole]

end Processor
end LiveSurface
