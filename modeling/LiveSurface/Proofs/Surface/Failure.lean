import LiveSurface.Proofs.Data.Skipping
import LiveSurface.Proofs.Surface.Frame

/-!
# Messages that fail

A message fails only over a number in its data that binary64 has no room for. It then brings
nothing to any surface, and no change is counted, but the surface that it is for is there
afterwards, as a fresh one if it was not there before (`receive_of_failed`). Over a whole batch the
failed messages leave no other trace.
-/
namespace LiveSurface

namespace Message

/-- Whether a value is a message that cannot be applied. -/
def fails (raw : Value) : Bool := ((decode? raw).bind fault?).isSome

/-- Only data that cannot be read makes a message fail. -/
theorem update_of_fault? {raw : Value} {fault : ValueFault}
    (faulty : (decode? raw).bind fault? = some fault) :
    ∃ id path contents value, decode? raw = some (.dataModelUpdate id path contents value) ∧
      Contents.decode contents = .error fault := by
  obtain ⟨message, decoded, found⟩ := Option.bind_eq_some_iff.mp faulty
  cases message with
  | dataModelUpdate id path contents value =>
    refine ⟨id, path, contents, value, decoded, ?_⟩
    cases read : Contents.decode contents <;> simp_all [fault?]
  | _ => cases found

/-- The update of a surface by a single number. -/
def numberUpdate (id key : String) (n : Int) : Value :=
  .obj [("dataModelUpdate", .obj [("surfaceId", .str id),
    ("contents", .list [.obj [("key", .str key), ("valueNumber", .int n)]])])]

theorem decode?_numberUpdate {id : String} (named : id ≠ "") (key : String) (n : Int) :
    decode? (numberUpdate id key n) =
      some (.dataModelUpdate id none [.obj [("key", .str key), ("valueNumber", .int n)]] none) := by
  have tagged : decode? (numberUpdate id key n) = Validation.leniently readDataModelUpdate
      [("surfaceId", .str id),
        ("contents", .list [.obj [("key", .str key), ("valueNumber", .int n)]])] := rfl
  have surface : Validation.nonEmpty (.str id) = .valid id := if_neg named
  rw [tagged, Validation.leniently, readDataModelUpdate, Validation.required]
  simp only [Entries.get?, ↓reduceIte, surface]
  rfl

end Message

namespace Processor

theorem receive_of_decode? {raw : Value} {message : Message}
    (decoded : Message.decode? raw = some message) (p : Processor) :
    p.receive raw = p.apply message := by
  rw [receive, decoded]

/-- Whether a message fails is told by the message alone. -/
theorem receive_eq_failed_iff (p : Processor) (raw : Value) (fault : ValueFault) :
    (p.receive raw).2 = .failed fault ↔ (Message.decode? raw).bind Message.fault? = some fault := by
  cases decoded : Message.decode? raw with
  | none => simp [receive, decoded]
  | some message => rw [receive_of_decode? decoded, apply_eq_failed_iff, Option.bind_some]

theorem ensure_eq (p : Processor) (id : String) :
    p.ensure id = { p with surfaces := p.surfaces ++ if id ∈ p.ids then [] else [{ id }] } := by
  unfold ensure
  split <;> simp

theorem ensure_eq_self_iff (p : Processor) (id : String) : p.ensure id = p ↔ id ∈ p.ids := by
  constructor
  · intro same
    have ids := congrArg Processor.ids same
    rw [ids_ensure] at ids
    split at ids
    · next known => exact known
    · simp at ids
  · intro known
    rw [Processor.ensure, if_pos known]

/-- A message that fails ensures its surface and does nothing else. -/
theorem apply_of_failed {id : String} {path : Option String} {contents : List Value}
    {value : Option Fields} {fault : ValueFault}
    (unread : Contents.decode contents = .error fault) (p : Processor) :
    p.apply (.dataModelUpdate id path contents value) = (p.ensure id, .failed fault) := by
  rw [apply, unread]

theorem receive_numberUpdate (p : Processor) {id key : String} (named : id ≠ "") (keyed : key ≠ "")
    {n : Int} (large : Double.overflow ≤ n.natAbs) :
    p.receive (Message.numberUpdate id key n) = (p.ensure id, .failed .tooLarge) := by
  have unread := (Contents.decode_number_iff keyed n).mpr large
  rw [receive_of_decode? (Message.decode?_numberUpdate named key n), apply_of_failed unread]

/-- A processor that is as another one is, but for fresh surfaces that the other one does not
have. -/
structure SameButFresh (p q : Processor) : Prop where
  honorDelete : p.honorDelete = q.honorDelete
  mutations : p.mutations = q.mutations
  surface : ∀ id, p.get? id = q.get? id ∨ (q.get? id = none ∧ p.get? id = some { id })

namespace SameButFresh

variable {p q : Processor}

theorem refl (p : Processor) : p.SameButFresh p := ⟨rfl, rfl, fun _ => .inl rfl⟩

theorem getD_eq (same : p.SameButFresh q) (id : String) :
    (p.get? id).getD { id } = (q.get? id).getD { id } := by
  rcases same.surface id with equal | ⟨absent, fresh⟩
  · rw [equal]
  · rw [absent, fresh]
    rfl

theorem ensure (same : p.SameButFresh q) (id : String) : (p.ensure id).SameButFresh q where
  honorDelete := (p.honorDelete_ensure id).trans same.honorDelete
  mutations := (p.mutations_ensure id).trans same.mutations
  surface other := by
    rw [get?_ensure]
    split
    · next own =>
      subst own
      rw [same.getD_eq]
      cases q.get? id with
      | none => exact .inr ⟨rfl, rfl⟩
      | some surface => exact .inl rfl
    · exact same.surface other

theorem change (same : p.SameButFresh q) (id : String) {f : Surface → Surface}
    (keeps : ∀ surface, (f surface).id = surface.id) :
    (p.change id f).SameButFresh (q.change id f) where
  honorDelete := by simp [Processor.change, same.honorDelete]
  mutations := by simp [Processor.change, same.mutations]
  surface other := by
    rw [get?_change p _ _ _ keeps, get?_change q _ _ _ keeps]
    split
    · rw [same.getD_eq, same.mutations]
      exact .inl rfl
    · exact same.surface other

theorem remove (same : p.SameButFresh q) (id : String) :
    (p.remove id).SameButFresh (q.remove id) where
  honorDelete := same.honorDelete
  mutations := same.mutations
  surface other := by
    rw [get?_remove, get?_remove]
    split
    · exact .inl rfl
    · exact same.surface other

theorem apply (same : p.SameButFresh q) {message : Message} (applies : message.fault? = none) :
    (p.apply message).1.SameButFresh (q.apply message).1 := by
  cases target : message.target? with
  | some id =>
    rw [apply_of_target target, apply_of_target target, applies]
    exact same.change id fun surface => surface.take_id message
  | none =>
    rw [apply_of_no_target target, apply_of_no_target target, same.honorDelete]
    cases message.removed? with
    | none => simpa using same
    | some id =>
      cases q.honorDelete with
      | false => exact same
      | true => exact same.remove id

theorem receive (same : p.SameButFresh q) {raw : Value} (applies : Message.fails raw = false) :
    (p.receive raw).1.SameButFresh (q.receive raw).1 := by
  cases decoded : Message.decode? raw with
  | none => simpa [Processor.receive, decoded] using same
  | some message =>
    rw [receive_of_decode? decoded, receive_of_decode? decoded]
    refine same.apply ?_
    simpa [Message.fails, decoded] using applies

theorem receive_of_fails (same : p.SameButFresh q) {raw : Value} (failed : Message.fails raw) :
    (p.receive raw).1.SameButFresh q := by
  obtain ⟨fault, found⟩ := Option.isSome_iff_exists.mp failed
  obtain ⟨id, path, contents, value, decoded, unread⟩ := Message.update_of_fault? found
  rw [receive_of_decode? decoded, apply_of_failed unread]
  exact same.ensure id

/-- Failed messages can be left out of a batch. -/
theorem process_filter (same : p.SameButFresh q) (batch : List Value) :
    (p.process batch).SameButFresh (q.process (batch.filter fun raw => !Message.fails raw)) := by
  induction batch generalizing p q with
  | nil => exact same
  | cons raw batch ih =>
    cases fails : Message.fails raw with
    | true =>
      rw [List.filter_cons_of_neg (by simp [fails])]
      exact ih (same.receive_of_fails fails)
    | false =>
      rw [List.filter_cons_of_pos (by simp [fails])]
      exact ih (same.receive fails)

end SameButFresh

/-- A message that fails brings nothing to any surface. It is an update of data with a number that
cannot be read, and afterwards all surfaces are there as they were, in their order, and no change is
counted; only the surface that it is for is made, so that nothing at all happens exactly if that
surface was there. A batch does the same as without its failed messages, but for fresh surfaces that
they were for. -/
theorem receive_of_failed (p : Processor) :
    (∀ raw fault, (p.receive raw).2 = .failed fault →
      fault = .tooLarge ∧ ∃ id path contents value,
        Message.decode? raw = some (.dataModelUpdate id path contents value) ∧
        Contents.decode contents = .error .tooLarge ∧
        (p.receive raw).1 =
          { p with surfaces := p.surfaces ++ if id ∈ p.ids then [] else [{ id }] } ∧
        ((p.receive raw).1 = p ↔ id ∈ p.ids)) ∧
    ∀ batch, (p.process batch).SameButFresh
      (p.process (batch.filter fun raw => !Message.fails raw)) := by
  refine ⟨?_, (SameButFresh.refl p).process_filter⟩
  intro raw fault failed
  rw [receive_eq_failed_iff] at failed
  obtain ⟨id, path, contents, value, decoded, unread⟩ := Message.update_of_fault? failed
  obtain ⟨rfl, -⟩ := (Contents.decode_eq_error_iff _ _).mp unread
  refine ⟨rfl, id, path, contents, value, decoded, unread, ?_⟩
  rw [receive_of_decode? decoded, apply_of_failed unread]
  exact ⟨p.ensure_eq id, p.ensure_eq_self_iff id⟩

/-- An update that fails for a surface that is there leaves it as it is. -/
theorem receive_of_failed_of_known :
    let surface : Surface := { id := "s", data := [("a", .bool true)], version := 2, touched := 1 }
    let p : Processor := { honorDelete := true, surfaces := [surface], mutations := 1 }
    let update := Message.numberUpdate "s" "n" (Int.pow 10 309)
    (p.receive update).2 = .failed .tooLarge ∧ (p.receive update).1 = p := by
  intro surface p update
  have received : p.receive update = (p.ensure "s", .failed .tooLarge) :=
    p.receive_numberUpdate (by decide) (by decide) Double.overflow_le_pow_ten
  have failed : (p.receive update).2 = .failed .tooLarge := congrArg Prod.snd received
  refine ⟨failed, ?_⟩
  obtain ⟨-, id, path, contents, value, decoded, -, -, unchanged⟩ :=
    (receive_of_failed p).1 update _ failed
  have message := Message.decode?_numberUpdate (show "s" ≠ "" by decide) "n" (Int.pow 10 309)
  cases message.symm.trans decoded
  exact unchanged.mpr (by decide)

/-- A fresh processor has a surface after an update that failed. -/
theorem receive_of_failed_of_new :
    let p : Processor := { honorDelete := false }
    let update := Message.numberUpdate "s" "n" (Int.pow 10 309)
    p.Reachable ∧ (p.receive update).2 = .failed .tooLarge ∧ (p.receive update).1 ≠ p ∧
      (p.receive update).1.surfaces = [{ id := "s" }] := by
  intro p update
  have received : p.receive update = (p.ensure "s", .failed .tooLarge) :=
    p.receive_numberUpdate (by decide) (by decide) Double.overflow_le_pow_ten
  rw [received]
  exact ⟨.fresh false, rfl, by decide, rfl⟩

end Processor
end LiveSurface
