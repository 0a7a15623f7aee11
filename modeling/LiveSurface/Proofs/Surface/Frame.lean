import LiveSurface.Surface.Processor

/-!
# What a message changes

A message changes at most one surface, the one it is for, and what it makes of this surface is told
by the message and the surface alone: only the number of the change comes from the other surfaces
(`get?_apply`, `get?_process`). A surface that a message needs is made at the end, so that the
surfaces keep their order and stand under identifiers of their own (`ids_apply_of_target`,
`Reachable.nodup`).
-/
namespace LiveSurface

namespace Message

/-- The messages among values, in order. -/
def among (batch : List Value) : List Message := batch.filterMap decode?

/-- The surface that a message is for, also when it removes it. -/
def surfaceId? : Message → Option String
  | beginRendering id .. | surfaceUpdate id .. | dataModelUpdate id .. | deleteSurface id => some id
  | userAction .. => none

/-- The surface that a message asks to remove. -/
def removed? : Message → Option String
  | deleteSurface id => some id
  | _ => none

/-- Why a message cannot be applied, if it cannot. -/
def fault? : Message → Option ValueFault
  | dataModelUpdate _ _ contents _ =>
    match Contents.decode contents with
    | .error fault => some fault
    | .ok _ => none
  | _ => none

/-- Whether a message can be applied; one that cannot fails on every processor
(`Processor.apply_eq_failed_iff`). -/
def applies (message : Message) : Bool := message.fault?.isNone

/-- What a message writes into the data model and where, if it can be applied. -/
def write? : Message → Option (List String × Fields)
  | dataModelUpdate _ path contents value =>
    match Contents.decode contents with
    | .error _ => none
    | .ok decoded =>
      some ((path.map Path.segments).getD [], if contents.isEmpty then value.getD [] else decoded)
  | _ => none

theorem removed?_of_target {message : Message} {id : String} (target : message.target? = some id) :
    message.removed? = none := by
  cases message with
  | deleteSurface => cases target
  | _ => rfl

theorem fault?_of_no_target {message : Message} (target : message.target? = none) :
    message.fault? = none := by
  cases message with
  | dataModelUpdate => cases target
  | _ => rfl

end Message

namespace Surface

/-- A surface without the number of its last change. -/
def untouched (surface : Surface) : Surface := { surface with touched := 0 }

/-- What a message that can be applied brings to a surface. -/
def take (surface : Surface) : Message → Surface
  | .beginRendering _ root styles =>
    { surface with root := root.or surface.root, styles := styles.or surface.styles }
  | .surfaceUpdate _ components =>
    { surface with components := surface.components.upsertAll components }
  | message =>
    match message.write? with
    | some w => { surface with data := Fields.write surface.data w.1 w.2 }
    | none => surface

/-- A surface after a message for it; the version counts the messages that could be applied. -/
def receive (surface : Surface) (message : Message) : Surface :=
  if message.applies then { surface.take message with version := surface.version + 1 }
  else surface

theorem take_id (surface : Surface) (message : Message) :
    (surface.take message).id = surface.id := by
  unfold take
  split
  · rfl
  · rfl
  · split <;> rfl

theorem take_untouched (surface : Surface) (message : Message) :
    surface.untouched.take message = (surface.take message).untouched := by
  unfold take
  split
  · rfl
  · rfl
  · split <;> rfl

theorem receive_untouched (surface : Surface) (message : Message) :
    surface.untouched.receive message = (surface.receive message).untouched := by
  unfold receive
  split
  · rw [take_untouched]
    rfl
  · rfl

end Surface

/-- What a message makes of the surface with an identifier, if there is one. -/
def Message.step (honored : Bool) (id : String) (surface : Option Surface) (message : Message) :
    Option Surface :=
  if message.target? = some id then some ((surface.getD { id }).receive message)
  else if honored ∧ message.removed? = some id then none
  else surface

namespace Processor

theorem get?_isSome_iff (p : Processor) (id : String) : (p.get? id).isSome ↔ id ∈ p.ids := by
  simp [get?, ids]

@[simp] theorem get?_ensure (p : Processor) (id other : String) :
    (p.ensure id).get? other =
      if id = other then some ((p.get? id).getD { id }) else p.get? other := by
  unfold ensure
  by_cases known : id ∈ p.ids
  · obtain ⟨surface, found⟩ := Option.isSome_iff_exists.mp ((p.get?_isSome_iff id).mpr known)
    by_cases same : id = other
    · subst same
      simp [known, found]
    · simp [known, same]
  · have absent : p.get? id = none := by
      rw [← Option.not_isSome_iff_eq_none, get?_isSome_iff]
      exact known
    by_cases same : id = other
    · subst same
      simp only [get?] at absent
      simp [known, get?, absent]
    · simp [known, get?, same]

theorem id_of_get? {p : Processor} {id : String} {surface : Surface}
    (found : p.get? id = some surface) : surface.id = id := by
  simpa using List.find?_some found

@[simp] theorem mutations_ensure (p : Processor) (id : String) :
    (p.ensure id).mutations = p.mutations := by
  unfold ensure
  split <;> rfl

@[simp] theorem honorDelete_ensure (p : Processor) (id : String) :
    (p.ensure id).honorDelete = p.honorDelete := by
  unfold ensure
  split <;> rfl

theorem get?_change (p : Processor) (id other : String) (f : Surface → Surface)
    (keeps : ∀ surface, (f surface).id = surface.id) :
    (p.change id f).get? other =
      if id = other then
        some { f ((p.get? id).getD { id }) with
          version := ((p.get? id).getD { id }).version + 1, touched := p.mutations + 1 }
      else p.get? other := by
  -- a change keeps the identifiers, so that it can be made after the look-up
  have mapped : (p.change id f).get? other = ((p.ensure id).get? other).map fun s =>
      if s.id = id then { f s with version := s.version + 1, touched := p.mutations + 1 }
      else s := by
    simp only [change, get?, List.find?_map, mutations_ensure]
    congr 2
    funext s
    by_cases same : s.id = id <;> simp [same, keeps]
  rw [mapped]
  cases found : (p.ensure id).get? other with
  | none =>
    rw [get?_ensure] at found
    split at found
    · cases found
    · next apart => simp [apart, found]
  | some surface =>
    have own : surface.id = other := id_of_get? found
    rw [get?_ensure] at found
    by_cases same : id = other
    · rw [if_pos same] at found ⊢
      cases found
      subst same
      rw [Option.map_some, if_pos own]
    · rw [if_neg same] at found ⊢
      rw [found, Option.map_some, if_neg fun equal => same (equal.symm.trans own)]

@[simp] theorem get?_remove (p : Processor) (id other : String) :
    (p.remove id).get? other = if id = other then none else p.get? other := by
  simp only [remove, get?, List.find?_filter]
  by_cases same : id = other
  · simp [same]
  · rw [if_neg same]
    congr 1
    funext s
    by_cases own : s.id = other <;> simp [own, Ne.symm same]

/-- A message that can be applied changes its surface by what it brings, and one that cannot only
makes sure that the surface is there. -/
theorem apply_of_target {message : Message} {id : String} (target : message.target? = some id)
    (p : Processor) :
    p.apply message =
      match message.fault? with
      | none => (p.change id (·.take message), .applied)
      | some fault => (p.ensure id, .failed fault) := by
  cases message with
  | beginRendering | surfaceUpdate => cases target; rfl
  | dataModelUpdate _ path contents value =>
    cases target
    cases path <;> cases read : Contents.decode contents <;>
      simp [apply, Message.fault?, Surface.take, Message.write?, Surface.writeData, read]
  | userAction | deleteSurface => cases target

theorem apply_of_no_target {message : Message} (target : message.target? = none)
    (p : Processor) :
    p.apply message =
      (if p.honorDelete then (message.removed?.map p.remove).getD p else p, .ignored) := by
  cases message with
  | beginRendering | surfaceUpdate | dataModelUpdate => cases target
  | userAction => simp [apply, Message.removed?]
  | deleteSurface id => rfl

theorem apply_eq_failed_iff (p : Processor) (message : Message) (fault : ValueFault) :
    (p.apply message).2 = .failed fault ↔ message.fault? = some fault := by
  cases target : message.target? with
  | some id =>
    rw [apply_of_target target]
    cases message.fault? <;> simp
  | none =>
    simp [apply_of_no_target target, Message.fault?_of_no_target target]

@[simp] theorem honorDelete_apply (p : Processor) (message : Message) :
    (p.apply message).1.honorDelete = p.honorDelete := by
  cases target : message.target? with
  | some id =>
    rw [apply_of_target target]
    split <;> exact p.honorDelete_ensure id
  | none =>
    rw [apply_of_no_target target]
    cases message.removed? with
    | none => simp
    | some id => cases honored : p.honorDelete <;> simp [remove, honored]

/-- A message for one surface leaves the others as they are. -/
theorem get?_apply_of_ne {message : Message} {other id : String}
    (target : message.target? = some other) (apart : other ≠ id) (p : Processor) :
    (p.apply message).1.get? id = p.get? id := by
  rw [apply_of_target target]
  split
  · rw [get?_change _ _ _ _ (fun surface => surface.take_id message), if_neg apart]
  · rw [get?_ensure, if_neg apart]

/-- The surface that a message is for receives it, as a new one if it was not there. -/
theorem get?_apply_of_target {message : Message} {id : String}
    (target : message.target? = some id) (p : Processor) :
    ((p.apply message).1.get? id).map Surface.untouched =
      some ((((p.get? id).map Surface.untouched).getD { id }).receive message) := by
  have start : ((p.get? id).map Surface.untouched).getD { id } =
      ((p.get? id).getD { id }).untouched := by
    cases p.get? id <;> rfl
  rw [apply_of_target target, start, Surface.receive_untouched]
  unfold Surface.receive Message.applies
  split
  · next applies =>
    rw [applies, get?_change _ _ _ _ (fun surface => surface.take_id message), if_pos rfl]
    rfl
  · next fault failed =>
    rw [failed, get?_ensure, if_pos rfl]
    rfl

/-- A message that brings nothing to a surface can only remove it. -/
theorem get?_apply_of_no_target {message : Message} (target : message.target? = none)
    (p : Processor) (id : String) :
    (p.apply message).1.get? id =
      if p.honorDelete ∧ message.removed? = some id then none else p.get? id := by
  rw [apply_of_no_target target]
  cases message.removed? with
  | none => simp
  | some other =>
    cases p.honorDelete with
    | false => simp
    | true => simp

/-- One message makes of the surface with an identifier what its step says, whatever the other
surfaces are. -/
theorem get?_apply (p : Processor) (message : Message) (id : String) :
    ((p.apply message).1.get? id).map Surface.untouched =
      message.step p.honorDelete id ((p.get? id).map Surface.untouched) := by
  unfold Message.step
  cases target : message.target? with
  | some other =>
    by_cases same : other = id
    · subst same
      rw [if_pos rfl, get?_apply_of_target target]
    · rw [if_neg (by simpa using same), Message.removed?_of_target target, if_neg (by simp),
        get?_apply_of_ne target same]
  | none =>
    rw [if_neg nofun, get?_apply_of_no_target target]
    split <;> rfl

theorem receive_eq (p : Processor) (raw : Value) :
    (p.receive raw).1 = ((Message.decode? raw).map fun m => (p.apply m).1).getD p := by
  unfold receive
  cases Message.decode? raw <;> rfl

/-- Applies messages one after another. -/
def applyAll (p : Processor) (messages : List Message) : Processor :=
  messages.foldl (fun p message => (p.apply message).1) p

theorem applyAll_cons (p : Processor) (message : Message) (messages : List Message) :
    p.applyAll (message :: messages) = (p.apply message).1.applyAll messages := rfl

theorem applyAll_append (p : Processor) (before after : List Message) :
    p.applyAll (before ++ after) = (p.applyAll before).applyAll after := List.foldl_append

/-- Values that are no messages change nothing. -/
theorem process_eq (p : Processor) (batch : List Value) :
    p.process batch = p.applyAll (Message.among batch) := by
  rw [process, applyAll, Message.among, List.foldl_filterMap]
  congr 1
  funext p raw
  rw [receive_eq]
  cases Message.decode? raw <;> rfl

@[simp] theorem honorDelete_applyAll (p : Processor) (messages : List Message) :
    (p.applyAll messages).honorDelete = p.honorDelete := by
  induction messages generalizing p with
  | nil => rfl
  | cons message messages ih => rw [applyAll_cons, ih, honorDelete_apply]

@[simp] theorem honorDelete_process (p : Processor) (batch : List Value) :
    (p.process batch).honorDelete = p.honorDelete := by
  rw [process_eq, honorDelete_applyAll]

/-- A batch makes of the surface with an identifier what the steps of its messages say. -/
theorem get?_process (p : Processor) (batch : List Value) (id : String) :
    ((p.process batch).get? id).map Surface.untouched =
      (Message.among batch).foldl (Message.step p.honorDelete id)
        ((p.get? id).map Surface.untouched) := by
  rw [process_eq]
  generalize Message.among batch = messages
  induction messages generalizing p with
  | nil => rfl
  | cons message messages ih =>
    rw [applyAll_cons, List.foldl_cons, ih, honorDelete_apply, get?_apply]

@[simp] theorem ids_ensure (p : Processor) (id : String) :
    (p.ensure id).ids = if id ∈ p.ids then p.ids else p.ids ++ [id] := by
  unfold ensure
  split <;> simp [ids]

@[simp] theorem ids_change (p : Processor) (id : String) {f : Surface → Surface}
    (keeps : ∀ surface, (f surface).id = surface.id) :
    (p.change id f).ids = (p.ensure id).ids := by
  simp only [change, ids, List.map_map]
  refine List.map_congr_left fun surface _ => ?_
  by_cases same : surface.id = id <;> simp [same, keeps]

@[simp] theorem ids_remove (p : Processor) (id : String) :
    (p.remove id).ids = p.ids.filter (· ≠ id) := by
  simp [remove, ids, List.filter_map, Function.comp_def]

theorem ids_apply_of_target {message : Message} {id : String}
    (target : message.target? = some id) (p : Processor) :
    (p.apply message).1.ids = if id ∈ p.ids then p.ids else p.ids ++ [id] := by
  rw [apply_of_target target]
  split
  · rw [ids_change _ _ (fun surface => surface.take_id message), ids_ensure]
  · rw [ids_ensure]

/-- The processors that come about from a fresh one. -/
inductive Reachable : Processor → Prop
  | fresh (honored : Bool) : Reachable { honorDelete := honored }
  | received {p : Processor} (reached : Reachable p) (raw : Value) : Reachable (p.receive raw).1
  | evicted {p : Processor} (reached : Reachable p) (id : String) : Reachable (p.remove id)
  | cleared {p : Processor} (reached : Reachable p) : Reachable p.clear

theorem Reachable.process {p : Processor} (reached : p.Reachable) (batch : List Value) :
    (p.process batch).Reachable := by
  induction batch generalizing p with
  | nil => exact reached
  | cons raw batch ih => exact ih (reached.received raw)

theorem nodup_apply {p : Processor} (distinct : p.ids.Nodup) (message : Message) :
    (p.apply message).1.ids.Nodup := by
  cases target : message.target? with
  | some id =>
    rw [ids_apply_of_target target]
    split
    · exact distinct
    · next new => exact List.nodup_append.mpr ⟨distinct, by simp, by grind⟩
  | none =>
    rw [apply_of_no_target target]
    cases message.removed? with
    | none => simpa using distinct
    | some id =>
      cases p.honorDelete with
      | false => exact distinct
      | true =>
        rw [if_pos rfl, Option.map_some, Option.getD_some, ids_remove]
        exact distinct.filter _

/-- No two surfaces have the same identifier. -/
theorem Reachable.nodup {p : Processor} (reached : p.Reachable) : p.ids.Nodup := by
  induction reached with
  | fresh honored => exact List.nodup_nil
  | received reached raw distinct =>
    rw [receive_eq]
    cases Message.decode? raw with
    | none => exact distinct
    | some message => exact nodup_apply distinct message
  | evicted reached id distinct =>
    rw [ids_remove]
    exact distinct.filter _
  | cleared => exact List.nodup_nil

end Processor
end LiveSurface
