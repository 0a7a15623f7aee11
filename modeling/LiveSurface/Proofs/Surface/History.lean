import LiveSurface.Proofs.Surface.Frame

/-!
# Histories of surfaces

What happened to surfaces, event by event: a message for a surface came, which could be applied or
not, or a surface was removed. A history alone tells which surfaces are there, in which order they
came into being, and after how many changes each was changed last. A processor follows the history
of what it did (`Follows.process`, `Follows.keep`), so that the number which a surface remembers of
its last change is the time of that change.
-/
namespace LiveSurface

/-- What happens to a surface. -/
inductive Event
  /-- A message for the surface came. It makes the surface where there is none, and it changes the
  surface if it can be applied. -/
  | received (id : String) (applied : Bool)
  /-- The surface was removed. -/
  | removed (id : String)
deriving DecidableEq, Repr

/-- What happened, the latest event first. -/
abbrev History := List Event

/-- What a message does to the surfaces. -/
def Message.event? (honored : Bool) (message : Message) : Option Event :=
  match message.target? with
  | some id => some (.received id message.applies)
  | none => if honored then message.removed?.map .removed else none

/-- What a batch does to the surfaces. -/
def History.ofBatch (honored : Bool) (batch : List Value) : History :=
  ((Message.among batch).filterMap (Message.event? honored)).reverse

namespace History

/-- The number of changes of surfaces. -/
def changes : History → Nat
  | [] => 0
  | .received _ applied :: earlier => changes earlier + applied.toNat
  | .removed _ :: earlier => changes earlier

/-- The number of the last change of a surface among the changes of all surfaces, zero if it was
not changed since it came into being. -/
def lastChange (id : String) : History → Nat
  | [] => 0
  | .received other applied :: earlier =>
    if other = id ∧ applied then changes earlier + 1 else lastChange id earlier
  | .removed other :: earlier => if other = id then 0 else lastChange id earlier

/-- The number of the event with which a surface came into being, zero if it is not there. -/
def made (id : String) : History → Nat
  | [] => 0
  | .received other _ :: earlier =>
    if other = id ∧ made id earlier = 0 then earlier.length + 1 else made id earlier
  | .removed other :: earlier => if other = id then 0 else made id earlier

/-- Whether a surface was changed longer ago than another one. Surfaces that were never changed
come first, and among themselves in the order in which they came into being. -/
def Older (history : History) (a b : Surface) : Prop :=
  history.lastChange a.id < history.lastChange b.id ∨
    (history.lastChange a.id = history.lastChange b.id ∧ history.made a.id < history.made b.id)

theorem made_le_length (id : String) (history : History) : history.made id ≤ history.length := by
  induction history with
  | nil => exact Nat.le_refl 0
  | cons event earlier ih =>
    cases event with
    | received other applied =>
      simp only [made, List.length_cons]
      split <;> omega
    | removed other =>
      simp only [made, List.length_cons]
      split <;> omega

theorem lastChange_le_changes (id : String) (history : History) :
    history.lastChange id ≤ history.changes := by
  induction history with
  | nil => exact Nat.le_refl 0
  | cons event earlier ih =>
    cases event with
    | received other applied =>
      simp only [lastChange, changes]
      split
      · next here => simp [here.2]
      · omega
    | removed other =>
      simp only [lastChange, changes]
      split <;> omega

theorem lastChange_of_not_made {id : String} {history : History} (absent : history.made id = 0) :
    history.lastChange id = 0 := by
  induction history with
  | nil => rfl
  | cons event earlier ih =>
    cases event with
    | received other applied =>
      simp only [made] at absent
      split at absent
      · omega
      · next known =>
        have apart : other ≠ id := fun same => known ⟨same, absent⟩
        simp only [lastChange, apart, false_and, ↓reduceIte]
        exact ih absent
    | removed other =>
      simp only [made] at absent
      simp only [lastChange]
      split
      · rfl
      · next apart =>
        rw [if_neg apart] at absent
        exact ih absent

theorem made_received_of_made {id : String} {history : History} (known : history.made id ≠ 0)
    (other : String) (applied : Bool) :
    made id (.received other applied :: history) = history.made id := by
  simp [made, known]

/-- The surface of the last change of all was changed last, if it is still there. -/
theorem lastChange_lt_of_latest {id other : String} (apart : id ≠ other) {later : History}
    (unchanged : ∀ changed, .received changed true ∉ later) (kept : .removed id ∉ later)
    (earlier : History) :
    lastChange other (later ++ .received id true :: earlier) <
      lastChange id (later ++ .received id true :: earlier) := by
  induction later with
  | nil =>
    have := lastChange_le_changes other earlier
    simp only [List.nil_append, lastChange, apart, false_and, true_and, ↓reduceIte]
    omega
  | cons event later ih =>
    have before := ih (fun changed member => unchanged changed (List.mem_cons_of_mem _ member))
      (fun member => kept (List.mem_cons_of_mem _ member))
    cases event with
    | received changed applied =>
      cases applied with
      | false => simpa [lastChange] using before
      | true => exact absurd List.mem_cons_self (unchanged changed)
    | removed gone =>
      have still : gone ≠ id := by
        rintro rfl
        exact kept List.mem_cons_self
      simp only [List.cons_append, lastChange, still, ↓reduceIte]
      split <;> omega

/-- A surface for which a message came is there, unless it was removed later. -/
theorem made_of_received {id : String} {later : History} (kept : .removed id ∉ later)
    (applied : Bool) (earlier : History) :
    made id (later ++ .received id applied :: earlier) ≠ 0 := by
  induction later with
  | nil =>
    simp only [List.nil_append, made, true_and]
    split <;> omega
  | cons event later ih =>
    have before := ih fun member => kept (List.mem_cons_of_mem _ member)
    cases event with
    | received other applied =>
      rw [List.cons_append, made_received_of_made before]
      exact before
    | removed gone =>
      have still : gone ≠ id := by
        rintro rfl
        exact kept List.mem_cons_self
      rw [List.cons_append, made, if_neg still]
      exact before

end History

namespace Processor

/-- A processor is what a history tells: its surfaces are those that came into being and were not
removed, in this order, and they remember their last changes. -/
structure Follows (p : Processor) (history : History) : Prop where
  mutations : p.mutations = history.changes
  known : ∀ id, id ∈ p.ids ↔ history.made id ≠ 0
  touched : ∀ surface ∈ p.surfaces, surface.touched = history.lastChange surface.id
  ordered : p.surfaces.Pairwise fun a b => history.made a.id < history.made b.id

/-- The surfaces of a processor whose identifiers have a property. -/
def keep (p : Processor) (kept : String → Bool) : Processor :=
  { p with surfaces := p.surfaces.filter fun surface => kept surface.id }

/-- The removals of the surfaces that a processor has and another one has not. -/
def lost (p q : Processor) : History := (p.ids.filter fun id => id ∉ q.ids).map .removed

theorem mem_ids_of_mem {p : Processor} {surface : Surface} (member : surface ∈ p.surfaces) :
    surface.id ∈ p.ids := List.mem_map_of_mem member

/-- What holds of a processor and its history after every message that was read from a value, holds
after every batch. -/
theorem process_of_apply {Holds : Processor → History → Prop}
    (apply : ∀ {raw message p history}, Message.decode? raw = some message → Holds p history →
      Holds (p.apply message).1 ((message.event? p.honorDelete).toList ++ history))
    {p : Processor} {history : History} (start : Holds p history) (batch : List Value) :
    Holds (p.process batch) (.ofBatch p.honorDelete batch ++ history) := by
  have read : ∀ message ∈ Message.among batch, ∃ raw, Message.decode? raw = some message :=
    fun message member => by
      obtain ⟨raw, -, decoded⟩ := List.mem_filterMap.mp member
      exact ⟨raw, decoded⟩
  rw [process_eq, History.ofBatch]
  generalize Message.among batch = messages at read
  induction messages generalizing p history with
  | nil => exact start
  | cons message messages ih =>
    rw [List.forall_mem_cons] at read
    obtain ⟨raw, decoded⟩ := read.1
    have rest := ih (apply decoded start) read.2
    rw [honorDelete_apply] at rest
    rw [applyAll_cons, List.filterMap_cons]
    cases event : message.event? p.honorDelete with
    | none =>
      rw [event] at rest
      exact rest
    | some event' =>
      rw [event] at rest
      simpa using rest

namespace Follows

variable {p : Processor} {history : History}

theorem fresh (honored : Bool) : Follows { honorDelete := honored } [] where
  mutations := rfl
  known id := by simp [ids, History.made]
  touched surface member := by cases member
  ordered := .nil

theorem nodup (follows : p.Follows history) : p.ids.Nodup := by
  rw [ids, List.nodup_iff_pairwise_ne, List.pairwise_map]
  refine follows.ordered.imp fun {a b} before same => ?_
  rw [same] at before
  exact Nat.lt_irrefl _ before

theorem made_eq_zero (follows : p.Follows history) {id : String} (absent : id ∉ p.ids) :
    history.made id = 0 :=
  Decidable.of_not_not fun made => absent ((follows.known id).mpr made)

theorem made_of_mem (follows : p.Follows history) {surface : Surface}
    (member : surface ∈ p.surfaces) : history.made surface.id ≠ 0 :=
  (follows.known surface.id).mp (mem_ids_of_mem member)

theorem ensure (follows : p.Follows history) (id : String) :
    (p.ensure id).Follows (.received id false :: history) := by
  have same {surface : Surface} (member : surface ∈ p.surfaces) :
      History.made surface.id (.received id false :: history) = history.made surface.id :=
    History.made_received_of_made (follows.made_of_mem member) id false
  have order : p.surfaces.Pairwise fun a b =>
      History.made a.id (.received id false :: history) <
        History.made b.id (.received id false :: history) := by
    refine follows.ordered.imp_of_mem fun {a b} first second before => ?_
    rw [same first, same second]
    exact before
  refine ⟨?_, ?_, ?_, ?_⟩
  · rw [mutations_ensure, follows.mutations]
    rfl
  · intro other
    have told := follows.known other
    rw [ids_ensure]
    by_cases equal : id = other
    · subst equal
      by_cases there : id ∈ p.ids
      · simp [History.made, there, told.mp there]
      · simp [History.made, there, follows.made_eq_zero there]
    · have unchanged : History.made other (.received id false :: history) = history.made other := by
        simp [History.made, equal]
      rw [unchanged, ← told]
      split
      · rfl
      · simp [Ne.symm equal]
  · intro surface member
    simp only [History.lastChange, Bool.false_eq_true, and_false, ↓reduceIte]
    unfold Processor.ensure at member
    split at member
    · exact follows.touched surface member
    · next new =>
      rcases List.mem_append.mp member with old | fresh
      · exact follows.touched surface old
      · rw [List.mem_singleton.mp fresh]
        exact (History.lastChange_of_not_made (follows.made_eq_zero new)).symm
  · unfold Processor.ensure
    split
    · exact order
    · next new =>
      refine List.pairwise_append.mpr ⟨order, List.pairwise_singleton .., ?_⟩
      intro old member fresh last
      have bound := History.made_le_length old.id history
      rw [List.mem_singleton.mp last, same member]
      simp only [History.made, follows.made_eq_zero new, and_self, ↓reduceIte]
      omega

theorem change (follows : p.Follows history) (id : String) {f : Surface → Surface}
    (keeps : ∀ surface, (f surface).id = surface.id) :
    (p.change id f).Follows (.received id true :: history) := by
  have ensured := follows.ensure id
  -- when a surface came into being does not depend on whether the message could be applied
  have made (other : String) : History.made other (.received id true :: history) =
      History.made other (.received id false :: history) := rfl
  refine ⟨?_, ?_, ?_, ?_⟩
  · simp only [Processor.change, mutations_ensure, follows.mutations, History.changes,
      Bool.toNat_true]
  · intro other
    rw [ids_change p id keeps, made]
    exact ensured.known other
  · intro surface member
    obtain ⟨before, inside, rfl⟩ := List.mem_map.mp member
    have remembered := ensured.touched before inside
    by_cases own : before.id = id
    · simp only [own, ↓reduceIte, keeps, History.lastChange, and_self, mutations_ensure,
        follows.mutations]
    · simpa [own, History.lastChange, Ne.symm own] using remembered
  · simp only [Processor.change, List.pairwise_map]
    refine ensured.ordered.imp fun {a b} before => ?_
    have id_eq (s : Surface) : (if s.id = id then { f s with
        version := s.version + 1, touched := (p.ensure id).mutations + 1 } else s).id = s.id := by
      split
      · exact keeps s
      · rfl
    rw [id_eq, id_eq, made, made]
    exact before

theorem remove (follows : p.Follows history) (id : String) :
    (p.remove id).Follows (.removed id :: history) := by
  have member_iff (surface : Surface) : surface ∈ (p.remove id).surfaces ↔
      surface ∈ p.surfaces ∧ surface.id ≠ id := by
    simp [Processor.remove]
  refine ⟨?_, ?_, ?_, ?_⟩
  · rw [History.changes, ← follows.mutations]
    rfl
  · intro other
    rw [ids_remove, List.mem_filter, follows.known other, History.made]
    by_cases same : id = other
    · simp [same]
    · simp [same, Ne.symm same]
  · intro surface member
    obtain ⟨inside, apart⟩ := (member_iff surface).mp member
    rw [History.lastChange, if_neg (Ne.symm apart)]
    exact follows.touched surface inside
  · refine (follows.ordered.filter _).imp_of_mem fun {a b} first second before => ?_
    have apart {surface : Surface} (member : surface ∈ (p.remove id).surfaces) :
        History.made surface.id (.removed id :: history) = history.made surface.id := by
      rw [History.made, if_neg (Ne.symm ((member_iff surface).mp member).2)]
    rw [apart first, apart second]
    exact before

theorem apply (follows : p.Follows history) (message : Message) :
    (p.apply message).1.Follows ((message.event? p.honorDelete).toList ++ history) := by
  unfold Message.event?
  cases target : message.target? with
  | some id =>
    rw [apply_of_target target]
    unfold Message.applies
    cases message.fault? with
    | none => exact follows.change id fun surface => surface.take_id message
    | some fault => exact follows.ensure id
  | none =>
    rw [apply_of_no_target target]
    cases p.honorDelete with
    | false => exact follows
    | true =>
      cases message.removed? with
      | none => exact follows
      | some id => exact follows.remove id

/-- A batch adds what its messages do to the history. -/
theorem process (follows : p.Follows history) (batch : List Value) :
    (p.process batch).Follows (.ofBatch p.honorDelete batch ++ history) :=
  process_of_apply (fun _ before => before.apply _) follows batch

theorem removeAll (follows : p.Follows history) (ids : List String) :
    (ids.foldr (fun id q => q.remove id) p).Follows (ids.map .removed ++ history) := by
  induction ids with
  | nil => exact follows
  | cons id ids ih => exact ih.remove id

end Follows

theorem keep_congr {p : Processor} {kept kept' : String → Bool}
    (same : ∀ id ∈ p.ids, kept id = kept' id) : p.keep kept = p.keep kept' := by
  unfold keep
  congr 1
  exact List.filter_congr fun surface member => same surface.id (mem_ids_of_mem member)

@[simp] theorem ids_keep (p : Processor) (kept : String → Bool) :
    (p.keep kept).ids = p.ids.filter kept := by
  simp [keep, ids, List.filter_map, Function.comp_def]

@[simp] theorem keep_true (p : Processor) : p.keep (fun _ => true) = p := by
  rw [keep, List.filter_eq_self.mpr fun _ _ => rfl]

theorem keep_keep (p : Processor) (kept kept' : String → Bool) :
    (p.keep kept).keep kept' = p.keep fun id => kept id && kept' id := by
  simp [keep, List.filter_filter, Bool.and_comm]

theorem remove_eq_keep (p : Processor) (id : String) : p.remove id = p.keep (· ≠ id) := rfl

theorem clear_eq_keep (p : Processor) : p.clear = p.keep fun _ => false := by
  simp [clear, keep]

theorem foldr_remove (p : Processor) (ids : List String) :
    ids.foldr (fun id q => q.remove id) p = p.keep fun id => id ∉ ids := by
  induction ids with
  | nil => exact p.keep_true.symm
  | cons id ids ih =>
    rw [List.foldr_cons, ih, remove_eq_keep, keep_keep]
    exact keep_congr fun other _ => by simp [Bool.and_comm]

/-- What is lost with surfaces that are not kept goes into the history as removals. -/
theorem Follows.keep {p : Processor} {history : History} (follows : p.Follows history)
    (kept : String → Bool) : (p.keep kept).Follows (p.lost (p.keep kept) ++ history) := by
  have removed := follows.removeAll (p.ids.filter fun id => id ∉ (p.keep kept).ids)
  rw [foldr_remove] at removed
  have same : (p.keep fun id => id ∉ p.ids.filter fun id => id ∉ (p.keep kept).ids) =
      p.keep kept := keep_congr fun id there => by
    rw [ids_keep]
    cases known : kept id <;> simp [there, known]
  rw [same] at removed
  exact removed

end Processor
end LiveSurface
