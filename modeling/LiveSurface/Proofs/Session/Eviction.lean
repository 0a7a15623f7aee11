import LiveSurface.Proofs.Surface.History
import LiveSurface.Session

/-!
# What a session keeps

A session is driven by batches of messages, by evictions and by its end. Along every such run its
processor follows the history of what was received and removed (`follows_run`), so that a surface
remembers the time of its last change and the order of the surfaces is that of their coming into
being. A batch that leaves too many surfaces costs those changed longest ago and nothing else, and a
session that was closed stays closed and empty (`run_limited`).
-/
namespace LiveSurface

namespace Processor

/-- Without some surfaces a processor has the others, whatever the order in which they are told. -/
theorem keep_others_perm {p : Processor} (distinct : p.ids.Nodup) {removed others : List Surface}
    (parts : (removed ++ others).Perm p.surfaces) :
    (p.keep fun id => id ∉ removed.map (·.id)).surfaces.Perm others := by
  have apart : ((removed ++ others).map (·.id)).Nodup := (parts.map _).nodup_iff.mpr distinct
  rw [List.map_append, List.nodup_append] at apart
  have gone : removed.filter (fun s => s.id ∉ removed.map (·.id)) = [] := by
    refine List.filter_eq_nil_iff.mpr fun s member => ?_
    simpa using ⟨s, member, rfl⟩
  have there : others.filter (fun s => s.id ∉ removed.map (·.id)) = others := by
    refine List.filter_eq_self.mpr fun s member => decide_eq_true fun inside => ?_
    exact apart.2.2 _ inside _ (List.mem_map_of_mem member) rfl
  have filtered := parts.filter fun s => s.id ∉ removed.map (·.id)
  rw [List.filter_append, gone, there] at filtered
  exact filtered.symm

end Processor

namespace Session

/-- What is done to a session. -/
inductive Step
  | process (messages : Value)
  | evict (id : String)
  | close

def after (session : Session) : Step → Session
  | .process messages => (session.process messages).1
  | .evict id => (session.evict id).1
  | .close => session.close

def run (session : Session) (steps : List Step) : Session := steps.foldl after session

/-- The values that a step makes a session process. -/
def received (session : Session) : Step → List Value
  | .process messages =>
    if session.closed then []
    else match messages.elementsOrNone with
      | .error _ => []
      | .ok batch => batch
  | _ => []

/-- What a step does to the surfaces: first what the messages do, then the removal of all that is
not there afterwards. -/
def events (session : Session) (step : Step) : History :=
  let batch := session.received step
  (session.processor.process batch).lost (session.after step).processor ++
    .ofBatch session.processor.honorDelete batch

/-- What happened along a run. -/
def history (session : Session) : List Step → History
  | [] => []
  | step :: steps => (session.after step).history steps ++ session.events step

/-- What a limit makes of surfaces with a history, zero being no limit: the surfaces changed longest
ago are removed, as many as are too many, and the others stay as they are and where they are. -/
structure Limited (limit : Nat) (history : History) (surfaces kept removed : List Surface) :
    Prop where
  parts : (kept ++ removed).Perm surfaces
  unmoved : kept.Sublist surfaces
  excess : removed.length = if limit = 0 then 0 else surfaces.length - limit
  order : removed.Pairwise history.Older
  oldest : ∀ gone ∈ removed, ∀ left ∈ kept, history.Older gone left

theorem Limited.length_le {limit : Nat} {history : History} {surfaces kept removed : List Surface}
    (limited : Limited limit history surfaces kept removed) (positive : 0 < limit) :
    kept.length ≤ limit := by
  have total := limited.parts.length_eq
  have excess := limited.excess
  rw [if_neg (by omega)] at excess
  rw [List.length_append] at total
  omega

theorem touched_trans (a b c : Surface) (first : decide (a.touched ≤ b.touched) = true)
    (second : decide (b.touched ≤ c.touched) = true) : decide (a.touched ≤ c.touched) = true :=
  decide_eq_true (Nat.le_trans (of_decide_eq_true first) (of_decide_eq_true second))

theorem touched_total (a b : Surface) :
    (decide (a.touched ≤ b.touched) || decide (b.touched ≤ a.touched)) = true := by
  rcases Nat.le_total a.touched b.touched with less | less <;> simp [less]

theorem byAge_perm (surfaces : List Surface) : (byAge surfaces).Perm surfaces :=
  List.mergeSort_perm ..

/-- Surfaces with the same number of the last change keep their order. -/
theorem byAge_filter (surfaces : List Surface) (time : Nat) :
    (byAge surfaces).filter (·.touched = time) = surfaces.filter (·.touched = time) := by
  let same := surfaces.filter (·.touched = time)
  have equal : same.Pairwise fun a b => decide (a.touched ≤ b.touched) = true := by
    refine List.pairwise_of_forall_mem_list fun a first b second => ?_
    have first := of_decide_eq_true (List.mem_filter.mp first).2
    have second := of_decide_eq_true (List.mem_filter.mp second).2
    simp [first, second]
  have inside : same.Sublist (byAge surfaces) :=
    List.sublist_mergeSort touched_trans touched_total equal List.filter_sublist
  have again : same.filter (·.touched = time) = same := by
    simp [same, List.filter_filter]
  have among := inside.filter (·.touched = time)
  rw [again] at among
  exact (among.eq_of_length ((byAge_perm surfaces).filter _).length_eq.symm).symm

/-- By age the surfaces of a processor stand in the order of its history. -/
theorem byAge_older {p : Processor} {history : History} (follows : p.Follows history) :
    (byAge p.surfaces).Pairwise history.Older := by
  have sorted : (byAge p.surfaces).Pairwise fun a b => decide (a.touched ≤ b.touched) = true :=
    List.pairwise_mergeSort touched_trans touched_total p.surfaces
  refine List.pairwise_iff_forall_sublist.mpr fun {a b} before => ?_
  have inside {s : Surface} (member : s ∈ [a, b]) : s ∈ p.surfaces :=
    (byAge_perm p.surfaces).mem_iff.mp (before.subset member)
  have time : a.touched ≤ b.touched :=
    of_decide_eq_true (List.pairwise_iff_forall_sublist.mp sorted before)
  rw [History.Older, ← follows.touched a (inside (by simp)),
    ← follows.touched b (inside (by simp))]
  rcases Nat.lt_or_eq_of_le time with earlier | equal
  · exact .inl earlier
  · -- among surfaces of one time the order is that of the processor
    have made := follows.ordered.filter (·.touched = b.touched)
    rw [← byAge_filter] at made
    have pair := before.filter (·.touched = b.touched)
    simp only [List.filter_cons, equal, decide_true, ↓reduceIte, List.filter_nil] at pair
    exact .inr ⟨equal, List.pairwise_iff_forall_sublist.mp made pair⟩

theorem evict_of_mem {session : Session} {id : String} (there : id ∈ session.processor.ids) :
    (session.evict id).1 =
      { session with
        processor := session.processor.remove id, evicted := session.evicted ++ [id] } := by
  rw [evict, if_pos there]

theorem evict_processor (session : Session) (id : String) :
    (session.evict id).1.processor = session.processor.keep (· ≠ id) := by
  unfold evict
  split
  · rfl
  · next absent =>
    have all : session.processor.keep (· ≠ id) = session.processor.keep fun _ => true :=
      Processor.keep_congr fun other there => decide_eq_true fun same => absent (same ▸ there)
    rw [all, Processor.keep_true]

theorem foldl_evict (session : Session) {gone : List Surface}
    (there : ∀ surface ∈ gone, surface.id ∈ session.processor.ids)
    (distinct : (gone.map (·.id)).Nodup) :
    gone.foldl (fun session surface => (session.evict surface.id).1) session =
      { session with
        processor := session.processor.keep fun id => id ∉ gone.map (·.id)
        evicted := session.evicted ++ gone.map (·.id) } := by
  induction gone generalizing session with
  | nil => simp
  | cons first rest ih =>
    obtain ⟨new, distinct⟩ := List.nodup_cons.mp distinct
    have evicted := evict_of_mem (there first (by simp))
    have left : ∀ surface ∈ rest, surface.id ∈ (session.evict first.id).1.processor.ids := by
      intro surface member
      rw [evict_processor, Processor.ids_keep, List.mem_filter]
      refine ⟨there surface (by simp [member]), decide_eq_true fun same => new ?_⟩
      exact List.mem_map.mpr ⟨surface, member, same⟩
    rw [List.foldl_cons, ih _ left distinct, evicted, Processor.remove_eq_keep,
      Processor.keep_keep]
    simp only [List.append_assoc, List.map_cons, List.singleton_append]
    congr 1
    exact Processor.keep_congr fun id _ => by simp

/-- The limit removes the surfaces changed longest ago, in this order, and notes them. -/
theorem enforceLimit_limited {session : Session} {history : History}
    (follows : session.processor.Follows history) :
    ∃ removed,
      session.enforceLimit =
        { session with
          processor := session.processor.keep fun id => id ∉ removed.map (·.id)
          evicted := session.evicted ++ removed.map (·.id) } ∧
      Limited session.maxSurfaces history session.surfaces
        (session.processor.keep fun id => id ∉ removed.map (·.id)).surfaces removed := by
  unfold enforceLimit
  by_cases free : session.maxSurfaces = 0
  · refine ⟨[], ?_, ?_⟩
    · rw [if_pos free]
      simp
    · refine ⟨?_, List.filter_sublist, by simp [free], .nil, by simp⟩
      simp [surfaces]
  · let excess := session.surfaces.length - session.maxSurfaces
    let oldest := (byAge session.surfaces).take excess
    let others := (byAge session.surfaces).drop excess
    have whole : oldest ++ others = byAge session.surfaces := List.take_append_drop ..
    have parts : (oldest ++ others).Perm session.surfaces := whole ▸ byAge_perm _
    have distinct : ((oldest ++ others).map (·.id)).Nodup :=
      (parts.map _).nodup_iff.mpr follows.nodup
    have older : (oldest ++ others).Pairwise history.Older := whole ▸ byAge_older follows
    obtain ⟨order, -, between⟩ := List.pairwise_append.mp older
    have left := Processor.keep_others_perm follows.nodup parts
    refine ⟨oldest, ?_, ?_⟩
    · rw [if_neg free]
      refine foldl_evict session ?_ ?_
      · intro surface member
        exact Processor.mem_ids_of_mem (parts.mem_iff.mp (List.mem_append_left _ member))
      · rw [List.map_append] at distinct
        exact (List.nodup_append.mp distinct).1
    · refine ⟨?_, List.filter_sublist, ?_, order, ?_⟩
      · exact ((left.append_right oldest).trans List.perm_append_comm).trans parts
      · have length : (byAge session.surfaces).length = session.surfaces.length :=
          (byAge_perm _).length_eq
        simp only [free, ↓reduceIte, oldest, List.length_take, length, excess]
        omega
      · intro gone removed surface kept
        exact between gone removed surface (left.mem_iff.mp kept)

/-- A batch that an active session takes is processed, and then the limit is enforced. -/
theorem process_limited {session : Session} {history : History}
    (follows : session.processor.Follows history) (active : session.closed = false)
    {messages : Value} {batch : List Value} (read : messages.elementsOrNone = .ok batch) :
    ∃ removed,
      (session.process messages).1 =
        { session with
          processor :=
            (session.processor.process batch).keep fun id => id ∉ removed.map (·.id)
          evicted := session.evicted ++ removed.map (·.id) } ∧
      (session.process messages).2 = .ok (session.process messages).1.processor.ids ∧
      Limited session.maxSurfaces (.ofBatch session.processor.honorDelete batch ++ history)
        (session.processor.process batch).surfaces (session.process messages).1.surfaces
        removed := by
  let full := { session with processor := session.processor.process batch }
  have processed : session.process messages =
      (full.enforceLimit, .ok full.enforceLimit.processor.ids) := by
    have open' : ¬ session.closed = true := by simp [active]
    rw [process, if_neg open', read]
    simp only [processAll, if_neg open']
    rfl
  have grown : full.processor.Follows (.ofBatch session.processor.honorDelete batch ++ history) :=
    follows.process batch
  obtain ⟨removed, enforced, limited⟩ := enforceLimit_limited grown
  refine ⟨removed, ?_, ?_, ?_⟩
  · rw [processed]
    exact enforced
  · rw [processed]
  · rw [processed, surfaces, enforced]
    exact limited

/-- A step processes the values that it brings and then keeps some of the surfaces. -/
theorem after_processor {session : Session} {history : History}
    (follows : session.processor.Follows history) (step : Step) :
    ∃ kept, (session.after step).processor =
      (session.processor.process (session.received step)).keep kept := by
  cases step with
  | process messages =>
    cases closed : session.closed with
    | true =>
      refine ⟨fun _ => true, ?_⟩
      simp [after, process, received, closed, Processor.process]
    | false =>
      cases read : messages.elementsOrNone with
      | error fault =>
        refine ⟨fun _ => true, ?_⟩
        simp [after, process, received, closed, read, Processor.process]
      | ok batch =>
        obtain ⟨removed, processed, -⟩ := process_limited follows closed read
        refine ⟨fun id => id ∉ removed.map (·.id), ?_⟩
        simp only [after, processed, received, closed, read, Bool.false_eq_true, ↓reduceIte]
  | evict id => exact ⟨(· ≠ id), session.evict_processor id⟩
  | close => exact ⟨fun _ => false, session.processor.clear_eq_keep⟩

/-- A session follows its history through a step. -/
theorem follows_after {session : Session} {history : History}
    (follows : session.processor.Follows history) (step : Step) :
    (session.after step).processor.Follows (session.events step ++ history) := by
  obtain ⟨kept, made⟩ := after_processor follows step
  rw [events, made, List.append_assoc]
  exact (follows.process (session.received step)).keep kept

theorem follows_run {session : Session} {history : History}
    (follows : session.processor.Follows history) (steps : List Step) :
    (session.run steps).processor.Follows (session.history steps ++ history) := by
  induction steps generalizing session history with
  | nil => exact follows
  | cons step steps ih =>
    rw [Session.history, List.append_assoc]
    exact ih (follows_after follows step)

theorem run_append (session : Session) (steps more : List Step) :
    session.run (steps ++ more) = (session.run steps).run more := List.foldl_append

theorem after_settings {session : Session} {history : History}
    (follows : session.processor.Follows history) (step : Step) :
    (session.after step).maxSurfaces = session.maxSurfaces ∧
      (session.after step).processor.honorDelete = session.processor.honorDelete ∧
      ((session.after step).closed = true ↔ session.closed = true ∨ step = .close) := by
  obtain ⟨kept, made⟩ := after_processor follows step
  have honored : (session.after step).processor.honorDelete = session.processor.honorDelete := by
    rw [made]
    exact session.processor.honorDelete_process (session.received step)
  cases step with
  | process messages =>
    refine ⟨?_, honored, ?_⟩ <;> cases closed : session.closed with
    | true => simp [after, process, closed]
    | false =>
      cases read : messages.elementsOrNone with
      | error fault => simp [after, process, closed, read]
      | ok batch =>
        obtain ⟨removed, processed, -⟩ := process_limited follows closed read
        simp [after, processed, closed]
  | evict id =>
    refine ⟨?_, honored, ?_⟩
    · simp only [after, evict]
      split <;> rfl
    · simp only [after, evict]
      split <;> simp
  | close => exact ⟨rfl, honored, by simp [after, close]⟩

theorem run_settings {session : Session} {history : History}
    (follows : session.processor.Follows history) (steps : List Step) :
    (session.run steps).maxSurfaces = session.maxSurfaces ∧
      (session.run steps).processor.honorDelete = session.processor.honorDelete ∧
      ((session.run steps).closed = true ↔ session.closed = true ∨ .close ∈ steps) := by
  induction steps generalizing session history with
  | nil => exact ⟨rfl, rfl, by simp [run]⟩
  | cons step steps ih =>
    obtain ⟨limit, honored, closed⟩ := after_settings follows step
    obtain ⟨limit', honored', closed'⟩ := ih (follows_after follows step)
    refine ⟨limit'.trans limit, honored'.trans honored, closed'.trans ?_⟩
    rw [closed, List.mem_cons, eq_comm (a := step), or_assoc]

/-- A step never leaves more surfaces than the limit. -/
theorem length_after {session : Session} {history : History}
    (follows : session.processor.Follows history) (positive : 0 < session.maxSurfaces)
    (within : session.surfaces.length ≤ session.maxSurfaces) (step : Step) :
    (session.after step).surfaces.length ≤ session.maxSurfaces := by
  cases step with
  | process messages =>
    cases closed : session.closed with
    | true => simpa [after, process, closed] using within
    | false =>
      cases read : messages.elementsOrNone with
      | error fault => simpa [after, process, closed, read] using within
      | ok batch =>
        obtain ⟨removed, -, -, limited⟩ := process_limited follows closed read
        exact limited.length_le positive
  | evict id =>
    rw [after, surfaces, evict_processor]
    exact Nat.le_trans (List.length_filter_le ..) within
  | close => exact Nat.zero_le _

theorem length_run {session : Session} {history : History}
    (follows : session.processor.Follows history) (positive : 0 < session.maxSurfaces)
    (within : session.surfaces.length ≤ session.maxSurfaces) (steps : List Step) :
    (session.run steps).surfaces.length ≤ session.maxSurfaces := by
  induction steps generalizing session history with
  | nil => exact within
  | cons step steps ih =>
    have same := (after_settings follows step).1
    have next := ih (follows_after follows step) (same ▸ positive)
      (by rw [same]; exact length_after follows positive within step)
    rw [same] at next
    exact next

theorem run_of_closed {session : Session} (closed : session.closed = true)
    (empty : session.surfaces = []) (steps : List Step) : session.run steps = session := by
  induction steps with
  | nil => rfl
  | cons step steps ih =>
    have same : session.after step = session := by
      cases step with
      | process messages => simp [after, process, closed]
      | evict id =>
        have absent : id ∉ session.processor.ids := by
          simp only [surfaces] at empty
          simp [Processor.ids, empty]
        simp [after, evict, absent]
      | close =>
        simp only [surfaces] at empty
        obtain ⟨_, _, ⟨_, surfaces, _⟩, _, _, _⟩ := session
        cases closed
        cases empty
        rfl
    rw [run, List.foldl_cons, same]
    exact ih

/-- The surface that a batch changed last is not removed by the limit. -/
theorem mem_of_latest {limit : Nat} {p : Processor} {id : String} {later earlier : History}
    {kept removed : List Surface}
    (follows : p.Follows (later ++ .received id true :: earlier))
    (limited : Limited limit (later ++ .received id true :: earlier) p.surfaces kept removed)
    (unchanged : ∀ changed, .received changed true ∉ later) (stays : .removed id ∉ later) :
    ∃ surface ∈ kept, surface.id = id := by
  have made := History.made_of_received stays true earlier
  obtain ⟨surface, inside, rfl⟩ := List.mem_map.mp ((follows.known id).mpr made)
  rcases List.mem_append.mp (limited.parts.mem_iff.mpr inside) with left | gone
  · exact ⟨surface, left, rfl⟩
  · -- something is left, and it would have to be younger
    have distinct : ((kept ++ removed).map (·.id)).Nodup :=
      (limited.parts.map _).nodup_iff.mpr follows.nodup
    rw [List.map_append, List.nodup_append] at distinct
    have some_left : kept ≠ [] := by
      rintro rfl
      have total := limited.parts.length_eq
      have excess := limited.excess
      have positive := List.length_pos_of_mem gone
      simp only [List.nil_append] at total
      split at excess <;> omega
    obtain ⟨other, left⟩ := List.exists_mem_of_ne_nil kept some_left
    have apart : surface.id ≠ other.id := fun same =>
      distinct.2.2 _ (List.mem_map_of_mem left) _ (List.mem_map_of_mem gone) same.symm
    have younger := History.lastChange_lt_of_latest apart unchanged stays earlier
    rcases limited.oldest surface gone other left with older | ⟨equal, -⟩ <;> omega

/-- A fresh session with a limit, driven in any way. There are never more surfaces than the limit,
zero being none. A batch that an active session takes leaves what the limit makes of the surfaces:
those that are too many, changed longest ago, are removed and noted, the one changed longest ago
first, and the others stay as they are in the order in which they came into being; the surface that
the batch changed last is among them unless a later message removed it. Only the end closes a
session, and then there are no surfaces, nothing more is noted, and batches and renderings give
nothing. -/
theorem run_limited (id : String) (limit : Nat) (honored : Bool) (limits : Limits)
    (steps : List Step) :
    let start : Session :=
      { id, maxSurfaces := limit, processor := { honorDelete := honored }, limits }
    let session := start.run steps
    (0 < limit → session.surfaces.length ≤ limit) ∧
    (session.closed = true ↔ .close ∈ steps) ∧
    (∀ messages batch, session.closed = false → messages.elementsOrNone = .ok batch →
      let full := session.processor.process batch
      let history := .ofBatch honored batch ++ start.history steps
      let next := (session.process messages).1
      (∃ removed, Limited limit history full.surfaces next.surfaces removed ∧
        next.evicted = session.evicted ++ removed.map (·.id)) ∧
      full.surfaces.Pairwise (fun a b => history.made a.id < history.made b.id) ∧
      (session.process messages).2 = .ok next.processor.ids ∧
      ∀ id later earlier, History.ofBatch honored batch = later ++ .received id true :: earlier →
        (∀ changed, .received changed true ∉ later) → .removed id ∉ later →
        ∃ surface ∈ next.surfaces, surface.id = id) ∧
    ∀ before more, steps = before ++ .close :: more →
      session.surfaces = [] ∧ session.evicted = (start.run before).evicted ∧
      (∀ messages, session.process messages = (session, .ok [])) ∧
      ∀ {ν : Type} (primitives : Primitives ν) (reports : Bool),
        session.render primitives reports = .ok none ∧
        ∀ id, session.renderSurface primitives reports id = .ok none := by
  intro start session
  have fresh : start.processor.Follows [] := .fresh honored
  have follows : session.processor.Follows (start.history steps) := by
    have told := follows_run fresh steps
    rwa [List.append_nil] at told
  obtain ⟨same, honors, closed⟩ := run_settings fresh steps
  refine ⟨?_, ?_, ?_, ?_⟩
  · intro positive
    exact length_run fresh positive (Nat.zero_le limit) steps
  · exact closed.trans (by simp [start])
  · intro messages batch active read full history next
    obtain ⟨removed, processed, told, limited⟩ := process_limited follows active read
    have evolved := follows.process batch
    rw [same, honors] at limited
    rw [honors] at evolved
    refine ⟨⟨removed, limited, ?_⟩, evolved.ordered, told, ?_⟩
    · simp only [next, processed]
    · intro id later earlier split unchanged stays
      simp only [start] at limited evolved
      rw [split, List.append_assoc] at limited evolved
      exact mem_of_latest evolved limited unchanged stays
  · intro before more split
    have ended : session = (start.run before).close := by
      simp only [session]
      rw [split, run_append]
      exact run_of_closed rfl rfl more
    have shut : session.closed = true := by rw [ended]; rfl
    have empty : session.surfaces = [] := by rw [ended]; rfl
    refine ⟨empty, by rw [ended]; rfl, ?_, ?_⟩
    · intro messages
      rw [process, if_pos shut]
    · intro ν primitives reports
      refine ⟨by rw [render, empty]; rfl, ?_⟩
      intro id
      have none' : session.processor.get? = fun _ => none := by
        funext id
        simp only [surfaces] at empty
        simp [Processor.get?, empty]
      rw [renderSurface, none']
      cases id <;> rfl

/-- With a limit of two, the third surface costs one of the others. -/
theorem run_limited_of_three :
    let shown (id : String) : Value := .obj [("beginRendering", .obj [("surfaceId", .str id)])]
    let steps := [Step.process (.list [shown "a", shown "b"])]
    let batch := [shown "a", shown "c"]
    let start : Session :=
      { id := "x", maxSurfaces := 2, processor := { honorDelete := true }, limits := ⟨3, 5⟩ }
    let session := start.run steps
    let next := (session.process (.list batch)).1
    0 < start.maxSurfaces ∧ session.closed = false ∧
    (Value.list batch).elementsOrNone = .ok batch ∧
    History.ofBatch true batch = [] ++ .received "c" true :: [.received "a" true] ∧
    next.surfaces.length ≤ 2 ∧ (∃ surface ∈ next.surfaces, surface.id = "c") ∧
    next.evicted.length = 1 := by
  intro shown steps batch start session next
  have active : session.closed = false := by decide +kernel
  have latest : History.ofBatch true batch = [] ++ .received "c" true :: [.received "a" true] := by
    decide
  obtain ⟨-, -, limited, -⟩ := run_limited "x" 2 true ⟨3, 5⟩ steps
  obtain ⟨⟨removed, cut, told⟩, -, -, survives⟩ := limited (.list batch) batch active rfl
  have none' : session.evicted = [] := by decide +kernel
  have full : (session.processor.process batch).surfaces.length = 3 := by decide +kernel
  have one : removed.length = 1 := by
    rw [cut.excess, if_neg (by decide), full]
  refine ⟨by decide, active, rfl, latest, cut.length_le (by decide), ?_, ?_⟩
  · exact survives "c" [] [.received "a" true] latest (by simp) (by simp)
  · rw [told, none', List.nil_append, List.length_map, one]

end Session
end LiveSurface
