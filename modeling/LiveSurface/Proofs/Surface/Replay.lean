import LiveSurface.Proofs.Surface.Rows
import LiveSurface.Render.Surfaces

/-!
# Batches that come twice

A batch that is processed once more leaves every surface as it is, its counts of changes aside, on
any processor that removes no surfaces (`process_process`). Every part of a surface takes its row of
messages again without a change: the last root and look are the last ones again, definitions go to
the places that they have, and so do the writes into the data model.
-/
namespace LiveSurface

namespace Registry

/-- A registry as entries under the identifiers. -/
def entries (registry : Registry) : Entries Definition :=
  registry.map fun definition => (definition.id, definition)

theorem map_entries (registry : Registry) : registry.entries.map Prod.snd = registry := by
  simp [entries, Function.comp_def]

/-- A definition as a change of what stands under its identifier. -/
def changeOf (definition : Definition) : Entries.Change Definition :=
  (definition.id, fun _ => definition)

theorem entries_upsert (registry : Registry) (definition : Definition) :
    (registry.upsert definition).entries =
      Entries.change registry.entries (changeOf definition) := by
  induction registry with
  | nil => rfl
  | cons first rest ih =>
    simp only [entries, Entries.change, changeOf] at ih
    by_cases same : first.id = definition.id
    · simp [upsert, entries, Entries.change, changeOf, Entries.set, same]
    · simp [upsert, entries, Entries.change, changeOf, Entries.set, same, ih]

theorem entries_foldl_upsert (registry : Registry) (definitions : List Definition) :
    (definitions.foldl upsert registry).entries =
      Entries.changeAll registry.entries (definitions.map changeOf) := by
  induction definitions generalizing registry with
  | nil => rfl
  | cons definition definitions ih =>
    rw [List.foldl_cons, ih, entries_upsert]
    rfl

/-- Under an identifier stands the last of its definitions, and what was there before if there is
none. -/
theorem changed_changeOf (id : String) (definitions : List Definition) :
    ∃ last : Option Definition, ∀ before,
      Entries.changed id (definitions.map changeOf) before = last.or before := by
  induction definitions with
  | nil => exact ⟨none, fun _ => rfl⟩
  | cons definition definitions ih =>
    obtain ⟨last, told⟩ := ih
    refine ⟨last.or (if definition.id = id then some definition else none), ?_⟩
    intro before
    rw [List.map_cons, Entries.changed_cons, told, Option.or_assoc]
    by_cases same : definition.id = id <;> simp [changeOf, same]

theorem upsertAll_upsertAll (registry : Registry) (raw : List Value) :
    (registry.upsertAll raw).upsertAll raw = registry.upsertAll raw := by
  simp only [upsertAll]
  generalize raw.filterMap Definition.decode? = definitions
  rw [← map_entries (definitions.foldl upsert (definitions.foldl upsert registry)),
    entries_foldl_upsert, entries_foldl_upsert, Entries.changeAll_changeAll,
    ← entries_foldl_upsert, map_entries]
  intro id before
  obtain ⟨last, told⟩ := changed_changeOf id definitions
  rw [told, told, ← Option.or_assoc, Option.or_self]

end Registry

namespace Surface

/-- A surface without the counts of its changes. -/
def uncounted (surface : Surface) : Surface := { surface with version := 1, touched := 0 }

/-- Rows of messages that come again change nothing but the counts. -/
theorem extended_extended (surface : Surface) (rows : Message.Rows) :
    ((surface.extended rows).extended rows).uncounted = (surface.extended rows).uncounted := by
  simp only [extended, uncounted, Registry.upsertAll_upsertAll, Fields.writeAll_writeAll,
    ← Option.or_assoc, Option.or_self]

end Surface

namespace Processor

/-- A batch that removes nothing extends the surface that is there, or a new one, by its rows. -/
theorem get?_process_of_kept {p : Processor} (keeps : p.honorDelete = false) (batch : List Value)
    (id : String) :
    ((p.process batch).get? id).map Surface.untouched =
      let rows := Message.Rows.of id (Message.among batch)
      let before := (p.get? id).map Surface.untouched
      if rows.all = [] then before else some ((before.getD { id }).extended rows) := by
  rw [get?_process, keeps]
  exact Message.foldl_step_of_kept (fun _ _ => by simp) _

/-- Under every identifier a batch that comes again leaves the same surface. -/
theorem get?_process_process {p : Processor} (keeps : p.honorDelete = false) (batch : List Value)
    (id : String) :
    (((p.process batch).process batch).get? id).map Surface.uncounted =
      ((p.process batch).get? id).map Surface.uncounted := by
  have once := get?_process_of_kept keeps batch id
  have twice := get?_process_of_kept ((p.honorDelete_process batch).trans keeps) batch id
  have counts (surface : Option Surface) : surface.map Surface.uncounted =
      (surface.map Surface.untouched).map Surface.uncounted := by
    cases surface <;> rfl
  rw [counts, counts ((p.process batch).get? id), twice, once]
  by_cases empty : (Message.Rows.of id (Message.among batch)).all = []
  · simp only [empty, ↓reduceIte]
  · simp only [empty, ↓reduceIte, Option.getD_some, Option.map_some, Surface.extended_extended]

/-- A message that removes nothing keeps the surfaces in their order; a new one comes at the end. -/
theorem ids_prefix_apply {p : Processor} {message : Message}
    (keeps : (p.honorDelete && message.removed?.isSome) = false) :
    p.ids <+: (p.apply message).1.ids := by
  cases target : message.target? with
  | some id =>
    rw [ids_apply_of_target target]
    split
    · exact List.prefix_refl _
    · exact List.prefix_append _ _
  | none =>
    rw [apply_of_no_target target]
    cases honored : p.honorDelete with
    | false => exact List.prefix_refl _
    | true =>
      rw [honored, Bool.true_and, Option.isSome_eq_false_iff, Option.isNone_iff_eq_none] at keeps
      rw [keeps]
      exact List.prefix_refl _

theorem ids_prefix_applyAll {p : Processor} {messages : List Message}
    (keeps : (p.honorDelete && messages.any fun message => message.removed?.isSome) = false) :
    p.ids <+: (p.applyAll messages).ids := by
  induction messages generalizing p with
  | nil => exact List.prefix_refl _
  | cons message messages ih =>
    rw [List.any_cons, Bool.and_or_distrib_left, Bool.or_eq_false_iff] at keeps
    exact (ids_prefix_apply keeps.1).trans (ih (by simpa using keeps.2))

/-- The surfaces that messages are for are there afterwards. -/
theorem mem_ids_applyAll {p : Processor} (keeps : p.honorDelete = false)
    {messages : List Message} {message : Message} (member : message ∈ messages) {id : String}
    (target : message.target? = some id) : id ∈ (p.applyAll messages).ids := by
  obtain ⟨before, after, rfl⟩ := List.append_of_mem member
  rw [applyAll_append, applyAll_cons]
  have made (q : Processor) : id ∈ (q.apply message).1.ids := by
    rw [ids_apply_of_target target]
    split
    · next known => exact known
    · simp
  exact (ids_prefix_applyAll (by simp [keeps])).subset (made _)

theorem ids_applyAll_of_known {p : Processor} (keeps : p.honorDelete = false)
    {messages : List Message}
    (known : ∀ message ∈ messages, ∀ id, message.target? = some id → id ∈ p.ids) :
    (p.applyAll messages).ids = p.ids := by
  induction messages generalizing p with
  | nil => rfl
  | cons message messages ih =>
    have first : (p.apply message).1.ids = p.ids := by
      cases target : message.target? with
      | some id => rw [ids_apply_of_target target, if_pos (known message (by simp) id target)]
      | none =>
        rw [apply_of_no_target target, keeps]
        rfl
    rw [applyAll_cons, ih (by simp [keeps]), first]
    intro other member id target
    rw [first]
    exact known other (by simp [member]) id target

theorem ids_process_process {p : Processor} (keeps : p.honorDelete = false) (batch : List Value) :
    ((p.process batch).process batch).ids = (p.process batch).ids := by
  rw [process_eq (p.process batch)]
  refine ids_applyAll_of_known (by simp [keeps]) ?_
  intro message member id target
  rw [process_eq]
  exact mem_ids_applyAll keeps member target

theorem find?_of_mem {surfaces : List Surface} (distinct : (surfaces.map (·.id)).Nodup)
    {surface : Surface} (member : surface ∈ surfaces) :
    surfaces.find? (·.id = surface.id) = some surface := by
  induction surfaces with
  | nil => cases member
  | cons first rest ih =>
    obtain ⟨new, distinct⟩ := List.nodup_cons.mp distinct
    rcases List.mem_cons.mp member with rfl | later
    · simp
    · have apart : first.id ≠ surface.id := fun same =>
        new (List.mem_map.mpr ⟨surface, later, same.symm⟩)
      rw [List.find?_cons_of_neg (by simpa using apart)]
      exact ih distinct later

theorem map_get?_ids {p : Processor} (distinct : p.ids.Nodup) :
    p.ids.map p.get? = p.surfaces.map some := by
  rw [ids, List.map_map]
  exact List.map_congr_left fun surface member => find?_of_mem distinct member

/-- The surfaces of two processors are the same in a view if they are so under each identifier. -/
theorem map_surfaces_eq {α : Type} {p q : Processor} (view : Surface → α) (same : p.ids = q.ids)
    (distinct : p.ids.Nodup) (found : ∀ id, (p.get? id).map view = (q.get? id).map view) :
    p.surfaces.map view = q.surfaces.map view := by
  have seen {r : Processor} (unique : r.ids.Nodup) :
      (r.surfaces.map view).map some = r.ids.map fun id => (r.get? id).map view := by
    have places := congrArg (List.map (Option.map view)) (map_get?_ids unique)
    simpa [Function.comp_def] using places.symm
  refine (List.map_inj_right fun _ _ => Option.some.inj).mp ?_
  rw [seen distinct, seen (same ▸ distinct), same]
  exact List.map_congr_left fun id _ => found id

end Processor

/-- Renderers do not see the counts of changes. -/
theorem Renderer.all_congr {ν : Type} (renderer : Renderer ν) {surfaces others : List Surface}
    (same : surfaces.map Surface.uncounted = others.map Surface.uncounted) :
    renderer.all surfaces = renderer.all others := by
  have blind : renderer.surface ∘ Surface.uncounted = renderer.surface := rfl
  have seen (shown : List Surface) :
      shown.mapM renderer.surface = (shown.map Surface.uncounted).mapM renderer.surface := by
    rw [List.mapM_map, blind]
  rw [Renderer.all, Renderer.all, seen surfaces, seen others, same]

/-- Processing a batch twice leaves the same surfaces as processing it once: the same identifiers
in the same order, each with the same root, look, components and data, so that they are also shown
the same. Only the counts of changes differ. -/
theorem Processor.process_process {p : Processor} (reached : p.Reachable)
    (keeps : p.honorDelete = false) (batch : List Value) :
    ((p.process batch).process batch).surfaces.map Surface.uncounted =
      (p.process batch).surfaces.map Surface.uncounted ∧
    ∀ {ν : Type} (renderer : Renderer ν),
      renderer.all ((p.process batch).process batch).surfaces =
        renderer.all (p.process batch).surfaces := by
  have same : ((p.process batch).process batch).surfaces.map Surface.uncounted =
      (p.process batch).surfaces.map Surface.uncounted :=
    map_surfaces_eq Surface.uncounted (ids_process_process keeps batch)
      ((reached.process batch).process batch).nodup (get?_process_process keeps batch)
  exact ⟨same, fun renderer => renderer.all_congr same⟩

/-- Writes that replace and destroy the objects that others write into may come twice, also with
values among them that are no messages. -/
theorem Processor.process_process_of_overlapping :
    let write (path : String) (value : Fields) : Value :=
      .obj [("dataModelUpdate",
        .obj [("surfaceId", .str "a"), ("path", .str path), ("value", .obj value)])]
    let batch := [write "/x/y" [("n", .int 1)], .null, write "/" [("x", .int 2)],
      write "/x/z" [("m", .int 3)]]
    let p : Processor := Processor.process { honorDelete := false } [write "/x/z/z" []]
    p.Reachable ∧ p.honorDelete = false ∧
    (p.process batch).surfaces.map (·.data) = [[("x", .obj [("z", .obj [("m", .int 3)])])]] ∧
    ((p.process batch).process batch).surfaces.map Surface.uncounted =
      (p.process batch).surfaces.map Surface.uncounted := by
  intro write batch p
  have reached : p.Reachable := (Reachable.fresh false).process _
  have keeps : p.honorDelete = false := by decide
  exact ⟨reached, keeps, by decide, (process_process reached keeps batch).1⟩

end LiveSurface
