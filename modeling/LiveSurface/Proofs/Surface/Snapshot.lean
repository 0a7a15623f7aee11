import LiveSurface.Proofs.Surface.Making
import LiveSurface.Proofs.Surface.Soundness

/-!
# Snapshots

The full account of a surface is enough to make it again: read back as messages for a fresh
processor, it gives a surface that differs from the first one in nothing but the counts of its
changes (`run_restored`). This rests on what holds of every surface that came about from values
without bytes and without infinite numbers: its definitions are written as they are, and no two of
them have the same identifier (`Surface.Portable`).
-/
namespace LiveSurface

open Validation Outbound

/-- A value that JSON has words for. -/
inductive Value.Plain : Value → Prop
  | null : Plain .null
  | bool (b : Bool) : Plain (.bool b)
  | int (n : Int) : Plain (.int n)
  | real {d : Double} (finite : d.isFinite = true) : Plain (.real d)
  | str (s : String) : Plain (.str s)
  | list {items : List Value} (each : ∀ item ∈ items, Plain item) : Plain (.list items)
  | obj {fields : Fields} (each : ∀ field ∈ fields, Plain field.2) : Plain (.obj fields)

namespace Value

theorem portableItems_eq {items : List Value} (same : ∀ item ∈ items, portable item = item) :
    portableItems items = items := by
  induction items with
  | nil => rfl
  | cons item rest ih =>
    rw [List.forall_mem_cons] at same
    rw [portableItems, same.1, ih same.2]

theorem portableFields_eq {fields : Fields} (same : ∀ field ∈ fields, portable field.2 = field.2) :
    portableFields fields = fields := by
  induction fields with
  | nil => rfl
  | cons field rest ih =>
    rw [List.forall_mem_cons] at same
    rw [portableFields, same.1, ih same.2]

theorem Plain.portable_eq {v : Value} (plain : v.Plain) : v.portable = v := by
  induction plain with
  | null | bool | int | str => rfl
  | real finite => rw [portable, if_pos finite]
  | list each ih => rw [portable, portableItems_eq ih]
  | obj each ih => rw [portable, portableFields_eq ih]

theorem plain_list_iff {items : List Value} :
    (Value.list items).Plain ↔ ∀ item ∈ items, item.Plain :=
  ⟨fun plain => by cases plain with | list each => exact each, .list⟩

theorem plain_obj_iff {fields : Fields} :
    (Value.obj fields).Plain ↔ ∀ field ∈ fields, field.2.Plain :=
  ⟨fun plain => by cases plain with | obj each => exact each, .obj⟩

theorem Plain.get? {fields : Fields} (plain : (Value.obj fields).Plain) {name : String} {v : Value}
    (found : Entries.get? fields name = some v) : v.Plain :=
  plain_obj_iff.mp plain _ (Entries.mem_of_get? found)

end Value

namespace Definition

/-- What is read from plain values has plain properties. -/
theorem plain_of_decode? {raw : Value} (plain : raw.Plain) {definition : Definition}
    (decoded : decode? raw = some definition) : definition.props.Plain := by
  obtain ⟨body, rfl, -, ⟨component, -⟩, -⟩ := decode?_eq_some_iff.mp decoded
  have own : Entries.get? [(definition.kind, definition.props)] definition.kind =
      some definition.props := by simp [Entries.get?]
  exact (plain.get? component).get? own

/-- A definition is read back from its entry. -/
theorem decode?_toValue {definition : Definition} (named : definition.id ≠ "")
    (known : definition.kind ≠ "") (plain : definition.props.Plain) :
    decode? definition.toValue = some definition := by
  refine decode?_eq_some_iff.mpr ⟨_, rfl, ⟨?_, named⟩, ⟨?_, known⟩, ?_⟩
  · simp [Entries.get?]
  · rw [plain.portable_eq]
    cases definition.weight <;> simp [Entries.get?]
  · cases weight : definition.weight <;>
      simp [givenOr, given?, Entries.get?, nullable, real, Checked.map]

end Definition

namespace Registry

theorem nodup_upsert {registry : Registry} (distinct : registry.ids.Nodup)
    (definition : Definition) : (registry.upsert definition).ids.Nodup := by
  rw [ids_upsert]
  split
  · exact distinct
  · next new => exact List.nodup_append.mpr ⟨distinct, by simp, by grind⟩

theorem nodup_upsertAll {registry : Registry} (distinct : registry.ids.Nodup)
    (entries : List Value) : (registry.upsertAll entries).ids.Nodup := by
  unfold upsertAll
  generalize entries.filterMap Definition.decode? = definitions
  induction definitions generalizing registry with
  | nil => exact distinct
  | cons definition rest ih => exact ih (nodup_upsert distinct definition)

theorem foldl_upsert_of_nodup {registry definitions : Registry}
    (distinct : (registry ++ definitions).ids.Nodup) :
    definitions.foldl upsert registry = registry ++ definitions := by
  have keys : Entries.keys (registry.entries ++ definitions.entries) =
      (registry ++ definitions).ids := by
    simp [Entries.keys, entries, ids, Function.comp_def]
  have changes : Entries.changeAll registry.entries (definitions.map changeOf) =
      Entries.update registry.entries definitions.entries := by
    rw [Entries.changeAll, Entries.update, entries, entries, List.foldl_map, List.foldl_map]
    rfl
  have whole := entries_foldl_upsert registry definitions
  rw [changes, Entries.update_of_nodup (keys ▸ distinct)] at whole
  calc definitions.foldl upsert registry
    _ = (definitions.foldl upsert registry).entries.map Prod.snd := (map_entries _).symm
    _ = (registry.entries ++ definitions.entries).map Prod.snd := by rw [whole]
    _ = registry ++ definitions := by rw [List.map_append, map_entries, map_entries]

end Registry

/-- A message brings no values but plain ones as definitions. -/
def Message.Plain : Message → Prop
  | surfaceUpdate _ components => ∀ raw ∈ components, raw.Plain
  | _ => True

theorem Message.plain_of_decode? {raw : Value} (plain : raw.Plain) {message : Message}
    (decoded : decode? raw = some message) : message.Plain := by
  obtain ⟨fields, form, body, rfl, picked, found, made⟩ := decode?_eq_some_iff.mp decoded
  have member := List.mem_of_find?_eq_some picked
  simp only [forms, List.mem_cons, List.not_mem_nil, or_false] at member
  rcases member with rfl | rfl | rfl | rfl | rfl <;>
    obtain ⟨id, -, rfl⟩ := Option.map_eq_some_iff.mp made
  case inr.inl =>
    intro entry member
    unfold givenOr given? at member
    cases brought : Entries.get? body "components" with
    | none => simp [brought] at member
    | some v =>
      have inside : v.Plain := (plain.get? found).get? brought
      cases v with
      | list items =>
        have listed : entry ∈ items := by simpa [brought, anyList] using member
        exact Value.plain_list_iff.mp inside entry listed
      | _ => simp [brought, anyList] at member
  all_goals trivial

/-- The definitions of a surface have identifiers of their own and plain properties. -/
structure Surface.Portable (surface : Surface) : Prop where
  distinct : surface.components.ids.Nodup
  plain : ∀ definition ∈ surface.components, definition.props.Plain

theorem Surface.Portable.new (id : String) : Surface.Portable { id } where
  distinct := List.nodup_nil
  plain definition member := by cases member

/-- A message with plain values leaves a surface portable. -/
theorem Surface.Portable.take {surface : Surface} (portable : surface.Portable) {message : Message}
    (plain : message.Plain) : (surface.take message).Portable := by
  cases message with
  | surfaceUpdate id components =>
    refine ⟨Registry.nodup_upsertAll portable.distinct components, fun definition member => ?_⟩
    rcases Registry.mem_upsertAll member with old | ⟨raw, inside, decoded⟩
    · exact portable.plain definition old
    · exact Definition.plain_of_decode? (plain raw inside) decoded
  | beginRendering => exact ⟨portable.distinct, portable.plain⟩
  | dataModelUpdate | userAction | deleteSurface =>
    simp only [Surface.take]
    split <;> exact ⟨portable.distinct, portable.plain⟩

namespace Processor

/-- What holds of an empty surface and is kept by what a message brings, whatever the counts are,
is kept for all surfaces. -/
theorem forall_apply {Holds : Surface → Prop} (fresh : ∀ id, Holds { id }) {p : Processor}
    {message : Message}
    (kept : ∀ surface version touched, Holds surface →
      Holds { surface.take message with version, touched })
    (start : ∀ surface ∈ p.surfaces, Holds surface) :
    ∀ surface ∈ (p.apply message).1.surfaces, Holds surface := by
  have ensured : ∀ id, ∀ surface ∈ (p.ensure id).surfaces, Holds surface := by
    intro id surface member
    unfold ensure at member
    split at member
    · exact start surface member
    · rcases List.mem_append.mp member with old | new
      · exact start surface old
      · obtain rfl := List.mem_singleton.mp new
        exact fresh id
  have removed : ∀ id, ∀ surface ∈ (p.remove id).surfaces, Holds surface :=
    fun id surface member => start surface (List.mem_of_mem_filter member)
  cases target : message.target? with
  | some id =>
    rw [apply_of_target target]
    cases message.fault? with
    | some fault => exact ensured id
    | none =>
      intro surface member
      obtain ⟨old, inside, rfl⟩ := List.mem_map.mp member
      have before := ensured id old inside
      by_cases own : old.id = id
      · rw [if_pos own]
        exact kept old _ _ before
      · rw [if_neg own]
        exact before
  | none =>
    rw [apply_of_no_target target]
    cases message.removed? with
    | none => simpa using start
    | some id =>
      cases p.honorDelete with
      | false => exact start
      | true => exact removed id

theorem portable_apply {p : Processor} (portable : ∀ surface ∈ p.surfaces, surface.Portable)
    {message : Message} (plain : message.Plain) :
    ∀ surface ∈ (p.apply message).1.surfaces, surface.Portable := by
  refine forall_apply .new (fun surface _ _ before => ?_) portable
  exact ⟨(before.take plain).distinct, (before.take plain).plain⟩

theorem portable_process {p : Processor} (portable : ∀ surface ∈ p.surfaces, surface.Portable)
    {batch : List Value} (plain : ∀ raw ∈ batch, raw.Plain) :
    ∀ surface ∈ (p.process batch).surfaces, surface.Portable := by
  have read : ∀ message ∈ Message.among batch, message.Plain := by
    intro message member
    obtain ⟨raw, inside, decoded⟩ := List.mem_filterMap.mp member
    exact Message.plain_of_decode? (plain raw inside) decoded
  rw [process_eq]
  generalize Message.among batch = messages at read
  induction messages generalizing p with
  | nil => exact portable
  | cons message rest ih =>
    rw [List.forall_mem_cons] at read
    exact ih (portable_apply portable read.1) read.2

/-- Every surface of a run whose values are plain is portable. -/
theorem portable_run {p : Processor} (portable : ∀ surface ∈ p.surfaces, surface.Portable)
    {steps : List Step} (plain : ∀ batch, .process batch ∈ steps → ∀ raw ∈ batch, raw.Plain) :
    ∀ surface ∈ (p.run steps).surfaces, surface.Portable := by
  induction steps generalizing p with
  | nil => exact portable
  | cons step rest ih =>
    have later : ∀ batch, .process batch ∈ rest → ∀ raw ∈ batch, raw.Plain :=
      fun batch member => plain batch (List.mem_cons_of_mem _ member)
    refine @ih (p.after step) ?_ later
    cases step with
    | process batch => exact portable_process portable (plain batch List.mem_cons_self)
    | evict id => exact fun surface member => portable surface (List.mem_of_mem_filter member)
    | clear => exact nofun

end Processor

/-- The messages that bring back what a snapshot tells: the root and the look where they are set,
the components, and the data. -/
def Surface.restoring (snapshot : Fields) : List Value :=
  let told (name : String) : Value := (Entries.get? snapshot name).getD .null
  let set (name : String) : Fields := if told name = .null then [] else [(name, told name)]
  let id : String × Value := ("surfaceId", told "surface_id")
  [tagged "beginRendering" (id :: (set "root" ++ set "styles")),
    tagged "surfaceUpdate" [id, ("components", told "components")],
    tagged "dataModelUpdate" [id, ("value", told "data_model")]]

theorem Styles.read_setFields (styles : Styles) : read styles.setFields = .valid styles := by
  obtain ⟨color, font⟩ := styles
  cases color <;> cases font <;> rfl

theorem Message.decode?_opening {id : String} (named : id ≠ "") {root : Option String}
    (rooted : root ≠ some "") (styles : Option Styles) :
    decode? (tagged "beginRendering"
      (("surfaceId", .str id) :: ((root.map fun r => ("root", Value.str r)).toList ++
        (styles.map fun look => ("styles", Value.obj look.setFields)).toList))) =
      some (.beginRendering id root styles) := by
  rw [decode?_beginRendering (by simp [Entries.get?]) named]
  cases root with
  | none =>
    cases styles <;>
      simp [givenOr, given?, Entries.get?, nullable, record, Styles.read_setFields, Checked.map]
  | some root =>
    have nonempty : root ≠ "" := fun empty => rooted (congrArg some empty)
    cases styles <;>
      simp [givenOr, given?, Entries.get?, nullable, nonEmpty, nonempty, record,
        Styles.read_setFields, Checked.map]

namespace Surface

theorem restoring_snapshot (surface : Surface) (created updated : Value) :
    restoring (surface.snapshot [("created_at", created), ("updated_at", updated)]) =
      [tagged "beginRendering" (("surfaceId", .str surface.id) ::
          ((surface.root.map fun r => ("root", Value.str r)).toList ++
            (surface.styles.map fun look => ("styles", Value.obj look.setFields)).toList)),
        tagged "surfaceUpdate" [("surfaceId", .str surface.id),
          ("components", .list (surface.components.map Definition.toValue))],
        tagged "dataModelUpdate"
          [("surfaceId", .str surface.id), ("value", .obj surface.data)]] := by
  cases root : surface.root <;> cases styles : surface.styles <;>
    simp [restoring, snapshot, summary, stylesValue, root, styles, Entries.get?]

/-- The messages are read as what the surface holds. -/
theorem among_restoring {surface : Surface} {history : History} (sound : surface.Sound history)
    (created updated : Value) :
    Message.among
        (restoring (surface.snapshot [("created_at", created), ("updated_at", updated)])) =
      [.beginRendering surface.id surface.root surface.styles,
        .surfaceUpdate surface.id (surface.components.map Definition.toValue),
        .dataModelUpdate surface.id none [] (some surface.data)] := by
  have opening := Message.decode?_opening sound.named sound.root surface.styles
  have update := Message.decode?_surfaceUpdate sound.named
    (surface.components.map Definition.toValue)
  have data : Message.decode? (tagged "dataModelUpdate" [("surfaceId", .str surface.id),
      ("value", .obj surface.data)]) =
      some (.dataModelUpdate surface.id none [] (some surface.data)) := by
    rw [Message.decode?_dataModelUpdate (by simp [Entries.get?]) sound.named]
    simp [givenOr, given?, Entries.get?, nullable, object, Checked.map]
  rw [restoring_snapshot, Message.among, List.filterMap_cons_some opening,
    List.filterMap_cons_some update, List.filterMap_cons_some data, List.filterMap_nil]

/-- What a surface holds, brought to an empty surface, makes it again. -/
theorem foldl_take_restoring {surface : Surface} {history : History}
    (sound : surface.Sound history) (portable : surface.Portable) :
    [Message.beginRendering surface.id surface.root surface.styles,
      .surfaceUpdate surface.id (surface.components.map Definition.toValue),
      .dataModelUpdate surface.id none [] (some surface.data)].foldl take { id := surface.id } =
      surface.uncounted := by
  have read : ∀ definition ∈ surface.components,
      Definition.decode? definition.toValue = some definition := by
    intro definition member
    obtain ⟨raw, decoded⟩ := sound.described definition member
    obtain ⟨body, -, ⟨-, named⟩, ⟨-, known⟩, -⟩ := Definition.decode?_eq_some_iff.mp decoded
    exact Definition.decode?_toValue named known (portable.plain definition member)
  have components : Registry.upsertAll [] (surface.components.map Definition.toValue) =
      surface.components := by
    have decoded : (surface.components.map Definition.toValue).filterMap Definition.decode? =
        surface.components := by
      rw [List.filterMap_map]
      exact (List.filterMap_congr read).trans List.filterMap_some
    rw [Registry.upsertAll, decoded]
    exact Registry.foldl_upsert_of_nodup portable.distinct
  have data : Fields.write [] [] surface.data = surface.data :=
    Entries.update_of_nodup sound.mapping
  have written : Message.write? (.dataModelUpdate surface.id none [] (some surface.data)) =
      some ([], surface.data) := rfl
  simp [take, written, components, data, uncounted]

end Surface

namespace Processor

/-- A snapshot of a surface loses nothing. Of every surface that came about from values without
bytes and without infinite numbers, the messages that bring back its snapshot make a surface on a
fresh processor, and no other, with the same identifier, root, look, components and data, so that it
is also shown the same by every renderer. -/
theorem run_restored (honored : Bool) (steps : List Step)
    (plain : ∀ batch, .process batch ∈ steps → ∀ raw ∈ batch, raw.Plain) :
    ∀ surface ∈ (run { honorDelete := honored } steps).surfaces,
      ∀ (created updated : Value) (honored' : Bool), ∃ rebuilt,
        (process { honorDelete := honored' } (Surface.restoring
          (surface.snapshot [("created_at", created), ("updated_at", updated)]))).surfaces =
          [rebuilt] ∧
        rebuilt.id = surface.id ∧ rebuilt.root = surface.root ∧ rebuilt.styles = surface.styles ∧
        rebuilt.components = surface.components ∧ rebuilt.data = surface.data ∧
        ∀ {ν : Type} (renderer : Renderer ν),
          renderer.surface rebuilt = renderer.surface surface := by
  intro surface member created updated honored'
  have whole := (Sound.fresh honored).run steps
  have own := find?_of_mem whole.follows.nodup member
  have sound := whole.surfaces surface.id surface own
  have portable := portable_run (fun _ absent => by cases absent) plain surface member
  have among := surface.among_restoring sound created updated
  have made := @process_fresh honored' surface.id
    (Surface.restoring (surface.snapshot [("created_at", created), ("updated_at", updated)]))
    (by rw [among]; exact nofun)
    (by rw [among]; simp [Message.target?, Message.fault?, Contents.decode, Contents.decodeEntries])
  rw [among, surface.foldl_take_restoring sound portable] at made
  rw [made]
  exact ⟨_, rfl, rfl, rfl, rfl, rfl, rfl, fun _ => rfl⟩

/-- A surface with a look and no root, whose first component was described twice, beside another one
that was removed. -/
theorem run_restored_of_rootless :
    let entry (id kind : String) (weight : Fields) (props : Value) : Value :=
      .obj (("id", .str id) :: ("component", .obj [(kind, props)]) :: weight)
    let update (id : String) (entries : List Value) : Value :=
      tagged "surfaceUpdate" [("surfaceId", .str id), ("components", .list entries)]
    let look : Value := tagged "beginRendering"
      [("surfaceId", .str "s"), ("root", .str ""), ("styles", .obj [("font", .str "Serif")])]
    let steps : List Step :=
      [.process [update "s" [entry "a" "Icon" [] .null, entry "b" "Odd" [] (.list [.int 1])],
          update "t" []],
        .evict "t", .process [look, update "s" [entry "a" "Text" [("weight", .int 2)] (.obj [])]]]
    let two : Double := .finite false 1 1 (by decide)
    (∀ batch, .process batch ∈ steps → ∀ raw ∈ batch, raw.Plain) ∧
    ∃ surface rebuilt, (run { honorDelete := true } steps).surfaces = [surface] ∧
      surface.components = [⟨"a", some two, "Text", .obj []⟩, ⟨"b", none, "Odd", .list [.int 1]⟩] ∧
      (process { honorDelete := false } (Surface.restoring
        (surface.snapshot [("created_at", .int 1), ("updated_at", .int 2)]))).surfaces =
        [rebuilt] ∧
      rebuilt.root = none ∧ rebuilt.styles = some ⟨none, some "Serif"⟩ ∧
      rebuilt.components = surface.components := by
  intro entry update look steps two
  have plain : ∀ batch, .process batch ∈ steps → ∀ raw ∈ batch, raw.Plain := by
    intro batch member
    simp only [steps, List.mem_cons, Step.process.injEq, reduceCtorEq, List.not_mem_nil, or_false,
      false_or] at member
    rcases member with rfl | rfl <;>
      simp [update, entry, look, tagged, Value.plain_obj_iff, Value.plain_list_iff, Value.Plain.str,
        Value.Plain.int, Value.Plain.null]
  let surface : Surface :=
    { id := "s", styles := some ⟨none, some "Serif"⟩, version := 4, touched := 4,
      components := [⟨"a", some two, "Text", .obj []⟩, ⟨"b", none, "Odd", .list [.int 1]⟩] }
  have made : (run { honorDelete := true } steps).surfaces = [surface] := by decide +kernel
  obtain ⟨rebuilt, only, -, root, styles, components, -⟩ :=
    run_restored true steps plain surface (by simp [made]) (.int 1) (.int 2) false
  exact ⟨plain, surface, rebuilt, made, rfl, only, root, styles, components⟩

end Processor
end LiveSurface
