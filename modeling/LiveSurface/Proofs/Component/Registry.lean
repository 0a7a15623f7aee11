import Mathlib.Data.List.Induction
import Mathlib.Data.List.Nodup
import LiveSurface.Component.Definition

/-!
# Registries as insertion-ordered maps

Whatever definitions are upserted into an empty registry, it lists each identifier once, in the
order in which they first came, with the last definition under it (`Registry.Ordered`). A table
keeps the slot of each identifier in an index beside its definitions, so that it reads without a
search. Index and slots stay inverse to one another (`Table.Sound`), and therefore a table holds and
answers what the registry does (`Table.Reads`).
-/
namespace LiveSurface

namespace Registry

variable {registry : Registry} {definition : Definition} {id : String} {slot : Nat}

theorem upsert_of_not_mem (new : definition.id ∉ registry.ids) :
    registry.upsert definition = registry ++ [definition] := by
  induction registry with
  | nil => rfl
  | cons first rest ih =>
    rw [ids, List.map_cons, List.mem_cons, not_or] at new
    rw [upsert, if_neg (Ne.symm new.1), ih new.2, List.cons_append]

/-- A definition under a known identifier goes where this stands. -/
theorem upsert_of_getElem? (distinct : registry.ids.Nodup)
    (here : registry.ids[slot]? = some definition.id) :
    registry.upsert definition = registry.set slot definition := by
  induction registry generalizing slot with
  | nil => cases here
  | cons first rest ih =>
    obtain ⟨new, distinct⟩ := List.nodup_cons.mp distinct
    cases slot with
    | zero =>
      have same : first.id = definition.id := Option.some.inj here
      rw [upsert, if_pos same, List.set_cons_zero]
    | succ slot =>
      replace here : (ids rest)[slot]? = some definition.id := here
      have other : first.id ≠ definition.id := fun same => by
        rw [← same] at here
        exact new (List.mem_of_getElem? here)
      rw [upsert, if_neg other, ih distinct here, List.set_cons_succ]

/-- The identifiers are the distinct ones of the definitions, as they first came. -/
theorem ids_foldl_upsert (definitions : List Definition) :
    (definitions.foldl upsert empty).ids = (definitions.map (·.id)).eraseDups := by
  -- Induction from the end: each definition comes to all that came before it.
  induction definitions using List.reverseRecOn with
  | nil => rfl
  | append_singleton definitions definition ih =>
    rw [List.foldl_concat, ids_upsert, ih, List.map_append, List.eraseDups_append]
    generalize definitions.map (·.id) = known
    by_cases old : definition.id ∈ known
    · rw [if_pos (List.mem_eraseDups.mpr old)]
      simp [List.removeAll, old]
    · rw [if_neg (mt List.mem_eraseDups.mp old)]
      simp [List.removeAll, old, List.eraseDups_cons]

theorem indexOf?_eq_some_iff (distinct : registry.ids.Nodup) :
    registry.indexOf? id = some slot ↔ registry.ids[slot]? = some id := by
  rw [indexOf?, List.findIdx?_eq_some_iff_getElem]
  constructor
  · rintro ⟨inside, same, -⟩
    rw [ids, List.getElem?_map, List.getElem?_eq_getElem inside]
    exact congrArg some (of_decide_eq_true same)
  · intro here
    obtain ⟨inside, same⟩ := List.getElem?_eq_some_iff.mp here
    have held : slot < registry.length := by rwa [ids, List.length_map] at inside
    refine ⟨held, ?_, fun before less taken => ?_⟩
    · rw [← same]
      simp only [ids, List.getElem_map, decide_true]
    · have twice : registry.ids[before]? = registry.ids[slot]? := by
        rw [here, ids, List.getElem?_map, List.getElem?_eq_getElem (Nat.lt_trans less held)]
        exact congrArg some (of_decide_eq_true taken)
      exact List.nodup_iff_getElem?_ne_getElem?.mp distinct before slot less inside twice

theorem get?_eq_bind (registry : Registry) (id : String) :
    registry.get? id = (registry.indexOf? id).bind (registry[·]?) :=
  List.find?_eq_bind_findIdx?_getElem?

theorem contains_eq_isSome (registry : Registry) (id : String) :
    registry.contains id = (registry.indexOf? id).isSome := by
  rw [contains, get?, List.isSome_find?, indexOf?, List.findIdx?_isSome]

theorem contains_iff : registry.contains id = true ↔ id ∈ registry.ids := by
  rw [contains, get?, List.isSome_find?, List.any_eq_true, ids, List.mem_map]
  simp only [decide_eq_true_eq]

end Registry

/-- A registry in slots, with the slot of each identifier in an index beside them. -/
structure Table where
  slots : List Definition
  index : Entries Nat

namespace Table

/-- The table without definitions. -/
def empty : Table := ⟨[], []⟩

/-- The place of an identifier. -/
def indexOf? (table : Table) (id : String) : Option Nat := Entries.get? table.index id

/-- Replaces the definition in the slot of its identifier, or adds one in a new slot. -/
def upsert (table : Table) (definition : Definition) : Table :=
  match table.indexOf? definition.id with
  | none => ⟨table.slots ++ [definition], table.index.set definition.id table.slots.length⟩
  | some slot => { table with slots := table.slots.set slot definition }

/-- The definition with an identifier; what is no text is no identifier. -/
def get? (table : Table) (id : Value) : Option Definition :=
  (id.asText?.bind table.indexOf?).bind (table.slots[·]?)

/-- The identifiers in order. -/
def ids (table : Table) : List String := table.slots.map (·.id)

/-- Whether a value is a registered identifier. -/
def contains (table : Table) (id : Value) : Bool := (id.asText?.bind table.indexOf?).isSome

/-- The number of definitions. -/
def length (table : Table) : Nat := table.slots.length

/-- The index and the slots are inverse to one another. -/
def Sound (table : Table) : Prop :=
  ∀ id slot, table.indexOf? id = some slot ↔ table.ids[slot]? = some id

namespace Sound

variable {table : Table}

theorem nodup (sound : table.Sound) : table.ids.Nodup := by
  rw [List.nodup_iff_getElem?_ne_getElem?]
  intro i j less inside same
  have there := (sound _ j).mpr (List.getElem?_eq_getElem inside)
  have here := (sound _ i).mpr (same.trans (List.getElem?_eq_getElem inside))
  rw [here] at there
  exact absurd (Option.some.inj there) (Nat.ne_of_lt less)

theorem indexOf?_eq_none_iff (sound : table.Sound) {id : String} :
    table.indexOf? id = none ↔ id ∉ table.ids := by
  rw [Option.eq_none_iff_forall_ne_some, List.mem_iff_getElem?, not_exists]
  exact forall_congr' fun slot => not_congr (sound id slot)

/-- An upsert changes the slots as it changes a registry. -/
theorem slots_upsert (sound : table.Sound) (definition : Definition) :
    (table.upsert definition).slots = Registry.upsert table.slots definition := by
  rw [upsert]
  cases place : table.indexOf? definition.id with
  | none => exact (Registry.upsert_of_not_mem (sound.indexOf?_eq_none_iff.mp place)).symm
  | some slot => exact (Registry.upsert_of_getElem? sound.nodup ((sound _ _).mp place)).symm

theorem upsert (sound : table.Sound) (definition : Definition) :
    (table.upsert definition).Sound := by
  have listed : (table.upsert definition).ids =
      if definition.id ∈ table.ids then table.ids else table.ids ++ [definition.id] := by
    rw [ids, sound.slots_upsert]
    exact Registry.ids_upsert table.slots definition
  intro id slot
  rw [listed, indexOf?, Table.upsert]
  cases place : table.indexOf? definition.id with
  | none =>
    have new := sound.indexOf?_eq_none_iff.mp place
    have count : table.slots.length = table.ids.length := (List.length_map ..).symm
    have at_end : (table.ids ++ [definition.id])[slot]? = some id ↔
        table.ids[slot]? = some id ∨ slot = table.ids.length ∧ definition.id = id := by
      grind
    rw [if_neg new, Entries.get?_set, count, at_end]
    by_cases own : definition.id = id
    · subst own
      rw [if_pos rfl, Option.some.injEq]
      constructor
      · exact fun last => .inr ⟨last.symm, rfl⟩
      · rintro (held | ⟨last, -⟩)
        · exact absurd (List.mem_of_getElem? held) new
        · exact last.symm
    · rw [if_neg own, or_iff_left fun same => own same.2]
      exact sound id slot
  | some other =>
    have known : definition.id ∈ table.ids := List.mem_of_getElem? ((sound _ _).mp place)
    rw [if_pos known]
    exact sound id slot

/-- After any upserts a table is sound and holds what a registry would. -/
theorem foldl_upsert (sound : table.Sound) (definitions : List Definition) :
    (definitions.foldl Table.upsert table).Sound ∧
      (definitions.foldl Table.upsert table).slots =
        definitions.foldl Registry.upsert table.slots := by
  induction definitions generalizing table with
  | nil => exact ⟨sound, rfl⟩
  | cons definition rest ih =>
    obtain ⟨kept, same⟩ := ih (sound.upsert definition)
    exact ⟨kept, same.trans (by rw [sound.slots_upsert]; rfl)⟩

end Sound

theorem sound_empty : empty.Sound := fun _ _ => ⟨nofun, nofun⟩

/-- A table holds the definitions of a registry and answers what the registry does, and nothing for
a value that is no text. -/
structure Reads (table : Table) (registry : Registry) : Prop where
  slots : table.slots = registry
  ids : table.ids = registry.ids
  get? (id : Value) : table.get? id = id.asText?.bind registry.get?
  indexOf? (id : String) : table.indexOf? id = registry.indexOf? id
  contains (id : Value) : table.contains id = (id.asText?.map registry.contains).getD false
  length : table.length = registry.length

theorem Sound.reads {table : Table} (sound : table.Sound) : Reads table table.slots := by
  have place (id : String) : table.indexOf? id = Registry.indexOf? table.slots id :=
    Option.ext fun slot => (sound id slot).trans (Registry.indexOf?_eq_some_iff sound.nodup).symm
  refine ⟨rfl, rfl, fun id => ?_, place, fun id => ?_, rfl⟩
  · rw [get?]
    cases id.asText? with
    | none => rfl
    | some id =>
      rw [Option.bind_some, Option.bind_some, place]
      exact (Registry.get?_eq_bind table.slots id).symm
  · rw [contains]
    cases id.asText? with
    | none => rfl
    | some id =>
      rw [Option.bind_some, Option.map_some, place]
      exact (Registry.contains_eq_isSome table.slots id).symm

end Table

/-- A registry is the insertion-ordered map of definitions that came one after another: it lists
their distinct identifiers as they first came, and under each stands the last of its definitions. -/
structure Registry.Ordered (registry : Registry) (definitions : List Definition) : Prop where
  distinct : registry.ids.Nodup
  ids : registry.ids = (definitions.map (·.id)).eraseDups
  get? (id : String) : registry.get? id = (definitions.filter (·.id = id)).getLast?
  indexOf? (id : String) (slot : Nat) :
    registry.indexOf? id = some slot ↔ registry.ids[slot]? = some id
  contains (id : String) : registry.contains id = true ↔ id ∈ registry.ids
  length : registry.length = registry.ids.length

/-- A registry into which definitions are upserted is the insertion-ordered map of them, and so is a
table with an index into its slots. -/
theorem Registry.ordered_foldl_upsert (definitions : List Definition) :
    Ordered (definitions.foldl upsert empty) definitions ∧
      Table.Reads (definitions.foldl Table.upsert Table.empty)
        (definitions.foldl upsert empty) := by
  obtain ⟨sound, same⟩ := Table.sound_empty.foldl_upsert definitions
  have reads := sound.reads
  rw [same] at reads
  have distinct : (definitions.foldl upsert empty).ids.Nodup := reads.ids ▸ sound.nodup
  refine ⟨⟨distinct, ids_foldl_upsert definitions, fun id => ?_, fun id slot => ?_, fun id => ?_,
    ?_⟩, reads⟩
  · rw [get?_foldl_upsert]
    exact Option.or_none
  · exact indexOf?_eq_some_iff distinct
  · exact contains_iff
  · exact (List.length_map ..).symm

end LiveSurface
