import LiveSurface.Data.Contents
import LiveSurface.Proofs.Number.Exact

/-!
# Values on their way through typed contents

Reading typed contents undoes writing them. The two forms in which an object is written, under a
field of its own in an entry and as a bare list of entries among items, are told apart again, and
so are the items of lists in lists. Only numbers without a fraction change: they arrive as whole
numbers (`decode_encode`).
-/
namespace LiveSurface

namespace Value

mutual

/-- The form in which a value arrives: a number without a fraction is a whole number. -/
def settled : Value → Value
  | .real d =>
    match d.toInt? with
    | some n => .int n
    | none => .real d
  | .list items => .list (settledItems items)
  | .obj fields => .obj (settledFields fields)
  | v => v
termination_by structural v => v

/-- The forms in which the items of a list arrive. -/
def settledItems : List Value → List Value
  | [] => []
  | item :: rest => settled item :: settledItems rest
termination_by structural v => v

/-- The forms in which the fields of an object arrive. -/
def settledFields : List (String × Value) → List (String × Value)
  | [] => []
  | (key, value) :: rest => (key, settled value) :: settledFields rest
termination_by structural v => v

end

/-- The values that typed contents can carry: no bytes, whole numbers that binary64 has, and at
every depth objects with distinct keys of which none is empty. -/
inductive Transferable : Value → Prop
  | null : Transferable .null
  | bool (b : Bool) : Transferable (.bool b)
  | int {n : Int} (exact : Double.Exact n) : Transferable (.int n)
  | real (d : Double) : Transferable (.real d)
  | str (s : String) : Transferable (.str s)
  | list {items : List Value} (each : ∀ item ∈ items, Transferable item) :
    Transferable (.list items)
  | obj {fields : Fields} (distinct : (Entries.keys fields).Nodup)
    (named : ∀ field ∈ fields, field.1 ≠ "") (each : ∀ field ∈ fields, Transferable field.2) :
    Transferable (.obj fields)

theorem keys_settledFields (fields : Fields) :
    Entries.keys (settledFields fields) = Entries.keys fields := by
  induction fields with
  | nil => rfl
  | cons field rest ih => exact congrArg (field.1 :: ·) ih

end Value

theorem Entries.set_of_not_mem {α : Type} {entries : Entries α} {key : String}
    (new : key ∉ entries.keys) (value : α) : set entries key value = entries ++ [(key, value)] := by
  induction entries with
  | nil => rfl
  | cons entry rest ih =>
    obtain ⟨k, v⟩ := entry
    have apart : ¬ k = key := fun same => new (by simp [keys, same])
    have later : key ∉ keys rest := fun member => new (List.mem_cons_of_mem _ member)
    rw [set, if_neg apart, ih later, List.cons_append]

namespace Contents

theorem decodeTyped_cons_key (key : Value) (block : Fields) :
    decodeTyped (("key", key) :: block) = decodeTyped block := by
  simp [decodeTyped, mapOf?, listOf?, decodeScalar, Entries.get?]

/-- An item of a list is read as the typed value that it was written from, whichever of its two
forms it has. -/
theorem decodeItem_encodeItem (v : Value) : decodeItem (encodeItem v) = decodeTyped [typed v] := by
  cases v <;>
    simp [encodeItem, decodeItem, decodeTyped, typed, typedScalar, isTyped, typedKeys, mapOf?,
      listOf?, decodeMap, Entries.has, Entries.get?]

theorem decodeEntry_typed {key : String} (named : key ≠ "") (v : Value) :
    decodeEntry (.obj [("key", .str key), typed v]) = (decodeTyped [typed v]).map (key, ·) := by
  have known : entryKey? [("key", .str key), typed v] = some key := by
    simp [entryKey?, Entries.get?, named]
  rw [← decodeTyped_cons_key (.str key), decodeEntry, known]
  rfl

theorem decodeItems_encodeItems {items : List Value}
    (each : ∀ item ∈ items, decodeTyped [typed item] = .ok item.settled) :
    decodeItems (encodeItems items) = .ok (Value.settledItems items) := by
  induction items with
  | nil => rfl
  | cons item rest ih =>
    have first := each item (by simp)
    have later := ih fun other member => each other (by simp [member])
    rw [encodeItems, decodeItems, decodeItem_encodeItem, first, later]
    rfl

/-- The entries of an object are read one after another onto the fields read before, and none of
them replaces another. -/
theorem decodeEntries_encode (before : Fields) {fields : Fields}
    (distinct : (Entries.keys (before ++ fields)).Nodup) (named : ∀ field ∈ fields, field.1 ≠ "")
    (each : ∀ field ∈ fields, decodeTyped [typed field.2] = .ok field.2.settled) :
    decodeEntries before (encode fields) = .ok (before ++ Value.settledFields fields) := by
  induction fields generalizing before with
  | nil => simp [encode, decodeEntries, Value.settledFields]
  | cons field rest ih =>
    obtain ⟨key, value⟩ := field
    have first : decodeTyped [typed value] = .ok value.settled := each (key, value) (by simp)
    have split : Entries.keys (before ++ (key, value) :: rest) =
        Entries.keys before ++ key :: Entries.keys rest := by simp [Entries.keys]
    rw [split] at distinct
    have new : key ∉ Entries.keys before := fun member =>
      (List.nodup_append.mp distinct).2.2 key member key (by simp) rfl
    have others : (Entries.keys ((before ++ [(key, value.settled)]) ++ rest)).Nodup := by
      simpa [Entries.keys] using distinct
    rw [encode, decodeEntries, decodeEntry_typed (named (key, value) (by simp)), first]
    simp only [Except.map, Entries.set_of_not_mem new]
    rw [ih _ others (fun other member => named other (by simp [member]))
      (fun other member => each other (by simp [member]))]
    simp [Value.settledFields]

theorem decodeNumber_of_exact {n : Int} (exact : Double.Exact n) :
    decodeNumber (.int n) = .ok (.int n) := by
  obtain ⟨d, nearest, equal⟩ := Double.ofInt?_of_exact exact
  simp [decodeNumber, Value.toReal?, nearest, equal]

/-- The typed value of a value that can be carried is read as that value. -/
theorem decodeTyped_typed {v : Value} (transferable : v.Transferable) :
    decodeTyped [typed v] = .ok v.settled := by
  induction transferable with
  | null | bool | str => rfl
  | int exact => exact decodeNumber_of_exact exact
  | real d =>
    cases whole : d.toInt? with
    | none | some n =>
      simp [decodeTyped, typed, typedScalar, mapOf?, listOf?, decodeScalar, Entries.get?,
        decodeNumber, Value.toReal?, Value.settled, whole]
  | list each ih =>
    have items := decodeItems_encodeItems ih
    simp [decodeTyped, typed, mapOf?, listOf?, decodeList, items, Value.settled, Except.map]
  | obj distinct named each ih =>
    have entries := decodeEntries_encode [] distinct named ih
    simp [decodeTyped, typed, mapOf?, decodeMap, entries, Value.settled, Except.map]

theorem mapM_toField (fields : Fields) :
    (fields.map fun field => (Value.str field.1, field.2)).mapM toField = .ok fields := by
  induction fields with
  | nil => rfl
  | cons field rest ih =>
    rw [List.map_cons, List.mapM_cons, ih]
    rfl

theorem encodeValue_obj (fields : Fields) : encodeValue (.obj fields) = .ok (encode fields) := by
  cases fields with
  | nil => rfl
  | cons field rest =>
    have named := mapM_toField (field :: rest)
    simp only [encodeValue, Value.truth, Value.pairs]
    exact congrArg (· >>= fun fields => pure (encode fields)) named

/-- An object that typed contents can carry arrives with every field in its place, and only
numbers without a fraction have become whole numbers. -/
theorem decode_encode {fields : Fields} (transferable : (Value.obj fields).Transferable) :
    ∃ entries, encodeValue (.obj fields) = .ok entries ∧
      decode entries = .ok (Value.settledFields fields) ∧
      Entries.keys (Value.settledFields fields) = Entries.keys fields := by
  refine ⟨encode fields, encodeValue_obj fields, ?_, Value.keys_settledFields fields⟩
  cases transferable with
  | obj distinct named each =>
    have read := decodeEntries_encode [] distinct named
      fun field member => decodeTyped_typed (each field member)
    rw [decode, read]
    rfl

/-- A list in a list, an object among its items and a number without a fraction arrive. -/
theorem decode_encode_of_nested :
    let two : Double := .finite false 1 1 (by decide)
    let fields : Fields :=
      [("a", .list [.list [.null], .obj [("b", .real two)], .obj []]), ("n", .int (-3))]
    (Value.obj fields).Transferable ∧ ∃ entries, encodeValue (.obj fields) = .ok entries ∧
      decode entries =
        .ok [("a", .list [.list [.null], .obj [("b", .int 2)], .obj []]), ("n", .int (-3))] := by
  intro two fields
  have inner : (Value.obj [("b", .real two)]).Transferable :=
    .obj (by decide) (by decide) (by simpa using .real two)
  have nulls : (Value.list [.null]).Transferable := .list (by simpa using .null)
  have empty : (Value.obj []).Transferable := .obj (by decide) (by decide) (by simp)
  have number : (Value.int (-3)).Transferable := .int ⟨.finite true 3 0 (by decide), by decide⟩
  have items : (Value.list [.list [.null], .obj [("b", .real two)], .obj []]).Transferable :=
    .list (by simp [nulls, inner, empty])
  have transferable : (Value.obj fields).Transferable :=
    .obj (by decide) (by decide) (by simpa [fields] using ⟨items, number⟩)
  obtain ⟨entries, written, read, -⟩ := decode_encode transferable
  exact ⟨transferable, entries, written, read⟩

end Contents
end LiveSurface
