import LiveSurface.Data.Contents
import LiveSurface.Proofs.Number.Range
import LiveSurface.Proofs.Result

/-!
# Entries on their own

Typed contents are read entry by entry. What a row of entries gives is what its parts give, the
later part written onto the earlier one, and an entry that gives nothing may as well be missing
(`decode_entry_by_entry`). Each entry therefore stands for itself, with one exception: a whole
number that binary64 has no room for stops the reading of all entries around it
(`decode_of_overflow`).
-/
namespace LiveSurface

namespace Entries

variable {α : Type}

theorem set_set (entries : Entries α) (key : String) (v w : α) :
    set (set entries key v) key w = set entries key w := by
  induction entries with
  | nil => simp [set]
  | cons entry rest ih =>
    obtain ⟨k, old⟩ := entry
    by_cases same : k = key <;> simp [set, same, ih]

/-- A key that is there keeps its place whichever value is set first. -/
theorem set_comm {entries : Entries α} {key other : String} (present : key ∈ keys entries)
    (apart : other ≠ key) (v w : α) :
    set (set entries other w) key v = set (set entries key v) other w := by
  induction entries with
  | nil => simp [keys] at present
  | cons entry rest ih =>
    obtain ⟨k, old⟩ := entry
    by_cases same : k = key
    · simp [set, same, Ne.symm apart]
    · have later : key ∈ keys rest := by simpa [keys, Ne.symm same] using present
      by_cases first : k = other <;> simp [set, same, first, apart, ih later]

theorem update_cons (entries : Entries α) (key : String) (v : α) (more : Entries α) :
    update entries ((key, v) :: more) = update (set entries key v) more := rfl

theorem update_append (entries more others : Entries α) :
    update entries (more ++ others) = update (update entries more) others := List.foldl_append

theorem set_update {entries more : Entries α} {key : String} (present : key ∈ keys entries)
    (absent : key ∉ keys more) (v : α) :
    set (update entries more) key v = update (set entries key v) more := by
  induction more generalizing entries with
  | nil => rfl
  | cons entry rest ih =>
    obtain ⟨other, w⟩ := entry
    have apart : other ≠ key := fun same => absent (by simp [keys, same])
    have later : key ∉ keys rest := fun member => absent (List.mem_cons_of_mem _ member)
    have kept : key ∈ keys (set entries other w) := by
      rw [keys_set]
      split
      · exact present
      · exact List.mem_append_left _ present
    rw [update_cons, ih kept later, set_comm present apart, update_cons]

theorem update_set (entries : Entries α) {more : Entries α} (distinct : (keys more).Nodup)
    (key : String) (v : α) :
    update entries (set more key v) = set (update entries more) key v := by
  induction more generalizing entries with
  | nil => rfl
  | cons entry rest ih =>
    obtain ⟨k, old⟩ := entry
    obtain ⟨new, others⟩ := List.nodup_cons.mp distinct
    by_cases same : k = key
    · subst same
      have present : k ∈ keys (set entries k old) := by
        rw [← get?_isSome_iff]
        simp
      have first : set ((k, old) :: rest) k v = (k, v) :: rest := by simp [set]
      rw [first, update_cons, update_cons, set_update present new, set_set]
    · have first : set ((k, old) :: rest) key v = (k, old) :: set rest key v := by
        simp [set, same]
      rw [first, update_cons, update_cons, ih _ others]

theorem nodup_set {entries : Entries α} (distinct : (keys entries).Nodup) (key : String) (v : α) :
    (keys (set entries key v)).Nodup := by
  rw [keys_set]
  split
  · exact distinct
  · next new =>
    rw [List.nodup_append]
    refine ⟨distinct, by simp, ?_⟩
    rintro k member _ last rfl
    exact new (List.mem_singleton.mp last ▸ member)

theorem update_update (entries : Entries α) {base : Entries α} (distinct : (keys base).Nodup)
    (more : Entries α) : update entries (update base more) = update (update entries base) more := by
  induction more generalizing base with
  | nil => rfl
  | cons entry rest ih =>
    obtain ⟨key, v⟩ := entry
    rw [update_cons, ih (nodup_set distinct key v), update_set entries distinct, update_cons]

end Entries

namespace Contents

/-- The field that an entry gives, if it gives one. -/
def given? (entry : Value) : Option (String × Value) :=
  match decodeEntry entry with
  | .ok field => some field
  | .error _ => none

/-- Whether an entry stops the reading of all entries. -/
def stops (entry : Value) : Bool :=
  match decodeEntry entry with
  | .error .tooLarge => true
  | _ => false

theorem stops_iff (entry : Value) : stops entry = true ↔ decodeEntry entry = .error .tooLarge := by
  unfold stops
  split
  · next read => simp [read]
  · next other => simpa using other

theorem decodeEntries_eq (fields : Fields) (entries : List Value) :
    decodeEntries fields entries =
      if entries.any stops then .error .tooLarge
      else .ok (Entries.update fields (entries.filterMap given?)) := by
  induction entries generalizing fields with
  | nil => rfl
  | cons entry rest ih =>
    rw [decodeEntries, List.any_cons, List.filterMap_cons]
    cases read : decodeEntry entry with
    | ok field =>
      have goes : stops entry = false := by simp [stops, read]
      have gives : given? entry = some field := by simp [given?, read]
      rw [goes, gives, Bool.false_or]
      exact ih _
    | error rejection =>
      have gives : given? entry = none := by simp [given?, read]
      cases rejection with
      | malformed =>
        have goes : stops entry = false := by simp [stops, read]
        rw [goes, gives, Bool.false_or]
        exact ih fields
      | tooLarge =>
        have ends : stops entry = true := by simp [stops, read]
        rw [ends]
        rfl

/-- Entries give the fields that each of them gives, unless one of them stops the reading. -/
theorem decode_eq (entries : List Value) :
    decode entries =
      if entries.any stops then .error .tooLarge
      else .ok (Entries.update [] (entries.filterMap given?)) := by
  rw [decode, decodeEntries_eq]
  cases entries.any stops <;> rfl

theorem decode_append (xs ys : List Value) :
    decode (xs ++ ys) = (do
      let before ← decode xs
      let after ← decode ys
      pure (Entries.update before after)) := by
  rw [decode_eq, decode_eq xs, decode_eq ys, List.any_append, List.filterMap_append]
  cases xs.any stops with
  | true => rfl
  | false =>
    cases ys.any stops with
    | true => rfl
    | false =>
      have empty : (Entries.keys ([] : Fields)).Nodup := List.nodup_nil
      have grouped := Entries.update_update (Entries.update [] (xs.filterMap given?)) empty
        (ys.filterMap given?)
      rw [Entries.update_append]
      exact congrArg Except.ok grouped.symm

theorem decode_append_eq_ok_iff {xs ys : List Value} {fields : Fields} :
    decode (xs ++ ys) = .ok fields ↔
      ∃ before after, decode xs = .ok before ∧ decode ys = .ok after ∧
        Entries.update before after = fields := by
  rw [decode_append]
  cases decode xs with
  | error fault => simp [bind, Except.bind]
  | ok before => cases decode ys <;> simp [bind, Except.bind, pure, Except.pure]

theorem decode_singleton (entry : Value) :
    decode [entry] = if stops entry then .error .tooLarge else .ok (given? entry).toList := by
  rw [decode_eq, List.any_cons, List.any_nil, Bool.or_false]
  cases given : given? entry <;> simp [given, Entries.update, Entries.set]

theorem decode_singleton_eq_error_iff (entry : Value) :
    decode [entry] = .error .tooLarge ↔ stops entry = true := by
  rw [decode_singleton]
  cases stops entry <;> simp

theorem decode_eq_error_iff (entries : List Value) (fault : ValueFault) :
    decode entries = .error fault ↔
      fault = .tooLarge ∧ ∃ entry ∈ entries, decode [entry] = .error .tooLarge := by
  simp only [decode_singleton_eq_error_iff, ← List.any_eq_true]
  rw [decode_eq]
  cases entries.any stops <;> simp [eq_comm]

end Contents

/-- Every whole number in a value, at any depth, has a nearest binary64 number. -/
inductive Value.InRange : Value → Prop
  | null : InRange .null
  | bool (b : Bool) : InRange (.bool b)
  | int {n : Int} (small : n.natAbs < Double.overflow) : InRange (.int n)
  | real (d : Double) : InRange (.real d)
  | str (s : String) : InRange (.str s)
  | bytes (s : String) : InRange (.bytes s)
  | list {items : List Value} (each : ∀ item ∈ items, InRange item) : InRange (.list items)
  | obj {fields : Fields} (each : ∀ field ∈ fields, InRange field.2) : InRange (.obj fields)

namespace Contents

theorem decodeNumber_int_iff (n : Int) :
    decodeNumber (.int n) = .error .tooLarge ↔ Double.overflow ≤ n.natAbs := by
  have room := Double.ofInt?_isSome_iff n
  rw [← Nat.not_lt, ← room]
  simp only [decodeNumber, Value.toReal?]
  cases Double.ofInt? n with
  | none => simp
  | some d => cases whole : d.toInt? <;> simp [whole]

theorem decodeNumber_ne_tooLarge {v : Value} {d : Option Double} (number : v.toReal? = .ok d) :
    decodeNumber v ≠ .error .tooLarge := by
  unfold decodeNumber
  split
  · exact nofun
  · rw [number]
    cases d with
    | none => exact nofun
    | some d =>
      dsimp only
      split <;> exact nofun

/-- Whichever way a value is read, it does not stop the reading. -/
structure Readable (v : Value) : Prop where
  map : decodeMap v ≠ .error .tooLarge
  list : decodeList v ≠ .error .tooLarge
  number : decodeNumber v ≠ .error .tooLarge
  entry : decodeEntry v ≠ .error .tooLarge
  item : decodeItem v ≠ .error .tooLarge

theorem map_ne_tooLarge {α β : Type} {read : Except Rejection α} (f : α → β)
    (goes : read ≠ .error .tooLarge) : read.map f ≠ .error .tooLarge :=
  mt Result.map_eq_error_iff.mp goes

theorem any_stops_eq_false {items : List Value} (each : ∀ item ∈ items, Readable item) :
    items.any stops = false := by
  rw [List.any_eq_false]
  intro item member
  rw [stops_iff]
  exact (each item member).entry

theorem decodeEntries_ne_tooLarge {items : List Value} (each : ∀ item ∈ items, Readable item) :
    decodeEntries [] items ≠ .error .tooLarge := by
  rw [decodeEntries_eq, any_stops_eq_false each]
  exact nofun

theorem decodeItems_ne_tooLarge {items : List Value} (each : ∀ item ∈ items, Readable item) :
    decodeItems items ≠ .error .tooLarge := by
  induction items with
  | nil => exact nofun
  | cons item rest ih =>
    have first := (each item (by simp)).item
    have later := ih fun other member => each other (by simp [member])
    rw [decodeItems]
    cases read : decodeItem item with
    | error rejection => exact fun same => first (read.trans (congrArg _ (Except.error.inj same)))
    | ok v => exact map_ne_tooLarge _ later

theorem decodeScalar_ne_tooLarge {block : Fields} (each : ∀ field ∈ block, Readable field.2) :
    decodeScalar block ≠ .error .tooLarge := by
  unfold decodeScalar
  cases Entries.get? block "valueString" with
  | some v =>
    dsimp only
    split <;> exact nofun
  | none =>
    cases number : Entries.get? block "valueNumber" with
    | some v => exact (each _ (Entries.mem_of_get? number)).number
    | none =>
      dsimp only
      split
      · exact nofun
      · exact nofun
      · split <;> exact nofun

theorem decodeTyped_ne_tooLarge {block : Fields} (each : ∀ field ∈ block, Readable field.2) :
    decodeTyped block ≠ .error .tooLarge := by
  rw [decodeTyped, mapOf?_eq, listOf?_eq]
  cases map : Entries.get? block "valueMap" with
  | some v => exact (each _ (Entries.mem_of_get? map)).map
  | none =>
    cases list : Entries.get? block "valueList" with
    | some v => exact (each _ (Entries.mem_of_get? list)).list
    | none => exact decodeScalar_ne_tooLarge each

theorem readable_obj {block : Fields} (each : ∀ field ∈ block, Readable field.2) :
    Readable (.obj block) where
  map := nofun
  list := nofun
  number := nofun
  entry := by
    have typed := decodeTyped_ne_tooLarge each
    rw [decodeEntry]
    cases entryKey? block with
    | none => exact nofun
    | some key => exact map_ne_tooLarge _ typed
  item := by
    -- the typed value of the block stands unfolded in what an item is read as
    obtain ⟨value, read⟩ : ∃ value, decodeTyped block = value := ⟨_, rfl⟩
    have typed : value ≠ .error .tooLarge := read ▸ decodeTyped_ne_tooLarge each
    rw [decodeTyped] at read
    rw [decodeItem, read]
    dsimp only
    split
    · split
      · split
        · exact nofun
        · split
          · exact nofun
          · exact nofun
          · exact absurd rfl typed
      · exact typed
    · exact nofun

/-- Only a whole number out of range stops the reading. -/
theorem readable_of_inRange {v : Value} (inRange : v.InRange) : Readable v := by
  induction inRange with
  | null => exact ⟨nofun, nofun, nofun, nofun, nofun⟩
  | bool b => exact ⟨nofun, nofun, nofun, nofun, nofun⟩
  | int small =>
    refine ⟨nofun, nofun, ?_, nofun, nofun⟩
    rw [ne_eq, decodeNumber_int_iff]
    omega
  | real d => exact ⟨nofun, nofun, decodeNumber_ne_tooLarge rfl, nofun, nofun⟩
  | str s => exact ⟨nofun, nofun, decodeNumber_ne_tooLarge rfl, nofun, nofun⟩
  | bytes s => exact ⟨nofun, nofun, decodeNumber_ne_tooLarge rfl, nofun, nofun⟩
  | list each ih =>
    have entries := map_ne_tooLarge Value.obj (decodeEntries_ne_tooLarge ih)
    exact ⟨entries, map_ne_tooLarge Value.list (decodeItems_ne_tooLarge ih), nofun, nofun, entries⟩
  | obj each ih => exact readable_obj ih

theorem decode_number_iff {key : String} (named : key ≠ "") (n : Int) :
    decode [.obj [("key", .str key), ("valueNumber", .int n)]] = .error .tooLarge ↔
      Double.overflow ≤ n.natAbs := by
  have known : entryKey? [("key", .str key), ("valueNumber", .int n)] = some key := by
    simp [entryKey?, Entries.get?, named]
  have read : decodeEntry (.obj [("key", .str key), ("valueNumber", .int n)]) =
      (decodeNumber (.int n)).map (key, ·) := by
    rw [decodeEntry, known]
    rfl
  rw [decode_singleton_eq_error_iff, stops_iff, read, Result.map_eq_error_iff, decodeNumber_int_iff]

theorem decode_of_inRange {entries : List Value} (inRange : ∀ entry ∈ entries, entry.InRange) :
    ∃ fields, decode entries = .ok fields := by
  have goes := any_stops_eq_false fun entry member => readable_of_inRange (inRange entry member)
  rw [decode_eq, goes]
  exact ⟨_, rfl⟩

/-- Entries are read exactly when each of them is read alone. -/
theorem decode_eq_ok_iff (entries : List Value) :
    (∃ fields, decode entries = .ok fields) ↔
      ∀ entry ∈ entries, ∃ fields, decode [entry] = .ok fields := by
  have alone : ∀ entry, (∃ fields, decode [entry] = .ok fields) ↔ ¬ stops entry = true := by
    intro entry
    rw [decode_singleton]
    cases stops entry <;> simp
  simp only [alone, ← List.any_eq_false]
  rw [decode_eq]
  cases entries.any stops <;> simp

theorem decode_remove {entry : Value} (nothing : decode [entry] = .ok []) (xs ys : List Value) :
    decode (xs ++ entry :: ys) = decode (xs ++ ys) := by
  rw [decode_singleton] at nothing
  cases ends : stops entry with
  | true => simp [ends] at nothing
  | false =>
    have gives : given? entry = none := by simpa [ends] using nothing
    rw [decode_eq, decode_eq (xs ++ ys)]
    simp [ends, gives]

/-- A row of entries gives what its later part gives, written onto what its earlier part gives, so
that later values win and a key keeps its first place, exactly if each of its entries can be read
alone. An entry can be if every whole number in it is in the range of binary64, and one that cannot
makes all entries around it unreadable, always with the same fault. An entry that gives nothing
makes no difference where it stands. -/
theorem decode_entry_by_entry (xs ys : List Value) :
    ((∃ before after, decode xs = .ok before ∧ decode ys = .ok after ∧
        decode (xs ++ ys) = .ok (Entries.update before after)) ↔
      ∀ entry ∈ xs ++ ys, ∃ fields, decode [entry] = .ok fields) ∧
    ((∀ entry ∈ xs ++ ys, entry.InRange) →
      ∀ entry ∈ xs ++ ys, ∃ fields, decode [entry] = .ok fields) ∧
    (∀ fault, decode (xs ++ ys) = .error fault ↔
      fault = .tooLarge ∧ ∃ entry ∈ xs ++ ys, decode [entry] = .error .tooLarge) ∧
    ∀ entry, decode [entry] = .ok [] → decode (xs ++ entry :: ys) = decode (xs ++ ys) := by
  refine ⟨?_, ?_, decode_eq_error_iff _, fun entry nothing => decode_remove nothing xs ys⟩
  · rw [← decode_eq_ok_iff]
    constructor
    · rintro ⟨before, after, -, -, joined⟩
      exact ⟨_, joined⟩
    · rintro ⟨fields, joined⟩
      obtain ⟨before, after, first, second, rfl⟩ := decode_append_eq_ok_iff.mp joined
      exact ⟨before, after, first, second, joined⟩
  · intro inRange
    exact (decode_eq_ok_iff _).mp (decode_of_inRange inRange)

/-- An entry with a number that is none, before one with a map that holds such an entry among
others. -/
theorem decode_entry_by_entry_of_flag :
    let entry : String → String → Value → Value := fun key field v =>
      .obj [("key", .str key), (field, v)]
    let text := entry "a" "valueString" (.str "x")
    let bad := entry "n" "valueNumber" (.bool true)
    let map := entry "m" "valueMap" (.list [bad, text])
    (∀ e ∈ [text] ++ [map], e.InRange) ∧
    decode [bad] = .ok [] ∧
    decode [map] = .ok [("m", .obj [("a", .str "x")])] ∧
    (∃ before after, decode [text] = .ok before ∧ decode [map] = .ok after ∧
      decode ([text] ++ [map]) = .ok (Entries.update before after)) ∧
    decode ([text] ++ bad :: [map]) = decode ([text] ++ [map]) := by
  intro entry text bad map
  have single : ∀ key field {v : Value}, v.InRange → (entry key field v).InRange := by
    intro key field v inRange
    refine .obj fun f member => ?_
    simp only [List.mem_cons, List.not_mem_nil, or_false] at member
    rcases member with rfl | rfl
    · exact .str key
    · exact inRange
  have texts : text.InRange := single "a" "valueString" (.str "x")
  have bads : bad.InRange := single "n" "valueNumber" (.bool true)
  have maps : map.InRange := single "m" "valueMap" (.list (by simp [texts, bads]))
  have inRange : ∀ e ∈ [text] ++ [map], e.InRange := by simp [texts, maps]
  have nothing : decode [bad] = .ok [] := rfl
  obtain ⟨parts, alone, -, removed⟩ := decode_entry_by_entry [text] [map]
  exact ⟨inRange, nothing, rfl, parts.mpr (alone inRange), removed bad nothing⟩

/-- A number of 310 digits takes the two entries around it with it, although each of them is well
formed. -/
theorem decode_of_overflow :
    let entry : String → String → Value → Value := fun key field v =>
      .obj [("key", .str key), (field, v)]
    let text := entry "a" "valueString" (.str "x")
    let number := entry "n" "valueNumber" (.int (Int.pow 10 309))
    let flag := entry "b" "valueBoolean" (.bool true)
    decode [text, flag] = .ok [("a", .str "x"), ("b", .bool true)] ∧
    decode [text, number, flag] = .error .tooLarge := by
  intro entry text number flag
  have alone : decode [number] = .error .tooLarge :=
    (decode_number_iff (by decide) _).mpr Double.overflow_le_pow_ten
  refine ⟨rfl, ?_⟩
  exact (decode_eq_error_iff _ _).mpr ⟨rfl, number, by simp, alone⟩

end Contents
end LiveSurface
