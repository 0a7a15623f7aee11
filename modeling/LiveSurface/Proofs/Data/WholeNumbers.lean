import LiveSurface.Proofs.Data.Skipping
import LiveSurface.Proofs.Data.Transfer
import LiveSurface.Proofs.Number.Nearest
import LiveSurface.Validation.Basic

/-!
# Whole numbers in typed contents

Where typed contents hold a whole number, at any depth of maps and lists, what is read holds the
binary64 number of it at the same place (`decode_of_holds`). That is the number itself if binary64
has it. Any other number within the range of binary64 arrives changed, and one out of range stops
the reading (`decode_of_rounded`).
-/
namespace LiveSurface

open Validation (Step)

namespace Value

/-- One step to a part of a value. -/
def step? : Value → Step → Option Value
  | .obj fields, .field name => Entries.get? fields name
  | .list items, .item index => items[index]?
  | _, _ => none

/-- The part of a value at the end of a way. -/
def at? (v : Value) : List Step → Option Value
  | [] => some v
  | step :: way => (v.step? step).bind fun part => part.at? way

end Value

theorem Entries.get?_update_of_not_mem {α : Type} (entries : Entries α) {more : Entries α}
    {key : String} (absent : key ∉ more.keys) :
    get? (update entries more) key = get? entries key := by
  induction more generalizing entries with
  | nil => rfl
  | cons entry rest ih =>
    obtain ⟨other, v⟩ := entry
    have apart : other ≠ key := fun same => absent (by simp [keys, same])
    have later : key ∉ keys rest := fun member => absent (List.mem_cons_of_mem _ member)
    rw [update_cons, ih _ later, get?_set, if_neg apart]

namespace Contents

/-- What typed contents are made of: rows of entries, blocks with a typed value, items of lists. -/
inductive Source
  | entries (row : List Value)
  | block (fields : Fields)
  | item (v : Value)

/-- What is read from a part of typed contents. -/
def Source.read : Source → Except Rejection Value
  | .entries row => (decodeEntries [] row).map .obj
  | .block fields => decodeTyped fields
  | .item v => decodeItem v

/-- A part of typed contents holds a whole number at the end of a way, as the value of a
`valueNumber`. The entries and items on the way are well formed, no later entry takes the place of
one of them, and in a list the items beside it are well formed as well. -/
inductive Holds (n : Int) : Source → List Step → Prop
  | number {block : Fields} (map : Entries.get? block "valueMap" = none)
    (list : Entries.get? block "valueList" = none) (text : Entries.get? block "valueString" = none)
    (number : Entries.get? block "valueNumber" = some (.int n)) : Holds n (.block block) []
  | map {block : Fields} {row : List Value} {way : List Step}
    (map : Entries.get? block "valueMap" = some (.list row)) (inside : Holds n (.entries row) way) :
    Holds n (.block block) way
  | list {block : Fields} {before after : List Value} {item : Value} {way : List Step}
    (map : Entries.get? block "valueMap" = none)
    (list : Entries.get? block "valueList" = some (.list (before ++ item :: after)))
    (beside : ∀ other ∈ before ++ after, decodeItem other ≠ .error .malformed)
    (inside : Holds n (.item item) way) : Holds n (.block block) (.item before.length :: way)
  | entry {before after : List Value} {block : Fields} {key : String} {way : List Step}
    (named : entryKey? block = some key) (last : ∀ other ∈ after, ∀ v, given? other ≠ some (key, v))
    (inside : Holds n (.block block) way) :
    Holds n (.entries (before ++ .obj block :: after)) (.field key :: way)
  | row {row : List Value} {way : List Step} (inside : Holds n (.entries row) way) :
    Holds n (.item (.list row)) way
  | keyed {block : Fields} {key : String} {way : List Step} (named : entryKey? block = some key)
    (inside : Holds n (.block block) way) : Holds n (.item (.obj block)) (.field key :: way)
  | plain {block : Fields} {way : List Step} (unnamed : Entries.get? block "key" = none)
    (inside : Holds n (.block block) way) : Holds n (.item (.obj block)) way

/-! ## Reading what holds a number -/

/-- A whole number is read as its binary64 number, or stops the reading. -/
theorem decodeNumber_int (n : Int) :
    decodeNumber (.int n) = .error .tooLarge ∨
      ∃ m, decodeNumber (.int n) = .ok (.int m) ∧ (m = n ↔ Double.Exact n) ∧
        2 * (n - m).natAbs ≤ Nat.pow 2 (n.natAbs.log2 - 52) := by
  cases made : Double.ofInt? n with
  | none =>
    left
    simp [decodeNumber, Value.toReal?, made]
  | some d =>
    right
    obtain ⟨m, whole, near⟩ := Double.toInt?_of_ofInt? made
    exact ⟨m, by simp [decodeNumber, Value.toReal?, made, whole], near⟩

theorem decodeTyped_of_map {block : Fields} {v : Value}
    (map : Entries.get? block "valueMap" = some v) : decodeTyped block = decodeMap v := by
  simp [decodeTyped, mapOf?_eq, map]

theorem decodeTyped_of_list {block : Fields} {v : Value}
    (map : Entries.get? block "valueMap" = none) (list : Entries.get? block "valueList" = some v) :
    decodeTyped block = decodeList v := by
  simp [decodeTyped, mapOf?_eq, listOf?_eq, map, list]

theorem decodeEntry_of_named {block : Fields} {key : String}
    (named : entryKey? block = some key) :
    decodeEntry (.obj block) = (decodeTyped block).map (key, ·) := by
  rw [decodeEntry, named]
  rfl

/-- Items of which none is malformed are read item by item. -/
theorem decodeItems_cases {items : List Value}
    (each : ∀ item ∈ items, decodeItem item ≠ .error .malformed) :
    decodeItems items = .error .tooLarge ∨
      ∃ read, decodeItems items = .ok read ∧ ∀ (index : Nat) (item : Value),
        items[index]? = some item → ∃ v, decodeItem item = .ok v ∧ read[index]? = some v := by
  induction items with
  | nil => exact .inr ⟨[], rfl, by simp⟩
  | cons item rest ih =>
    rw [List.forall_mem_cons] at each
    rw [decodeItems]
    cases first : decodeItem item with
    | error rejection =>
      cases rejection with
      | malformed => exact absurd first each.1
      | tooLarge => exact .inl rfl
    | ok v =>
      rcases ih each.2 with stopped | ⟨read, others, told⟩
      · exact .inl (by rw [stopped]; rfl)
      · refine .inr ⟨v :: read, by rw [others]; rfl, ?_⟩
        intro index other found
        cases index with
        | zero =>
          cases found
          exact ⟨v, first, rfl⟩
        | succ index => exact told index other found

theorem Holds.isTyped {n : Int} {block : Fields} {way : List Step}
    (holds : Holds n (.block block) way) : isTyped block = true := by
  have present : ∀ {key : String} {v : Value}, Entries.get? block key = some v →
      Entries.has block key = true := fun found => by rw [Entries.has, found]; rfl
  cases holds with
  | number _ _ _ number => simp [Contents.isTyped, typedKeys, present number]
  | map map _ => simp [Contents.isTyped, typedKeys, present map]
  | list _ list _ _ => simp [Contents.isTyped, typedKeys, present list]

/-- A row of entries is read unless one of them stops the reading, and then the last entry of a key
stands under it. -/
theorem decodeEntries_cases {before after : List Value} {block : Fields} {key : String}
    (named : entryKey? block = some key)
    (last : ∀ other ∈ after, ∀ v, given? other ≠ some (key, v)) :
    decodeEntries [] (before ++ .obj block :: after) = .error .tooLarge ∨
      decodeTyped block ≠ .error .tooLarge ∧
        ∃ fields, decodeEntries [] (before ++ .obj block :: after) = .ok fields ∧
          ∀ v, decodeTyped block = .ok v → Entries.get? fields key = some v := by
  rw [decodeEntries_eq]
  cases ends : (before ++ .obj block :: after).any stops with
  | true => exact .inl rfl
  | false =>
    refine .inr ⟨fun stopped => ?_, _, rfl, fun v typed => ?_⟩
    · have stop : stops (.obj block) = true := by
        rw [stops_iff, decodeEntry_of_named named, stopped]
        rfl
      simp [stop] at ends
    · have gives : given? (.obj block) = some (key, v) := by
        rw [given?, decodeEntry_of_named named, typed]
        rfl
      have absent : key ∉ Entries.keys (after.filterMap given?) := by
        intro member
        obtain ⟨⟨other, w⟩, inside, rfl⟩ := List.mem_map.mp member
        obtain ⟨entry, there, given⟩ := List.mem_filterMap.mp inside
        exact last entry there w given
      rw [List.filterMap_append, List.filterMap_cons, gives, Entries.update_append,
        Entries.update_cons, Entries.get?_update_of_not_mem _ absent, Entries.get?_set, if_pos rfl]

theorem decodeItem_of_typed {block : Fields} (typed : isTyped block = true) :
    decodeItem (.obj block) =
      if Entries.has block "key" then
        match entryKey? block with
        | none => .ok (.obj [])
        | some key =>
          match decodeTyped block with
          | .ok v => .ok (.obj [(key, v)])
          | .error .malformed => .ok (.obj [])
          | .error .tooLarge => .error .tooLarge
      else decodeTyped block := by
  rw [decodeItem, if_pos typed]
  rfl

/-- The binary64 number of a whole number is what is read at the end of a way, unless a number out
of range stops the reading. -/
def Source.Gives (n : Int) (source : Source) (way : List Step) : Prop :=
  source.read = .error .tooLarge ∨
    ∃ v part, source.read = .ok v ∧ v.at? way = some part ∧ decodeNumber (.int n) = .ok part

namespace Source.Gives

variable {n : Int} {way : List Step}

theorem not_malformed {source : Source} (gives : Gives n source way) :
    source.read ≠ .error .malformed := by
  rcases gives with stopped | ⟨v, part, made, -⟩
  · exact fun malformed => nomatch stopped.symm.trans malformed
  · exact fun malformed => nomatch made.symm.trans malformed

theorem list {before after : List Value} {item : Value} (gives : Gives n (.item item) way)
    (beside : ∀ other ∈ before ++ after, decodeItem other ≠ .error .malformed) :
    decodeItems (before ++ item :: after) = .error .tooLarge ∨
      ∃ items part, decodeItems (before ++ item :: after) = .ok items ∧
        (Value.list items).at? (.item before.length :: way) = some part ∧
        decodeNumber (.int n) = .ok part := by
  have each : ∀ other ∈ before ++ item :: after, decodeItem other ≠ .error .malformed := by
    intro other member
    rcases List.mem_append.mp member with member | member
    · exact beside other (List.mem_append_left _ member)
    · rcases List.mem_cons.mp member with rfl | member
      · exact gives.not_malformed
      · exact beside other (List.mem_append_right _ member)
  rcases decodeItems_cases each with stopped | ⟨items, made, told⟩
  · exact .inl stopped
  · obtain ⟨w, itemRead, there⟩ := told before.length item (by simp)
    rcases gives with stopped | ⟨v, part, sameRead, leads, number⟩
    · exact nomatch stopped.symm.trans itemRead
    · cases sameRead.symm.trans itemRead
      exact .inr ⟨items, part, made, by simp [Value.at?, Value.step?, there, leads], number⟩

theorem entry {before after : List Value} {block : Fields} {key : String}
    (gives : Gives n (.block block) way) (named : entryKey? block = some key)
    (last : ∀ other ∈ after, ∀ v, given? other ≠ some (key, v)) :
    Gives n (.entries (before ++ .obj block :: after)) (.field key :: way) := by
  rcases decodeEntries_cases named last with stopped | ⟨goes, fields, made, told⟩
  · exact .inl (by rw [Source.read, stopped]; rfl)
  · rcases gives with stopped | ⟨v, part, typed, leads, number⟩
    · exact absurd stopped goes
    · exact .inr ⟨.obj fields, part, by rw [Source.read, made]; rfl,
        by simp [Value.at?, Value.step?, told v typed, leads], number⟩

theorem keyed {block : Fields} {key : String} (gives : Gives n (.block block) way)
    (typed : isTyped block = true) (named : entryKey? block = some key) :
    Gives n (.item (.obj block)) (.field key :: way) := by
  have present : Entries.has block "key" = true := by
    rw [Entries.has]
    cases found : Entries.get? block "key" with
    | none => simp [entryKey?, found] at named
    | some v => rfl
  have read := decodeItem_of_typed typed
  simp only [present, if_true, named] at read
  simp only [Gives, Source.read] at gives ⊢
  rcases gives with stopped | ⟨v, part, made, leads, number⟩
  · exact .inl (by rw [read, stopped])
  · exact .inr ⟨.obj [(key, v)], part, by rw [read, made],
      by simp [Value.at?, Value.step?, Entries.get?, leads], number⟩

end Source.Gives

/-- What holds a whole number is read with its binary64 number in that place. -/
theorem Holds.gives {n : Int} {source : Source} {way : List Step} (holds : Holds n source way) :
    source.Gives n way := by
  induction holds with
  | @number block map list text number =>
    have read : (Source.block block).read = decodeNumber (.int n) := by
      simp [Source.read, decodeTyped, mapOf?_eq, listOf?_eq, decodeScalar, map, list, text, number]
    rcases decodeNumber_int n with stopped | ⟨m, made, -⟩
    · exact .inl (read.trans stopped)
    · exact .inr ⟨.int m, .int m, read.trans made, rfl, made⟩
  | @map block row way map inside ih =>
    have read : (Source.block block).read = (Source.entries row).read :=
      (decodeTyped_of_map map).trans (by rw [decodeMap, Source.read])
    rw [Source.Gives, read]
    exact ih
  | @list block before after item way map list beside inside ih =>
    have read : (Source.block block).read = (decodeItems (before ++ item :: after)).map .list := by
      rw [Source.read, decodeTyped_of_list map list, decodeList]
    rcases ih.list beside with stopped | ⟨items, part, made, leads, number⟩
    · exact .inl (by rw [read, stopped]; rfl)
    · exact .inr ⟨.list items, part, by rw [read, made]; rfl, leads, number⟩
  | entry named last inside ih => exact ih.entry named last
  | row inside ih => exact ih
  | keyed named inside ih => exact ih.keyed inside.isTyped named
  | @plain block way unnamed inside ih =>
    have read : (Source.item (.obj block)).read = (Source.block block).read := by
      have absent : Entries.has block "key" = false := by rw [Entries.has, unnamed]; rfl
      simp [Source.read, decodeItem_of_typed inside.isTyped, absent]
    rw [Source.Gives, read]
    exact ih

/-- Entries that hold a whole number give an object with its binary64 number in that place. -/
theorem Holds.decode {n : Int} {entries : List Value} {way : List Step}
    (holds : Holds n (.entries entries) way) :
    decode entries = .error .tooLarge ∨ ∃ fields part, decode entries = .ok fields ∧
      (Value.obj fields).at? way = some part ∧ decodeNumber (.int n) = .ok part := by
  have gives := holds.gives
  rw [Source.Gives, Source.read] at gives
  rw [Contents.decode]
  cases read : decodeEntries [] entries with
  | error rejection => exact .inl rfl
  | ok fields =>
    rw [read] at gives
    rcases gives with stopped | ⟨v, part, made, leads, number⟩
    · cases stopped
    · cases made
      exact .inr ⟨fields, part, rfl, leads, number⟩

/-! ## Written contents -/

theorem encode_eq_map (fields : Fields) :
    encode fields = fields.map fun field => .obj [("key", .str field.1), typed field.2] := by
  induction fields with
  | nil => rfl
  | cons field rest ih => rw [encode, ih, List.map_cons]

theorem encodeItems_eq_map (items : List Value) : encodeItems items = items.map encodeItem := by
  induction items with
  | nil => rfl
  | cons item rest ih => rw [encodeItems, ih, List.map_cons]

theorem decodeTyped_typed_ne_malformed (v : Value) : decodeTyped [typed v] ≠ .error .malformed := by
  cases v with
  | null | bool | str | bytes =>
    simp [decodeTyped, typed, typedScalar, mapOf?, listOf?, decodeScalar, Entries.get?]
  | int n =>
    have read : decodeTyped [typed (.int n)] = decodeNumber (.int n) := rfl
    rcases decodeNumber_int n with stopped | ⟨m, made, -⟩
    · simp [read, stopped]
    · simp [read, made]
  | real d =>
    have read : decodeTyped [typed (.real d)] = decodeNumber (.real d) := rfl
    cases whole : d.toInt? <;> simp [read, decodeNumber, Value.toReal?, whole]
  | list items =>
    have each : ∀ item ∈ encodeItems items, decodeItem item ≠ .error .malformed := by
      rw [encodeItems_eq_map, List.forall_mem_map]
      intro item member
      rw [decodeItem_encodeItem]
      exact decodeTyped_typed_ne_malformed item
    have read : decodeTyped [typed (.list items)] = (decodeItems (encodeItems items)).map .list :=
      rfl
    rcases decodeItems_cases each with stopped | ⟨values, made, -⟩
    · simp [read, stopped, Except.map]
    · simp [read, made, Except.map]
  | obj fields =>
    have read : decodeTyped [typed (.obj fields)] = (decodeEntries [] (encode fields)).map .obj :=
      rfl
    rw [read, decodeEntries_eq]
    split <;> simp [Except.map]
termination_by sizeOf v
decreasing_by
  have := List.sizeOf_lt_of_mem member
  simp only [Value.list.sizeOf_spec]
  omega

theorem Holds.cons_key {n : Int} {block : Fields} {way : List Step}
    (holds : Holds n (.block block) way) (key : Value) :
    Holds n (.block (("key", key) :: block)) way := by
  have same : ∀ field, field ≠ "key" →
      Entries.get? (("key", key) :: block) field = Entries.get? block field := fun field apart => by
    simp [Entries.get?, Ne.symm apart]
  cases holds with
  | number map list text number =>
    exact .number (by simpa [same] using map) (by simpa [same] using list)
      (by simpa [same] using text) (by simpa [same] using number)
  | map map inside => exact .map (by simpa [same] using map) inside
  | list map list beside inside =>
    exact .list (by simpa [same] using map) (by simpa [same] using list) beside inside

/-- Entries written later do not take the place of an entry with another key. -/
theorem given?_ne_of_not_mem {fields : Fields} {key : String} (absent : key ∉ Entries.keys fields) :
    ∀ other ∈ encode fields, ∀ v, given? other ≠ some (key, v) := by
  rw [encode_eq_map, List.forall_mem_map]
  rintro ⟨other, value⟩ member v gives
  have apart : other ≠ key := fun same => absent (same ▸ List.mem_map_of_mem member)
  by_cases empty : other = ""
  · simp [given?, decodeEntry, entryKey?, Entries.get?, empty] at gives
  · rw [given?, decodeEntry_typed empty] at gives
    cases read : decodeTyped [typed value] <;> simp [read, Except.map, apart] at gives

theorem holds_encodeItem {n : Int} {v : Value} {way : List Step}
    (holds : Holds n (.block [typed v]) way) : Holds n (.item (encodeItem v)) way := by
  cases v with
  | obj fields =>
    cases holds with
    | map map inside =>
      cases map
      exact .row inside
    | number map _ _ _ => cases map
    | list map _ _ _ => cases map
  | _ => exact .plain rfl holds

theorem split_of_getElem? {items : List Value} {index : Nat} {item : Value}
    (found : items[index]? = some item) :
    ∃ before after, before.length = index ∧ items = before ++ item :: after := by
  obtain ⟨short, rfl⟩ := List.getElem?_eq_some_iff.mp found
  refine ⟨items.take index, items.drop (index + 1), List.length_take_of_le short.le, ?_⟩
  rw [List.getElem_cons_drop, List.take_append_drop]

/-- Where a value holds a whole number, its contents hold it in the same place. -/
theorem holds_typed {n : Int} {v : Value} {way : List Step} (wellFormed : v.WellFormed)
    (named : Step.field "" ∉ way) (leads : v.at? way = some (.int n)) :
    Holds n (.block [typed v]) way := by
  induction way generalizing v with
  | nil =>
    cases leads
    exact .number rfl rfl rfl rfl
  | cons step way ih =>
    obtain ⟨part, found, onward⟩ := Option.bind_eq_some_iff.mp leads
    have others : Step.field "" ∉ way := fun member => named (List.mem_cons_of_mem _ member)
    cases v with
    | obj fields =>
      cases step with
      | item index => cases found
      | field key =>
        rw [Value.WellFormed, Value.wellFormedFields_iff] at wellFormed
        have member : (key, part) ∈ fields := Entries.mem_of_get? found
        have inside := (ih (wellFormed.2 _ member) others onward).cons_key (.str key)
        obtain ⟨before, after, rfl⟩ := List.append_of_mem member
        have last : key ∉ Entries.keys after := by
          have distinct := wellFormed.1
          rw [List.map_append, List.map_cons, List.nodup_append] at distinct
          exact (List.nodup_cons.mp distinct.2.1).1
        have known : entryKey? [("key", .str key), typed part] = some key := by
          have nonempty : key ≠ "" := by
            rintro rfl
            simp at named
          simp [entryKey?, Entries.get?, nonempty]
        have row : encode (before ++ (key, part) :: after) =
            encode before ++ .obj [("key", .str key), typed part] :: encode after := by
          simp [encode_eq_map]
        exact .map rfl (row ▸ .entry known (given?_ne_of_not_mem last) inside)
    | list items =>
      cases step with
      | field key => cases found
      | item index =>
        rw [Value.WellFormed, Value.wellFormedItems_iff] at wellFormed
        obtain ⟨before, after, rfl, rfl⟩ := split_of_getElem? found
        have inside := holds_encodeItem (ih (wellFormed part (by simp)) others onward)
        have row : encodeItems (before ++ part :: after) =
            before.map encodeItem ++ encodeItem part :: after.map encodeItem := by
          simp [encodeItems_eq_map]
        have beside : ∀ other ∈ before.map encodeItem ++ after.map encodeItem,
            decodeItem other ≠ .error .malformed := by
          rw [← List.map_append, List.forall_mem_map]
          intro other member
          rw [decodeItem_encodeItem]
          exact decodeTyped_typed_ne_malformed other
        have same : typed (.list (before ++ part :: after)) = ("valueList",
            .list (before.map encodeItem ++ encodeItem part :: after.map encodeItem)) := by
          rw [typed, row]
        rw [same, ← List.length_map encodeItem]
        exact .list rfl rfl beside inside
    | _ => cases found

/-- Where entries hold a whole number, the object that is read from them holds the binary64 number
of it, which is the number itself exactly if binary64 has it, and otherwise one that differs by no
more than half of the last of its 53 bits. The number stops the reading if it is out of the range of
binary64, and entries whose numbers are all in range are read. In particular, this is how every
whole number of an object arrives that is written as entries. -/
theorem decode_of_holds (n : Int) (way : List Step) :
    (∀ entries, Holds n (.entries entries) way →
      (Double.overflow ≤ n.natAbs → decode entries = .error .tooLarge) ∧
      ((∀ entry ∈ entries, entry.InRange) → ∃ fields, decode entries = .ok fields) ∧
      ∀ fields, decode entries = .ok fields →
        ∃ m, (Value.obj fields).at? way = some (.int m) ∧ (m = n ↔ Double.Exact n) ∧
          2 * (n - m).natAbs ≤ Nat.pow 2 (n.natAbs.log2 - 52)) ∧
    ∀ fields, (Value.obj fields).WellFormed → .field "" ∉ way →
      (Value.obj fields).at? way = some (.int n) →
        ∃ entries, encodeValue (.obj fields) = .ok entries ∧ Holds n (.entries entries) way := by
  constructor
  · intro entries holds
    have made := holds.decode
    refine ⟨fun large => ?_, decode_of_inRange, fun fields read => ?_⟩
    · rcases made with stopped | ⟨fields, part, -, -, number⟩
      · exact stopped
      · exact nomatch ((decodeNumber_int_iff n).mpr large).symm.trans number
    · rcases made with stopped | ⟨others, part, same, leads, number⟩
      · exact nomatch stopped.symm.trans read
      · cases same.symm.trans read
        rcases decodeNumber_int n with stopped | ⟨m, told, near⟩
        · exact nomatch stopped.symm.trans number
        · cases told.symm.trans number
          exact ⟨m, leads, near⟩
  · intro fields wellFormed named leads
    refine ⟨encode fields, encodeValue_obj fields, ?_⟩
    cases holds_typed wellFormed named leads with
    | map map inside =>
      cases map
      exact inside
    | number map _ _ _ => cases map
    | list map _ _ _ => cases map

/-- The first whole number that binary64 does not have, in a list in a map. -/
theorem decode_of_holds_of_list :
    let n : Int := 9007199254740993
    let way : List Step := [.field "m", .field "l", .item 1]
    let fields : Fields := [("m", .obj [("l", .list [.null, .int n])])]
    (Value.obj fields).WellFormed ∧ .field "" ∉ way ∧ (Value.obj fields).at? way = some (.int n) ∧
      ∃ entries read m, encodeValue (.obj fields) = .ok entries ∧ Holds n (.entries entries) way ∧
        decode entries = .ok read ∧ (Value.obj read).at? way = some (.int m) ∧
        (m = n ↔ Double.Exact n) ∧ 2 * (n - m).natAbs ≤ Nat.pow 2 (n.natAbs.log2 - 52) := by
  intro n way fields
  have wellFormed : (Value.obj fields).WellFormed := by
    simp [fields, Value.WellFormed, Value.WellFormedFields, Value.WellFormedItems]
  have named : .field "" ∉ way := by simp [way]
  obtain ⟨arrives, written⟩ := decode_of_holds n way
  obtain ⟨entries, same, holds⟩ := written fields wellFormed named rfl
  have read : decode entries =
      .ok [("m", .obj [("l", .list [.null, .int 9007199254740992])])] := by
    cases same
    decide +kernel
  obtain ⟨m, leads, near⟩ := (arrives entries holds).2.2 _ read
  exact ⟨wellFormed, named, rfl, entries, _, m, same, holds, read, leads, near⟩

/-- A whole number that binary64 does not have arrives as another one, although its entry is well
formed and written from the number itself. -/
theorem decode_of_rounded :
    let n : Int := 9007199254740993
    ∃ entries, encodeValue (.obj [("n", .int n)]) = .ok entries ∧
      Holds n (.entries entries) [.field "n"] ∧
      decode entries = .ok [("n", .int 9007199254740992)] :=
  ⟨[.obj [("key", .str "n"), ("valueNumber", .int 9007199254740993)]], rfl,
    @Holds.entry _ [] [] _ _ _ rfl nofun (.number rfl rfl rfl rfl), by decide +kernel⟩

end Contents
end LiveSurface
