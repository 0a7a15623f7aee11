import LiveSurface.Data.Binding

/-!
# Typed contents

Data travels as a list of entries, each with a key and one typed value. `encode` writes an object
as entries, and `decode` reads entries into an object. A malformed entry is passed over and leaves
the entries around it alone; only a number too large for binary64 stops the reading.
-/
namespace LiveSurface.Contents

/-- The typed field of a value without parts. -/
def typedScalar : Value → String × Value
  | .null => ("valueNull", .bool true)
  | .bool b => ("valueBoolean", .bool b)
  | .int n => ("valueNumber", .int n)
  | .real d => ("valueNumber", .real d)
  | v => ("valueString", .str v.wording)

mutual

/-- The typed field of a value. -/
def typed : Value → String × Value
  | .list items => ("valueList", .list (encodeItems items))
  | .obj fields => ("valueMap", .list (encode fields))
  | v => typedScalar v
termination_by structural v => v

/-- An item of a list: an object is its entries, anything else an object with its typed field. -/
def encodeItem : Value → Value
  | .list items => .obj [("valueList", .list (encodeItems items))]
  | .obj fields => .list (encode fields)
  | v => .obj [typedScalar v]
termination_by structural v => v

/-- The items of a list. -/
def encodeItems : List Value → List Value
  | [] => []
  | item :: rest => encodeItem item :: encodeItems rest
termination_by structural v => v

/-- The entries of an object. -/
def encode : List (String × Value) → List Value
  | [] => []
  | (key, value) :: rest => .obj [("key", .str key), typed value] :: encode rest
termination_by structural v => v

end

/-- A pair as a field, under the text of its key. -/
def toField (pair : Value × Value) : Except ValueFault (String × Value) :=
  pair.1.text.map (·, pair.2)

/-- The entries of a value that has pairs; an untrue value has none. -/
def encodeValue (v : Value) : Except ValueFault (List Value) := do
  let pairs ← if v.truth then v.pairs else pure []
  pure (encode (← pairs.mapM toField))

/-- Why an entry gives no value. -/
inductive Rejection
  /-- The entry does not have the form of one; it is passed over. -/
  | malformed
  /-- The entry holds a whole number out of the range of binary64. -/
  | tooLarge
deriving DecidableEq, Repr

/-- The fields that hold a typed value. -/
def typedKeys : List String :=
  ["valueMap", "valueList", "valueString", "valueNumber", "valueBoolean", "valueNull"]

/-- Whether a block holds a typed value. -/
def isTyped (block : Fields) : Bool := typedKeys.any (Entries.has block)

/-- The number of a value: it passes through binary64, and is an integer when it has no fraction. -/
def decodeNumber : Value → Except Rejection Value
  | .bool _ => .error .malformed
  | v =>
    match v.toReal? with
    | .error _ => .error .tooLarge
    | .ok none => .error .malformed
    | .ok (some d) =>
      match d.toInt? with
      | some n => .ok (.int n)
      | none => .ok (.real d)

/-- The value of a block without parts: its text, number or boolean, or a null that is true. -/
def decodeScalar (block : Fields) : Except Rejection Value :=
  match Entries.get? block "valueString" with
  | some v =>
    match v.text with
    | .ok s => .ok (.str s)
    | .error _ => .error .malformed
  | none =>
    match Entries.get? block "valueNumber" with
    | some v => decodeNumber v
    | none =>
      match Entries.get? block "valueBoolean" with
      | some (.bool b) => .ok (.bool b)
      | some _ => .error .malformed
      | none =>
        match Entries.get? block "valueNull" with
        | some (.bool true) => .ok .null
        | _ => .error .malformed

/-- The key of an entry, where it has one. -/
def entryKey? (block : Fields) : Option String :=
  match Entries.get? block "key" with
  | some (.str key) => if key = "" then none else some key
  | _ => none

mutual

/-- A value read as a map of entries. -/
def decodeMap : Value → Except Rejection Value
  | .list items => (decodeEntries [] items).map .obj
  | _ => .error .malformed
termination_by structural v => v

/-- A value read as a list of items. -/
def decodeList : Value → Except Rejection Value
  | .list items => (decodeItems items).map .list
  | _ => .error .malformed
termination_by structural v => v

/-- The map that a block holds, where it has the field for one. -/
def mapOf? : List (String × Value) → Option (Except Rejection Value)
  | [] => none
  | (key, value) :: rest => if key = "valueMap" then some (decodeMap value) else mapOf? rest
termination_by structural v => v

/-- The list that a block holds, where it has the field for one. -/
def listOf? : List (String × Value) → Option (Except Rejection Value)
  | [] => none
  | (key, value) :: rest => if key = "valueList" then some (decodeList value) else listOf? rest
termination_by structural v => v

/-- The typed value of an entry, under its key. -/
def decodeEntry : Value → Except Rejection (String × Value)
  | .obj block =>
    match entryKey? block with
    | none => .error .malformed
    | some key =>
      (match mapOf? block with
        | some read => read
        | none => match listOf? block with
          | some read => read
          | none => decodeScalar block).map (key, ·)
  | _ => .error .malformed
termination_by structural v => v

/-- An item of a list: entries, one entry, a typed value, or a value that stands for itself. -/
def decodeItem : Value → Except Rejection Value
  | .list items => (decodeEntries [] items).map .obj
  | .obj block =>
    if isTyped block then
      let value := match mapOf? block with
        | some read => read
        | none => match listOf? block with
          | some read => read
          | none => decodeScalar block
      if Entries.has block "key" then
        match entryKey? block with
        | none => .ok (.obj [])
        | some key =>
          match value with
          | .ok v => .ok (.obj [(key, v)])
          | .error .malformed => .ok (.obj [])
          | .error .tooLarge => .error .tooLarge
      else value
    else .ok (.obj block)
  | v => .ok v
termination_by structural v => v

/-- The items of a list; one that is rejected rejects the list. -/
def decodeItems : List Value → Except Rejection (List Value)
  | [] => .ok []
  | item :: rest =>
    match decodeItem item with
    | .error r => .error r
    | .ok v => (decodeItems rest).map (v :: ·)
termination_by structural v => v

/-- Entries read one after another into the fields read before. -/
def decodeEntries (fields : Fields) : List Value → Except Rejection Fields
  | [] => .ok fields
  | item :: rest =>
    match decodeEntry item with
    | .ok (key, value) => decodeEntries (Entries.set fields key value) rest
    | .error .malformed => decodeEntries fields rest
    | .error .tooLarge => .error .tooLarge
termination_by structural v => v

end

/-- The typed value of a block. -/
def decodeTyped (block : Fields) : Except Rejection Value :=
  match mapOf? block with
  | some read => read
  | none =>
    match listOf? block with
    | some read => read
    | none => decodeScalar block

/-- The object that a list of entries writes. -/
def decode (entries : List Value) : Except ValueFault Fields :=
  match decodeEntries [] entries with
  | .ok fields => .ok fields
  | .error _ => .error .tooLarge

/-- The object that a value with elements writes; an untrue value writes the empty object. -/
def decodeValue (v : Value) : Except ValueFault Fields := do decode (← v.elementsOrNone)

theorem mapOf?_eq (block : Fields) :
    mapOf? block = (Entries.get? block "valueMap").map decodeMap := by
  induction block with
  | nil => rfl
  | cons field rest ih =>
    obtain ⟨key, value⟩ := field
    by_cases h : key = "valueMap" <;> simp [mapOf?, Entries.get?, h, ih]

theorem listOf?_eq (block : Fields) :
    listOf? block = (Entries.get? block "valueList").map decodeList := by
  induction block with
  | nil => rfl
  | cons field rest ih =>
    obtain ⟨key, value⟩ := field
    by_cases h : key = "valueList" <;> simp [listOf?, Entries.get?, h, ih]

end LiveSurface.Contents
