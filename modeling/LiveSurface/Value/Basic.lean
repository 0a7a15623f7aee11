import LiveSurface.Data.Entries
import LiveSurface.Number.Numeral
import LiveSurface.Number.Shortest
import LiveSurface.Text.Quoted
import LiveSurface.Value.Fault

/-!
# Values

The values that messages and data models are made of, their names, their truth and the text of a
value: a text stands for itself, and inside a list or an object it is quoted. A value that holds a
whole number of too many digits has no text.
-/
namespace LiveSurface

/-- A value. Bytes are written as one character a byte, and the fields of an object are in order. -/
inductive Value
  | null
  | bool (b : Bool)
  | int (n : Int)
  | real (d : Double)
  | str (s : String)
  | bytes (s : String)
  | list (items : List Value)
  | obj (fields : List (String × Value))
deriving Inhabited

/-- The fields of an object. -/
abbrev Fields := Entries Value

namespace Value

mutual

/-- Equality of values, fields in the same order. -/
def decEq : (a b : Value) → Decidable (a = b)
  | .null, .null => isTrue rfl
  | .bool a, .bool b => if h : a = b then isTrue (h ▸ rfl) else isFalse (by simpa using h)
  | .int a, .int b => if h : a = b then isTrue (h ▸ rfl) else isFalse (by simpa using h)
  | .real a, .real b => if h : a = b then isTrue (h ▸ rfl) else isFalse (by simpa using h)
  | .str a, .str b => if h : a = b then isTrue (h ▸ rfl) else isFalse (by simpa using h)
  | .bytes a, .bytes b => if h : a = b then isTrue (h ▸ rfl) else isFalse (by simpa using h)
  | .list a, .list b =>
    match decEqList a b with
    | isTrue h => isTrue (h ▸ rfl)
    | isFalse h => isFalse (by simpa using h)
  | .obj a, .obj b =>
    match decEqFields a b with
    | isTrue h => isTrue (h ▸ rfl)
    | isFalse h => isFalse (by simpa using h)
  | .null, .bool _ | .null, .int _ | .null, .real _ | .null, .str _ | .null, .bytes _
  | .null, .list _ | .null, .obj _ => isFalse nofun
  | .bool _, .null | .bool _, .int _ | .bool _, .real _ | .bool _, .str _ | .bool _, .bytes _
  | .bool _, .list _ | .bool _, .obj _ => isFalse nofun
  | .int _, .null | .int _, .bool _ | .int _, .real _ | .int _, .str _ | .int _, .bytes _
  | .int _, .list _ | .int _, .obj _ => isFalse nofun
  | .real _, .null | .real _, .bool _ | .real _, .int _ | .real _, .str _ | .real _, .bytes _
  | .real _, .list _ | .real _, .obj _ => isFalse nofun
  | .str _, .null | .str _, .bool _ | .str _, .int _ | .str _, .real _ | .str _, .bytes _
  | .str _, .list _ | .str _, .obj _ => isFalse nofun
  | .bytes _, .null | .bytes _, .bool _ | .bytes _, .int _ | .bytes _, .real _ | .bytes _, .str _
  | .bytes _, .list _ | .bytes _, .obj _ => isFalse nofun
  | .list _, .null | .list _, .bool _ | .list _, .int _ | .list _, .real _ | .list _, .str _
  | .list _, .bytes _ | .list _, .obj _ => isFalse nofun
  | .obj _, .null | .obj _, .bool _ | .obj _, .int _ | .obj _, .real _ | .obj _, .str _
  | .obj _, .bytes _ | .obj _, .list _ => isFalse nofun

/-- Equality of lists of values. -/
def decEqList : (a b : List Value) → Decidable (a = b)
  | [], [] => isTrue rfl
  | [], _ :: _ | _ :: _, [] => isFalse nofun
  | a :: as, b :: bs =>
    match decEq a b with
    | isFalse h => isFalse fun e => h (List.cons.inj e).1
    | isTrue h =>
      match decEqList as bs with
      | isFalse hs => isFalse fun e => hs (List.cons.inj e).2
      | isTrue hs => isTrue (h ▸ hs ▸ rfl)

/-- Equality of fields. -/
def decEqFields : (a b : List (String × Value)) → Decidable (a = b)
  | [], [] => isTrue rfl
  | [], _ :: _ | _ :: _, [] => isFalse nofun
  | (k, a) :: as, (l, b) :: bs =>
    if hk : k = l then
      match decEq a b with
      | isFalse h => isFalse fun e => h (Prod.mk.inj (List.cons.inj e).1).2
      | isTrue h =>
        match decEqFields as bs with
        | isFalse hs => isFalse fun e => hs (List.cons.inj e).2
        | isTrue hs => isTrue (hk ▸ h ▸ hs ▸ rfl)
    else isFalse fun e => hk (Prod.mk.inj (List.cons.inj e).1).1

end

instance : DecidableEq Value := decEq

/-- The name of a value's type. -/
def typeName : Value → String
  | .null => "NoneType"
  | .bool _ => "bool"
  | .int _ => "int"
  | .real _ => "float"
  | .str _ => "str"
  | .bytes _ => "bytes"
  | .list _ => "list"
  | .obj _ => "dict"

/-- Null, false, the zeros and everything empty are untrue. -/
def truth : Value → Bool
  | .null => false
  | .bool b => b
  | .int n => n != 0
  | .real d => !d.isZero
  | .str s => s != ""
  | .bytes s => s != ""
  | .list items => !items.isEmpty
  | .obj fields => !fields.isEmpty

/-- The fields of an object. -/
def asFields? : Value → Option Fields
  | .obj fields => some fields
  | _ => none

/-- The items of a list. -/
def asList? : Value → Option (List Value)
  | .list items => some items
  | _ => none

/-- The text that a value is. -/
def asText? : Value → Option String
  | .str s => some s
  | _ => none

mutual

/-- The text of a value inside another one. -/
def quoted : Value → String
  | .null => "None"
  | .bool b => if b then "True" else "False"
  | .int n => toString n
  | .real d => d.text
  | .str s => Text.Quoted.text s
  | .bytes s => Text.Quoted.bytes s
  | .list items => "[" ++ ", ".intercalate (quotedItems items) ++ "]"
  | .obj fields => "\x7b" ++ ", ".intercalate (quotedFields fields) ++ "\x7d"
termination_by structural v => v

/-- The texts of the items of a list. -/
def quotedItems : List Value → List String
  | [] => []
  | item :: rest => quoted item :: quotedItems rest
termination_by structural v => v

/-- The texts of the fields of an object. -/
def quotedFields : List (String × Value) → List String
  | [] => []
  | (key, value) :: rest =>
    (Text.Quoted.text key ++ ": " ++ quoted value) :: quotedFields rest
termination_by structural v => v

end

/-- A value in words, however long its numbers are: a text is itself. It is also what a key that is
no text stands under in an object. -/
def wording : Value → String
  | .str s => s
  | v => v.quoted

mutual

/-- Whether all whole numbers in a value can be written. -/
def isWritten : Value → Bool
  | .int n => Numeral.isWritten n
  | .list items => itemsWritten items
  | .obj fields => fieldsWritten fields
  | _ => true
termination_by structural v => v

/-- Whether all items of a list can be written. -/
def itemsWritten : List Value → Bool
  | [] => true
  | item :: rest => isWritten item && itemsWritten rest
termination_by structural v => v

/-- Whether the values of all fields can be written. -/
def fieldsWritten : List (String × Value) → Bool
  | [] => true
  | (_, value) :: rest => isWritten value && fieldsWritten rest
termination_by structural v => v

end

/-- The text of a value. -/
def text (v : Value) : Except ValueFault String :=
  if v.isWritten then .ok v.wording else .error .unwritten

@[simp] theorem text_str (s : String) : (Value.str s).text = .ok s := rfl

theorem text_eq_error {v : Value} {fault : ValueFault} (failed : v.text = .error fault) :
    fault = .unwritten := by
  unfold text at failed
  split at failed <;> cases failed
  rfl

/-- The text that bytes write in UTF-8, if they write one. -/
def utf8? (s : String) : Option String :=
  String.fromUTF8? ⟨(s.toList.map fun c => UInt8.ofNat c.toNat).toArray⟩

mutual

/-- The form of a value that every reader of JSON understands: bytes are the text they write, and
null stands for what JSON has no words for. -/
def portable : Value → Value
  | .real d => if d.isFinite then .real d else .null
  | .bytes s => ((utf8? s).map .str).getD .null
  | .list items => .list (portableItems items)
  | .obj fields => .obj (portableFields fields)
  | v => v
termination_by structural v => v

/-- The portable forms of the items of a list. -/
def portableItems : List Value → List Value
  | [] => []
  | item :: rest => portable item :: portableItems rest
termination_by structural v => v

/-- The portable forms of the fields of an object. -/
def portableFields : List (String × Value) → List (String × Value)
  | [] => []
  | (key, value) :: rest => (key, portable value) :: portableFields rest
termination_by structural v => v

end

mutual

/-- Every object at any depth has distinct keys. -/
def WellFormed : Value → Prop
  | .list items => WellFormedItems items
  | .obj fields => (fields.map Prod.fst).Nodup ∧ WellFormedFields fields
  | _ => True
termination_by structural v => v

/-- Every item is well formed. -/
def WellFormedItems : List Value → Prop
  | [] => True
  | item :: rest => WellFormed item ∧ WellFormedItems rest
termination_by structural v => v

/-- The value of every field is well formed. -/
def WellFormedFields : List (String × Value) → Prop
  | [] => True
  | (_, value) :: rest => WellFormed value ∧ WellFormedFields rest
termination_by structural v => v

end

theorem wellFormedItems_iff (items : List Value) :
    WellFormedItems items ↔ ∀ item ∈ items, WellFormed item := by
  induction items with
  | nil => simp [WellFormedItems]
  | cons item rest ih => simp [WellFormedItems, ih]

theorem wellFormedFields_iff (fields : Fields) :
    WellFormedFields fields ↔ ∀ field ∈ fields, WellFormed field.2 := by
  induction fields with
  | nil => simp [WellFormedFields]
  | cons field rest ih => simp [WellFormedFields, ih]

end Value
end LiveSurface
