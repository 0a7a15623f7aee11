import LiveSurface.Value.Conversion

/-!
# Paths into a data model

A path names a place in nested objects and lists by segments between slashes. `Value.read` reads a
place, and `Fields.write` puts a payload there. Reading what was written gives the payload back,
and the objects on the way are made where they are missing.
-/
namespace LiveSurface

namespace Path

/-- The parts of a text between its slashes. -/
def parts : List Char → List (List Char)
  | [] => [[]]
  | c :: rest =>
    if c = '/' then [] :: parts rest
    else match parts rest with
      | [] => [[c]]
      | part :: more => (c :: part) :: more

/-- The segments of a path: blanks around the path and empty parts do not count. -/
def segments (path : String) : List String :=
  ((parts (Text.trimBy Text.isBlank path.toList)).filter (· ≠ [])).map String.ofList

/-- The segments of a path given as any value; an untrue value addresses the whole model. -/
def ofValue (path : Value) : Except ValueFault (List String) :=
  if path.truth then path.text.map segments else .ok []

end Path

namespace Value

/-- One step down: a field of an object or an item of a list, null where there is none. -/
def child (v : Value) (segment : String) : Value :=
  match v with
  | .obj fields => (Entries.get? fields segment).getD .null
  | .list items =>
    match Numeral.whole segment with
    | .ok n => if 0 ≤ n then (items[n.toNat]?).getD .null else .null
    | .error _ => .null
  | _ => .null

/-- The value at a place, null from the first missing step on. -/
def read (v : Value) (segments : List String) : Value := segments.foldl child v

/-- The fields of an object, none of anything else. -/
def fieldsOrNone (v : Value) : Fields := (v.asFields?).getD []

end Value

namespace Fields

/-- Puts a payload at a place. At the root each field of the payload replaces the field of that
name; elsewhere the payload replaces the value, and whatever is no object on the way becomes one. -/
def write (model : Fields) (segments : List String) (payload : Fields) : Fields :=
  match segments with
  | [] => Entries.update model payload
  | [last] => Entries.set model last (.obj payload)
  | segment :: rest =>
    let inner := ((Entries.get? model segment).getD .null).fieldsOrNone
    Entries.set model segment (.obj (write inner rest payload))

end Fields

/-- A data model with a payload put at a path; the payload must be an object, and a model that is
none counts as empty. -/
def updateModel (model path payload : Value) : Except ValueFault Fields := do
  let place ← Path.ofValue path
  match payload with
  | .obj fields => pure (Fields.write model.fieldsOrNone place fields)
  | v => .error (.noFields v.typeName)

@[simp] theorem Value.read_nil (v : Value) : v.read [] = v := rfl

@[simp] theorem Value.read_cons (v : Value) (segment : String) (rest : List String) :
    v.read (segment :: rest) = (v.child segment).read rest := rfl

theorem Value.read_append (v : Value) (p q : List String) :
    v.read (p ++ q) = (v.read p).read q := by
  simp [Value.read]

@[simp] theorem Value.read_null (segments : List String) : Value.null.read segments = .null := by
  induction segments with
  | nil => rfl
  | cons segment rest ih => simpa [Value.child] using ih

theorem Fields.read_write (model payload : Fields) (segment : String) (rest : List String) :
    (Value.obj (Fields.write model (segment :: rest) payload)).read (segment :: rest) =
      .obj payload := by
  induction rest generalizing model segment with
  | nil => simp [Fields.write, Value.child]
  | cons next rest ih =>
    rw [Value.read_cons]
    simpa [Fields.write, Value.child] using ih _ next

end LiveSurface
