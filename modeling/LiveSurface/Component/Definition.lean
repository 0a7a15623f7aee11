import LiveSurface.Validation.Basic

/-!
# Definitions and registries

A definition gives a component its identifier, kind and raw properties, which are checked only
when the component is shown. A registry keeps definitions in the order in which their identifiers
first came; a definition under a known identifier replaces the old one in its place.
-/
namespace LiveSurface

open Validation

/-- A component as it was described. -/
structure Definition where
  id : String
  weight : Option Double
  kind : String
  props : Value
deriving DecidableEq

namespace Definition

/-- Reads a definition; its component is an object with exactly one field, whose name is the
kind. -/
def read (body : Fields) : Checked Definition :=
  let parts : Checked (String × Option Double × Fields) :=
    (fun id weight component => (id, weight, component)) <$> required "id" nonEmpty body
      <*> maybe "weight" real body <*> required "component" object body
  parts.andThen fun (id, weight, component) =>
    match component with
    | [(kind, props)] =>
      if kind = "" then .refuse .valueError else .valid ⟨id, weight, kind, props⟩
    | _ => .refuse .valueError

/-- Reads a definition leniently, if the value is one. -/
def decode? (raw : Value) : Option Definition :=
  match raw with
  | .obj body => leniently read body
  | _ => none

/-- A definition as an entry of a message, with the portable form of its properties. -/
def toValue (definition : Definition) : Value :=
  let weight : Fields := match definition.weight with
    | some d => [("weight", .real d)]
    | none => []
  .obj ([("id", .str definition.id)] ++ weight ++
    [("component", .obj [(definition.kind, definition.props.portable)])])

end Definition

/-- The definitions of a surface in order. -/
abbrev Registry := List Definition

namespace Registry

/-- The registry without definitions. -/
def empty : Registry := []

/-- Replaces the definition with the same identifier, or adds one at the end. -/
def upsert : Registry → Definition → Registry
  | [], definition => [definition]
  | first :: rest, definition =>
    if first.id = definition.id then definition :: rest else first :: upsert rest definition

/-- The definition with an identifier. -/
def get? (registry : Registry) (id : String) : Option Definition :=
  registry.find? fun definition => definition.id = id

/-- The identifiers in order. -/
def ids (registry : Registry) : List String := registry.map (·.id)

/-- The kinds in the order of the identifiers. -/
def kinds (registry : Registry) : List String := registry.map (·.kind)

/-- The place of an identifier. -/
def indexOf? (registry : Registry) (id : String) : Option Nat :=
  registry.findIdx? fun definition => definition.id = id

/-- Whether an identifier is registered. -/
def contains (registry : Registry) (id : String) : Bool := (registry.get? id).isSome

/-- Upserts the definitions among raw entries in order; entries that are none are passed over. -/
def upsertAll (registry : Registry) (entries : List Value) : Registry :=
  (entries.filterMap Definition.decode?).foldl upsert registry

@[simp] theorem get?_upsert (registry : Registry) (definition : Definition) (id : String) :
    (registry.upsert definition).get? id =
      if definition.id = id then some definition else registry.get? id := by
  induction registry with
  | nil => by_cases h : definition.id = id <;> simp [upsert, get?, h]
  | cons first rest ih =>
    simp only [get?] at ih
    by_cases same : first.id = definition.id
    · by_cases h : definition.id = id <;> simp [upsert, get?, same, h]
    · by_cases h : definition.id = id
      · subst h
        simp [upsert, get?, same, ih]
      · simp only [upsert, same, ↓reduceIte, get?, List.find?_cons, ih, h]

/-- Under an identifier stands the last of its definitions that were upserted, and what was there
before if there is none. -/
theorem get?_foldl_upsert (registry : Registry) (definitions : List Definition) (id : String) :
    (definitions.foldl upsert registry).get? id =
      (definitions.filter (·.id = id)).getLast?.or (registry.get? id) := by
  induction definitions generalizing registry with
  | nil => rfl
  | cons definition rest ih =>
    rw [List.foldl_cons, ih, get?_upsert]
    by_cases same : definition.id = id
    · simp only [same, decide_true, List.filter_cons_of_pos, List.getLast?_cons, ↓reduceIte]
      cases (rest.filter (·.id = id)).getLast? <;> rfl
    · simp only [same, decide_false, ↓reduceIte, Bool.false_eq_true, not_false_eq_true,
        List.filter_cons_of_neg]

theorem ids_upsert (registry : Registry) (definition : Definition) :
    (registry.upsert definition).ids =
      if definition.id ∈ registry.ids then registry.ids else registry.ids ++ [definition.id] := by
  induction registry with
  | nil => rfl
  | cons first rest ih =>
    simp only [ids] at ih
    by_cases same : first.id = definition.id
    · simp [upsert, ids, same]
    · by_cases m : definition.id ∈ rest.map (·.id) <;>
        simp [upsert, ids, same, Ne.symm same, ih, m]

end Registry
end LiveSurface
