import LiveSurface.Data.Path

/-!
# Bindings

A descriptor says where a value comes from: a literal, or a path into the data model. A literal
wins over a path, and what cannot be resolved is null and shows as nothing.
-/
namespace LiveSurface

/-- The text that a value shows as. -/
def Value.display : Value → Except ValueFault String
  | .null => .ok ""
  | .bool b => .ok (if b then "true" else "false")
  | .real d =>
    match d.toInt? with
    | some n => (Value.int n).text
    | none => .ok d.text
  | v => v.text

theorem Value.display_eq_error {v : Value} {fault : ValueFault}
    (failed : v.display = .error fault) : fault = .unwritten := by
  unfold display at failed
  split at failed
  · cases failed
  · cases failed
  · split at failed
    · exact text_eq_error failed
    · cases failed
  · exact text_eq_error failed

namespace Binding

/-- The fields that hold a literal, in the order in which they are asked. -/
def literalKeys : List String := ["literalString", "literalNumber", "literalBoolean"]

/-- The first literal that is not null. -/
def literal? (descriptor : Fields) : Option Value :=
  literalKeys.findSome? fun key =>
    match Entries.get? descriptor key with
    | some .null => none
    | found => found

/-- The value that a descriptor stands for in a data model. -/
def resolve (descriptor model : Value) : Value :=
  match descriptor with
  | .obj fields =>
    match literal? fields with
    | some v => v
    | none =>
      match Entries.get? fields "path" with
      | some (.str path) => model.read (Path.segments path)
      | _ => .null
  | _ => .null

/-- The text that a descriptor shows as. -/
def resolveText (descriptor model : Value) : Except ValueFault String :=
  (resolve descriptor model).display

/-- The keyed value of one entry of an action's context, where it has a key. -/
def contextField? (model entry : Value) : Option (String × Value) :=
  match entry with
  | .obj fields =>
    match Entries.get? fields "key" with
    | some (.str key) =>
      if key = "" then none
      else some (key, resolve ((Entries.get? fields "value").getD .null) model)
    | _ => none
  | _ => none

/-- The resolved context of an action; entries without a key are passed over, and the last value
of a key wins. -/
def actionContext (entries model : Value) : Except ValueFault Fields := do
  let items ← entries.elementsOrNone
  pure (Entries.update [] (items.filterMap (contextField? model)))

end Binding
end LiveSurface
