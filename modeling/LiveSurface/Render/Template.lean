import LiveSurface.Component.Properties

/-!
# Templates

A template bound to a list or an object stands for one child an element. Under a list component
every child is the same component with the element as its data model; under a column the children
are different components, named after the elements, that share the data model.
-/
namespace LiveSurface.Template

/-- The value that a template is bound to, null without a binding. -/
def bound (template : Template) (model : Value) : Value :=
  match template.dataBinding with
  | some path => if path = "" then .null else model.read (Path.segments path)
  | none => .null

/-- The elements of the bound list or object; none when the template is bound to neither. -/
def items? (template : Template) (model : Value) : Option (List Value) :=
  match template.bound model with
  | .obj fields => some (fields.map Prod.snd)
  | .list items => some items
  | _ => none

/-- The keys of the bound object, or the indices of the bound list. -/
def keys (template : Template) (model : Value) : List String :=
  match template.bound model with
  | .obj fields => fields.map Prod.fst
  | .list items => (List.range items.length).map toString
  | _ => []

/-- The children under a list: the component with the data model of each child. -/
def listChildren? (template : Template) (model : Value) : Option (List (String × Value)) :=
  (template.items? model).map fun items => items.map (template.componentId, ·)

/-- The children under a column, with the data model that they share. -/
def columnChildren (template : Template) (model : Value) : List (String × Value) :=
  (template.keys model).map fun key => (template.componentId ++ "-" ++ key, model)

end LiveSurface.Template
