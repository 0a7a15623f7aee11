import LiveSurface.Component.Catalog
import LiveSurface.Validation.Basic

/-!
# Properties of components

What each kind of component is described by, and how its properties are read. The properties of a
known kind are null or an object whose fields pass their checks; a component of any other kind
keeps whatever it was described by.
-/
namespace LiveSurface

open Validation

/-- A literal or a path into the data model. -/
structure Descriptor where
  literalString : Option String := none
  literalNumber : Option Double := none
  literalBoolean : Option Bool := none
  path : Option String := none
deriving DecidableEq

/-- A keyed descriptor in the context of an action. -/
structure ContextEntry where
  key : String
  value : Descriptor
deriving DecidableEq

/-- What a button reports when it is activated. -/
structure Action where
  name : String
  context : List ContextEntry
deriving DecidableEq

/-- One component shown for every element of bound data. -/
structure Template where
  componentId : String
  dataBinding : Option String
deriving DecidableEq, Repr

/-- The children of a container: listed one by one, or made from a template. -/
structure Children where
  explicitList : Option (List String)
  template : Option Template
deriving DecidableEq, Repr

/-- A component with checked properties. -/
inductive Component
  | text (text : Option Descriptor) (usageHint : Option String)
  | button (child : Option String) (primary : Bool) (action : Option Action)
  | column (children : Option Children) (alignment : Option String)
  | row (children : Option Children) (distribution : Option String)
  | card (child : Option String)
  | list (children : Option Children)
  | icon (icon size : Option String)
  | divider (orientation : Option String)
  | spacer (size : Option String)
  | unknown (kind : String) (body : Fields)
deriving DecidableEq

/-- A literal text may also be a boolean or a number, which is taken as the text it shows as. -/
def Descriptor.literalText (v : Value) : Checked String :=
  match v with
  | .bool _ | .int _ | .real _ =>
    match v.display with
    | .ok s => .valid s
    | .error _ => .refuse .valueError
  | _ => Validation.text v

/-- Reads a descriptor. -/
def Descriptor.read (body : Fields) : Checked Descriptor :=
  Descriptor.mk <$> maybe "literalString" literalText body <*> maybe "literalNumber" real body
    <*> maybe "literalBoolean" flag body <*> maybe "path" Validation.text body

/-- Reads an entry of an action's context. -/
def ContextEntry.read (body : Fields) : Checked ContextEntry :=
  ContextEntry.mk <$> required "key" nonEmpty body
    <*> optional "value" (record Descriptor.read) {} body

/-- Reads an action. -/
def Action.read (body : Fields) : Checked Action :=
  Action.mk <$> required "name" nonEmpty body
    <*> optional "context" (listOf (record ContextEntry.read)) [] body

/-- Reads a template. -/
def Template.read (body : Fields) : Checked Template :=
  Template.mk <$> required "componentId" nonEmpty body <*> maybe "dataBinding" Validation.text body

/-- Reads a template from a value of any type. -/
def Template.check (v : Value) : Except Invalid Template :=
  (record Template.read v).named "TemplateRef"

/-- Reads the children of a container. -/
def Children.read (body : Fields) : Checked Children :=
  Children.mk <$> maybe "explicitList" (listOf Validation.text) body
    <*> maybe "template" (record Template.read) body

namespace Component

/-- Reads the properties of a component of a known kind. -/
def read (kind : Kind) (body : Fields) : Checked Component :=
  match kind with
  | .text => text <$> maybe "text" (record Descriptor.read) body
      <*> maybe "usageHint" Validation.text body
  | .button => button <$> maybe "child" Validation.text body <*> optional "primary" flag false body
      <*> maybe "action" (record Action.read) body
  | .column => column <$> maybe "children" (record Children.read) body
      <*> maybe "alignment" Validation.text body
  | .row => row <$> maybe "children" (record Children.read) body
      <*> maybe "distribution" Validation.text body
  | .card => card <$> maybe "child" Validation.text body
  | .list => list <$> maybe "children" (record Children.read) body
  | .icon => icon <$> maybe "icon" Validation.text body <*> maybe "size" Validation.text body
  | .divider => divider <$> maybe "orientation" Validation.text body
  | .spacer => spacer <$> maybe "size" Validation.text body

/-- Why the properties of a component were refused. -/
inductive Fault
  /-- The properties are neither null nor an object. -/
  | notObject (kind type : String)
  /-- The properties do not pass their checks. -/
  | invalid (failure : Invalid)
deriving DecidableEq, Repr

/-- The wording of a fault. -/
def Fault.message : Fault → String
  | notObject kind type => s!"{kind} properties must be an object, got {type}"
  | invalid failure => failure.message

/-- Reads a component from the name of its kind and its properties. -/
def parse (kind : String) (props : Value) : Except Fault Component :=
  match Kind.ofName? kind with
  | none => .ok (unknown kind (Entries.set props.fieldsOrNone "kind" (.str kind)))
  | some known =>
    match props with
    | .null => ((read known []).named known.modelName).mapError .invalid
    | .obj body => ((read known body).named known.modelName).mapError .invalid
    | v => .error (.notObject kind v.typeName)

end Component

/-- A value that may be missing, as a value. -/
def orNull (v : Option Value) : Value := v.getD .null

/-- All fields of a descriptor, null where one is not set. -/
def Descriptor.allFields (d : Descriptor) : Fields :=
  [("literalString", orNull (d.literalString.map .str)),
    ("literalNumber", orNull (d.literalNumber.map .real)),
    ("literalBoolean", orNull (d.literalBoolean.map .bool)), ("path", orNull (d.path.map .str))]

/-- The fields of a descriptor that are set. -/
def Descriptor.setFields (d : Descriptor) : Fields := d.allFields.filter (·.2 ≠ .null)

/-- The text that an optional descriptor shows as in a data model. -/
def Descriptor.display (descriptor : Option Descriptor) (model : Value) :
    Except ValueFault String :=
  match descriptor with
  | some d => Binding.resolveText (.obj d.setFields) model
  | none => Binding.resolveText .null model

theorem Descriptor.display_eq_error {descriptor : Option Descriptor} {model : Value}
    {fault : ValueFault} (failed : display descriptor model = .error fault) :
    fault = .unwritten := by
  unfold display at failed
  split at failed <;> exact Value.display_eq_error failed

/-- What a host receives when an action is reported: the key of every entry of the context with
the fields of its descriptor that are set. -/
def Action.payload (action : Action) : List Value :=
  action.context.map fun entry =>
    .obj [("key", .str entry.key), ("value", .obj entry.value.setFields)]

/-- All fields of an action. -/
def Action.toValue (action : Action) : Value :=
  .obj [("name", .str action.name),
    ("context", .list (action.context.map fun entry =>
      .obj [("key", .str entry.key), ("value", .obj entry.value.allFields)]))]

/-- All fields of a template. -/
def Template.toValue (template : Template) : Value :=
  .obj [("componentId", .str template.componentId),
    ("dataBinding", orNull (template.dataBinding.map .str))]

/-- All fields of the children of a container. -/
def Children.toValue (children : Children) : Value :=
  .obj [("explicitList", orNull (children.explicitList.map fun ids => .list (ids.map .str))),
    ("template", orNull (children.template.map Template.toValue))]

namespace Component

/-- The written kind of a component. -/
def kindName : Component → String
  | text .. => "Text"
  | button .. => "Button"
  | column .. => "Column"
  | row .. => "Row"
  | card .. => "Card"
  | list .. => "List"
  | icon .. => "Icon"
  | divider .. => "Divider"
  | spacer .. => "Spacer"
  | unknown kind _ => kind

/-- The name of the record of a component. -/
def modelName : Component → String
  | unknown .. => "UnknownComponent"
  | component => component.kindName ++ "Component"

/-- All properties of a component, null where one is not set; one of an unknown kind has the fields
it was described by. -/
def fields : Component → Fields
  | text descriptor hint =>
    [("kind", .str "Text"), ("text", orNull (descriptor.map fun d => .obj d.allFields)),
      ("usageHint", orNull (hint.map .str))]
  | button child primary action =>
    [("kind", .str "Button"), ("child", orNull (child.map .str)), ("primary", .bool primary),
      ("action", orNull (action.map Action.toValue))]
  | column children alignment =>
    [("kind", .str "Column"), ("children", orNull (children.map Children.toValue)),
      ("alignment", orNull (alignment.map .str))]
  | row children distribution =>
    [("kind", .str "Row"), ("children", orNull (children.map Children.toValue)),
      ("distribution", orNull (distribution.map .str))]
  | card child => [("kind", .str "Card"), ("child", orNull (child.map .str))]
  | list children =>
    [("kind", .str "List"), ("children", orNull (children.map Children.toValue))]
  | icon name size =>
    [("kind", .str "Icon"), ("icon", orNull (name.map .str)), ("size", orNull (size.map .str))]
  | divider orientation =>
    [("kind", .str "Divider"), ("orientation", orNull (orientation.map .str))]
  | spacer size => [("kind", .str "Spacer"), ("size", orNull (size.map .str))]
  | unknown _ body => body

end Component
end LiveSurface
