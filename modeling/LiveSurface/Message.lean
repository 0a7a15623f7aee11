import LiveSurface.Validation.Basic

/-!
# Messages

The messages that change surfaces, and how they are read from values. A message is an object with
one of five tags; the body under the first tag in the fixed order is read leniently, so that an
invalid optional field counts as absent and only an invalid required field spoils the message.
-/
namespace LiveSurface

open Validation

/-- The look of a surface. -/
structure Styles where
  primaryColor : Option String
  font : Option String
deriving DecidableEq, Repr

/-- A message. -/
inductive Message
  | beginRendering (surfaceId : String) (root : Option String) (styles : Option Styles)
  | surfaceUpdate (surfaceId : String) (components : List Value)
  | dataModelUpdate (surfaceId : String) (path : Option String) (contents : List Value)
      (value : Option Fields)
  | userAction (name : String) (surfaceId sourceComponentId : Option String)
      (context : List Value)
  | deleteSurface (surfaceId : String)
deriving DecidableEq

/-- Reads the look of a surface. -/
def Styles.read (body : Fields) : Checked Styles :=
  Styles.mk <$> maybe "primaryColor" text body <*> maybe "font" text body

/-- The two fields of a look, null where one is not set. -/
def Styles.fields (styles : Styles) : List (String × Option String) :=
  [("primaryColor", styles.primaryColor), ("font", styles.font)]

/-- The fields that are set. -/
def Styles.setFields (styles : Styles) : Fields :=
  styles.fields.filterMap fun field => field.2.map fun s => (field.1, .str s)

namespace Message

/-- Reads the body of a message that names the root of a surface and its look. -/
def readBeginRendering (body : Fields) : Checked Message :=
  beginRendering <$> required "surfaceId" nonEmpty body <*> maybe "root" nonEmpty body
    <*> maybe "styles" (record Styles.read) body

/-- Reads the body of a message that brings components; its entries are read one by one later. -/
def readSurfaceUpdate (body : Fields) : Checked Message :=
  surfaceUpdate <$> required "surfaceId" nonEmpty body <*> optional "components" anyList [] body

/-- Reads the body of a message that brings data. -/
def readDataModelUpdate (body : Fields) : Checked Message :=
  dataModelUpdate <$> required "surfaceId" nonEmpty body <*> maybe "path" text body
    <*> optional "contents" anyList [] body <*> maybe "value" object body

/-- Reads the body of a message that reports an action. -/
def readUserAction (body : Fields) : Checked Message :=
  userAction <$> required "name" nonEmpty body <*> maybe "surfaceId" text body
    <*> maybe "sourceComponentId" text body <*> optional "context" anyList [] body

/-- Reads the body of a message that removes a surface. -/
def readDeleteSurface (body : Fields) : Checked Message :=
  deleteSurface <$> required "surfaceId" nonEmpty body

/-- The tags of messages with the readings of their bodies; an earlier tag wins. -/
def variants : List (String × (Fields → Checked Message)) :=
  [("beginRendering", readBeginRendering), ("surfaceUpdate", readSurfaceUpdate),
    ("dataModelUpdate", readDataModelUpdate), ("userAction", readUserAction),
    ("deleteSurface", readDeleteSurface)]

/-- Reads a message, if the value is one. -/
def decode? (raw : Value) : Option Message :=
  match raw with
  | .obj fields =>
    match variants.find? fun variant => Entries.has fields variant.1 with
    | none => none
    | some (tag, read) =>
      match Entries.get? fields tag with
      | some (.obj body) => leniently read body
      | _ => none
  | _ => none

/-- The tag of a message. -/
def tag : Message → String
  | beginRendering .. => "beginRendering"
  | surfaceUpdate .. => "surfaceUpdate"
  | dataModelUpdate .. => "dataModelUpdate"
  | userAction .. => "userAction"
  | deleteSurface .. => "deleteSurface"

/-- The surface that a message changes, for the three kinds that bring something to one. -/
def target? : Message → Option String
  | beginRendering id .. | surfaceUpdate id .. | dataModelUpdate id .. => some id
  | _ => none

end Message
end LiveSurface
