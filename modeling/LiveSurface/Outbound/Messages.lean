import LiveSurface.Data.Contents

/-!
# Outbound messages

Messages made from plain values: texts are written for identifiers of any type, data is written as
typed contents, and what is absent is left out. The usual three messages that bring one surface to
life are made together.
-/
namespace LiveSurface.Outbound

/-- A message with a tag. -/
def tagged (tag : String) (body : Fields) : Value := .obj [(tag, .obj body)]

/-- Names the root of a surface and its look. -/
def beginRendering (surfaceId root styles : Value) : Except ValueFault Value := do
  let surface ← surfaceId.text
  let root ← root.text
  let look ← if styles.truth then pure [("styles", ← styles.toObject)] else pure []
  pure (tagged "beginRendering" ([("surfaceId", .str surface), ("root", .str root)] ++ look))

/-- One entry of an update: a component of a kind, with a weight unless that is null. -/
def componentEntry (id kind weight : Value) (props : Fields) : Except ValueFault Value := do
  let id ← id.text
  let kind ← kind.text
  pure (.obj ([("id", .str id), ("component", .obj [(kind, .obj props)])]
    ++ (if weight = .null then [] else [("weight", weight)])))

/-- Brings components to a surface. -/
def surfaceUpdate (surfaceId components : Value) : Except ValueFault Value := do
  let surface ← surfaceId.text
  let entries ← (← components.elements).mapM Value.toObject
  pure (tagged "surfaceUpdate" [("surfaceId", .str surface), ("components", .list entries)])

/-- The path that data is brought to, the root unless one is given. -/
def placeText (path : Value) : Except ValueFault String :=
  if path.truth then path.text else .ok "/"

/-- Brings data to a surface, at the root unless there is a path. -/
def dataModelUpdate (surfaceId data path : Value) : Except ValueFault Value := do
  let surface ← surfaceId.text
  let path ← placeText path
  let contents ← Contents.encodeValue data
  pure (tagged "dataModelUpdate"
    [("surfaceId", .str surface), ("path", .str path), ("contents", .list contents)])

/-- Removes a surface. -/
def deleteSurface (surfaceId : Value) : Except ValueFault Value := do
  pure (tagged "deleteSurface" [("surfaceId", .str (← surfaceId.text))])

/-- Reports an action with its context. -/
def userAction (name surfaceId sourceId context : Value) : Except ValueFault Value := do
  let named (field : String) (v : Value) : Except ValueFault Fields := do
    if v.truth then pure [(field, .str (← v.text))] else pure []
  let name ← name.text
  let entries ← (← context.elementsOrNone).mapM Value.toObject
  let surface ← named "surfaceId" surfaceId
  let source ← named "sourceComponentId" sourceId
  pure (tagged "userAction"
    ([("name", .str name), ("context", .list entries)] ++ surface ++ source))

/-- Brings a surface to life: its root and look, its components, and data if there is any. -/
def renderSequence (surfaceId root components data styles : Value) :
    Except ValueFault (List Value) := do
  let start ← beginRendering surfaceId root styles
  let update ← surfaceUpdate surfaceId components
  let rest ← if data.truth then pure [← dataModelUpdate surfaceId data .null] else pure []
  pure ([start, update] ++ rest)

end LiveSurface.Outbound
