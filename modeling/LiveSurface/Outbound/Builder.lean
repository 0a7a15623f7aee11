import LiveSurface.Outbound.Messages

/-!
# Builders by name

The makers of outbound messages with named arguments. An argument that is not known is refused,
and so are all required ones that are missing, together.
-/
namespace LiveSurface.Outbound

/-- A maker of messages. -/
inductive Builder
  | beginRendering
  | surfaceUpdate
  | dataModelUpdate
  | deleteSurface
  | userAction
  | renderSequence
deriving DecidableEq, Repr

namespace Builder

/-- The full name of a builder. -/
def name : Builder → String
  | beginRendering => "build_begin_rendering_message"
  | surfaceUpdate => "build_surface_update_message"
  | dataModelUpdate => "build_data_model_update_message"
  | deleteSurface => "build_delete_surface_message"
  | userAction => "build_user_action_message"
  | renderSequence => "build_render_sequence"

/-- The arguments that a builder needs. -/
def needed : Builder → List String
  | beginRendering => ["surface_id", "root"]
  | surfaceUpdate => ["surface_id", "components"]
  | dataModelUpdate => ["surface_id", "data"]
  | deleteSurface => ["surface_id"]
  | userAction => ["name"]
  | renderSequence => ["surface_id", "root", "components"]

/-- The arguments that a builder can do without. -/
def accepted : Builder → List String
  | beginRendering => ["styles"]
  | surfaceUpdate => []
  | dataModelUpdate => ["path"]
  | deleteSurface => []
  | userAction => ["surface_id", "source_component_id", "context"]
  | renderSequence => ["data", "styles"]

/-- Checks the names of arguments. -/
def check (builder : Builder) (args : Fields) : Except ValueFault Unit :=
  match (Entries.keys args).find? fun name => name ∉ builder.needed ++ builder.accepted with
  | some name => .error (.unknownArgument builder.name name)
  | none =>
    match builder.needed.filter fun name => !Entries.has args name with
    | [] => .ok ()
    | missing => .error (.missingArguments builder.name missing)

/-- Makes a message, or a sequence of messages, from named arguments. -/
def build (builder : Builder) (args : Fields) : Except ValueFault Value := do
  builder.check args
  let arg (name : String) : Value := (Entries.get? args name).getD .null
  match builder with
  | beginRendering => Outbound.beginRendering (arg "surface_id") (arg "root") (arg "styles")
  | surfaceUpdate => Outbound.surfaceUpdate (arg "surface_id") (arg "components")
  | dataModelUpdate => Outbound.dataModelUpdate (arg "surface_id") (arg "data") (arg "path")
  | deleteSurface => Outbound.deleteSurface (arg "surface_id")
  | userAction =>
    Outbound.userAction (arg "name") (arg "surface_id") (arg "source_component_id") (arg "context")
  | renderSequence =>
    Value.list <$> Outbound.renderSequence (arg "surface_id") (arg "root") (arg "components")
      (arg "data") (arg "styles")

end Builder
end LiveSurface.Outbound
