import LiveSurface.Component.Definition
import LiveSurface.Message

/-!
# Surfaces

A surface is a set of components with a root, a data model and a look. It counts its changes, and
remembers when it was changed last.
-/
namespace LiveSurface

/-- A surface. -/
structure Surface where
  id : String
  root : Option String := none
  components : Registry := []
  data : Fields := []
  styles : Option Styles := none
  /-- One more than the number of changes. -/
  version : Nat := 1
  /-- The number of the last change among the changes of all surfaces, zero before the first. -/
  touched : Nat := 0
deriving DecidableEq

namespace Surface

/-- The look of a surface as a value. -/
def stylesValue (surface : Surface) : Value :=
  match surface.styles with
  | some styles => .obj styles.setFields
  | none => .null

/-- A short account of a surface. The fields that tell the times stand before the version. -/
def summary (times : Fields) (surface : Surface) : Fields :=
  [("surface_id", .str surface.id),
    ("root", match surface.root with | some root => .str root | none => .null),
    ("component_count", .int surface.components.length),
    ("styles", surface.stylesValue)] ++ times ++ [("version", .int surface.version)]

/-- A full account of a surface: the short one, the data model and the components. -/
def snapshot (times : Fields) (surface : Surface) : Fields :=
  surface.summary times ++
    [("data_model", .obj surface.data),
      ("components", .list (surface.components.map Definition.toValue))]

/-- Puts a payload into the data model. -/
def writeData (surface : Surface) (path : Option String) (payload : Fields) : Surface :=
  let segments := match path with
    | some path => Path.segments path
    | none => []
  { surface with data := Fields.write surface.data segments payload }

end Surface
end LiveSurface
