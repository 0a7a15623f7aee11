import LiveSurface.Render.Pass

/-!
# Settings

Five settings that a configuration may change one by one. A value that does not fit its setting
leaves the setting as it was; an infinite number refuses the whole configuration.
-/
namespace LiveSurface

/-- The settings. -/
structure Settings where
  /-- The longest way of components inside components. -/
  maxDepth : Nat := 64
  /-- The most components shown in one pass. -/
  maxNodes : Nat := 10000
  /-- Whether a message may remove a surface. -/
  honorDeleteSurface : Bool := false
  /-- The most surfaces of a session; zero is no limit. -/
  maxSurfaces : Nat := 0
  /-- Whether components of unknown kinds are noted. -/
  logUnknownComponents : Bool := true
deriving DecidableEq, Repr

namespace Settings

/-- A count of at least a minimum. Booleans are no counts, and what is no count gives the current
one. -/
def count (current : Nat) (minimum : Nat) (v : Value) : Except ValueFault Nat :=
  match v with
  | .bool _ => .ok current
  | v =>
    match v.toWhole with
    | .ok n => .ok (if n < minimum then current else n.toNat)
    | .error .infinite => .error .infinite
    | .error _ => .ok current

/-- The words for true. -/
def onWords : List String := ["1", "true", "yes", "on"]

/-- The words for false. -/
def offWords : List String := ["0", "false", "no", "off"]

/-- A boolean or a word for one, in any case and between blanks; anything else gives the current
one. -/
def switch (current : Bool) (v : Value) : Bool :=
  match v with
  | .bool b => b
  | .str s =>
    let word := (Text.trim s).map Char.toLower
    if word ∈ onWords then true else if word ∈ offWords then false else current
  | _ => current

/-- The block of a configuration that holds the settings. -/
def block? (config : Value) : Option Fields :=
  match config with
  | .obj fields =>
    match Entries.get? fields "renderer_config" with
    | some (.obj block) => some block
    | _ => none
  | _ => none

/-- The settings after a configuration. -/
def configure (settings : Settings) (config : Value) : Except ValueFault Settings :=
  match block? config with
  | none => .ok settings
  | some block => do
    let field (name : String) : Value := (Entries.get? block name).getD .null
    let maxDepth ← count settings.maxDepth 1 (field "max_depth")
    let maxNodes ← count settings.maxNodes 1 (field "max_nodes")
    let maxSurfaces ← count settings.maxSurfaces 0 (field "max_surfaces")
    let honorDeleteSurface := switch settings.honorDeleteSurface (field "honor_delete_surface")
    let logUnknownComponents :=
      switch settings.logUnknownComponents (field "log_unknown_components")
    pure { maxDepth, maxNodes, maxSurfaces, honorDeleteSurface, logUnknownComponents }

/-- The limits of passes: what is given as whole numbers, and the settings where null is given. -/
def limits (settings : Settings) (depth nodes : Value) : Except ValueFault Limits := do
  let depth ← if depth = .null then pure (settings.maxDepth : Int) else depth.toWhole
  let nodes ← if nodes = .null then pure (settings.maxNodes : Int) else nodes.toWhole
  pure ⟨max 1 depth.toNat, max 1 nodes.toNat⟩

/-- A call that changes the settings that are kept. -/
inductive Call
  | configure (config : Value)
  | reset

/-- Performs a call. The settings are replaced as a whole, once all of them are known. -/
def Call.perform : Call → ExceptT ValueFault (StateM Settings) Unit
  | .configure config => do
    let settings ← get
    let replaced ← (settings.configure config : Except ValueFault Settings)
    set replaced
  | .reset => set ({} : Settings)

/-- The settings as a value. -/
def toValue (settings : Settings) : Value :=
  .obj [("max_depth", .int settings.maxDepth), ("max_nodes", .int settings.maxNodes),
    ("honor_delete_surface", .bool settings.honorDeleteSurface),
    ("max_surfaces", .int settings.maxSurfaces),
    ("log_unknown_components", .bool settings.logUnknownComponents)]

end Settings
end LiveSurface
