import LiveSurface.Render.Node

/-!
# Primitives

What a host gives to have surfaces shown: one maker of nodes for each kind of component and for
each diagnostic. A maker may fail. The reference makers build plain nodes and never fail.
-/
namespace LiveSurface

/-- The code of failures that have none of their own. -/
def renderFailedCode : String := "render_failed"

/-- The code that marks a reference of a component to itself. -/
def cycleCode : String := "component_cycle"

/-- A failure inside a host's maker, plain or with a code. -/
inductive HostFailure
  | plain (message : String)
  | coded (message code : String)
deriving DecidableEq, Repr

/-- A failure with a code; an empty code stands for none. -/
def HostFailure.ofCode (message : String) (code : Option String) : HostFailure :=
  match code with
  | some c => .coded message (if c = "" then renderFailedCode else c)
  | none => .coded message renderFailedCode

/-- The wording of a failure. -/
def HostFailure.message : HostFailure → String
  | plain message => message
  | coded message _ => message

/-- The makers of nodes. -/
structure Primitives (ν : Type) where
  text (id text variant : String) : Except HostFailure ν
  button (id label : String) (primary : Bool) (action : Option Action) : Except HostFailure ν
  column (id : String) (children : List ν) (alignment : String) : Except HostFailure ν
  row (id : String) (children : List ν) (distribution : String) : Except HostFailure ν
  card (id : String) (child : Option ν) : Except HostFailure ν
  list (id : String) (children : List ν) : Except HostFailure ν
  icon (id name glyph : String) (pixels : Nat) : Except HostFailure ν
  divider (id orientation : String) : Except HostFailure ν
  spacer (id size : String) (units : Nat) : Except HostFailure ν
  /-- A reference to an identifier that is not registered. -/
  notFound (id : String) : Except HostFailure ν
  /-- A component that could not be shown. -/
  error (id kind message : String) : Except HostFailure ν
  /-- A component that is reached again below itself. -/
  cycle (id : String) (trail : List String) : Except HostFailure ν
  surface (id : String) (child : Option ν) (styles : Fields) : Except HostFailure ν
  /-- A surface whose root is not registered. -/
  missingRoot (id : String) : Except HostFailure ν
  container (surfaces : List ν) : Except HostFailure ν

namespace Node

/-- The makers of plain nodes. -/
def primitives : Primitives Node where
  text id text variant :=
    let level : Fields := match Catalog.headingLevel? variant with
      | some level => [("heading_level", .int level)]
      | none => []
    .ok (mk .text id text (("variant", .str variant) :: level) none [])
  button id label primary action := .ok (mk .button id label [("primary", .bool primary)] action [])
  column id children alignment :=
    .ok (mk .column id none [("alignment", .str alignment)] none children)
  row id children distribution :=
    .ok (mk .row id none [("distribution", .str distribution)] none children)
  card id child := .ok (mk .card id none [] none child.toList)
  list id children := .ok (mk .list id none [] none children)
  icon id name glyph pixels :=
    .ok (mk .icon id glyph [("name", .str name), ("pixel_size", .int pixels)] none [])
  divider id orientation := .ok (mk .divider id none [("orientation", .str orientation)] none [])
  spacer id size units :=
    .ok (mk .spacer id none [("size", .str size), ("units", .int units)] none [])
  notFound id := .ok (mk .notFound id (some s!"Component not found: {id}") [] none [])
  error id kind message :=
    .ok (mk .error id (some s!"Error rendering {kind}")
      [("component_kind", .str kind), ("message", .str message)] none [])
  cycle id trail :=
    .ok (mk .cycle id (some s!"Circular reference to component: {id}")
      [("trail", .list (trail.map .str))] none [])
  surface id child styles :=
    .ok (mk .surface id none (if styles.isEmpty then [] else [("styles", .obj styles)]) none
      child.toList)
  missingRoot id :=
    .ok (mk .missingRoot id (some s!"No root component found for surface: {id}") [] none [])
  container surfaces := .ok (mk .container none none [] none surfaces)

end Node
end LiveSurface
