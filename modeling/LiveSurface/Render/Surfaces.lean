import LiveSurface.Surface.Basic
import LiveSurface.Render.Pass

/-!
# Rendering surfaces

A surface is shown by a pass from its root, with nothing spent at the start; a surface whose root
is not registered shows as such. All surfaces together stand in a container.
-/
namespace LiveSurface

/-- How surfaces are shown. -/
structure Renderer (ν : Type) where
  primitives : Primitives ν
  limits : Limits
  /-- Whether actions are reported to the host. -/
  reports : Bool

namespace Renderer

variable {ν : Type}

/-- The registered root of a surface. -/
def root? (surface : Surface) : Option String :=
  surface.root.filter fun root => root ≠ "" && surface.components.contains root

/-- The pass that shows a surface. -/
def pass (renderer : Renderer ν) (surface : Surface) : Pass ν :=
  { primitives := renderer.primitives, registry := surface.components,
    limits := renderer.limits, reports := renderer.reports }

/-- Shows a surface over a data model of any type. -/
def surfaceOver (renderer : Renderer ν) (data : Value) (surface : Surface) :
    Except HostFailure ν :=
  match root? surface with
  | none => renderer.primitives.missingRoot surface.id
  | some root => do
    let child ← ((renderer.pass surface).resolve root ⟨data, []⟩ 0).1
    let styles := match surface.styles with
      | some styles => styles.setFields
      | none => []
    renderer.primitives.surface surface.id child styles

/-- Shows a surface. -/
def surface (renderer : Renderer ν) (surface : Surface) : Except HostFailure ν :=
  renderer.surfaceOver (.obj surface.data) surface

/-- Shows surfaces one after another, nothing when there are none. -/
def all (renderer : Renderer ν) (surfaces : List Surface) : Except HostFailure (Option ν) := do
  let nodes ← surfaces.mapM renderer.surface
  if nodes.isEmpty then pure none else some <$> renderer.primitives.container nodes

end Renderer
end LiveSurface
