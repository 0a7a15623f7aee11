import LiveSurface.Component.Definition
import LiveSurface.Render.Primitives
import LiveSurface.Render.Template

/-!
# Render passes

A pass turns the component with an identifier into a node, and the components it refers to into
the nodes below. Each component has an error boundary of its own: whatever fails while it is shown
becomes an error node in its place. References that lead back to a component on the way become
cycle nodes, and two limits end every pass: the number of components on the way, and the number of
components spent in all. What was spent stays spent when a component fails.
-/
namespace LiveSurface

/-- The limits of a pass, each at least one. -/
structure Limits where
  maxDepth : Nat
  maxNodes : Nat
deriving DecidableEq, Repr

/-- What stays the same throughout a pass. -/
structure Pass (ν : Type) where
  primitives : Primitives ν
  registry : Registry
  limits : Limits
  /-- Whether actions are reported to the host. -/
  reports : Bool

/-- Where a component stands: its data model, and the components being shown around it, the
outermost first. -/
structure Scope where
  data : Value
  trail : List String

/-- The scope inside a component. -/
def Scope.enter (scope : Scope) (id : String) : Scope := { scope with trail := scope.trail ++ [id] }

/-- Why a component could not be shown. -/
inductive Failure
  /-- The component is on the way to itself. -/
  | cycle (id : String) (trail : List String)
  /-- Too many components are on the way. -/
  | tooDeep (limit : Nat) (id : String)
  /-- The properties of the component, or of the text of a button, do not pass their checks. -/
  | properties (fault : Component.Fault)
  /-- The text of the component, or that of a button, cannot be written. -/
  | unwritten (fault : ValueFault)
  /-- A maker of the host failed. -/
  | host (failure : HostFailure)
deriving DecidableEq

namespace Failure

/-- The wording of a failure. -/
def message : Failure → String
  | cycle id trail =>
    let way := " -> ".intercalate trail
    s!"component '{id}' references itself via {way}"
  | tooDeep limit id => s!"maximum component depth ({limit}) exceeded at '{id}'"
  | properties fault => fault.message
  | unwritten fault => fault.message
  | host failure => failure.message

/-- Whether a failure shows as a cycle; a host's failure does when it has that code. -/
def isCycle : Failure → Bool
  | cycle .. => true
  | host (.coded _ code) => code = cycleCode
  | _ => false

end Failure

/-- The wording of a component over the limit of a pass. -/
def overLimit (limit : Nat) (id : String) : String :=
  s!"maximum components per render ({limit}) exceeded at '{id}'"

/-- The result of showing something, and what has been spent by then. -/
abbrev Spent (ε α : Type) := Except ε α × Int

/-- A way to show the component with an identifier. -/
abbrev Resolve (ν : Type) := String → Scope → Int → Spent HostFailure (Option ν)

namespace Pass

variable {ν : Type}

/-- Shows components one after another; those that show as nothing leave no gap, and a failure
ends the row. -/
def each (child : Resolve ν) : List (String × Scope) → Int → Spent HostFailure (List ν)
  | [], spent => (.ok [], spent)
  | (id, scope) :: rest, spent =>
    match child id scope spent with
    | (.error failure, spent) => (.error failure, spent)
    | (.ok node, spent) =>
      match each child rest spent with
      | (.error failure, spent) => (.error failure, spent)
      | (.ok nodes, spent) => (.ok (node.toList ++ nodes), spent)

/-- Finishes a component from what was made of its children. -/
def finish {α : Type} (made : Spent HostFailure α) (maker : α → Except HostFailure ν) :
    Spent Failure (Option ν) :=
  match made with
  | (.error failure, spent) => (.error (.host failure), spent)
  | (.ok parts, spent) => (((maker parts).map some).mapError .host, spent)

/-- The label of a button: the text of its child where that is a text. -/
def label (registry : Registry) (child : Option String) (data : Value) :
    Except Failure String :=
  match child.bind registry.get? with
  | none => .ok "Button"
  | some definition =>
    if definition.kind = Kind.text.name then
      match Component.parse definition.kind definition.props with
      | .error fault => .error (.properties fault)
      | .ok (.text descriptor _) => (Descriptor.display descriptor data).mapError .unwritten
      | .ok _ => .ok "Button"
    else .ok "Button"

/-- The children of a column. -/
def columnScopes (children : Option Children) (scope : Scope) : List (String × Scope) :=
  match children with
  | some ⟨some ids, _⟩ => ids.map (·, scope)
  | some ⟨none, some template⟩ =>
    (template.columnChildren scope.data).map fun (id, data) => (id, { scope with data })
  | _ => []

/-- The children of a row. -/
def rowScopes (children : Option Children) (scope : Scope) : List (String × Scope) :=
  match children with
  | some ⟨some ids, _⟩ => ids.map (·, scope)
  | _ => []

/-- The children of a list, where it is bound to something with elements. -/
def listScopes? (children : Option Children) (scope : Scope) : Option (List (String × Scope)) :=
  match children with
  | some ⟨_, some template⟩ =>
    (template.listChildren? scope.data).map fun made =>
      made.map fun (id, data) => (id, { scope with data })
  | _ => none

/-- Shows a component with checked properties, given a way to show the components below it. -/
def make (pass : Pass ν) (child : Resolve ν) (id : String) (component : Component) (scope : Scope)
    (spent : Int) : Spent Failure (Option ν) :=
  let host := pass.primitives
  match component with
  | .text descriptor hint =>
    match Descriptor.display descriptor scope.data with
    | .error fault => (.error (.unwritten fault), spent)
    | .ok text =>
      finish (.ok (), spent)
        fun _ => host.text id text (Catalog.choose Catalog.textVariants "body" hint)
  | .button target primary action =>
    match label pass.registry (target.filter (· ≠ "")) scope.data with
    | .error failure => (.error failure, spent)
    | .ok label =>
      finish (.ok (), spent)
        fun _ => host.button id label primary (if pass.reports then action else none)
  | .column children alignment =>
    finish (each child (columnScopes children scope) spent)
      (host.column id · (Catalog.choose Catalog.alignments "start" alignment))
  | .row children distribution =>
    finish (each child (rowScopes children scope) spent)
      (host.row id · (Catalog.choose Catalog.distributions "start" distribution))
  | .card target =>
    finish
      (match target.filter (· ≠ "") with
        | some target => child target scope spent
        | none => (.ok none, spent))
      (host.card id)
  | .list children =>
    match listScopes? children scope with
    | none => (.ok none, spent)
    | some scopes => finish (each child scopes spent) (host.list id)
  | .icon name size =>
    let name := (name.filter (· ≠ "")).getD Catalog.defaultIcon
    finish (.ok (), spent) fun _ =>
      host.icon id name (Catalog.glyph name)
        (Catalog.iconPixels (Catalog.choose Catalog.sizes "medium" size))
  | .divider orientation =>
    finish (.ok (), spent) fun _ =>
      host.divider id (Catalog.choose Catalog.orientations "horizontal" orientation)
  | .spacer size =>
    let size := Catalog.choose Catalog.sizes "medium" size
    finish (.ok (), spent) fun _ => host.spacer id size (Catalog.spacerUnits size)
  | .unknown .. => (.ok none, spent)

/-- The error boundary of a component: a failure inside becomes a diagnostic node in its place. -/
def contain (primitives : Primitives ν) (id kind : String) (trail : List String) :
    Spent Failure (Option ν) → Spent HostFailure (Option ν)
  | (.ok node, spent) => (.ok node, spent)
  | (.error failure, spent) =>
    ((if failure.isCycle then primitives.cycle id trail
      else primitives.error id kind failure.message).map some, spent)

/-- Shows the component with an identifier, when a number of further components may stand on the
way. The component is spent before anything about it can fail. -/
def resolveWithin (pass : Pass ν) : Nat → Resolve ν
  | left, id, scope, spent =>
    match pass.registry.get? id with
    | none => ((pass.primitives.notFound id).map some, spent)
    | some definition =>
      let spent := spent + 1
      if pass.limits.maxNodes < spent then
        ((pass.primitives.error id definition.kind
          (overLimit pass.limits.maxNodes id)).map some, spent)
      else
        contain pass.primitives id definition.kind scope.trail <|
          if id ∈ scope.trail then (.error (.cycle id scope.trail), spent)
          else
            match left with
            | 0 => (.error (.tooDeep pass.limits.maxDepth id), spent)
            | left + 1 =>
              match Component.parse definition.kind definition.props with
              | .error fault => (.error (.properties fault), spent)
              | .ok component =>
                make pass (resolveWithin pass left) id component (scope.enter id) spent

/-- Shows the component with an identifier. -/
def resolve (pass : Pass ν) : Resolve ν := fun id scope spent =>
  resolveWithin pass (pass.limits.maxDepth - scope.trail.length) id scope spent

/-- Shows what a reference of any type stands for; only a text is an identifier. -/
def resolveReference (pass : Pass ν) (reference : Value) (scope : Scope) (spent : Int) :
    Except ValueFault (Spent HostFailure (Option ν)) :=
  match reference with
  | .str id => .ok (pass.resolve id scope spent)
  | v => v.text.map fun id => ((pass.primitives.notFound id).map some, spent)

end Pass
end LiveSurface
