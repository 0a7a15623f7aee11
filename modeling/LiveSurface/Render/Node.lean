import LiveSurface.Component.Properties

/-!
# Rendered nodes

The tree that a surface is rendered to. A node has a kind, the identifier of the component it
stands for, a text, properties, children, and an action if it can be activated. Nodes of a kind
are found, and actions are reported, depth first and a parent before its children.
-/
namespace LiveSurface

/-- The kinds of nodes. A tree made elsewhere may hold kinds of any other name. -/
inductive NodeKind
  | text
  | button
  | column
  | row
  | card
  | list
  | icon
  | divider
  | spacer
  | notFound
  | error
  | cycle
  | surface
  | missingRoot
  | container
  | other (name : String)
deriving DecidableEq, Repr

namespace NodeKind

/-- The kinds with names of their own. -/
def named : List NodeKind :=
  [text, button, column, row, card, list, icon, divider, spacer, notFound, error, cycle, surface,
    missingRoot, container]

/-- The written name of a kind. -/
def name : NodeKind → String
  | text => "text"
  | button => "button"
  | column => "column"
  | row => "row"
  | card => "card"
  | list => "list"
  | icon => "icon"
  | divider => "divider"
  | spacer => "spacer"
  | notFound => "not_found"
  | error => "error"
  | cycle => "cycle"
  | surface => "surface"
  | missingRoot => "missing_root"
  | container => "container"
  | other name => name

/-- The kind with a written name. -/
def ofName (s : String) : NodeKind := (named.find? fun kind => kind.name = s).getD (other s)

theorem name_ofName (s : String) : (ofName s).name = s := by
  unfold ofName
  cases found : named.find? fun kind => kind.name = s with
  | none => rfl
  | some kind => simpa using List.find?_some found

/-- The kind of node that a known kind of component becomes. -/
def ofKind : Kind → NodeKind
  | .text => text
  | .button => button
  | .column => column
  | .row => row
  | .card => card
  | .list => list
  | .icon => icon
  | .divider => divider
  | .spacer => spacer

end NodeKind

/-- A rendered node. -/
inductive Node
  | mk (kind : NodeKind) (componentId text : Option String) (props : List (String × Value))
      (action : Option Action) (children : List Node)

namespace Node

/-- The kind of a node. -/
def kind : Node → NodeKind
  | mk kind .. => kind

/-- The identifier of the component that a node stands for. -/
def componentId : Node → Option String
  | mk _ id .. => id

/-- The text of a node. -/
def text : Node → Option String
  | mk _ _ text .. => text

/-- The properties of a node. -/
def props : Node → Fields
  | mk _ _ _ props .. => props

/-- What a node reports when it is activated. -/
def action : Node → Option Action
  | mk _ _ _ _ action _ => action

/-- The children of a node. -/
def children : Node → List Node
  | mk _ _ _ _ _ children => children

mutual

/-- A node and all nodes below it, depth first. -/
def flatten : Node → List Node
  | mk kind id text props action children =>
    mk kind id text props action children :: flattenAll children
termination_by structural node => node

/-- Nodes and all nodes below them, depth first. -/
def flattenAll : List Node → List Node
  | [] => []
  | node :: rest => flatten node ++ flattenAll rest
termination_by structural nodes => nodes

end

/-- The nodes of a kind, given by its name. -/
def find (node : Node) (kind : String) : List Node :=
  node.flatten.filter fun n => n.kind.name = kind

/-- The actions reported when every node is activated. -/
def reports (node : Node) : List Action := node.flatten.filterMap Node.action

/-- Counts one more of a name. -/
def count (counts : Entries Nat) (name : String) : Entries Nat :=
  Entries.set counts name ((Entries.get? counts name).getD 0 + 1)

/-- The number of nodes of each kind, kinds in the order in which they come. -/
def tally (node : Node) : Entries Nat :=
  (node.flatten.map fun n => n.kind.name).foldl count []

mutual

/-- A node as a value: what is missing, empty or without an action is left out. -/
def toValue : Node → Value
  | mk kind id text props action children =>
    .obj ([("kind", .str kind.name)]
      ++ (id.map fun s => ("component_id", .str s)).toList
      ++ (text.map fun s => ("text", .str s)).toList
      ++ (if props.isEmpty then [] else [("props", .obj props)])
      ++ (if action.isSome then [("actionable", .bool true)] else [])
      ++ (match toValues children with
        | [] => []
        | values => [("children", .list values)]))
termination_by structural node => node

/-- Nodes as values. -/
def toValues : List Node → List Value
  | [] => []
  | node :: rest => toValue node :: toValues rest
termination_by structural nodes => nodes

end

theorem flattenAll_eq (nodes : List Node) : flattenAll nodes = nodes.flatMap flatten := by
  induction nodes with
  | nil => rfl
  | cons node rest ih => simp [flattenAll, ih]

theorem toValues_eq (nodes : List Node) : toValues nodes = nodes.map toValue := by
  induction nodes with
  | nil => rfl
  | cons node rest ih => simp [toValues, ih]

end Node
end LiveSurface
