import LiveSurface.Yaml.Scalar

/-!
# Nodes of YAML

The tree of scalars, lists and mappings that a text is, with their places, and the value that it
stands for. The name `<<` merges: the entries of the mapping below it come before the other entries.
Of entries with equal names the first name and the last value count. The fault that is told is the
one in the outermost list or mapping, and of those the first in the text.
-/
namespace LiveSurface.Yaml

/-- A plain scalar and its place. -/
structure Word where
  place : Place
  text : String
deriving DecidableEq, Repr

/-- A node of a text. -/
inductive Node
  | word (word : Word)
  | list (place : Place) (items : List Node)
  | mapping (place : Place) (entries : List (Word × Node))

/-- The mark that merges. -/
def mergeMark : String := "<<"

/-- The mark that has no meaning but in the place of a name. -/
def valueMark : String := "="

/-- What a word stands for. -/
def Word.scalar (word : Word) : Except Fault Scalar :=
  if word.text = mergeMark then .error (.mark "merge" word.place)
  else if word.text = valueMark then .error (.mark "value" word.place)
  else Yaml.scalar word.text

/-- What a name stands for. -/
def Word.name (word : Word) : Except Fault Scalar :=
  if word.text = valueMark then .ok (.value (.str valueMark)) else Yaml.scalar word.text

namespace Node

/-- The place of a node. -/
def place : Node → Place
  | word w => w.place
  | list place _ | mapping place _ => place

/-- The word for the kind of a node. -/
def kind : Node → String
  | word _ => "scalar"
  | list .. => "sequence"
  | mapping .. => "mapping"

/-- A result, or a fault with the number of lists and mappings around it. -/
abbrev Found (α : Type) := Except (Nat × Fault) α

/-- Two results, or the fault of the two that is less deep, the first one of equally deep ones. -/
def both {α β : Type} : Found α → Found β → Found (α × β)
  | .ok a, .ok b => .ok (a, b)
  | .error f, .ok _ | .ok _, .error f => .error f
  | .error f, .error g => .error (if g.1 < f.1 then g else f)

/-- Results of which each one counts. -/
def all {α : Type} : List (Found α) → Found (List α)
  | [] => .ok []
  | a :: rest => (both a (all rest)).map fun (a, rest) => a :: rest

/-- Puts an entry at the place of an equal name, or at the end. -/
def setEntry : List (Scalar × Value) → Scalar × Value → List (Scalar × Value)
  | [], entry => [entry]
  | (name, value) :: rest, entry =>
    if name.same entry.1 then (name, entry.2) :: rest else (name, value) :: setEntry rest entry

/-- The mapping of entries in a row, under the wordings of their names. -/
def ofEntries (entries : List (Scalar × Value)) : Value :=
  let distinct := entries.foldl setEntry []
  .obj (Entries.update [] (distinct.map fun (name, value) => (name.toValue.wording, value)))

/-- The entries of a mapping, each with its own faults: those that are merged into it, and its
own ones. -/
structure Parts where
  merged : List (Found (Scalar × Value)) := []
  own : List (Found (Scalar × Value)) := []

/-- All entries of a mapping. -/
def Parts.entries (parts : Parts) : List (Found (Scalar × Value)) := parts.merged ++ parts.own

mutual

/-- What a node stands for, at a depth. -/
def valueAt (depth : Nat) : Node → Found Value
  | .word w => (w.scalar.map Scalar.toValue).mapError (depth, ·)
  | .list _ items => (all (valuesAt (depth + 1) items)).map .list
  | .mapping place entries =>
    match partsAt (depth + 1) place entries with
    | .error fault => .error (depth + 1, fault)
    | .ok parts => (all parts.entries).map ofEntries
termination_by structural node => node

/-- What the items of a list stand for. -/
def valuesAt (depth : Nat) : List Node → List (Found Value)
  | [] => []
  | item :: rest => valueAt depth item :: valuesAt depth rest
termination_by structural items => items

/-- The entries of the mapping at a place. -/
def partsAt (depth : Nat) (place : Place) : List (Word × Node) → Except Fault Parts
  | [] => .ok {}
  | (name, node) :: rest =>
    if name.text = mergeMark then
      match mergedAt depth place node with
      | .error fault => .error fault
      | .ok merged =>
        (partsAt depth place rest).map fun parts => { parts with merged := merged ++ parts.merged }
    else
      let entry := both (name.name.mapError (depth, ·)) (valueAt depth node)
      (partsAt depth place rest).map fun parts => { parts with own := entry :: parts.own }
termination_by structural entries => entries

/-- The entries that a node brings into the mapping at a place: those of a mapping, or those of
the mappings in a list, the last ones first. -/
def mergedAt (depth : Nat) (place : Place) : Node → Except Fault (List (Found (Scalar × Value)))
  | .mapping inner entries => (partsAt depth inner entries).map Parts.entries
  | .list _ items => mergedItemsAt depth place items
  | .word w => .error (.notMergeable place "scalar" w.place)
termination_by structural node => node

/-- The entries that the items of a list bring into the mapping at a place. -/
def mergedItemsAt (depth : Nat) (place : Place) :
    List Node → Except Fault (List (Found (Scalar × Value)))
  | [] => .ok []
  | .mapping inner entries :: rest =>
    match partsAt depth inner entries with
    | .error fault => .error fault
    | .ok parts => (mergedItemsAt depth place rest).map (· ++ parts.entries)
  | item :: _ => .error (.notMergeableItem place item.kind item.place)
termination_by structural items => items

end

/-- What a node stands for. -/
def value (node : Node) : Except Fault Value := (valueAt 0 node).mapError Prod.snd

end Node
end LiveSurface.Yaml
