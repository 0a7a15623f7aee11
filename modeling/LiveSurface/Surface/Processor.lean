import LiveSurface.Data.Contents
import LiveSurface.Settings
import LiveSurface.Surface.Basic

/-!
# Processing messages

A processor applies messages one after another to the surfaces they name. A surface comes into
being with the first message for it. What is no message is passed over, and a message that fails
leaves no change but the surface it asked for.
-/
namespace LiveSurface

/-- The surfaces in the order in which they came into being. -/
structure Processor where
  /-- Whether a message may remove a surface. -/
  honorDelete : Bool
  surfaces : List Surface := []
  /-- The number of changes so far. -/
  mutations : Nat := 0
deriving DecidableEq

/-- What became of a message. -/
inductive Outcome
  /-- It changed the surface that it names. -/
  | applied
  /-- It changed no surface, or removed one. -/
  | ignored
  /-- It could not be applied. -/
  | failed (fault : ValueFault)
deriving DecidableEq, Repr

namespace Processor

/-- A processor without surfaces; deletion is honoured as given, or as the settings say where null
is given. -/
def create (settings : Settings) (honorDelete : Value) : Processor :=
  { honorDelete :=
      if honorDelete = .null then settings.honorDeleteSurface else honorDelete.truth }

/-- The surface with an identifier. -/
def get? (p : Processor) (id : String) : Option Surface := p.surfaces.find? fun s => s.id = id

/-- The identifiers of the surfaces in order. -/
def ids (p : Processor) : List String := p.surfaces.map (·.id)

/-- Makes sure that a surface is there. -/
def ensure (p : Processor) (id : String) : Processor :=
  if id ∈ p.ids then p else { p with surfaces := p.surfaces ++ [{ id }] }

/-- Changes a surface, and counts the change. -/
def change (p : Processor) (id : String) (f : Surface → Surface) : Processor :=
  let p := p.ensure id
  let mutations := p.mutations + 1
  { p with
    mutations
    surfaces := p.surfaces.map fun s =>
      if s.id = id then { f s with version := s.version + 1, touched := mutations } else s }

/-- Removes a surface. -/
def remove (p : Processor) (id : String) : Processor :=
  { p with surfaces := p.surfaces.filter fun s => s.id ≠ id }

/-- Removes all surfaces. -/
def clear (p : Processor) : Processor := { p with surfaces := [] }

/-- Applies a message. -/
def apply (p : Processor) : Message → Processor × Outcome
  | .beginRendering id root styles =>
    (p.change id fun s => { s with root := root.or s.root, styles := styles.or s.styles }, .applied)
  | .surfaceUpdate id components =>
    (p.change id fun s => { s with components := s.components.upsertAll components }, .applied)
  | .dataModelUpdate id path contents value =>
    match Contents.decode contents with
    | .error fault => (p.ensure id, .failed fault)
    | .ok decoded =>
      let payload := if contents.isEmpty then value.getD [] else decoded
      (p.change id fun s => s.writeData path payload, .applied)
  | .deleteSurface id => (if p.honorDelete then p.remove id else p, .ignored)
  | .userAction .. => (p, .ignored)

/-- Applies a value that may be a message. -/
def receive (p : Processor) (raw : Value) : Processor × Outcome :=
  match Message.decode? raw with
  | some message => p.apply message
  | none => (p, .ignored)

/-- Applies values that may be messages, one after another. -/
def process (p : Processor) (messages : List Value) : Processor :=
  messages.foldl (fun p raw => (p.receive raw).1) p

end Processor
end LiveSurface
