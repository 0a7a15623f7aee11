import LiveSurface.Render.Surfaces
import LiveSurface.Surface.Processor

/-!
# Sessions

A session owns the surfaces of one conversation. After each batch of messages that leaves more
surfaces than its limit, the surfaces changed longest ago are evicted. A closed session has no
surfaces and takes no messages.
-/
namespace LiveSurface

/-- A session. -/
structure Session where
  id : String
  /-- The most surfaces; zero is no limit. -/
  maxSurfaces : Nat
  processor : Processor
  /-- The limits of its render passes, fixed at the start. -/
  limits : Limits
  closed : Bool := false
  /-- The identifiers of evicted surfaces, in the order of eviction. -/
  evicted : List String := []

namespace Session

/-- A new session. The limit on surfaces is given as a whole number, or by the settings where null
is given. -/
def create (settings : Settings) (id : String) (maxSurfaces : Value) (processor : Processor) :
    Except ValueFault Session := do
  let maxSurfaces ←
    if maxSurfaces = .null then pure (settings.maxSurfaces : Int) else maxSurfaces.toWhole
  let limits ← settings.limits .null .null
  pure { id, maxSurfaces := maxSurfaces.toNat, processor, limits }

/-- The surfaces in order. -/
def surfaces (session : Session) : List Surface := session.processor.surfaces

/-- Evicts a surface; the identifier is noted if there was one. -/
def evict (session : Session) (id : String) : Session × Bool :=
  if id ∈ session.processor.ids then
    ({ session with
        processor := session.processor.remove id, evicted := session.evicted ++ [id] }, true)
  else (session, false)

/-- The surfaces from the one changed longest ago on, equally old ones in order. -/
def byAge (surfaces : List Surface) : List Surface :=
  surfaces.mergeSort fun a b => a.touched ≤ b.touched

/-- Evicts the oldest surfaces over the limit. -/
def enforceLimit (session : Session) : Session :=
  if session.maxSurfaces = 0 then session
  else
    let excess := session.surfaces.length - session.maxSurfaces
    ((byAge session.surfaces).take excess).foldl (fun s surface => (s.evict surface.id).1) session

/-- Applies a batch of messages. -/
def processAll (session : Session) (messages : List Value) : Session :=
  if session.closed then session
  else { session with processor := session.processor.process messages }.enforceLimit

/-- Applies a batch given as any value, and tells the surfaces afterwards. -/
def process (session : Session) (messages : Value) :
    Session × Except ValueFault (List String) :=
  if session.closed then (session, .ok [])
  else
    match messages.elementsOrNone with
    | .error fault => (session, .error fault)
    | .ok messages =>
      let session := session.processAll messages
      (session, .ok session.processor.ids)

/-- Closes a session. -/
def close (session : Session) : Session :=
  { session with processor := session.processor.clear, closed := true }

/-- The word for whether a session is closed. -/
def stateName (session : Session) : String := if session.closed then "closed" else "active"

/-- How a session shows surfaces to a host. -/
def renderer {ν : Type} (session : Session) (primitives : Primitives ν) (reports : Bool) :
    Renderer ν :=
  ⟨primitives, session.limits, reports⟩

/-- Shows all surfaces. -/
def render {ν : Type} (session : Session) (primitives : Primitives ν) (reports : Bool) :
    Except HostFailure (Option ν) :=
  (session.renderer primitives reports).all session.surfaces

/-- Shows one surface, nothing when there is none with the identifier. -/
def renderSurface {ν : Type} (session : Session) (primitives : Primitives ν) (reports : Bool)
    (id : Option String) : Except HostFailure (Option ν) :=
  match id.bind session.processor.get? with
  | none => .ok none
  | some surface => some <$> (session.renderer primitives reports).surface surface

/-- A short account of a session. -/
def summary (times : Fields) (session : Session) : Fields :=
  [("session_id", .str session.id), ("state", .str session.stateName),
    ("surface_count", .int session.surfaces.length),
    ("max_surfaces", .int session.maxSurfaces),
    ("evicted", .list (session.evicted.map .str))] ++ times

/-- Short accounts of surfaces, from the one changed last on, equally old ones in order. -/
def summaries (times : Fields) (surfaces : List Surface) : List Value :=
  (surfaces.mergeSort fun a b => b.touched ≤ a.touched).map fun s => .obj (s.summary times)

end Session
end LiveSurface
