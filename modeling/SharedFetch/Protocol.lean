import SharedFetch.Fault.Failure

/-!
# References and the protocol

The protocol is the user's side of the pipeline: it resolves references to locations, fetches
locations, and has hooks for what was fetched, for references that have no location, and for
the end of a run. Here a protocol is given by its answers. A reference carries its own: where
it leads, and how the hooks take it. The fetches are answered by location, and the ends of
runs in turn. Any answer may be to *hold*: the call then waits until it is let go with another
answer.
-/

namespace SharedFetch

/-- How a hook answers. -/
inductive HookMode where
  | succeed
  | hold
  /-- It fails, at the stage given or else at its own. -/
  | fail (stage : Option Stage) (cause : Chain)
  | panic (payload : Payload)
  deriving DecidableEq, Inhabited, Repr

/-- How a fetch answers. -/
inductive FetchMode where
  | hold
  /-- It brings a content; without one given, the location and the number of the fetch. -/
  | content (value : Option String)
  | fail (cause : Chain)
  | panic (payload : Payload)
  /-- The call itself panics, before there is anything to wait for. -/
  | panicCall (payload : Payload)
  deriving DecidableEq, Inhabited, Repr

/-- Where a reference leads. -/
inductive Target where
  | location (l : Location)
  | nowhere (cause : Chain)
  | panic (payload : Payload)
  deriving Inhabited

/-- A request for the content of some location. -/
structure Reference where
  id : Nat
  target : Target
  process : HookMode := .succeed
  unresolved : HookMode := .succeed
  deriving Inhabited

instance : Render Reference := ⟨fun r => s!"Ref({r.id})"⟩

/-- The answers of a protocol, and what it has seen so far. -/
structure Protocol where
  /-- Answers of fetches by the written form of the location; the first match counts. -/
  fetches : List (String × FetchMode) := []
  /-- The answer for every other location. -/
  otherwise : FetchMode := .hold
  /-- The answers of the shutdown hook still to come; after the last it succeeds. -/
  shutdowns : List HookMode := []
  /-- Whether the hooks for unresolved references and for shutdown are left as they are: they
  succeed and nobody sees them called. -/
  plain : Bool := false
  /-- The written forms of the locations fetched so far. -/
  fetched : List String := []
  deriving Inhabited

namespace Protocol

/-- The answer for a location. -/
def fetchMode (p : Protocol) (l : Location) : FetchMode :=
  ((p.fetches.find? fun e => e.1 == render l).map Prod.snd).getD p.otherwise

/-- The number that the next fetch of a location has. -/
def fetchNumber (p : Protocol) (l : Location) : Nat :=
  p.fetched.count (render l) + 1

/-- A fetch of a location is called. -/
def noteFetch (p : Protocol) (l : Location) : Protocol :=
  { p with fetched := render l :: p.fetched }

/-- What the hook for an unresolved reference answers. -/
def unresolvedMode (p : Protocol) (r : Reference) : HookMode :=
  if p.plain then .succeed else r.unresolved

/-- What the shutdown hook answers next. -/
def shutdownMode (p : Protocol) : HookMode :=
  if p.plain then .succeed else p.shutdowns.headD .succeed

/-- The shutdown hook is called. -/
def noteShutdown (p : Protocol) : Protocol :=
  { p with shutdowns := p.shutdowns.tail }

end Protocol

/-- The content that a fetch brings when none is given: the location and its number. -/
def contentOf (l : Location) (number : Nat) (value : Option String) : String :=
  value.getD (render l ++ "#" ++ toString number)

/-- The outcome of a fetch on its way back to the coordinator. -/
structure Completion where
  location : Location
  outcome : Delivery
  deriving Inhabited

end SharedFetch
