import SharedFetch.Latch
import SharedFetch.Protocol

/-!
# The journal

A pipeline keeps a journal of what it did, in order: every call of the protocol, and every
event that is logged. `Note.line` lays an event out as a line of the log, with a level, a
message and fields.
-/

namespace SharedFetch

/-- An event that is logged. -/
inductive Note where
  | dispatching (location : Location)
  | coalesced (waiting : Nat)
  | unresolvable (failure : String)
  | fanningOut (location : Location) (references : Nat) (success : Bool)
  | drained
  | interrupted (locations references : Nat)
  | completionsClosed
  | intakeClosed (inFlight : Nat)
  | stopped
  | alarm (cause : Alarm)
  deriving Inhabited

/-- The levels of the log. -/
inductive Level where
  | trace
  | debug
  | info
  | warn
  | error
  deriving DecidableEq, Inhabited, Repr

/-- The value of a field of a log line. -/
inductive FieldValue where
  | text (value : String)
  | number (value : Nat)
  | flag (value : Bool)
  deriving DecidableEq, Inhabited, Repr

/-- A line of the log. -/
structure LogLine where
  level : Level
  message : String
  fields : List (String × FieldValue) := []
  deriving DecidableEq, Inhabited, Repr

/-- How an alarm is logged. -/
def Alarm.line : Alarm → LogLine
  | .hook failure =>
    ⟨.error, "fatal protocol error; initiating shutdown",
      [("stage", .text failure.stage.name), ("error", .text failure.message)]⟩
  | .pipeline context fault =>
    ⟨.error, "fatal pipeline error; initiating shutdown",
      [("context", .text context), ("error", .text fault.message)]⟩

/-- How an event is logged. -/
def Note.line : Note → LogLine
  | .dispatching l =>
    ⟨.debug, "dispatching fetch for new location", [("location", .text (render l))]⟩
  | .coalesced n =>
    ⟨.trace, "reference coalesced onto in-flight location", [("waiting", .number n)]⟩
  | .unresolvable failure =>
    ⟨.warn, "dropping reference that could not be resolved", [("error", .text failure)]⟩
  | .fanningOut l n success =>
    ⟨.debug, "fanning out completion",
      [("location", .text (render l)), ("references", .number n), ("success", .flag success)]⟩
  | .drained =>
    ⟨.info, "reference intake closed and every dispatch delivered; coordinator drained", []⟩
  | .interrupted locations references =>
    ⟨.info, "coordinator received shutdown signal; abandoning in-flight dispatches",
      [("abandoned_locations", .number locations), ("waiting_references", .number references)]⟩
  | .completionsClosed => ⟨.debug, "completion channel closed", []⟩
  | .intakeClosed n =>
    ⟨.debug, "reference intake closed; draining in-flight dispatches", [("in_flight", .number n)]⟩
  | .stopped => ⟨.info, "coordinator stopped", []⟩
  | .alarm cause => cause.line

/-- An entry of the journal. -/
inductive Entry where
  /-- A reference was handed to be resolved. -/
  | resolve (r : Reference)
  /-- A reference was given its delivery. -/
  | process (r : Reference) (delivery : Delivery)
  /-- A reference was reported as unresolvable, with the text of its failure. -/
  | unresolved (r : Reference) (failure : String)
  /-- The protocol was told of the end of a run. -/
  | shutdown
  /-- A location was fetched. -/
  | fetch (l : Location)
  /-- An event was logged. -/
  | note (n : Note)
  deriving Inhabited

namespace Entry

/-- Whether the entry is a call of `resolve` or of a hook. -/
def isCall : Entry → Bool
  | .resolve _ | .process .. | .unresolved .. | .shutdown => true
  | _ => false

/-- The location fetched. -/
def fetched? : Entry → Option Location
  | .fetch l => some l
  | _ => none

/-- The line logged. -/
def logged? : Entry → Option LogLine
  | .note n => some n.line
  | _ => none

end Entry

end SharedFetch
