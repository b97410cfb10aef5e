import SharedFetch.Fault.Failure

/-!
# Faults

Everything that an operation of the pipeline can fail with, as a cause rather than a text.
`Fault.texts` gives the chain of texts, the fault's own first. A fault may be put into a
context, which adds a text in front, and a fault that the latch has captured shows the text
of the fault inside it and names that fault as its cause, so the text stands twice.
-/

namespace SharedFetch

/-- What an operation was doing when a fault reached it. -/
inductive Context where
  | aborted
  | shutdown
  | worker (id : Nat)
  | reading (name value : String)
  deriving DecidableEq, Inhabited, Repr

/-- The text that a context puts in front. -/
def Context.message : Context → String
  | .aborted => "coalescing pipeline aborted"
  | .shutdown => "failed to shutdown protocol"
  | .worker id => s!"worker {id} exited with error"
  | .reading name value => s!"{name} must be a non-negative integer, got {Text.quote value}"

/-- What an operation of the pipeline fails with. -/
inductive Fault where
  /-- An error given from outside. -/
  | given (cause : Chain)
  /-- A hook reported an error. -/
  | hook (failure : HookFailure)
  /-- A completion named a location that nothing waits for. -/
  | violation (stray : Violation)
  /-- Every worker is gone while locations are in flight. -/
  | stranded (locations : Nat)
  /-- The dispatch queue is closed while a dispatch is pending. -/
  | undispatchable
  /-- A completion could not be handed in. -/
  | undelivered (location : String)
  /-- A worker of the pool panicked. -/
  | workerPanic (id : Nat) (payload : Payload)
  /-- A task of its own panicked. -/
  | taskPanic (payload : Payload)
  /-- The fetcher was started while it runs. -/
  | alreadyRunning
  /-- The runner was started twice. -/
  | alreadyStarted
  /-- The intake accepts nothing more. -/
  | refused
  /-- The intake closed under a stream after so many references of it. -/
  | interrupted (forwarded : UInt64)
  /-- A fault seen in a context. -/
  | within (context : Context) (inner : Fault)
  /-- A fault that the latch has captured. -/
  | captured (inner : Fault)
  deriving Inhabited

namespace Fault

/-- The kinds of fault that callers tell apart. -/
inductive Kind where
  | violation
  | hook
  | panic
  | other
  deriving DecidableEq, Repr

/-- The kind of the first fault along the chain that has one of its own. -/
def kind : Fault → Kind
  | .hook _ => .hook
  | .violation _ => .violation
  | .taskPanic _ => .panic
  | .within _ inner => inner.kind
  | .captured inner => inner.kind
  | _ => .other

/-- What is said of the value that a panicking worker left behind. -/
def panicText : Payload → String
  | .text value => value
  | .other => "unknown panic payload"

/-- The fault's own text. -/
def message : Fault → String
  | .given cause => cause.text
  | .hook failure => failure.message
  | .violation stray => stray.message
  | .stranded n => s!"worker pool exited with {n} locations still in flight"
  | .undispatchable => "worker intake closed while a dispatch was pending"
  | .undelivered location =>
      s!"coordinator stopped before the completion for {location} was delivered"
  | .workerPanic id payload => s!"worker {id} panicked: {panicText payload}"
  | .taskPanic (.text value) => s!"task # panicked with message {Text.quote value}"
  | .taskPanic .other => "task # panicked"
  | .alreadyRunning => "coalescing fetcher already running"
  | .alreadyStarted => "runner already started"
  | .refused => "coalescing pipeline is no longer accepting references"
  | .interrupted n => s!"coalescing pipeline stopped after {n} forwarded references"
  | .within context _ => context.message
  | .captured inner => inner.message

/-- The texts of the fault and of its causes, the fault's own first. -/
def texts : Fault → List String
  | .given cause => cause.texts
  | .hook failure => failure.texts
  | .within context inner => context.message :: inner.texts
  | .captured inner => inner.message :: inner.texts
  | fault => [fault.message]

/-- The fault laid out as a report. -/
def report (f : Fault) : String :=
  Text.report f.message f.texts.tail

end Fault

end SharedFetch
