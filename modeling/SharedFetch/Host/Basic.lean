import SharedFetch.Pipeline.Step
import SharedFetch.Reporter
import SharedFetch.Settings

/-!
# The host of a pipeline

A host keeps a protocol and settings over many runs. Starting it launches a run: a token
below the host's root token, a latch, a reporter, fresh queues, a pool of workers and a
coordinator. Counters, activity, lock and journal go on from run to run.

A host is either a *fetcher*, which is started, drained and stopped, or a *runner*, which
cancels its root token when it stops and then takes a new one, and which can also watch over
a whole run by itself.
-/

namespace SharedFetch

/-- The two kinds of host. -/
inductive HostKind where
  | fetcher
  | runner
  deriving DecidableEq, Inhabited, Repr

/-- How far an operation of the host has come. `fault` is what it will report unless
something worse happens. -/
inductive OperationPhase where
  /-- It is about to launch a run and to watch over it, with the references of a stream. -/
  | opening (supply : Supply)
  /-- It waits until the coordinator is through by itself. -/
  | draining
  /-- It watches over a run, until that is through, cancelled or interrupted. -/
  | watching (interrupted : Bool)
  /-- It has cancelled the run and waits for the coordinator. -/
  | joiningCoordinator
  /-- It waits for the workers. -/
  | joiningWorkers (fault : Option Fault)
  /-- It waits for the reporter. -/
  | joiningReporter (fault : Option Fault)
  /-- It waits to write the protocol, to tell it of the end of the run. -/
  | awaitingLock (fault : Option Fault)
  /-- It waits for the hook for the end of the run. -/
  | inShutdown (mode : HookMode) (fault : Option Fault)
  /-- There is nothing to do for it, and it is about to report. -/
  | returning (ending : Ending)
  deriving Inhabited

/-- An operation of the host in progress. -/
structure Operation where
  /-- The name under which it was begun. -/
  label : Nat
  /-- Whether it watches over a run of its own. -/
  watches : Bool := false
  phase : OperationPhase
  deriving Inhabited

/-- What a host keeps of a run in order to end it: whether it still has the task of the coordinator,
the signal that the coordinator is through, and the token, latch and reporter of the run. -/
structure Handles where
  coordinator : Bool := false
  done : Bool := false
  life : Bool := false
  deriving DecidableEq, Inhabited, Repr

/-- A host and the pipeline of its latest run. -/
structure Host where
  kind : HostKind
  settings : Settings
  pipeline : Pipeline
  /-- The root token, above the token of every run. -/
  root : Token
  /-- Whether a run has been launched and not yet torn down. -/
  running : Bool := false
  handles : Handles := {}
  /-- Whether a runner has been started and not yet stopped. -/
  started : Bool := false
  operation : Option Operation := none
  /-- Whether an operation has panicked and nobody can reach the host any more. -/
  lost : Bool := false
  /-- How operations have ended, by name. -/
  results : List (Nat × Ending) := []
  reporting : Reporting := .absent
  /-- The time in milliseconds. -/
  clock : Nat := 0
  /-- What the reporters have logged. -/
  reports : List LogLine := []
  deriving Inhabited

namespace Host

/-- A host that has never run. -/
def make (kind : HostKind) (settings : Settings) (protocol : Protocol) : Host :=
  let (root, tokens) := ({} : Tokens).fresh
  { kind
    settings
    root
    pipeline :=
      { protocol
        tokens
        latch := { root, run := root }
        intake := { queue := { capacity := settings.intakeCapacity, senders := 0, closed := true } }
        dispatch := { capacity := settings.dispatchCapacity, senders := 0, closed := true }
        completions := { capacity := settings.completionCapacity, senders := 0, closed := true }
        coordinator := { phase := .ended .done } } }

/-- The number of workers of a run. -/
def poolSize (h : Host) : Nat :=
  max h.settings.workers 1

/-- Whether an operation has the host to itself, or has taken it along. -/
def isBusy (h : Host) : Bool :=
  h.operation.isSome || h.lost

/-- A new run begins: it has a token, a latch and a reporter. -/
def beginLife (h : Host) : Host :=
  let p := h.pipeline
  let (run, tokens) := p.tokens.child h.root
  { h with
    pipeline := { p with tokens, latch := { root := h.root, run } }
    reporting := .waiting h.settings.interval.toMillis }

/-- Refuses queues that cannot be made. -/
def checkQueues (s : Settings) : Except Misuse Unit := do
  Queue.check s.intakeCapacity
  Queue.check s.dispatchCapacity
  Queue.check s.completionCapacity

/-- The pipeline with queues, coordinator and workers for a new run. -/
def freshPipeline (h : Host) : Pipeline :=
  let p := h.pipeline
  { p with
    intake :=
      { p.intake with
        queue := { capacity := h.settings.intakeCapacity }
        era := p.intake.era + 1 }
    dispatch := { capacity := h.settings.dispatchCapacity }
    completions := { capacity := h.settings.completionCapacity, senders := h.poolSize }
    coordinator := {}
    pool := .launch h.poolSize true
    counters := p.counters.record (.poolSize (UInt64.ofNat h.poolSize)) }

/-- What a start comes to. -/
inductive Start where
  /-- The run is launched, and the caller owns the one sending end of its intake. -/
  | launched (host : Host)
  /-- There is a run already. -/
  | refused (fault : Fault)
  /-- The queues cannot be made. The run has begun by then, and its reporter goes on. -/
  | broken (host : Host) (cause : Misuse)

/-- Launches a run, unless there is one. -/
def start (h : Host) : Start :=
  if h.kind = .runner ∧ h.started then .refused .alreadyStarted
  else if h.running then .refused .alreadyRunning
  else
    let h := h.beginLife
    match checkQueues h.settings with
    | .error cause => .broken h cause
    | .ok () =>
      .launched { h with
        pipeline := h.freshPipeline
        running := true
        handles := ⟨true, true, true⟩
        started := h.kind = .runner }

/-- Takes a new root token, in place of the one before. -/
def renewRoot (h : Host) : Host :=
  let (root, tokens) := h.pipeline.tokens.fresh
  { h with root, pipeline := { h.pipeline with tokens } }

/-- Cancels a token. -/
def cancel (h : Host) (token : Token) : Host :=
  { h with pipeline := { h.pipeline with tokens := h.pipeline.tokens.cancel token } }

end Host

end SharedFetch
