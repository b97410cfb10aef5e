import SharedFetch.Activity
import SharedFetch.Counters
import SharedFetch.Intake
import SharedFetch.Journal
import SharedFetch.Latch
import SharedFetch.Lock
import SharedFetch.Waiters

/-!
# The state of a pipeline

A pipeline is one coordinator and a pool of workers, joined by three bounded queues. The
coordinator takes references from the intake, keeps the waiters, and puts each new location
into the dispatch queue through a slot that holds one. Workers take locations from there,
fetch them, and hand their completions in through the completion queue. Protocol, lock,
tokens, latch, counters and activity are shared by all, and everybody writes the journal.

The coordinator is always in one *phase*, and the phases are the points at which it may have
to wait. A worker is idle, busy with a job, or gone.
-/

namespace SharedFetch

/-- Who takes turns for the protocol lock. -/
inductive Party where
  | coordinator
  | worker (id : Nat)
  | host
  deriving DecidableEq, Inhabited, Repr

/-- How a task of the pipeline ended. -/
inductive Ending where
  | done
  | failed (fault : Fault)
  | panicked (payload : Payload)
  deriving Inhabited

namespace Ending

/-- The fault that whoever waits for the task gets to see. -/
def fault? : Ending → Option Fault
  | .done => none
  | .failed fault => some fault
  | .panicked payload => some (.taskPanic payload)

/-- The end of a task with a fault, or with none. -/
def ofFault : Option Fault → Ending
  | none => .done
  | some fault => .failed fault

def isPanic : Ending → Bool
  | .panicked _ => true
  | _ => false

end Ending

/-- What the coordinator is doing. -/
inductive Phase where
  /-- It looks for what to do next. -/
  | choosing
  /-- It has taken a reference and waits to read the protocol. -/
  | resolving (r : Reference)
  /-- It waits to write the protocol, to report a reference as unresolvable. -/
  | reporting (r : Reference) (cause : Chain)
  /-- It waits for the hook for an unresolvable reference. -/
  | inUnresolved (r : Reference) (mode : HookMode)
  /-- It waits to write the protocol, to deliver an outcome to references. -/
  | fanningOut (outcome : Delivery) (rest : List Reference)
  /-- It writes the protocol and is between two deliveries. -/
  | delivering (outcome : Delivery) (rest : List Reference) (delivered : Nat)
  /-- It waits for the hook that takes a delivery. -/
  | inProcess (r : Reference) (mode : HookMode) (outcome : Delivery) (rest : List Reference)
      (delivered : Nat)
  | ended (ending : Ending)
  deriving Inhabited

/-- The coordinator: the only one who knows the waiters. -/
structure Coordinator where
  waiters : Waiters Location Reference := {}
  /-- The location to be dispatched next. -/
  slot : Option Location := none
  /-- Whether it has seen the end of the intake. -/
  intakeDone : Bool := false
  /-- Whether it has seen the end of the completions. -/
  completionsDone : Bool := false
  phase : Phase := .choosing
  deriving Inhabited

/-- How far a worker is with its location. -/
inductive JobStage where
  /-- It waits to read the protocol. -/
  | awaitingLock
  /-- It has called the fetch, which has the given number, and waits for it. -/
  | fetching (number : Nat) (mode : FetchMode)
  /-- It stands in line with the outcome. -/
  | handingIn (outcome : Delivery)
  deriving Inhabited

/-- A worker that has taken a location and not yet handed its completion in. -/
structure Job where
  worker : Nat
  location : Location
  stage : JobStage
  deriving Inhabited

/-- Whether the job is a fetch that waits to be let go. -/
def Job.isHeld (j : Job) : Bool :=
  match j.stage with
  | .fetching _ .hold => true
  | _ => false

/-- The workers: the idle ones, longest idle first; the busy ones, in the order in which they
took their locations; and those that are gone. -/
structure Pool where
  idle : List Nat := []
  busy : List Job := []
  gone : List (Nat × Ending) := []
  /-- The number of workers that the pool was launched with and still answers for. -/
  handles : Nat := 0
  /-- Whether a worker that fails sets off the latch. -/
  guarded : Bool := true
  deriving Inhabited

namespace Pool

/-- A pool of the given size, all idle. -/
def launch (size : Nat) (guarded : Bool) : Pool :=
  { idle := List.range size, handles := size, guarded }

def ending? (p : Pool) (id : Nat) : Option Ending :=
  (p.gone.find? fun e => e.1 == id).map Prod.snd

/-- Whether no worker is left. -/
def isGone (p : Pool) : Bool :=
  p.idle.isEmpty && p.busy.isEmpty

/-- The number of workers left. -/
def alive (p : Pool) : Nat :=
  p.idle.length + p.busy.length

/-- Puts a job in place of the one of the same worker. -/
def update (p : Pool) (j : Job) : Pool :=
  { p with busy := p.busy.map fun k => if k.worker = j.worker then j else k }

def job? (p : Pool) (id : Nat) : Option Job :=
  p.busy.find? fun j => j.worker == id

/-- The locations whose fetch waits to be let go, the oldest first. -/
def held (p : Pool) : List Location :=
  (p.busy.filter Job.isHeld).map Job.location

end Pool

/-- The whole state of a pipeline. -/
structure Pipeline where
  protocol : Protocol
  lock : Lock Party := {}
  tokens : Tokens
  latch : Latch
  intake : Intake
  dispatch : Queue Location
  completions : Queue Completion
  coordinator : Coordinator := {}
  pool : Pool := {}
  counters : Counters := {}
  activity : Activity := {}
  /-- What was written so far, the latest entry in front. -/
  journal : List Entry := []
  deriving Inhabited

namespace Pipeline

/-- Whether the run is cancelled. -/
def isCancelled (p : Pipeline) : Bool :=
  p.tokens.isCancelled p.latch.run

/-- Records a change of the counters. -/
def count (p : Pipeline) (change : Counters.Change) : Pipeline :=
  { p with counters := p.counters.record change }

/-- Sets the gauge of locations in flight. -/
def gauge (p : Pipeline) : Pipeline :=
  p.count (.inFlight (UInt64.ofNat p.coordinator.waiters.size))

/-- Writes an entry into the journal. -/
def log (p : Pipeline) (e : Entry) : Pipeline :=
  { p with journal := e :: p.journal }

/-- The entries of the journal in the order in which they were written. -/
def history (p : Pipeline) : List Entry :=
  p.journal.reverse

@[simp] theorem history_log (p : Pipeline) (e : Entry) : (p.log e).history = p.history ++ [e] := by
  simp [history, log]

/-- Raises an alarm: the fault handed back, and the pipeline after it. -/
def raise (p : Pipeline) (alarm : Alarm) : Fault × Pipeline :=
  let effect := p.latch.trigger p.tokens alarm
  let p := { p with latch := effect.latch, tokens := effect.tokens }
  (effect.returned, match effect.logged with
    | some alarm => p.log (.note (.alarm alarm))
    | none => p)

/-- Whether the coordinator is through. -/
def isOver (p : Pipeline) : Bool :=
  match p.coordinator.phase with
  | .ended _ => true
  | _ => false

/-- How the coordinator ended. -/
def ending? (p : Pipeline) : Option Ending :=
  match p.coordinator.phase with
  | .ended ending => some ending
  | _ => none

end Pipeline

end SharedFetch
