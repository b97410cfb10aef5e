import SharedFetch.Pipeline.Worker

/-!
# Steps of a pipeline

`Pipeline.advance` is the pipeline as a machine: it says what each event does, and when it
can happen. Any order of events is a run of the pipeline; `Pipeline.settle` picks one and
follows it until nothing more can happen. That it always gets there is a matter of
`Pipeline.work`, which every event lowers.
-/

namespace SharedFetch

/-- What may happen in a pipeline without anything from outside. -/
inductive Event where
  /-- The coordinator goes on. -/
  | coordinate
  /-- The coordinator drops the hook that it waits for. -/
  | dropHook
  /-- A worker goes on. -/
  | work (id : Nat)
  /-- A worker drops the fetch that it waits for. -/
  | dropFetch (id : Nat)
  /-- A producer goes on. -/
  | produce (id : Nat)
  deriving DecidableEq, Inhabited, Repr

namespace Pipeline

/-- The pipeline after an event, if the event can happen. -/
def advance (p : Pipeline) : Event → Option Pipeline
  | .coordinate => p.coordinate?
  | .dropHook => p.dropHook?
  | .work id => p.workOn? id
  | .dropFetch id => p.dropFetch? id
  | .produce id => (p.intake.advance p.tokens id).map fun intake => { p with intake }

/-- The events that settling tries, in this order: an answer that is there goes before the
drop of what is waited for, and busy workers go before idle ones. -/
def candidates (p : Pipeline) : List Event :=
  [.coordinate, .dropHook] ++
    (p.pool.busy.flatMap fun j => [.work j.worker, .dropFetch j.worker]) ++
    p.pool.idle.map .work ++
    p.intake.names.map .produce

/-! ### Work

The work left is a sum over everything on its way: each piece counts more than what comes of
it by one step. -/

/-- The work that a location in the given place still brings about, apart from its
references. -/
def slotWork : Nat := 8

def dispatchWork : Nat := 7

def completionWork : Nat := 3

def jobWork : JobStage → Nat
  | .awaitingLock => 6
  | .fetching .. => 5
  | .handingIn _ => 4

/-- The work that a waiting reference still brings about. -/
def waiterWork : Nat := 2

def phaseWork : Phase → Nat
  | .choosing => 1
  | .resolving _ => Intake.itemWork
  | .reporting .. => 3
  | .inUnresolved .. => 2
  | .fanningOut _ rest => waiterWork * rest.length + 3
  | .delivering _ rest _ => waiterWork * rest.length + 2
  | .inProcess _ _ _ rest _ => waiterWork * rest.length + 3
  | .ended _ => 0

def coordinatorWork (c : Coordinator) : Nat :=
  phaseWork c.phase + waiterWork * c.waiters.waiting +
    (if c.slot.isSome then slotWork else 0) +
    (if c.intakeDone then 0 else 1) + (if c.completionsDone then 0 else 1)

def poolWork (p : Pool) : Nat :=
  p.alive + p.busy.foldr (fun j n => jobWork j.stage + n) 0

/-- The work left in a pipeline. -/
def work (p : Pipeline) : Nat :=
  p.intake.work + coordinatorWork p.coordinator + dispatchWork * p.dispatch.items.length +
    poolWork p.pool + completionWork * p.completions.items.length

/-- Lets the pipeline go on until nothing more can happen. -/
def settle (p : Pipeline) : Pipeline :=
  SharedFetch.settle advance candidates p.work p

end Pipeline

end SharedFetch
