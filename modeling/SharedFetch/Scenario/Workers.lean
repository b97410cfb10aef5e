import SharedFetch.Scenario.Basic

/-!
# Scenarios of workers

Workers without a coordinator, either each for itself or as a pool. Whoever writes the
scenario dispatches locations to them and receives their completions.
-/

namespace SharedFetch.Scenario

/-- Workers and the ends of their queues that are still held. -/
structure WorkersBench where
  pipeline : Pipeline
  /-- The number of workers at the start. -/
  size : Nat
  dispatching : Bool := true
  receiving : Bool := true
  seen : Nat := 0

namespace WorkersBench

/-- So many workers, as a pool or each for itself, with queues of the given capacities. A pool
has at least one worker. -/
def make (workers : Nat) (pooled : Bool) (dispatch completions : Nat) (protocol : Protocol) :
    Except Misuse WorkersBench := do
  let size := if pooled then max workers 1 else workers
  let (root, tokens) := ({} : Tokens).fresh
  let (run, tokens) := tokens.child root
  let dispatch ← Queue.make dispatch
  let completions ← Queue.make completions
  let pipeline : Pipeline :=
    { protocol
      tokens
      latch := { root, run }
      intake := { queue := { capacity := 0, senders := 0, closed := true } }
      dispatch := { dispatch with closed := size == 0 }
      completions := { completions with senders := size }
      coordinator := { phase := .ended .done }
      pool := .launch size pooled
      counters := { poolSize := if pooled then UInt64.ofNat size else 0 } }
  return { pipeline, size }

/-- What can be done around workers. -/
inductive Action where
  | dispatch (locations : List Location)
  | receive (n : Nat)
  | closeDispatch
  | closeCompletions
  | cancelRun
  | cancelRoot
  | release (location : Option String) (mode : FetchMode)
  | lock
  | unlock
  | shutdownPool
  | look

/-- Performs one action. -/
def perform (b : WorkersBench) : Action → Answer × WorkersBench
  | .dispatch locations =>
    if b.dispatching then
      let (offers, dispatch) := b.pipeline.dispatch.offerAll locations
      (.dispatched offers, { b with pipeline := { b.pipeline with dispatch } })
    else (.noSender, b)
  | .receive n =>
    if b.receiving then
      let (receipts, completions) := b.pipeline.completions.receiveMany n
      (.completions receipts, { b with pipeline := { b.pipeline with completions } })
    else (.noReceiver, b)
  | .closeDispatch =>
    let dispatch := b.pipeline.dispatch
    let dispatch := if b.dispatching then dispatch.dropSender else dispatch
    (.nothing, { b with dispatching := false, pipeline := { b.pipeline with dispatch } })
  | .closeCompletions =>
    (.nothing,
      { b with
        receiving := false
        pipeline := { b.pipeline with completions := b.pipeline.completions.dropReceiver } })
  | .cancelRun =>
    let tokens := b.pipeline.tokens.cancel b.pipeline.latch.run
    (.nothing, { b with pipeline := { b.pipeline with tokens } })
  | .cancelRoot =>
    let tokens := b.pipeline.tokens.cancel b.pipeline.latch.root
    (.nothing, { b with pipeline := { b.pipeline with tokens } })
  | .release location mode =>
    let (answer, pipeline) := releaseFetch b.pipeline location mode
    (answer, { b with pipeline })
  | .lock =>
    let (got, lock) := b.pipeline.lock.guard .write
    (if got then .accepted else .blocked, { b with pipeline := { b.pipeline with lock } })
  | .unlock =>
    let (had, lock) := b.pipeline.lock.unguard
    (.flag had, { b with pipeline := { b.pipeline with lock } })
  | .shutdownPool =>
    if b.pipeline.pool.guarded then
      let pool := { b.pipeline.pool with handles := 0 }
      (.count b.pipeline.pool.handles,
        { b with pipeline := { b.pipeline with pool }.count (.poolSize 0) })
    else (.nothing, b)
  | .look => (.nothing, b)

/-- What is seen of workers after a step. -/
structure Report where
  answers : List Answer
  entries : List Entry
  held : List Location
  activity : Activity
  counters : Counters
  rootCancelled : Bool
  runCancelled : Bool
  pooled : Bool
  size : Nat
  /-- How each worker ended that the pool still answers for, if it has. -/
  endings : List (Option Ending)
  fatal : Option Fault

/-- Takes one step. -/
def step (_number : Nat) (b : WorkersBench) (actions : List Action) : Report × WorkersBench :=
  let (answers, b) := performAll perform b actions
  let p := b.pipeline.settle
  (⟨answers, p.history.drop b.seen, p.pool.held, p.activity, p.counters,
      p.tokens.isCancelled p.latch.root, p.isCancelled, p.pool.guarded, b.size,
      (List.range p.pool.handles).map p.pool.ending?, p.latch.error?⟩,
    { b with pipeline := p, seen := p.journal.length })

/-- The reports of a list of steps. -/
def run (b : WorkersBench) (steps : List (List Action)) : List Report :=
  runFrom step 0 b steps

end WorkersBench

end SharedFetch.Scenario
