import SharedFetch.Scenario.Basic

/-!
# Scenarios of a coordinator

A coordinator alone. Whoever writes the scenario holds the other ends of its three queues:
offers references, takes the locations that it dispatches, and hands completions in.
-/

namespace SharedFetch.Scenario

/-- A coordinator and the ends of its queues that are still held. -/
structure CoordinatorBench where
  pipeline : Pipeline
  submitting : Bool := true
  taking : Bool := true
  completing : Bool := true
  /-- The part of the journal that was reported. -/
  seen : Nat := 0
  /-- Whether the end of the coordinator was reported. -/
  told : Bool := false

namespace CoordinatorBench

/-- A coordinator with queues of the given capacities. -/
def make (intake dispatch completions : Nat) : Except Misuse CoordinatorBench := do
  let (root, tokens) := ({} : Tokens).fresh
  let (run, tokens) := tokens.child root
  let queue ← Queue.make intake
  let dispatch ← Queue.make dispatch
  let completions ← Queue.make completions
  let pipeline : Pipeline :=
    { protocol := {}, tokens, latch := { root, run }, intake := { queue }, dispatch, completions }
  return { pipeline }

/-- What can be done around a coordinator. -/
inductive Action where
  | submit (refs : List Reference)
  | closeIntake
  | take (n : Nat)
  | closeDispatch
  | complete (c : Completion)
  | closeCompletions
  | cancelRun
  | cancelRoot
  | releaseHook (key : Option String) (mode : HookMode)
  | look

/-- Performs one action. -/
def perform (b : CoordinatorBench) : Action → Answer × CoordinatorBench
  | .submit refs =>
    if b.submitting then
      let (offers, queue) := b.pipeline.intake.queue.offerAll refs
      (.submittedAll offers,
        { b with pipeline := { b.pipeline with intake := { b.pipeline.intake with queue } } })
    else (.noSender, b)
  | .closeIntake =>
    let queue := b.pipeline.intake.queue
    let queue := if b.submitting then queue.dropSender else queue
    (.nothing,
      { b with
        submitting := false
        pipeline := { b.pipeline with intake := { b.pipeline.intake with queue } } })
  | .take n =>
    if b.taking then
      let (receipts, dispatch) := b.pipeline.dispatch.receiveMany n
      (.locations receipts, { b with pipeline := { b.pipeline with dispatch } })
    else (.noReceiver, b)
  | .closeDispatch =>
    (.nothing,
      { b with
        taking := false
        pipeline := { b.pipeline with dispatch := b.pipeline.dispatch.dropReceiver } })
  | .complete c =>
    if b.completing then
      let (offer, completions) := b.pipeline.completions.offer c
      (.completed offer, { b with pipeline := { b.pipeline with completions } })
    else (.noSender, b)
  | .closeCompletions =>
    let completions := b.pipeline.completions
    let completions := if b.completing then completions.dropSender else completions
    (.nothing, { b with completing := false, pipeline := { b.pipeline with completions } })
  | .cancelRun =>
    let tokens := b.pipeline.tokens.cancel b.pipeline.latch.run
    (.nothing, { b with pipeline := { b.pipeline with tokens } })
  | .cancelRoot =>
    let tokens := b.pipeline.tokens.cancel b.pipeline.latch.root
    (.nothing, { b with pipeline := { b.pipeline with tokens } })
  | .releaseHook key mode =>
    let (answer, pipeline) := Scenario.releaseHook b.pipeline key mode
    (answer, { b with pipeline })
  | .look => (.nothing, b)

/-- What is seen of a coordinator after a step. -/
structure Report where
  answers : List Answer
  entries : List Entry
  held : Option String
  counters : Counters
  /-- Whether it has said that it is through. -/
  finished : Bool
  running : Bool
  /-- How it ended, said once. -/
  ended : Option Ending
  fatal : Option Fault
  rootCancelled : Bool
  runCancelled : Bool

/-- Takes one step. -/
def step (_number : Nat) (b : CoordinatorBench) (actions : List Action) :
    Report × CoordinatorBench :=
  let (answers, b) := performAll perform b actions
  let p := b.pipeline.settle
  (⟨answers, p.history.drop b.seen, heldKey? p, p.counters,
      p.ending?.any fun e => !e.isPanic, !p.isOver,
      if b.told then none else p.ending?, p.latch.error?,
      p.tokens.isCancelled p.latch.root, p.isCancelled⟩,
    { b with pipeline := p, seen := p.journal.length, told := p.isOver })

/-- The reports of a list of steps. -/
def run (b : CoordinatorBench) (steps : List (List Action)) : List Report :=
  runFrom step 0 b steps

end CoordinatorBench

end SharedFetch.Scenario
