import SharedFetch.Host.Operation
import SharedFetch.Scenario.Basic
import SharedFetch.Scenario.Intake

/-!
# Scenarios of a host

A host as its callers see it. The caller keeps a stack of sending ends, a root token, which
may be the host's, and the feed of a run that is watched over. Stopping, draining and watching
go on in the background, and until they have ended the host is busy.
-/

namespace SharedFetch.Scenario

/-- A host and what its caller keeps. -/
structure HostBench where
  host : Host
  /-- The caller's root token. -/
  root : Token
  /-- The sending ends on the stack, by the era of their intake, the top one first. -/
  senders : List Nat := []
  /-- The number of the step with the run that the feed goes to. -/
  feed : Option Nat := none
  /-- The part of the journal that was reported. -/
  seen : Nat := 0
  /-- What the caller was ended by. -/
  misuse : Option Misuse := none

namespace HostBench

/-- A host that has never run. Without a token of its own it shares the caller's. -/
def make (kind : HostKind) (settings : Settings) (protocol : Protocol) (ownToken : Bool) :
    HostBench :=
  let host := Host.make kind settings protocol
  if ownToken && kind == .fetcher then
    let (root, tokens) := host.pipeline.tokens.fresh
    { host := { host with pipeline := { host.pipeline with tokens } }, root }
  else { host, root := host.root }

/-- What a caller can do. -/
inductive Action where
  | start
  | trySubmit (refs : List Reference)
  | submit (r : Reference)
  | forward (supply : Supply)
  | clone
  | drop
  | dropAll
  | stop
  | drain
  | run (supply : Supply)
  | push (refs : List Reference)
  | endFeed
  | interrupt
  | cancel
  | replaceRoot
  | finished
  | release (location : Option String) (mode : FetchMode)
  | releaseHook (key : Option String) (mode : HookMode)
  | guard (access : Access)
  | unguard
  | sleep (ms : Nat)
  | look

def isBusy (b : HostBench) : Bool :=
  b.host.isBusy

/-- Changes the pipeline of the host. -/
def onPipeline (b : HostBench) (f : Pipeline → Pipeline) : HostBench :=
  { b with host := { b.host with pipeline := f b.host.pipeline } }

/-- Changes the intake of the host. -/
def onIntake (b : HostBench) (f : Intake → Intake) : HostBench :=
  b.onPipeline fun p => { p with intake := f p.intake }

/-- Changes the intake queue as the holder of a sending end of the given era may: only its own
queue. -/
def onQueue (b : HostBench) (era : Nat) (f : Queue Reference → Queue Reference) : HostBench :=
  b.onIntake fun i => if era = i.era then { i with queue := f i.queue } else i

/-- Offers references through a sending end of the given era. -/
def offerAll (i : Intake) (era : Nat) (refs : List Reference) :
    List (Queue.Offer Reference) × Intake :=
  if era = i.era then
    let (offers, queue) := i.queue.offerAll refs
    (offers, { i with queue })
  else (refs.map .closed, i)

/-- The name of the hook that is held. -/
def heldHook? (h : Host) : Option String :=
  if h.holdsShutdown then some (hookKey .shutdown default) else heldKey? h.pipeline

/-- Performs one action of the step with the given number. -/
def perform (number : Nat) (b : HostBench) : Action → Answer × HostBench
  | .start =>
    if b.isBusy then (.busy, b)
    else
      match b.host.start with
      | .refused fault => (.failed fault, b)
      | .broken host cause => (.nothing, { b with host, misuse := some cause })
      | .launched host =>
        (.accepted, { b with host, senders := host.pipeline.intake.era :: b.senders })
  | .trySubmit refs =>
    match b.senders with
    | [] => (.noSender, b)
    | era :: _ =>
      let (offers, intake) := offerAll b.host.pipeline.intake era refs
      (.submittedAll offers, b.onIntake fun _ => intake)
  | .submit r =>
    match b.senders with
    | [] => (.noSender, b)
    | era :: _ =>
      (.started, (b.onQueue era Queue.addSender).onIntake fun i =>
        i.start number era (.submit r false) false)
  | .forward supply =>
    match b.senders with
    | [] => (.noSender, b)
    | era :: senders =>
      (.started, { b with senders }.onIntake fun i =>
        i.start number era (.forward b.root supply none 0) false)
  | .clone =>
    match b.senders with
    | [] => (.count 0, b)
    | era :: _ =>
      (.count (b.senders.length + 1),
        { b.onQueue era Queue.addSender with senders := era :: b.senders })
  | .drop =>
    match b.senders with
    | [] => (.count 0, b)
    | era :: senders =>
      (.count senders.length, { b.onQueue era Queue.dropSender with senders })
  | .dropAll =>
    let b := b.senders.foldl (fun b era => b.onQueue era Queue.dropSender) b
    (.count 0, { b with senders := [] })
  | .stop =>
    if b.isBusy then (.busy, b) else (.started, { b with host := b.host.beginStop number })
  | .drain =>
    if b.isBusy then (.busy, b) else (.started, { b with host := b.host.beginDrain number })
  | .run supply =>
    if b.isBusy then (.busy, b)
    else if b.host.kind = .fetcher then (.notRunner, b)
    else
      let feed := if supply.endless then some number else none
      (.started, { b with host := b.host.beginRun number supply, feed })
  | .push refs =>
    match b.feed with
    | none => (.noFeed, b)
    | some label =>
      if b.host.isFed label then
        (.flags (refs.map fun _ => true), { b with host := b.host.feed label refs })
      else (.flags (refs.map fun _ => false), b)
  | .endFeed =>
    match b.feed with
    | none => (.flag false, b)
    | some label => (.flag true, { b with host := b.host.endFeed label, feed := none })
  | .interrupt =>
    match b.host.operation with
    | some op =>
      if op.watches && op.label < number then (.flag true, { b with host := b.host.interrupt })
      else (.flag false, b)
    | none => (.flag false, b)
  | .cancel => (.nothing, { b with host := b.host.cancel b.root })
  | .replaceRoot =>
    if b.isBusy || b.host.running || b.host.kind == .runner then (.refused, b)
    else
      let host := b.host.renewRoot
      (.accepted, { b with host, root := host.root })
  | .finished =>
    if b.isBusy then (.busy, b)
    else
      let host := b.host.settle
      if !host.handles.done || host.pipeline.isOver then (.flag true, { b with host })
      else (.flag false, { b with host := host.elapse 1 })
  | .release location mode =>
    let (answer, pipeline) := releaseFetch b.host.pipeline location mode
    (answer, b.onPipeline fun _ => pipeline)
  | .releaseHook key mode =>
    if b.host.holdsShutdown then
      if key.all (· == hookKey .shutdown default) then
        (.releasedHook (some (hookKey .shutdown default)),
          { b with host := b.host.releaseShutdown mode })
      else (.releasedHook none, b)
    else
      let (answer, pipeline) := Scenario.releaseHook b.host.pipeline key mode
      (answer, b.onPipeline fun _ => pipeline)
  | .guard access =>
    let (got, lock) := b.host.pipeline.lock.guard access
    (if got then .accepted else .blocked, b.onPipeline fun p => { p with lock })
  | .unguard =>
    let (had, lock) := b.host.pipeline.lock.unguard
    (.flag had, b.onPipeline fun p => { p with lock })
  | .sleep _ | .look => (.nothing, b)

/-- What is seen of a host after a step. -/
structure Report where
  answers : List Answer
  /-- The producers that have finished since, by the number of their step. -/
  finished : List (Nat × Produced)
  /-- The operations that have ended since, likewise. -/
  concluded : List (Nat × Ending)
  entries : List Entry
  heldFetches : List Location
  heldHook : Option String
  counters : Counters
  activity : Activity
  /-- Whether the host runs, and its workers, unless it is busy. -/
  host : Option (Bool × Nat)
  sender : Option (Bool × Option Nat)
  rootCancelled : Bool
  metrics : List LogLine

/-- What the top sender sees. -/
def senderView? (b : HostBench) : Option (Bool × Option Nat) :=
  b.senders.head?.map fun era =>
    let i := b.host.pipeline.intake
    if era = i.era then IntakeBench.senderView i.queue else (true, none)

/-- How long an action sleeps. -/
def Action.sleep? : Action → Option Nat
  | .sleep ms => some ms
  | _ => none

/-- The time that a step takes: as long as it sleeps, or else one millisecond. -/
def duration (actions : List Action) : Nat :=
  match actions.filterMap Action.sleep? with
  | [] => 1
  | sleeps => sleeps.foldr (· + ·) 0

/-- Takes one step. -/
def step (number : Nat) (b : HostBench) (actions : List Action) : Report × HostBench :=
  let (answers, b) := performAll (perform number) b actions
  let host := b.host.settle.elapse (duration actions)
  let p := host.pipeline
  let (finished, intake) := p.intake.collect
  let entries := p.history.drop b.seen
  let b :=
    { b with
      root := if host.kind = .runner then host.root else b.root
      seen := p.journal.length
      host := { host with pipeline := { p with intake }, results := [], reports := [] } }
  (⟨answers, finished, host.results, entries, p.pool.held, heldHook? host, p.counters,
      p.activity, if b.isBusy then none else some (host.running, p.pool.handles),
      b.senderView?, p.tokens.isCancelled b.root, host.reports⟩, b)

/-- The reports of steps of which the first has the given number, unless one of them ends the
caller. -/
def runFrom (number : Nat) (b : HostBench) : List (List Action) → Except Misuse (List Report)
  | [] => .ok []
  | actions :: rest =>
    let (report, b) := step number b actions
    match b.misuse with
    | some cause => .error cause
    | none => (runFrom (number + 1) b rest).map fun reports => report :: reports

/-- The reports of a list of steps, unless one of them ends the caller. -/
def run (b : HostBench) (steps : List (List Action)) : Except Misuse (List Report) :=
  runFrom 0 b steps

end HostBench

end SharedFetch.Scenario
