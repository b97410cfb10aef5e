import SharedFetch.Host.Basic

/-!
# Operations of a host

Stopping a run cancels it and then waits, one after the other, for the coordinator, the
workers and the reporter; only then is the protocol told of the end, under the lock. If that
panics, the operation does, and the host is lost. If that fails, the operation reports it
before anything else. Otherwise it reports the fault that the latch captured or, failing that,
the one that the coordinator ended with. Draining first waits until the coordinator is through
by itself. A runner that watches over a run launches it, forwards a stream to it, and stops it
once it is through, cancelled or interrupted. The stream may be added to from the beginning,
also before the run is launched.
-/

namespace SharedFetch

/-- What may happen in a host without anything from outside. -/
inductive HostEvent where
  /-- Something happens in the pipeline. -/
  | inside (event : Event)
  /-- The reporter ends with the run. -/
  | quitReporter
  /-- The operation goes on. -/
  | operate
  deriving DecidableEq, Inhabited, Repr

namespace Host

/-- The operation turns to another phase. -/
def turnTo (h : Host) (op : Operation) (phase : OperationPhase) : Host :=
  { h with operation := some { op with phase } }

/-- The producers that worked for the host are gone. -/
def dismissProducers (h : Host) : Host :=
  let intake := h.pipeline.intake
  { h with pipeline := { h.pipeline with intake :=
    { intake with producers := intake.producers.filter fun q => !q.hosted } } }

/-- An operation ends. One that panics takes the host along. -/
def report (h : Host) (label : Nat) (ending : Ending) : Host :=
  { h with
    operation := none
    lost := h.lost || ending.isPanic
    results := h.results ++ [(label, ending)] }

/-- The run has ended, and with it the operation. A runner is then no longer started and has a
new root token. -/
def conclude (h : Host) (label : Nat) (fault : Option Fault) : Host :=
  let h := h.dismissProducers.report label (.ofFault fault)
  match h.kind with
  | .fetcher => h
  | .runner => { h with started := false }.renewRoot

/-- The run is cancelled, and the operation waits for its parts to end. The task of the coordinator
is the first that it waits for. -/
def tearDown (h : Host) (op : Operation) : Host :=
  let h := match h.kind with
    | .fetcher => h
    | .runner => h.cancel h.root
  let h := { h with handles := { h.handles with coordinator := false } }
  (h.cancel h.pipeline.latch.run).turnTo op .joiningCoordinator

/-- Begins to stop the run; a host without one has nothing to do. -/
def beginStop (h : Host) (label : Nat) : Host :=
  if h.running then h.tearDown { label, phase := .joiningCoordinator }
  else { h with operation := some { label, phase := .returning .done } }

/-- Begins to drain the run. A runner stops it at once. -/
def beginDrain (h : Host) (label : Nat) : Host :=
  if h.kind = .fetcher ∧ h.running then { h with operation := some { label, phase := .draining } }
  else h.beginStop label

/-- Begins to watch over a run with the references of a stream. -/
def beginRun (h : Host) (label : Nat) (supply : Supply) : Host :=
  { h with operation := some { label, watches := true, phase := .opening supply } }

/-- Lets the reporter make the reports that are due now; one that was started begins. A
reporter of a cancelled run makes none any more. -/
def wakeReporter (h : Host) : Host :=
  if h.pipeline.isCancelled then h
  else
    let (lines, reporting) := h.reporting.wake h.clock h.pipeline.counters
    { h with reporting, reports := h.reports ++ lines }

/-- Launches the run that the operation is to watch over. Its reporter begins before anything
else of it. -/
def openRun (h : Host) (op : Operation) (supply : Supply) : Host :=
  match h.start with
  | .refused fault => h.turnTo op (.returning (.failed fault))
  | .broken h cause => h.wakeReporter.turnTo op (.returning (.panicked (.text cause.message)))
  | .launched h =>
    let h := h.wakeReporter
    let intake := h.pipeline.intake
    let intake := intake.start op.label intake.era (.forward h.root supply none 0) true
    { h with pipeline := { h.pipeline with intake } }.turnTo op (.watching false)

/-- The hook for the end of a run has answered. -/
def finishShutdown? (h : Host) (op : Operation) (fault : Option Fault) :
    HookMode → Option Host :=
  let h' := { h with pipeline := h.pipeline.freeLock }
  fun
  | .hold => none
  | .succeed => some (h'.conclude op.label (fault.map (.within .aborted)))
  | .fail stage cause =>
    let failure : HookFailure := ⟨stage.getD .shutdown, cause⟩
    some (h'.conclude op.label (some (.within .shutdown (.hook failure))))
  | .panic payload => some (h'.dismissProducers.report op.label (.panicked payload))

/-- The hook for the end of a run is called. -/
def callShutdown (h : Host) (op : Operation) (fault : Option Fault) : Host :=
  let p := h.pipeline
  let mode := p.protocol.shutdownMode
  let p := if p.protocol.plain then p else p.log .shutdown
  { h with pipeline := { p with protocol := p.protocol.noteShutdown } }.turnTo op
    (.inShutdown mode fault)

/-- What an operation does next, unless it has to wait. -/
def operateOn? (h : Host) (op : Operation) : Option Host :=
  let p := h.pipeline
  match op.phase with
  | .opening supply => some (h.openRun op supply)
  | .draining => if p.isOver then some (h.tearDown op) else none
  | .watching interrupted =>
    if interrupted || p.tokens.isCancelled h.root || p.isOver then some (h.tearDown op) else none
  | .joiningCoordinator =>
    p.ending?.map fun ending =>
      let p := { p with pool := { p.pool with handles := 0 } }.count (.poolSize 0)
      { h with pipeline := p }.turnTo op (.joiningWorkers ending.fault?)
  | .joiningWorkers fault =>
    if p.pool.isGone then
      some ({ h with handles := { h.handles with life := false } }.turnTo op
        (.joiningReporter (p.latch.error?.or fault)))
    else none
  | .joiningReporter fault =>
    if h.reporting.isAlive then none
    else
      some ({ h with
        running := false
        handles := { h.handles with done := false }
        pipeline := p.askLock .host .write }.turnTo op (.awaitingLock fault))
  | .awaitingLock fault =>
    (p.withLock? .host).map fun p => { h with pipeline := p }.callShutdown op fault
  | .inShutdown mode fault => h.finishShutdown? op fault mode
  | .returning ending => some (h.report op.label ending)

/-- Whether a producer may go on: one that works for the host only does while the host
watches. -/
def mayProduce (h : Host) (id : Nat) : Bool :=
  h.pipeline.intake.producers.all fun q =>
    q.id != id || !q.hosted ||
      match h.operation with
      | some { phase := .watching _, .. } => true
      | _ => false

/-- The host after an event, if the event can happen. -/
def advance (h : Host) : HostEvent → Option Host
  | .inside event =>
    let allowed := match event with
      | .produce id => h.mayProduce id
      | _ => true
    if allowed then (h.pipeline.advance event).map fun pipeline => { h with pipeline } else none
  | .quitReporter =>
    if h.reporting.isAlive && h.pipeline.isCancelled then
      let (lines, reporting) := h.reporting.quit
      some { h with reporting, reports := h.reports ++ lines }
    else none
  | .operate => h.operation.bind h.operateOn?

/-- The events that settling tries, in this order. -/
def candidates (h : Host) : List HostEvent :=
  h.pipeline.candidates.map .inside ++ [.quitReporter, .operate]

/-- The work left in an operation. A run that is still to be launched brings that of its
parts. -/
def phaseWork (h : Host) : OperationPhase → Nat
  | .opening supply => h.poolSize + Intake.taskWork (.forward h.root supply none 0) + 11
  | .draining | .watching _ => 6
  | .joiningCoordinator => 5
  | .joiningWorkers _ => 4
  | .joiningReporter _ => 3
  | .awaitingLock _ => 2
  | .inShutdown .. | .returning _ => 1

/-- The work left in a host. -/
def work (h : Host) : Nat :=
  h.pipeline.work + (if h.reporting.isAlive then 1 else 0) +
    (match h.operation with
      | some op => h.phaseWork op.phase
      | none => 0)

/-- Lets the host go on until nothing more can happen. -/
def settle (h : Host) : Host :=
  let h := h.wakeReporter
  SharedFetch.settle advance candidates h.work h

/-- Lets time pass. -/
def elapse (h : Host) (ms : Nat) : Host :=
  let clock := h.clock + ms
  let (lines, reporting) := h.reporting.elapse clock h.pipeline.counters
  { h with clock, reporting, reports := h.reports ++ lines }

/-! ### From outside -/

/-- Whether the stream of the run that was begun under the given name is still there. -/
def isFed (h : Host) (label : Nat) : Bool :=
  match h.operation with
  | some { label := own, phase := .opening _, .. } => own == label
  | _ => h.pipeline.intake.isFed label

/-- Changes the stream of the run that was begun under the given name. -/
def onSupply (h : Host) (label : Nat) (f : Supply → Supply) : Host :=
  match h.operation with
  | some op =>
    match op.phase with
    | .opening supply => if op.label = label then h.turnTo op (.opening (f supply)) else h
    | _ => { h with pipeline := { h.pipeline with intake := h.pipeline.intake.onSupply label f } }
  | none => h

/-- Puts references at the end of the stream of a run. -/
def feed (h : Host) (label : Nat) (refs : List Reference) : Host :=
  h.onSupply label fun s => { s with items := s.items ++ refs }

/-- Ends the stream of a run. -/
def endFeed (h : Host) (label : Nat) : Host :=
  h.onSupply label fun s => { s with endless := false }

/-- Interrupts the watch over a run. -/
def interrupt (h : Host) : Host :=
  match h.operation with
  | some op =>
    match op.phase with
    | .watching _ => h.turnTo op (.watching true)
    | _ => h
  | none => h

/-- Whether the hook for the end of a run waits to be let go. -/
def holdsShutdown (h : Host) : Bool :=
  match h.operation with
  | some { phase := .inShutdown .hold _, .. } => true
  | _ => false

/-- Lets the hook for the end of a run go on with an answer. -/
def releaseShutdown (h : Host) (mode : HookMode) : Host :=
  match h.operation with
  | some op =>
    match op.phase with
    | .inShutdown .hold fault => h.turnTo op (.inShutdown mode fault)
    | _ => h
  | none => h

end Host

end SharedFetch
