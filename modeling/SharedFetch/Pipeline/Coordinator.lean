import SharedFetch.Pipeline.Basic

/-!
# The coordinator

The coordinator goes on in small steps, each of them taken as a whole. Between two events it
*chooses*: it stops if it has drained, or if the run is cancelled; otherwise it takes the
first that is ready of a completion, a free place for the location in its slot, and, while
the slot is empty, a reference from the intake. A reference is resolved and then admitted or
reported as unresolvable; a completion is fanned out to the references that waited for its
location, in order, under one hold of the lock. A hook that fails ends the coordinator and
sets off the latch, a hook that panics ends it silently, and a hook that still waits when the
run is cancelled is dropped.
-/

namespace SharedFetch.Pipeline

/-- The coordinator turns to something else. -/
def turnTo (p : Pipeline) (phase : Phase) : Pipeline :=
  { p with coordinator := { p.coordinator with phase } }

/-- Takes a turn for the protocol lock. -/
def askLock (p : Pipeline) (party : Party) (access : Access) : Pipeline :=
  { p with lock := p.lock.queueUp party access }

/-- Gives the protocol lock back. -/
def freeLock (p : Pipeline) : Pipeline :=
  { p with lock := p.lock.release }

/-- The coordinator ends and lets go of its ends of the queues. What stands in the intake and
among the completions is gone with the receiving ends. -/
def finish (p : Pipeline) (ending : Ending) : Pipeline :=
  { p with
    intake := { p.intake with queue := p.intake.queue.dropReceiver }
    dispatch := p.dispatch.dropSender
    completions := p.completions.dropReceiver
    coordinator := { p.coordinator with phase := .ended ending } }

/-- The coordinator stops in good order. -/
def stop (p : Pipeline) : Pipeline :=
  (p.log (.note .stopped)).finish .done

/-- The coordinator ends with an alarm. -/
def abort (p : Pipeline) (alarm : Alarm) : Pipeline :=
  let (fault, p) := p.raise alarm
  p.finish (.failed fault)

/-! ### Choosing -/

/-- A completion is taken: its references wait no longer and are about to be served. -/
def complete (p : Pipeline) (c : Completion) : Pipeline :=
  let p := p.count .completion
  match p.coordinator.waiters.complete? c.location with
  | none =>
    p.abort (.pipeline "coordinator received unexpected completion"
      (.violation (.of c.location)))
  | some (references, waiters) =>
    let p := { p with coordinator := { p.coordinator with waiters } }.gauge
    let p := p.log (.note (.fanningOut c.location references.length c.outcome.isSuccess))
    (p.askLock .coordinator .write).turnTo (.fanningOut c.outcome references)

/-- No completion can come any more. -/
def endCompletions (p : Pipeline) : Pipeline :=
  let p := { p with coordinator := { p.coordinator with completionsDone := true } }
  if p.coordinator.waiters.isEmpty then p.log (.note .completionsClosed)
  else p.abort (.pipeline "coordinator" (.stranded p.coordinator.waiters.size))

/-- Takes a completion, or notices that there will be none. -/
def takeCompletion? (p : Pipeline) : Option Pipeline :=
  if p.coordinator.completionsDone then none
  else
    match p.completions.pop? with
    | some (c, completions) => some ({ p with completions }.complete c)
    | none => if p.completions.isExhausted then some p.endCompletions else none

/-- Moves the location in the slot to the dispatch queue. -/
def dispatchSlot? (p : Pipeline) : Option Pipeline :=
  match p.coordinator.slot with
  | none => none
  | some l =>
    match p.dispatch.offer l with
    | (.accepted, dispatch) =>
      some ({ p with dispatch, coordinator := { p.coordinator with slot := none } }.count
        .dispatch)
    | (.full _, _) => none
    | (.closed _, _) => some (p.abort (.pipeline "coordinator" .undispatchable))

/-- Takes a reference, or notices that there will be none. -/
def takeReference? (p : Pipeline) : Option Pipeline :=
  if p.coordinator.slot.isSome || p.coordinator.intakeDone then none
  else
    match p.intake.queue.pop? with
    | some (r, queue) =>
      let p := { p with intake := { p.intake with queue } }.count .reference
      some ((p.askLock .coordinator .read).turnTo (.resolving r))
    | none =>
      if p.intake.queue.isExhausted then
        let p := { p with coordinator := { p.coordinator with intakeDone := true } }
        some (p.log (.note (.intakeClosed p.coordinator.waiters.size)))
      else none

/-- Whether nothing is left to do and nothing can come. -/
def isDrained (p : Pipeline) : Bool :=
  p.coordinator.intakeDone && p.coordinator.waiters.isEmpty && p.coordinator.slot.isNone

/-- The coordinator chooses what to do next, or waits. -/
def choose? (p : Pipeline) : Option Pipeline :=
  if p.isDrained then some (p.log (.note .drained)).stop
  else if p.isCancelled then
    some (p.log (.note (.interrupted p.coordinator.waiters.size
      p.coordinator.waiters.waiting))).stop
  else
    match p.takeCompletion? with
    | some next => some next
    | none =>
      match p.dispatchSlot? with
      | some next => some next
      | none => p.takeReference?

/-! ### References -/

/-- A resolved reference is admitted: it fills the slot or joins the waiters. -/
def enroll (p : Pipeline) (l : Location) (r : Reference) : Pipeline :=
  match p.coordinator.waiters.enroll l r with
  | (.dispatch l, waiters) =>
    let p := p.log (.note (.dispatching l))
    let coordinator := { p.coordinator with waiters, slot := some l, phase := .choosing }
    { p with coordinator }.gauge
  | (.coalesced n, waiters) =>
    let p := p.log (.note (.coalesced n))
    { p with coordinator := { p.coordinator with waiters, phase := .choosing } }.count .coalesced

/-- The failure of a reference that leads nowhere, as a text. -/
def unresolvedText (r : Reference) (cause : Chain) : String :=
  (ResolutionFailure.mk r cause).message

/-- The reference in hand is resolved. -/
def resolve (p : Pipeline) (r : Reference) : Pipeline :=
  let p := p.log (.resolve r)
  match r.target with
  | .location l => p.enroll l r
  | .nowhere cause =>
    let p := (p.count .resolutionFailure).log (.note (.unresolvable (unresolvedText r cause)))
    (p.askLock .coordinator .write).turnTo (.reporting r cause)
  | .panic payload => p.finish (.panicked payload)

/-- The hook for an unresolvable reference is called. -/
def callUnresolved (p : Pipeline) (r : Reference) (cause : Chain) : Pipeline :=
  let q := if p.protocol.plain then p else p.log (.unresolved r (unresolvedText r cause))
  q.turnTo (.inUnresolved r (p.protocol.unresolvedMode r))

/-- The hook for an unresolvable reference has answered. -/
def finishUnresolved? (p : Pipeline) : HookMode → Option Pipeline
  | .hold => none
  | .succeed => some (p.freeLock.turnTo .choosing)
  | .fail stage cause => some (p.freeLock.abort (.hook ⟨stage.getD .unresolved, cause⟩))
  | .panic payload => some (p.freeLock.finish (.panicked payload))

/-! ### Deliveries -/

/-- Records the deliveries of a fan-out. -/
def countDeliveries (p : Pipeline) (delivered : Nat) : Pipeline :=
  p.count (.deliveries (UInt64.ofNat delivered))

/-- The next delivery of a fan-out is made, or the fan-out is over. -/
def deliver (p : Pipeline) (outcome : Delivery) (rest : List Reference) (delivered : Nat) :
    Pipeline :=
  match rest with
  | [] => (p.countDeliveries delivered).freeLock.turnTo .choosing
  | r :: rest =>
    (p.log (.process r outcome)).turnTo (.inProcess r r.process outcome rest delivered)

/-- The hook that takes a delivery has answered. -/
def finishProcess? (p : Pipeline) (outcome : Delivery) (rest : List Reference)
    (delivered : Nat) : HookMode → Option Pipeline
  | .hold => none
  | .succeed => some (p.turnTo (.delivering outcome rest (delivered + 1)))
  | .fail stage cause =>
    some ((p.countDeliveries delivered).freeLock.abort (.hook ⟨stage.getD .process, cause⟩))
  | .panic payload => some (p.freeLock.finish (.panicked payload))

/-! ### Steps -/

/-- Goes on with the lock, if it is the coordinator's turn. -/
def withLock? (p : Pipeline) (party : Party) : Option Pipeline :=
  (p.lock.grant? party).map fun lock => { p with lock }

/-- What the coordinator does next, unless it has to wait. -/
def coordinate? (p : Pipeline) : Option Pipeline :=
  match p.coordinator.phase with
  | .choosing => p.choose?
  | .resolving r => (p.withLock? .coordinator).map fun p => p.resolve r
  | .reporting r cause => (p.withLock? .coordinator).map fun p => p.callUnresolved r cause
  | .inUnresolved _ mode => p.finishUnresolved? mode
  | .fanningOut outcome rest =>
    (p.withLock? .coordinator).map fun p => p.turnTo (.delivering outcome rest 0)
  | .delivering outcome rest delivered => some (p.deliver outcome rest delivered)
  | .inProcess _ mode outcome rest delivered => p.finishProcess? outcome rest delivered mode
  | .ended _ => none

/-- The coordinator drops the hook that it waits for, once the run is cancelled. -/
def dropHook? (p : Pipeline) : Option Pipeline :=
  if p.isCancelled then
    match p.coordinator.phase with
    | .inUnresolved .. => some p.freeLock.stop
    | .inProcess _ _ _ _ delivered => some (p.countDeliveries delivered).freeLock.stop
    | _ => none
  else none

/-! ### Holds -/

/-- The stage and the reference of the hook that waits to be let go. -/
def heldHook? (p : Pipeline) : Option (Stage × Reference) :=
  match p.coordinator.phase with
  | .inUnresolved r .hold => some (.unresolved, r)
  | .inProcess r .hold _ _ _ => some (.process, r)
  | _ => none

/-- Lets the hook that waits go on with an answer. -/
def releaseHook (p : Pipeline) (mode : HookMode) : Pipeline :=
  match p.coordinator.phase with
  | .inUnresolved r .hold => p.turnTo (.inUnresolved r mode)
  | .inProcess r .hold outcome rest delivered =>
    p.turnTo (.inProcess r mode outcome rest delivered)
  | _ => p

end SharedFetch.Pipeline
