import SharedFetch.Pipeline.Coordinator

/-!
# The workers

An idle worker looks first whether the run is cancelled, and then, if it has been idle
longest, takes a location from the dispatch queue. It waits to read the protocol, calls the
fetch, waits for it, and hands the outcome in; after that it is idle again. A fetch that
still waits when the run is cancelled is dropped, and its worker leaves once it has handed in
that outcome. A worker that cannot hand in a completion fails, unless the run is cancelled.

A pool that is guarded sets off the latch when one of its workers fails or panics.
-/

namespace SharedFetch.Pipeline

/-- The alarm that the end of a worker raises in a guarded pool. -/
def workerAlarm? (id : Nat) : Ending → Option Alarm
  | .done => none
  | .failed fault =>
    let context := Context.worker id
    some (.pipeline context.message (.within context fault))
  | .panicked payload => some (.pipeline s!"worker {id} panicked" (.workerPanic id payload))

/-- A worker leaves. With the last one the receiving end of the dispatch queue is gone, and with
it the locations that nobody has taken. -/
def leave (p : Pipeline) (id : Nat) (ending : Ending) : Pipeline :=
  let pool :=
    { p.pool with
      idle := p.pool.idle.erase id
      busy := p.pool.busy.filter fun j => j.worker != id
      gone := p.pool.gone ++ [(id, ending)] }
  let p :=
    { p with
      pool
      completions := (p.completions.stepOut id).dropSender
      dispatch := if pool.isGone then p.dispatch.dropReceiver else p.dispatch }
  match workerAlarm? id ending with
  | some alarm => if pool.guarded then (p.raise alarm).2 else p
  | none => p

/-- A worker that is idle takes a location, or leaves. -/
def takeLocation? (p : Pipeline) (id : Nat) : Option Pipeline :=
  if p.isCancelled then some (p.leave id .done)
  else if p.pool.idle.head? = some id then
    match p.dispatch.pop? with
    | some (l, dispatch) =>
      let pool :=
        { p.pool with
          idle := p.pool.idle.tail
          busy := p.pool.busy ++ [⟨id, l, .awaitingLock⟩] }
      some ({ p with dispatch, pool, activity := p.activity.enter }.askLock (.worker id) .read)
    | none => if p.dispatch.isExhausted then some (p.leave id .done) else none
  else none

/-- The fetch of a location is called. -/
def callFetch (p : Pipeline) (j : Job) : Pipeline :=
  let number := p.protocol.fetchNumber j.location
  let mode := p.protocol.fetchMode j.location
  let p := { p with protocol := p.protocol.noteFetch j.location }.log (.fetch j.location)
  match mode with
  | .panicCall payload =>
    { p with activity := p.activity.leave }.leave j.worker (.panicked payload)
  | mode => { p with pool := p.pool.update { j with stage := .fetching number mode } }

/-- The outcome of a fetch is ready, and its worker gets in line with it. -/
def handIn (p : Pipeline) (j : Job) (outcome : Delivery) : Pipeline :=
  { p with
    activity := p.activity.leave
    pool := p.pool.update { j with stage := .handingIn outcome }
    completions := p.completions.queueUp j.worker }

/-- A fetch has answered. -/
def finishFetch? (p : Pipeline) (j : Job) (number : Nat) : FetchMode → Option Pipeline
  | .hold => none
  | .content value => some (p.handIn j (.content (contentOf j.location number value)))
  | .fail cause =>
    some ((p.count .fetchFailure).handIn j (.failure (.failed j.location cause)))
  | .panic payload | .panicCall payload =>
    some ({ p with activity := p.activity.leave }.leave j.worker (.panicked payload))

/-- A worker hands its completion in. After an outcome that says no more than that the fetch
was dropped it leaves. -/
def deposit? (p : Pipeline) (j : Job) (outcome : Delivery) : Option Pipeline :=
  if p.completions.closed then
    some (p.leave j.worker
      (if p.isCancelled then .done else .failed (.undelivered (render j.location))))
  else
    (p.completions.enter? j.worker ⟨j.location, outcome⟩).map fun completions =>
      let p := { p with completions }
      if outcome.isCancelled then p.leave j.worker .done
      else
        { p with pool :=
          { p.pool with
            idle := p.pool.idle ++ [j.worker]
            busy := p.pool.busy.filter fun k => k.worker != j.worker } }

/-- What a busy worker does next, unless it has to wait. -/
def doJob? (p : Pipeline) (j : Job) : Option Pipeline :=
  match j.stage with
  | .awaitingLock => (p.withLock? (.worker j.worker)).map fun p => p.callFetch j
  | .fetching number mode => p.finishFetch? j number mode
  | .handingIn outcome => p.deposit? j outcome

/-- What a worker does next, unless it has to wait. -/
def workOn? (p : Pipeline) (id : Nat) : Option Pipeline :=
  match p.pool.job? id with
  | some j => p.doJob? j
  | none => if p.pool.idle.contains id then p.takeLocation? id else none

/-- A worker drops the fetch that it waits for, once the run is cancelled. -/
def dropFetch? (p : Pipeline) (id : Nat) : Option Pipeline :=
  if p.isCancelled then
    match p.pool.job? id with
    | some j =>
      match j.stage with
      | .fetching .. =>
        some ((p.count .cancelledFetch).handIn j (.failure (.cancelled j.location)))
      | _ => none
    | none => none
  else none

/-! ### Holds -/

/-- The oldest fetch that waits to be let go, of the given written form if there is one. -/
def heldFetch? (p : Pipeline) (location : Option String) : Option Job :=
  p.pool.busy.find? fun j =>
    j.isHeld && (location.all fun text => text == render j.location)

/-- Lets the fetch of a job go on with an answer. -/
def releaseFetch (p : Pipeline) (j : Job) (mode : FetchMode) : Pipeline :=
  match j.stage with
  | .fetching number .hold =>
    { p with pool := p.pool.update { j with stage := .fetching number mode } }
  | _ => p

end SharedFetch.Pipeline
