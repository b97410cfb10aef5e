import SharedFetch.Proofs.Pipeline.CoordinatorStep

/-!
# What a step of a worker does

`WorkerStep p q` lists everything that a worker can do in one step, in the way in which
`CoordinatorStep` does it for the coordinator. A worker that leaves gives up its place among
the idle or the busy ones, its sending end of the completions and its turn in line there; if
that sets off the latch, then latch and tokens change and the alarm may be logged, but nothing
else does (`exists_leave_eq`).

## Main results

* `workerStep_of_workOn?`, `workerStep_of_dropFetch?`: the list is complete.
* `advances_of_advance`: what an event does that can happen in a pipeline.
* `exists_leave_eq`: what a worker that leaves changes.
-/

namespace SharedFetch

namespace Pool

variable {p : Pool} {id : Nat} {j : Job}

/-- The job of a worker is one of the busy ones. -/
theorem job?_eq_some (h : p.job? id = some j) : j ∈ p.busy ∧ j.worker = id :=
  ⟨List.mem_of_find?_eq_some h, by simpa using List.find?_some h⟩

/-- A job that is put in place of another is found by the same worker. -/
theorem job?_update (p : Pool) (j : Job) (w : Nat) :
    (p.update j).job? w = (p.job? w).map fun k => if k.worker = j.worker then j else k := by
  have hsame : ((fun k : Job => k.worker == w) ∘ fun k => if k.worker = j.worker then j else k) =
      fun k => k.worker == w := by
    funext k
    simp only [Function.comp_apply]
    split
    · rename_i hworker
      rw [hworker]
    · rfl
  rw [job?, update, List.find?_map, hsame, ← job?]

/-- The pool after a worker has left. -/
def without (p : Pool) (id : Nat) (ending : Ending) : Pool :=
  { p with
    idle := p.idle.erase id
    busy := p.busy.filter fun j => j.worker != id
    gone := p.gone ++ [(id, ending)] }

end Pool

/-- Whether a fetch answers in good order, with a content or with a failure. -/
def FetchMode.isAnswer : FetchMode → Bool
  | .content _ | .fail _ => true
  | .hold | .panic _ | .panicCall _ => false

namespace Pipeline

/-- A worker has the given job and is at the given stage of it. -/
structure Works (p : Pipeline) (j : Job) (stage : JobStage) : Prop where
  mem : j ∈ p.pool.busy
  stage : j.stage = stage

/-- One step of a worker, with what it finds and the pipeline after it. -/
inductive WorkerStep (p : Pipeline) : Pipeline → Prop where
  /-- An idle worker leaves because the run is cancelled. -/
  | quit {id : Nat} (hidle : id ∈ p.pool.idle) (hcancelled : p.isCancelled = true) :
      WorkerStep p (p.leave id .done)
  /-- An idle worker leaves because no location can come any more. -/
  | dismissed {id : Nat} (hidle : id ∈ p.pool.idle) (hlive : p.isCancelled = false)
      (hexhausted : p.dispatch.isExhausted = true) :
      WorkerStep p (p.leave id .done)
  /-- The worker that has been idle longest takes a location. -/
  | took {id : Nat} {idle : List Nat} {l : Location} {items : List Location}
      (hlive : p.isCancelled = false) (hidle : p.pool.idle = id :: idle)
      (hitems : p.dispatch.items = l :: items) :
      WorkerStep p
        { p with
          dispatch := { p.dispatch with items }
          pool := { p.pool with idle, busy := p.pool.busy ++ [⟨id, l, .awaitingLock⟩] }
          activity := p.activity.enter
          lock := p.lock.queueUp (.worker id) .read }
  /-- A worker calls its fetch. -/
  | called {j : Job} {lock : Lock Party} (hworks : p.Works j .awaitingLock)
      (hlock : p.lock.grant? (.worker j.worker) = some lock)
      (hmode : ∀ payload, p.protocol.fetchMode j.location ≠ .panicCall payload) :
      WorkerStep p
        { p with
          lock
          protocol := p.protocol.noteFetch j.location
          journal := .fetch j.location :: p.journal
          pool :=
            p.pool.update
              { j with
                stage := .fetching (p.protocol.fetchNumber j.location)
                  (p.protocol.fetchMode j.location) } }
  /-- A worker calls its fetch, and the call panics. -/
  | callPanicked {j : Job} {lock : Lock Party} {payload : Payload}
      (hworks : p.Works j .awaitingLock)
      (hlock : p.lock.grant? (.worker j.worker) = some lock)
      (hmode : p.protocol.fetchMode j.location = .panicCall payload) :
      WorkerStep p
        ({ p with
            lock
            protocol := p.protocol.noteFetch j.location
            journal := .fetch j.location :: p.journal
            activity := p.activity.leave }.leave j.worker (.panicked payload))
  /-- A fetch has brought its content. -/
  | fetched {j : Job} {number : Nat} {value : Option String}
      (hworks : p.Works j (.fetching number (.content value))) :
      WorkerStep p (p.handIn j (.content (contentOf j.location number value)))
  /-- A fetch has failed. -/
  | fetchFailed {j : Job} {number : Nat} {cause : Chain}
      (hworks : p.Works j (.fetching number (.fail cause))) :
      WorkerStep p
        ({ p with counters := p.counters.record .fetchFailure }.handIn j
          (.failure (.failed j.location cause)))
  /-- A fetch has panicked. -/
  | fetchPanicked {j : Job} {number : Nat} {mode : FetchMode} {payload : Payload}
      (hworks : p.Works j (.fetching number mode))
      (hmode : mode = .panic payload ∨ mode = .panicCall payload) :
      WorkerStep p ({ p with activity := p.activity.leave }.leave j.worker (.panicked payload))
  /-- A fetch is dropped. -/
  | fetchDropped {j : Job} {number : Nat} {mode : FetchMode}
      (hworks : p.Works j (.fetching number mode)) (hcancelled : p.isCancelled = true) :
      WorkerStep p
        ({ p with counters := p.counters.record .cancelledFetch }.handIn j
          (.failure (.cancelled j.location)))
  /-- A worker hands its completion in and is idle again. -/
  | handedIn {j : Job} {outcome : Delivery} (hworks : p.Works j (.handingIn outcome))
      (hopen : p.completions.closed = false)
      (hline : p.completions.line.head? = some j.worker) (hroom : p.completions.hasRoom = true)
      (houtcome : outcome.isCancelled = false) :
      WorkerStep p
        { p with
          completions :=
            { p.completions with
              line := p.completions.line.tail
              items := p.completions.items ++ [Completion.mk j.location outcome] }
          pool :=
            { p.pool with
              idle := p.pool.idle ++ [j.worker]
              busy := p.pool.busy.filter fun k => k.worker != j.worker } }
  /-- A worker hands in that its fetch was dropped, and leaves. -/
  | handedInLast {j : Job} {outcome : Delivery} (hworks : p.Works j (.handingIn outcome))
      (hopen : p.completions.closed = false)
      (hline : p.completions.line.head? = some j.worker) (hroom : p.completions.hasRoom = true)
      (houtcome : outcome.isCancelled = true) :
      WorkerStep p
        ({ p with
            completions :=
              { p.completions with
                line := p.completions.line.tail
                items := p.completions.items ++ [Completion.mk j.location outcome] } }.leave
          j.worker .done)
  /-- A worker cannot hand its completion in any more, and leaves. -/
  | undelivered {j : Job} {outcome : Delivery} (hworks : p.Works j (.handingIn outcome))
      (hclosed : p.completions.closed = true) :
      WorkerStep p
        (p.leave j.worker
          (if p.isCancelled then .done else .failed (.undelivered (render j.location))))

/-! ### Leaving -/

/-- What the alarm of a worker that leaves writes into the journal, if there is one. -/
def leaveEntries (p : Pipeline) (id : Nat) (ending : Ending) : List Entry :=
  match workerAlarm? id ending with
  | some alarm => if p.pool.guarded then p.alarmEntries alarm else []
  | none => []

/-- A worker that leaves changes pool, completions and dispatch queue; an alarm on top of that
changes latch, tokens and journal. -/
theorem exists_leave_eq (p : Pipeline) (id : Nat) (ending : Ending) :
    ∃ latch tokens,
      p.leave id ending =
        { p with
          pool := p.pool.without id ending
          completions := (p.completions.stepOut id).dropSender
          dispatch :=
            if (p.pool.without id ending).isGone then p.dispatch.dropReceiver else p.dispatch
          latch
          tokens
          journal := p.leaveEntries id ending ++ p.journal } := by
  rw [leave, leaveEntries]
  cases halarm : workerAlarm? id ending with
  | none => exact ⟨p.latch, p.tokens, rfl⟩
  | some alarm =>
      cases hguarded : p.pool.guarded with
      | false => exact ⟨p.latch, p.tokens, by simp [Pool.without, hguarded]⟩
      | true =>
          refine ⟨(p.latch.trigger p.tokens alarm).latch, (p.latch.trigger p.tokens alarm).tokens,
            ?_⟩
          simp only [if_true, raise_eq]
          rfl

section Leave

variable (p : Pipeline) (id : Nat) (ending : Ending)

@[simp] theorem pool_leave : (p.leave id ending).pool = p.pool.without id ending := by
  obtain ⟨latch, tokens, h⟩ := p.exists_leave_eq id ending
  rw [h]

@[simp] theorem completions_leave :
    (p.leave id ending).completions = (p.completions.stepOut id).dropSender := by
  obtain ⟨latch, tokens, h⟩ := p.exists_leave_eq id ending
  rw [h]

/-- The last worker drops the dispatch queue. -/
theorem dispatch_leave :
    (p.leave id ending).dispatch =
      if (p.pool.without id ending).isGone then p.dispatch.dropReceiver else p.dispatch := by
  obtain ⟨latch, tokens, h⟩ := p.exists_leave_eq id ending
  rw [h]

/-- What nobody has taken from the dispatch queue is gone with the last worker. -/
theorem items_dispatch_leave :
    (p.leave id ending).dispatch.items =
      if (p.pool.without id ending).isGone then [] else p.dispatch.items := by
  rw [dispatch_leave]
  split <;> rfl

@[simp] theorem coordinator_leave : (p.leave id ending).coordinator = p.coordinator := by
  obtain ⟨latch, tokens, h⟩ := p.exists_leave_eq id ending
  rw [h]

@[simp] theorem intake_leave : (p.leave id ending).intake = p.intake := by
  obtain ⟨latch, tokens, h⟩ := p.exists_leave_eq id ending
  rw [h]

@[simp] theorem protocol_leave : (p.leave id ending).protocol = p.protocol := by
  obtain ⟨latch, tokens, h⟩ := p.exists_leave_eq id ending
  rw [h]

@[simp] theorem lock_leave : (p.leave id ending).lock = p.lock := by
  obtain ⟨latch, tokens, h⟩ := p.exists_leave_eq id ending
  rw [h]

@[simp] theorem counters_leave : (p.leave id ending).counters = p.counters := by
  obtain ⟨latch, tokens, h⟩ := p.exists_leave_eq id ending
  rw [h]

@[simp] theorem activity_leave : (p.leave id ending).activity = p.activity := by
  obtain ⟨latch, tokens, h⟩ := p.exists_leave_eq id ending
  rw [h]

@[simp] theorem journal_leave :
    (p.leave id ending).journal = p.leaveEntries id ending ++ p.journal := by
  obtain ⟨latch, tokens, h⟩ := p.exists_leave_eq id ending
  rw [h]

end Leave

/-- A worker that leaves writes nothing but an alarm. -/
theorem eq_of_mem_leaveEntries {p : Pipeline} {id : Nat} {ending : Ending} {e : Entry}
    (h : e ∈ p.leaveEntries id ending) : ∃ a, e = .note (.alarm a) := by
  rw [leaveEntries] at h
  cases halarm : workerAlarm? id ending with
  | none => simp [halarm] at h
  | some alarm =>
      cases hguarded : p.pool.guarded with
      | false => simp [halarm, hguarded] at h
      | true =>
          simp only [halarm, hguarded, if_true] at h
          exact eq_of_mem_alarmEntries h

/-- Only a worker that is not gone takes a step. -/
theorem WorkerStep.isGone_eq_false {p q : Pipeline} (h : p.WorkerStep q) :
    p.pool.isGone = false := by
  have hidle : ∀ {id : Nat}, id ∈ p.pool.idle → p.pool.isGone = false := fun hid => by
    simp [Pool.isGone, List.ne_nil_of_mem hid]
  have hbusy : ∀ {j : Job} {stage : JobStage}, p.Works j stage → p.pool.isGone = false :=
    fun hworks => by simp [Pool.isGone, List.ne_nil_of_mem hworks.mem]
  cases h with
  | quit hid | dismissed hid => exact hidle hid
  | took hlive hfront => exact hidle (hfront ▸ List.mem_cons_self)
  | called hworks | callPanicked hworks | fetched hworks | fetchFailed hworks
  | fetchPanicked hworks | fetchDropped hworks | handedIn hworks | handedInLast hworks
  | undelivered hworks => exact hbusy hworks

/-! ### The list is complete -/

variable {p q : Pipeline} {id : Nat} {j : Job}

/-- What an idle worker can do. -/
theorem workerStep_of_takeLocation? (hidle : id ∈ p.pool.idle)
    (h : p.takeLocation? id = some q) : WorkerStep p q := by
  rw [takeLocation?] at h
  cases hcancelled : p.isCancelled with
  | true =>
      simp only [hcancelled, if_true, Option.some.injEq] at h
      exact h ▸ .quit hidle hcancelled
  | false =>
      simp only [hcancelled, Bool.false_eq_true, if_false, Option.ite_none_right_eq_some] at h
      obtain ⟨hhead, h⟩ := h
      rcases hitems : p.dispatch.items with _ | ⟨l, items⟩
      · simp only [Queue.pop?, hitems, Option.ite_none_right_eq_some, Option.some.injEq] at h
        obtain ⟨hexhausted, rfl⟩ := h
        exact .dismissed hidle hcancelled hexhausted
      · simp only [Queue.pop?, hitems, Option.some.injEq] at h
        obtain ⟨idle, hfront⟩ := List.head?_eq_some_iff.1 hhead
        subst h
        have := WorkerStep.took hcancelled hfront hitems
        simpa [askLock, hfront] using this

/-- What a worker does with the lock. -/
theorem workerStep_callFetch {lock : Lock Party} (hworks : p.Works j .awaitingLock)
    (hlock : p.lock.grant? (.worker j.worker) = some lock) :
    WorkerStep p ({ p with lock }.callFetch j) := by
  cases hmode : p.protocol.fetchMode j.location with
  | panicCall payload =>
      have := WorkerStep.callPanicked hworks hlock hmode
      simpa [callFetch, log, hmode] using this
  | hold | content value | fail cause | panic payload =>
      have := WorkerStep.called hworks hlock (by simp [hmode])
      simpa [callFetch, log, hmode] using this

/-- What a worker does when its fetch returns. -/
theorem workerStep_of_finishFetch? {number : Nat} {mode : FetchMode}
    (hworks : p.Works j (.fetching number mode)) (h : p.finishFetch? j number mode = some q) :
    WorkerStep p q := by
  cases mode with
  | hold => simp [finishFetch?] at h
  | content value => exact Option.some.inj h ▸ .fetched hworks
  | fail cause => exact Option.some.inj h ▸ .fetchFailed hworks
  | panic payload => exact Option.some.inj h ▸ .fetchPanicked hworks (.inl rfl)
  | panicCall payload => exact Option.some.inj h ▸ .fetchPanicked hworks (.inr rfl)

/-- What a worker does with an outcome. -/
theorem workerStep_of_deposit? {outcome : Delivery} (hworks : p.Works j (.handingIn outcome))
    (h : p.deposit? j outcome = some q) : WorkerStep p q := by
  rw [deposit?] at h
  cases hclosed : p.completions.closed with
  | true =>
      simp only [hclosed, if_true, Option.some.injEq] at h
      exact h ▸ .undelivered hworks hclosed
  | false =>
      simp only [hclosed, Bool.false_eq_true, if_false, Queue.enter?, Option.map_eq_some_iff,
        Option.ite_none_right_eq_some, Option.some.injEq] at h
      obtain ⟨completions, ⟨⟨hline, hroom⟩, rfl⟩, rfl⟩ := h
      cases houtcome : outcome.isCancelled with
      | true =>
          have := WorkerStep.handedInLast hworks hclosed hline hroom houtcome
          simpa [hclosed] using this
      | false =>
          have := WorkerStep.handedIn hworks hclosed hline hroom houtcome
          simpa [hclosed] using this

/-- **Every step of a worker is in the list.** -/
theorem workerStep_of_workOn? (h : p.workOn? id = some q) : WorkerStep p q := by
  rw [workOn?] at h
  rcases hjob : p.pool.job? id with _ | j
  · simp only [hjob, Option.ite_none_right_eq_some, List.contains_iff_mem] at h
    exact workerStep_of_takeLocation? h.1 h.2
  · obtain ⟨hmem, -⟩ := Pool.job?_eq_some hjob
    simp only [hjob, doJob?] at h
    cases hstage : j.stage with
    | awaitingLock =>
        simp only [hstage, withLock?, Option.map_map, Option.map_eq_some_iff] at h
        obtain ⟨lock, hlock, rfl⟩ := h
        exact workerStep_callFetch ⟨hmem, hstage⟩ hlock
    | fetching number mode =>
        simp only [hstage] at h
        exact workerStep_of_finishFetch? ⟨hmem, hstage⟩ h
    | handingIn outcome =>
        simp only [hstage] at h
        exact workerStep_of_deposit? ⟨hmem, hstage⟩ h

/-- Dropping a fetch is in the list as well. -/
theorem workerStep_of_dropFetch? (h : p.dropFetch? id = some q) : WorkerStep p q := by
  rw [dropFetch?] at h
  rcases hjob : p.pool.job? id with _ | j
  · simp [hjob] at h
  · cases hcancelled : p.isCancelled with
    | false => simp [hcancelled] at h
    | true =>
        cases hstage : j.stage with
        | fetching number mode =>
            simp only [hcancelled, hjob, hstage, if_true, Option.some.injEq] at h
            exact h ▸ .fetchDropped ⟨(Pool.job?_eq_some hjob).1, hstage⟩ hcancelled
        | awaitingLock | handingIn outcome => simp [hcancelled, hjob, hstage] at h

/-- What an event does in a pipeline: the coordinator goes on, a worker does, or a producer. -/
inductive Advances (p : Pipeline) : Event → Pipeline → Prop where
  | coordinated {e : Event} {q : Pipeline} (hstep : p.CoordinatorStep q) : Advances p e q
  | worked {e : Event} {q : Pipeline} (hstep : p.WorkerStep q) : Advances p e q
  | produced {id : Nat} {r : Producer} {intake : Intake}
      (hfind : (p.intake.producers.find? fun r => r.id == id) = some r)
      (hstep : p.intake.step p.tokens r = some intake) :
      Advances p (.produce id) { p with intake }

/-- **Every event is a step of the coordinator, of a worker or of a producer.** -/
theorem advances_of_advance {e : Event} (h : p.advance e = some q) : p.Advances e q := by
  cases e with
  | coordinate => exact .coordinated (coordinatorStep_of_coordinate? h)
  | dropHook => exact .coordinated (coordinatorStep_of_dropHook? h)
  | work id => exact .worked (workerStep_of_workOn? h)
  | dropFetch id => exact .worked (workerStep_of_dropFetch? h)
  | produce id =>
      obtain ⟨intake, hintake, rfl⟩ := Option.map_eq_some_iff.mp h
      obtain ⟨r, hfind, hstep⟩ := Option.bind_eq_some_iff.mp hintake
      exact .produced hfind hstep

/-! ### Answers -/

/-- A fetch that is let go has to do with the workers alone. -/
theorem releaseFetch_eq (p : Pipeline) (j : Job) (mode : FetchMode) :
    p.releaseFetch j mode = { p with pool := (p.releaseFetch j mode).pool } := by
  rw [releaseFetch]
  split <;> rfl

/-- A fetch that answers in good order hands an outcome in, and at most counts itself as failed. -/
theorem exists_of_isAnswer (p : Pipeline) (j : Job) (number : Nat) {m : FetchMode}
    (hm : m.isAnswer = true) :
    ∃ d failures, d.isCancelled = false ∧ p.finishFetch? j number m =
      some ({ p with counters := { p.counters with fetchFailures := failures } }.handIn j d) := by
  cases m with
  | content value => exact ⟨_, p.counters.fetchFailures, rfl, rfl⟩
  | fail cause => exact ⟨_, p.counters.fetchFailures + 1, rfl, rfl⟩
  | hold | panic _ | panicCall _ => simp [FetchMode.isAnswer] at hm

end Pipeline

end SharedFetch
