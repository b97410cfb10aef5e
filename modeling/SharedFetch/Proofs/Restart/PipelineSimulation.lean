import SharedFetch.Pipeline.Step
import SharedFetch.Proofs.Restart.ProducersSimulation

/-!
# Pipelines after a past

A pipeline that was launched after a past has the same protocol, lock, coordinator and workers as
one that was launched without, and the same waits in its queues. Its tokens, producers and eras have
their later names, its counters and its journal go on from where they were, and so does the highest
number of fetches. The gauge of locations in flight shows what the past has left, until the first
location is admitted.

Nothing that happens in a pipeline depends on any of this.

## Main results

* `Pipeline.Later.advance`: what can happen in a pipeline can happen later, and comes to the same.
* `Pipeline.Later.advance_past`: what a producer of the past does is not seen.
-/

namespace SharedFetch

/-- Whether the entry says that a location is admitted. -/
def Entry.isAdmission : Entry → Bool
  | .note (.dispatching _) => true
  | _ => false

/-- The later name of an event. -/
def Event.later (past : Past) : Event → Event
  | .produce id => .produce (past.producer id)
  | e => e

/-- Whether a producer of the past would go on. -/
def Event.isPast (past : Past) : Event → Bool
  | .produce id => id < past.producers
  | _ => false

namespace Pipeline

/-- What goes on from run to run, as it is later. -/
structure Lasts (past : Past) (p q : Pipeline) : Prop where
  protocol : q.protocol = p.protocol
  lock : q.lock = p.lock
  tokens : p.tokens.Later past q.tokens
  counters : q.counters = p.counters.later past q.counters.inFlight
  /-- The gauge is the same from the first admission on. -/
  gauged : q.counters.inFlight = p.counters.inFlight ∨ ∀ e ∈ p.journal, e.isAdmission = false
  activity : q.activity = p.activity.later past
  journal : q.journal = p.journal ++ past.journal

/-- What was written since the past is the same. -/
theorem Lasts.history {past : Past} {p q : Pipeline} (h : p.Lasts past q) (seen : Nat) :
    q.history.drop (seen + past.journal.length) = p.history.drop seen := by
  rw [Pipeline.history, Pipeline.history, h.journal, List.reverse_append, Nat.add_comm,
    ← List.drop_drop, ← List.length_reverse, List.drop_left]

/-- A pipeline as it is later. -/
structure Later (past : Past) (p q : Pipeline) : Prop extends p.Lasts past q where
  latch : q.latch = p.latch.later past
  intake : p.intake.Later past q.intake
  dispatch : q.dispatch = p.dispatch
  completions : q.completions = p.completions
  coordinator : q.coordinator = p.coordinator
  pool : q.pool = p.pool

namespace Later

variable {past : Past} {p q : Pipeline}

/-! ### What is the same later -/

/-- The run is cancelled later if and only if it is. -/
theorem isCancelled (h : p.Later past q) : q.isCancelled = p.isCancelled := by
  rw [Pipeline.isCancelled, Pipeline.isCancelled, h.latch]
  exact h.tokens.isCancelled _

/-- The coordinator is through later if and only if it is. -/
theorem isOver (h : p.Later past q) : q.isOver = p.isOver := by
  rw [Pipeline.isOver, Pipeline.isOver, h.coordinator]

/-- The coordinator comes to the same end. -/
theorem ending? (h : p.Later past q) : q.ending? = p.ending? := by
  rw [Pipeline.ending?, Pipeline.ending?, h.coordinator]

/-- Whether there is nothing left to do for the coordinator does not depend on the past. -/
theorem isDrained (h : p.Later past q) : q.isDrained = p.isDrained := by
  rw [Pipeline.isDrained, Pipeline.isDrained, h.coordinator]

/-- The same hook is held. -/
theorem heldHook? (h : p.Later past q) : q.heldHook? = p.heldHook? := by
  rw [Pipeline.heldHook?, Pipeline.heldHook?, h.coordinator]

/-- The same fetch is held. -/
theorem heldFetch? (h : p.Later past q) (location : Option String) :
    q.heldFetch? location = p.heldFetch? location := by
  rw [Pipeline.heldFetch?, Pipeline.heldFetch?, h.pool]

/-- The same is tried, under later names, and what producers of the past could do besides. -/
theorem candidates (h : p.Later past q) :
    (q.candidates.filter fun e => !e.isPast past) = p.candidates.map (Event.later past) := by
  have hkept : ∀ events : List Event, (∀ e ∈ events, e.isPast past = false ∧ e.later past = e) →
      (events.filter fun e => !e.isPast past) = events.map (Event.later past) := by
    intro events hevents
    rw [List.filter_eq_self.mpr fun e he => by rw [(hevents e he).1]; rfl]
    exact ((List.map_congr_left fun e he => (hevents e he).2).trans (List.map_id events)).symm
  have hnames : ((q.intake.names.map Event.produce).filter fun e => !e.isPast past) =
      (p.intake.names.map Event.produce).map (Event.later past) := by
    have hproduce : ((fun e => !Event.isPast past e) ∘ Event.produce) =
        fun id => decide (past.producers ≤ id) := by
      funext id
      simp only [Function.comp, Event.isPast, ← decide_not, Nat.not_lt]
    rw [List.filter_map, hproduce, h.intake.names, List.map_map, List.map_map]
    rfl
  rw [Pipeline.candidates, Pipeline.candidates, h.pool, List.filter_append, List.map_append, hnames,
    hkept]
  intro e he
  simp only [List.mem_append, List.mem_cons, List.not_mem_nil, or_false, List.mem_flatMap,
    List.mem_map] at he
  rcases he with ((rfl | rfl) | ⟨j, -, rfl | rfl⟩) | ⟨id, -, rfl⟩ <;> exact ⟨rfl, rfl⟩

/-! ### What everybody does -/

/-- An entry is written that is about no admission. -/
theorem log (h : p.Later past q) {e : Entry} (hentry : e.isAdmission = false) :
    (p.log e).Later past (q.log e) :=
  { h with
    gauged := h.gauged.imp_right fun hnone => List.forall_mem_cons.mpr ⟨hentry, hnone⟩
    journal := congrArg (e :: ·) h.journal }

/-- Something is counted, or a gauge set. -/
theorem count (h : p.Later past q) (change : Counters.Change) :
    (p.count change).Later past (q.count change) :=
  { h with
    counters := by
      have hrecord : (p.counters.later past q.counters.inFlight).record change = _ :=
        p.counters.record_later q.counters.inFlight change
      rw [← h.counters] at hrecord
      exact hrecord
    gauged := by
      cases change with
      | inFlight n => exact .inl rfl
      | _ => exact h.gauged }

/-- Somebody asks for the lock. -/
theorem askLock (h : p.Later past q) (party : Party) (access : Access) :
    (p.askLock party access).Later past (q.askLock party access) :=
  { h with lock := by simp only [Pipeline.askLock, h.lock] }

/-- Whoever writes gives the lock back. -/
theorem freeLock (h : p.Later past q) : p.freeLock.Later past q.freeLock :=
  { h with lock := by simp only [Pipeline.freeLock, h.lock] }

/-- The coordinator changes alike. -/
theorem withCoordinator (h : p.Later past q) (f : Coordinator → Coordinator) :
    { p with coordinator := f p.coordinator }.Later past { q with coordinator := f q.coordinator } :=
  { h with coordinator := congrArg f h.coordinator }

/-- The workers change alike. -/
theorem withPool (h : p.Later past q) (f : Pool → Pool) :
    { p with pool := f p.pool }.Later past { q with pool := f q.pool } :=
  { h with pool := congrArg f h.pool }

/-- The coordinator turns to the same phase. -/
theorem turnTo (h : p.Later past q) (phase : Phase) :
    (p.turnTo phase).Later past (q.turnTo phase) :=
  h.withCoordinator fun c => { c with phase }

/-- An alarm hands the same fault back. -/
theorem raise (h : p.Later past q) (alarm : Alarm) :
    (q.raise alarm).1 = (p.raise alarm).1 ∧ (p.raise alarm).2.Later past (q.raise alarm).2 := by
  obtain ⟨hreturned, hlatch, hlogged, htokens⟩ := p.latch.trigger_later h.tokens alarm
  have hraised : { p with
        latch := (p.latch.trigger p.tokens alarm).latch
        tokens := (p.latch.trigger p.tokens alarm).tokens }.Later past { q with
        latch := (q.latch.trigger q.tokens alarm).latch
        tokens := (q.latch.trigger q.tokens alarm).tokens } := by
    rw [h.latch]
    exact { h with latch := hlatch, tokens := htokens }
  rw [← h.latch] at hreturned hlogged
  refine ⟨hreturned, ?_⟩
  simp only [Pipeline.raise, hlogged]
  split
  · exact hraised.log rfl
  · exact hraised

/-! ### The coordinator -/

/-- The coordinator ends and drops its ends of the queues. -/
theorem finish (h : p.Later past q) (ending : Ending) :
    (p.finish ending).Later past (q.finish ending) :=
  { h with
    intake := by
      simp only [Pipeline.finish, h.intake.queue, Queue.dropReceiver_later]
      exact h.intake.withQueue _
    dispatch := by simp only [Pipeline.finish, h.dispatch]
    completions := by simp only [Pipeline.finish, h.completions]
    coordinator := by simp only [Pipeline.finish, h.coordinator] }

/-- The coordinator stops. -/
theorem stop (h : p.Later past q) : p.stop.Later past q.stop :=
  (h.log rfl).finish .done

/-- The coordinator raises an alarm and ends with the fault that it is handed back. -/
theorem abort (h : p.Later past q) (alarm : Alarm) :
    (p.abort alarm).Later past (q.abort alarm) := by
  obtain ⟨hfault, hraised⟩ := h.raise alarm
  rw [Pipeline.abort, Pipeline.abort]
  dsimp only
  rw [hfault]
  exact hraised.finish _

/-- The gauge of locations in flight is set to the same. -/
theorem gauge (h : p.Later past q) : p.gauge.Later past q.gauge := by
  rw [Pipeline.gauge, Pipeline.gauge, h.coordinator]
  exact h.count _

/-- A completion is turned into a fan-out, or finds nobody waiting. -/
theorem complete (h : p.Later past q) (c : Completion) :
    (p.complete c).Later past (q.complete c) := by
  have hcounted := h.count .completion
  rw [Pipeline.complete, Pipeline.complete]
  dsimp only
  rw [hcounted.coordinator]
  split
  · exact hcounted.abort _
  · refine ((log (gauge ?_) ?_).askLock _ _).turnTo _
    · exact { hcounted with coordinator := rfl }
    · rfl

/-- The coordinator finds that no worker is left. -/
theorem endCompletions (h : p.Later past q) : p.endCompletions.Later past q.endCompletions := by
  have hseen := h.withCoordinator fun c => { c with completionsDone := true }
  rw [Pipeline.endCompletions, Pipeline.endCompletions]
  dsimp only
  rw [h.coordinator] at hseen ⊢
  split
  · exact hseen.log rfl
  · exact hseen.abort _

/-- The same completion is taken, if there is one. -/
theorem takeCompletion? (h : p.Later past q) :
    Option.Rel (Later past) p.takeCompletion? q.takeCompletion? := by
  rw [Pipeline.takeCompletion?, Pipeline.takeCompletion?, h.coordinator, h.completions]
  split
  · exact .none
  · split
    · refine .some (complete ?_ _)
      exact { h with completions := rfl, coordinator := rfl }
    · split
      · exact .some h.endCompletions
      · exact .none

/-- The slot is emptied into the dispatch queue, if there is room. -/
theorem dispatchSlot? (h : p.Later past q) :
    Option.Rel (Later past) p.dispatchSlot? q.dispatchSlot? := by
  rw [Pipeline.dispatchSlot?, Pipeline.dispatchSlot?, h.coordinator, h.dispatch]
  split
  · exact .none
  · split
    · refine .some (count ?_ _)
      exact { h with dispatch := rfl, coordinator := rfl }
    · exact .none
    · exact .some (h.abort _)

/-- The same reference is taken, if there is one. -/
theorem takeReference? (h : p.Later past q) :
    Option.Rel (Later past) p.takeReference? q.takeReference? := by
  rw [Pipeline.takeReference?, Pipeline.takeReference?, h.coordinator, h.intake.queue,
    Queue.pop?_later, Queue.isExhausted_later]
  split
  · exact .none
  · cases p.intake.queue.pop? with
    | none =>
        dsimp only [Option.map_none]
        split
        · refine .some (log ?_ rfl)
          exact { h with coordinator := rfl }
        · exact .none
    | some taken =>
        refine .some (((count ?_ _).askLock _ _).turnTo _)
        exact { h with intake := h.intake.withQueue _, coordinator := rfl }

/-- **The coordinator chooses the same**, in the same order of preference. -/
theorem choose? (h : p.Later past q) : Option.Rel (Later past) p.choose? q.choose? := by
  rw [Pipeline.choose?, Pipeline.choose?, h.isDrained, h.isCancelled, h.coordinator]
  split
  · exact .some (h.log rfl).stop
  · split
    · exact .some (h.log rfl).stop
    · have hcompletion := h.takeCompletion?
      have hslot := h.dispatchSlot?
      generalize p.takeCompletion? = x, q.takeCompletion? = y at hcompletion ⊢
      cases hcompletion with
      | some hnext => exact .some hnext
      | none =>
          generalize p.dispatchSlot? = x, q.dispatchSlot? = y at hslot ⊢
          cases hslot with
          | some hnext => exact .some hnext
          | none => exact h.takeReference?

/-! ### References -/

/-- With the first admission the gauge is set. -/
theorem enroll (h : p.Later past q) (l : Location) (r : Reference) :
    (p.enroll l r).Later past (q.enroll l r) := by
  rw [Pipeline.enroll, Pipeline.enroll, h.coordinator]
  split
  · rename_i k waiters hadmitted
    have hfilled := h.withCoordinator fun c => { c with waiters, slot := some k, phase := .choosing }
    exact { hfilled.gauge with
      gauged := .inl rfl
      journal := congrArg (_ :: ·) h.journal }
  · rename_i n waiters hadmitted
    have hjoined := h.withCoordinator fun c => { c with waiters, phase := .choosing }
    have hentry : (Entry.note (.coalesced n)).isAdmission = false := rfl
    exact (hjoined.log hentry).count .coalesced

/-- A reference is resolved to the same. -/
theorem resolve (h : p.Later past q) (r : Reference) : (p.resolve r).Later past (q.resolve r) := by
  have hlogged : (p.log (.resolve r)).Later past (q.log (.resolve r)) := h.log rfl
  rw [Pipeline.resolve, Pipeline.resolve]
  dsimp only
  split
  · exact hlogged.enroll _ r
  · exact (((hlogged.count _).log rfl).askLock _ _).turnTo _
  · exact hlogged.finish _

/-- The hook for a reference that leads nowhere is called. -/
theorem callUnresolved (h : p.Later past q) (r : Reference) (cause : Chain) :
    (p.callUnresolved r cause).Later past (q.callUnresolved r cause) := by
  rw [Pipeline.callUnresolved, Pipeline.callUnresolved, h.protocol]
  split
  · exact h.turnTo _
  · exact (h.log rfl).turnTo _

/-- The hook for a reference that leads nowhere returns to the same, or is held. -/
theorem finishUnresolved? (h : p.Later past q) (mode : HookMode) :
    Option.Rel (Later past) (p.finishUnresolved? mode) (q.finishUnresolved? mode) := by
  cases mode with
  | hold => exact .none
  | succeed => exact .some (h.freeLock.turnTo _)
  | fail stage cause => exact .some (h.freeLock.abort _)
  | panic payload => exact .some (h.freeLock.finish _)

/-! ### Deliveries -/

/-- An outcome is delivered to the next reference, or the fan-out is at its end. -/
theorem deliver (h : p.Later past q) (outcome : Delivery) (rest : List Reference) (delivered : Nat) :
    (p.deliver outcome rest delivered).Later past (q.deliver outcome rest delivered) := by
  cases rest with
  | nil => exact (h.count _).freeLock.turnTo _
  | cons r rest => exact (h.log rfl).turnTo _

/-- The hook for a delivery returns to the same, or is held. -/
theorem finishProcess? (h : p.Later past q) (outcome : Delivery) (rest : List Reference)
    (delivered : Nat) (mode : HookMode) :
    Option.Rel (Later past) (p.finishProcess? outcome rest delivered mode)
      (q.finishProcess? outcome rest delivered mode) := by
  cases mode with
  | hold => exact .none
  | succeed => exact .some (h.turnTo _)
  | fail stage cause => exact .some ((h.count _).freeLock.abort _)
  | panic payload => exact .some (h.freeLock.finish _)

/-! ### Steps of the coordinator -/

/-- Whoever is granted the lock is granted it later as well, and does the same with it. -/
theorem withLock? (h : p.Later past q) (party : Party) {f : Pipeline → Pipeline}
    (hf : ∀ p q : Pipeline, p.Later past q → (f p).Later past (f q)) :
    Option.Rel (Later past) ((p.withLock? party).map f) ((q.withLock? party).map f) := by
  rw [Pipeline.withLock?, Pipeline.withLock?, h.lock]
  cases p.lock.grant? party with
  | none => exact .none
  | some lock => exact .some (hf _ _ { h with lock := rfl })

/-- **The next step of the coordinator is the same**, phase by phase. -/
theorem coordinate? (h : p.Later past q) : Option.Rel (Later past) p.coordinate? q.coordinate? := by
  rw [Pipeline.coordinate?, Pipeline.coordinate?, h.coordinator]
  cases p.coordinator.phase with
  | choosing => exact h.choose?
  | resolving r => exact h.withLock? _ fun _ _ h => h.resolve r
  | reporting r cause => exact h.withLock? _ fun _ _ h => h.callUnresolved r cause
  | inUnresolved r mode => exact h.finishUnresolved? mode
  | fanningOut outcome rest => exact h.withLock? _ fun _ _ h => h.turnTo _
  | delivering outcome rest delivered => exact .some (h.deliver outcome rest delivered)
  | inProcess r mode outcome rest delivered => exact h.finishProcess? outcome rest delivered mode
  | ended ending => exact .none

/-- A hook is dropped under the same conditions. -/
theorem dropHook? (h : p.Later past q) : Option.Rel (Later past) p.dropHook? q.dropHook? := by
  rw [Pipeline.dropHook?, Pipeline.dropHook?, h.isCancelled, h.coordinator]
  split
  · cases p.coordinator.phase with
    | inUnresolved r mode => exact .some h.freeLock.stop
    | inProcess r mode outcome rest delivered => exact .some (h.count _).freeLock.stop
    | _ => exact .none
  · exact .none

/-- The hook that is held is given its answer. -/
theorem releaseHook (h : p.Later past q) (mode : HookMode) :
    (p.releaseHook mode).Later past (q.releaseHook mode) := by
  rw [Pipeline.releaseHook, Pipeline.releaseHook, h.coordinator]
  split
  · exact h.turnTo _
  · exact h.turnTo _
  · exact h

/-! ### The workers -/

/-- A worker leaves, and the last one drops the dispatch queue. -/
theorem leave (h : p.Later past q) (id : Nat) (ending : Ending) :
    (p.leave id ending).Later past (q.leave id ending) := by
  have hleft : ∀ pool completions dispatch, { p with pool, completions, dispatch }.Later past
      { q with pool, completions, dispatch } :=
    fun _ _ _ => { h with pool := rfl, completions := rfl, dispatch := rfl }
  rw [Pipeline.leave, Pipeline.leave, h.pool, h.completions, h.dispatch]
  dsimp only
  split
  · split
    · exact ((hleft _ _ _).raise _).2
    · exact hleft _ _ _
  · exact hleft _ _ _

/-- A worker takes the same location, or leaves. -/
theorem takeLocation? (h : p.Later past q) (id : Nat) :
    Option.Rel (Later past) (p.takeLocation? id) (q.takeLocation? id) := by
  rw [Pipeline.takeLocation?, Pipeline.takeLocation?, h.isCancelled, h.pool, h.dispatch]
  split
  · exact .some (h.leave id .done)
  · split
    · split
      · refine .some (askLock ?_ _ _)
        exact { h with
          dispatch := rfl
          pool := rfl
          activity := by
            dsimp only
            rw [h.activity, Activity.enter_later] }
      · split
        · exact .some (h.leave id .done)
        · exact .none
    · exact .none

/-- A worker stops being active. -/
theorem rest (h : p.Later past q) :
    { p with activity := p.activity.leave }.Later past { q with activity := q.activity.leave } :=
  { h with
    activity := by
      dsimp only
      rw [h.activity, Activity.leave_later] }

/-- A worker calls the same fetch, with the same answer. -/
theorem callFetch (h : p.Later past q) (j : Job) : (p.callFetch j).Later past (q.callFetch j) := by
  have hnoted : { p with protocol := p.protocol.noteFetch j.location }.Later past
      { q with protocol := p.protocol.noteFetch j.location } :=
    { h with protocol := rfl }
  have hentry : (Entry.fetch j.location).isAdmission = false := rfl
  have hlogged := hnoted.log hentry
  rw [Pipeline.callFetch, Pipeline.callFetch, h.protocol]
  split
  · exact hlogged.rest.leave _ _
  · exact hlogged.withPool fun pool => pool.update _

/-- A worker comes to an outcome and lines up with it. -/
theorem handIn (h : p.Later past q) (j : Job) (outcome : Delivery) :
    (p.handIn j outcome).Later past (q.handIn j outcome) :=
  { (h.rest.withPool fun pool => pool.update { j with stage := .handingIn outcome }) with
    completions := by simp only [Pipeline.handIn, h.completions] }

/-- A fetch returns to the same, or is held. -/
theorem finishFetch? (h : p.Later past q) (j : Job) (number : Nat) (mode : FetchMode) :
    Option.Rel (Later past) (p.finishFetch? j number mode) (q.finishFetch? j number mode) := by
  cases mode with
  | hold => exact .none
  | content value => exact .some (h.handIn j _)
  | fail cause => exact .some ((h.count _).handIn j _)
  | panic payload | panicCall payload => exact .some (h.rest.leave _ _)

/-- A worker puts its outcome into the completions, if there is room. -/
theorem deposit? (h : p.Later past q) (j : Job) (outcome : Delivery) :
    Option.Rel (Later past) (p.deposit? j outcome) (q.deposit? j outcome) := by
  rw [Pipeline.deposit?, Pipeline.deposit?, h.completions, h.isCancelled]
  split
  · exact .some (h.leave _ _)
  · cases p.completions.enter? j.worker ⟨j.location, outcome⟩ with
    | none => exact .none
    | some completions =>
        have hentered : { p with completions }.Later past { q with completions } :=
          { h with completions := rfl }
        refine .some ?_
        dsimp only
        split
        · exact hentered.leave _ _
        · exact hentered.withPool fun pool =>
            { pool with
              idle := pool.idle ++ [j.worker]
              busy := pool.busy.filter fun k => k.worker != j.worker }

/-- **The next step of a busy worker is the same**, stage by stage. -/
theorem doJob? (h : p.Later past q) (j : Job) :
    Option.Rel (Later past) (p.doJob? j) (q.doJob? j) := by
  rw [Pipeline.doJob?, Pipeline.doJob?]
  cases j.stage with
  | awaitingLock => exact h.withLock? _ fun _ _ h => h.callFetch j
  | fetching number mode => exact h.finishFetch? j number mode
  | handingIn outcome => exact h.deposit? j outcome

/-- The next step of a worker is the same, whether it has a location or not. -/
theorem workOn? (h : p.Later past q) (id : Nat) :
    Option.Rel (Later past) (p.workOn? id) (q.workOn? id) := by
  rw [Pipeline.workOn?, Pipeline.workOn?, h.pool]
  split
  · exact h.doJob? _
  · split
    · exact h.takeLocation? id
    · exact .none

/-- A fetch is dropped under the same conditions. -/
theorem dropFetch? (h : p.Later past q) (id : Nat) :
    Option.Rel (Later past) (p.dropFetch? id) (q.dropFetch? id) := by
  rw [Pipeline.dropFetch?, Pipeline.dropFetch?, h.isCancelled, h.pool]
  split
  · split
    · split
      · exact .some ((h.count _).handIn _ _)
      · exact .none
    · exact .none
  · exact .none

/-- A fetch that is held is given its answer. -/
theorem releaseFetch (h : p.Later past q) (j : Job) (mode : FetchMode) :
    (p.releaseFetch j mode).Later past (q.releaseFetch j mode) := by
  rw [Pipeline.releaseFetch, Pipeline.releaseFetch]
  split
  · exact h.withPool fun pool => pool.update _
  · exact h

/-! ### Steps -/

/-- **What can happen in a pipeline can happen later, and comes to the same.** -/
theorem advance (h : p.Later past q) (e : Event) :
    Option.Rel (Later past) (p.advance e) (q.advance (e.later past)) := by
  cases e with
  | coordinate => exact h.coordinate?
  | dropHook => exact h.dropHook?
  | work id => exact h.workOn? id
  | dropFetch id => exact h.dropFetch? id
  | produce id =>
      have hadvance := h.intake.advance h.tokens id
      rw [Event.later, Pipeline.advance, Pipeline.advance]
      generalize p.intake.advance p.tokens id = x, q.intake.advance q.tokens (past.producer id) = y
        at hadvance ⊢
      cases hadvance with
      | none => exact .none
      | some hintake => exact .some { h with intake := hintake }

/-- What a producer of the past does is not seen. -/
theorem advance_past {r : Pipeline} (h : p.Later past q) {e : Event} (hpast : e.isPast past = true)
    (hstep : q.advance e = some r) : p.Later past r := by
  cases e with
  | produce id =>
      obtain ⟨intake, hintake, rfl⟩ := Option.map_eq_some_iff.mp hstep
      exact { h with intake := h.intake.advance_past (by simpa [Event.isPast] using hpast) hintake }
  | coordinate | dropHook | work id | dropFetch id => cases hpast

end Later

end Pipeline

end SharedFetch
