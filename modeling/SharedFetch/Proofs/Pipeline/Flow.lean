import SharedFetch.Proofs.Line
import SharedFetch.Proofs.Pipeline.Rest

/-!
# Nothing waits that could go on

Within a run the workers with an outcome stand in line at the completions, each once, nobody stands
in line at the dispatch queue, and as long as the coordinator goes on and the run is not cancelled
no worker has left (`Flowing`). So in a quiescent pipeline, the coordinator being between two
events, whatever could be taken has been taken: there is no completion, hence nobody who waits to
hand one in; an idle worker has emptied the dispatch queue, which has emptied the slot and with it
the intake.

## Main results

* `Flowing.change`: every change keeps the line in hand and the workers in their places.
* `Change.headcount`, `Change.capacities`: within a run workers and places only move.
* `Quiescent.isHeld`: in a quiescent pipeline every busy worker has a fetch that is held.
* `Quiescent.completions_eq_nil`, `Quiescent.intake_eq_nil`, `Quiescent.dispatch_eq_nil`,
  `Quiescent.dispatch_full`: what is empty then, and what is full.
-/

namespace SharedFetch

namespace Queue

variable {α : Type}

/-- A queue in which nobody stands in line and which takes nothing more is full. -/
theorem hasRoom_eq_false_of_free {q : Queue α} (hline : q.line = []) (hfree : q.free = 0) :
    q.hasRoom = false := by
  rw [free, hline, List.length_nil] at hfree
  rw [hasRoom, decide_eq_false_iff_not]
  omega

end Queue

namespace Pool

variable {p : Pool} {j : Job}

/-- The workers that have an outcome to hand in. -/
def depositors (p : Pool) : List Nat :=
  (p.busy.filter fun j => !j.isActive).map Job.worker

theorem mem_depositors {id : Nat} :
    id ∈ p.depositors ↔ ∃ j ∈ p.busy, j.isActive = false ∧ j.worker = id := by
  simp [depositors, and_assoc]

theorem nodup_depositors (h : p.workers.Nodup) : p.depositors.Nodup :=
  (List.nodup_append.mp h).2.1.sublist (List.filter_sublist.map _)

/-- A worker that leaves is not among them any more. -/
theorem depositors_without (h : p.workers.Nodup) (id : Nat) (ending : Ending) :
    (p.without id ending).depositors = p.depositors.erase id := by
  rw [(nodup_depositors h).erase_eq_filter, depositors, depositors, List.filter_map, without,
    List.filter_filter, List.filter_filter]
  congr 2
  funext j
  exact Bool.and_comm _ _

/-- A worker that calls its fetch, or whose fetch answers, has no outcome yet. -/
theorem depositors_update_fetching (h : p.workers.Nodup) (hj : j ∈ p.busy)
    (hactive : j.isActive = true) (number : Nat) (mode : FetchMode) :
    (p.update { j with stage := .fetching number mode }).depositors = p.depositors := by
  obtain ⟨before, after, hbusy, -, hupdate⟩ := exists_busy_eq h hj
  have hfetching : ({ j with stage := .fetching number mode } : Job).isActive = true := rfl
  rw [depositors, hupdate, depositors, hbusy]
  simp [hactive, hfetching]

/-- A worker gets an outcome. -/
theorem depositors_update_handingIn (h : p.workers.Nodup) (hj : j ∈ p.busy)
    (hactive : j.isActive = true) (outcome : Delivery) :
    (p.update { j with stage := .handingIn outcome }).depositors.Perm
      (j.worker :: p.depositors) := by
  obtain ⟨before, after, hbusy, -, hupdate⟩ := exists_busy_eq h hj
  have hdone : ({ j with stage := .handingIn outcome } : Job).isActive = false := rfl
  rw [depositors, hupdate, depositors, hbusy]
  simp only [List.filter_append, List.filter_cons, hactive, hdone, Bool.not_true, Bool.not_false,
    Bool.false_eq_true, if_true, if_false, List.map_append, List.map_cons]
  exact List.perm_middle

end Pool

namespace Pipeline

variable {p q : Pipeline} {j : Job} {dropped : List Location}

/-! ### Places and workers -/

/-- The coordinator does nothing to lines and places. -/
theorem CoordinatorStep.queues (h : p.CoordinatorStep q) :
    (q.completions.line = p.completions.line ∧ q.completions.capacity = p.completions.capacity) ∧
      q.dispatch.line = p.dispatch.line ∧ q.dispatch.capacity = p.dispatch.capacity := by
  cases h with
  | drained | interrupted | resolvePanicked | unresolvedPanicked | processPanicked
  | unresolvedDropped | processDropped =>
      exact ⟨⟨Queue.line_dropReceiver _, Queue.capacity_dropReceiver _⟩, rfl, rfl⟩
  | stray | stranded | undispatchable | unresolvedFailed | processFailed =>
      rw [abort_eq]
      exact ⟨⟨Queue.line_dropReceiver _, Queue.capacity_dropReceiver _⟩, rfl, rfl⟩
  | _ => exact ⟨⟨rfl, rfl⟩, rfl, rfl⟩

/-- A worker that leaves does nothing to the line at the dispatch queue and to the places. -/
theorem queues_leave (p : Pipeline) (id : Nat) (ending : Ending) :
    (p.leave id ending).completions.capacity = p.completions.capacity ∧
      (p.leave id ending).dispatch.line = p.dispatch.line ∧
      (p.leave id ending).dispatch.capacity = p.dispatch.capacity := by
  rw [completions_leave, dispatch_leave]
  split
  · exact ⟨rfl, Queue.line_dropReceiver _, Queue.capacity_dropReceiver _⟩
  · exact ⟨rfl, rfl, rfl⟩

/-- A worker does nothing to the line at the dispatch queue and to the places. -/
theorem WorkerStep.queues (h : p.WorkerStep q) :
    q.completions.capacity = p.completions.capacity ∧ q.dispatch.line = p.dispatch.line ∧
      q.dispatch.capacity = p.dispatch.capacity := by
  cases h with
  | quit | dismissed | callPanicked | fetchPanicked | handedInLast | undelivered =>
      exact queues_leave _ _ _
  | took | called | fetched | fetchFailed | fetchDropped | handedIn => exact ⟨rfl, rfl, rfl⟩

/-- **Within a run the queues keep their places.** -/
theorem Change.capacities (h : p.Change q) :
    q.completions.capacity = p.completions.capacity ∧
      q.dispatch.capacity = p.dispatch.capacity := by
  cases h with
  | coordinated hstep => exact ⟨hstep.queues.1.2, hstep.queues.2.2⟩
  | worked hstep => exact ⟨hstep.queues.1, hstep.queues.2.2⟩
  | hookReleased mode =>
      rw [releaseHook_eq]
      exact ⟨rfl, rfl⟩
  | fetchReleased hj mode =>
      rw [releaseFetch_eq]
      exact ⟨rfl, rfl⟩
  | tasksSpared hspares | renewed hspares =>
      rw [hspares.completions, hspares.dispatch]
      exact ⟨rfl, rfl⟩

/-- A worker that leaves is gone. -/
theorem headcount_leave {id : Nat} {ending : Ending}
    (halive : (p.pool.without id ending).alive + 1 = p.pool.alive) :
    (p.leave id ending).pool.alive + (p.leave id ending).pool.gone.length =
      p.pool.alive + p.pool.gone.length := by
  rw [pool_leave]
  simp only [Pool.without, List.length_append, List.length_singleton] at halive ⊢
  omega

/-- A worker that takes a step is there, or gone. -/
theorem WorkerStep.headcount (h : p.WorkerStep q) (hworkers : p.pool.workers.Nodup) :
    q.pool.alive + q.pool.gone.length = p.pool.alive + p.pool.gone.length := by
  cases h with
  | quit hidle | dismissed hidle =>
      exact headcount_leave (Pool.alive_without_of_mem_idle hworkers hidle _)
  | callPanicked hworks | fetchPanicked hworks | handedInLast hworks | undelivered hworks =>
      exact headcount_leave (Pool.alive_without_of_mem_busy hworkers hworks.mem _)
  | took hlive hidle hitems =>
      simp only [Pool.alive, hidle, List.length_append, List.length_cons, List.length_nil]
      omega
  | called | fetched | fetchFailed | fetchDropped =>
      simp only [Pipeline.handIn, Pool.alive_update]
      rfl
  | handedIn hworks =>
      have hbusy := (Pool.busy_perm_without hworkers hworks.mem .done).length_eq
      simp only [Pool.without, List.length_cons] at hbusy
      simp only [Pool.alive, List.length_append, List.length_singleton]
      omega

/-- **Within a run no worker gets lost.** -/
theorem Change.headcount (h : p.Change q) (hworkers : p.pool.workers.Nodup) :
    q.pool.alive + q.pool.gone.length = p.pool.alive + p.pool.gone.length := by
  cases h with
  | coordinated hstep => rw [hstep.pool]
  | worked hstep => exact hstep.headcount hworkers
  | hookReleased mode => rw [releaseHook_eq]
  | fetchReleased hj mode =>
      rw [releaseFetch]
      split
      · rw [Pool.alive_update]
        rfl
      · rfl
  | tasksSpared hspares | renewed hspares =>
      rw [Pool.alive, hspares.idle, hspares.busy, hspares.gone, Pool.alive]

/-! ### Lines -/

/-- Those with an outcome stand in line at the completions and nobody at the dispatch queue. The
coordinator has not seen the end of the completions, and as long as it goes on in a run that is not
cancelled no worker has left. -/
structure Flowing (p : Pipeline) : Prop where
  waiting : p.completions.line.Perm p.pool.depositors
  direct : p.dispatch.line = []
  awake : p.coordinator.completionsDone = false
  present : p.isOver = false → p.isCancelled = false → p.pool.gone = []

/-- While the workers are there, the coordinator does not see the end of the completions. -/
theorem CoordinatorStep.completionsDone (h : p.CoordinatorStep q) (hstaffed : p.Staffed) :
    q.coordinator.completionsDone = p.coordinator.completionsDone := by
  have hsenders : p.Looks → p.completions.isExhausted = false := by
    intro hlooks
    have hpresent := hstaffed.present (by rw [isOver, hlooks.phase]) hlooks.live
    rw [← Bool.not_eq_true, Pool.isGone_iff_alive_eq_zero, ← hstaffed.senders] at hpresent
    simp [Queue.isExhausted, hpresent]
  cases h with
  | completionsEnded hlooks hopen hexhausted | stranded hlooks hopen hexhausted =>
      rw [hsenders hlooks] at hexhausted
      cases hexhausted
  | stray | undispatchable | unresolvedFailed | processFailed =>
      rw [abort_eq]
      rfl
  | _ => rfl

namespace Flowing

/-- The coordinator takes a step. -/
theorem coordinatorStep (h : p.Flowing) (hstaffed : p.Staffed) (hstep : p.CoordinatorStep q) :
    q.Flowing := by
  refine ⟨?_, hstep.queues.2.1.trans h.direct, (hstep.completionsDone hstaffed).trans h.awake,
    fun _ hlive => ?_⟩
  · rw [hstep.queues.1.1, hstep.pool]
    exact h.waiting
  · rw [hstep.pool]
    exact h.present hstep.running (hstep.signals.isCancelled_eq_false hlive)

/-- Workers go on, and the line at the completions with them. -/
theorem worked (h : p.Flowing) (hwaiting : q.completions.line.Perm q.pool.depositors)
    (hdirect : q.dispatch.line = p.dispatch.line) (hcoordinator : q.coordinator = p.coordinator)
    (hsignals : Signals p q) (hgone : q.pool.gone = p.pool.gone) : q.Flowing := by
  refine ⟨hwaiting, hdirect.trans h.direct, by rw [hcoordinator]; exact h.awake, fun hq hlive => ?_⟩
  rw [isOver, hcoordinator] at hq
  rw [hgone]
  exact h.present hq (hsignals.isCancelled_eq_false hlive)

/-- A worker leaves, which it does not do as long as the coordinator goes on and the run is not
cancelled. -/
theorem leave {id : Nat} {ending : Ending}
    (hwaiting : (p.completions.line.erase id).Perm (p.pool.depositors.erase id))
    (hdirect : p.dispatch.line = []) (hawake : p.coordinator.completionsDone = false)
    (hworkers : p.pool.workers.Nodup)
    (hwhy : p.isOver = false → (p.leave id ending).isCancelled = true) :
    (p.leave id ending).Flowing := by
  refine ⟨?_, (queues_leave p id ending).2.1.trans hdirect, ?_, fun hq hlive => ?_⟩
  · rw [completions_leave, pool_leave, Pool.depositors_without hworkers]
    exact hwaiting
  · rw [coordinator_leave]
    exact hawake
  · rw [isOver, coordinator_leave] at hq
    rw [hwhy hq] at hlive
    cases hlive

/-- A worker has an outcome and takes its turn. -/
theorem handIn (h : p.Flowing) (hworkers : p.pool.workers.Nodup) (hj : j ∈ p.pool.busy)
    (hactive : j.isActive = true) (counters : Counters) (outcome : Delivery) :
    ({ p with counters }.handIn j outcome).Flowing := by
  refine h.worked ?_ rfl rfl (.of_eq rfl (.refl _)) rfl
  refine (List.perm_append_singleton _ _).trans ?_
  refine (h.waiting.cons j.worker).trans (List.Perm.symm ?_)
  exact Pool.depositors_update_handingIn hworkers hj hactive outcome

/-- Whoever is at the head of the line enters and leaves the line. -/
theorem line_tail (h : p.Flowing) (hline : p.completions.line.head? = some j.worker) :
    p.completions.line.tail.Perm (p.pool.depositors.erase j.worker) := by
  obtain ⟨rest, hfront⟩ := List.head?_eq_some_iff.mp hline
  have herased := h.waiting.erase j.worker
  rw [hfront, List.erase_cons_head] at herased
  rwa [hfront, List.tail_cons]

/-- A worker takes a step. -/
theorem workerStep (h : p.Flowing) (howned : p.Owned dropped) (hstaffed : p.Staffed)
    (hstep : p.WorkerStep q) : q.Flowing := by
  have hworkers := howned.workers
  cases hstep with
  | @quit id hidle hcancelled =>
      exact leave (h.waiting.erase id) h.direct h.awake hworkers fun _ =>
        (signals_leave p id .done).isCancelled hcancelled
  | @dismissed id hidle hlive hexhausted =>
      refine leave (h.waiting.erase id) h.direct h.awake hworkers fun hrunning => ?_
      simp only [Queue.isExhausted, Bool.and_eq_true, beq_iff_eq] at hexhausted
      exact absurd hexhausted.2 (hstaffed.feeding hrunning)
  | took hlive hidle hitems =>
      refine h.worked ?_ rfl rfl (.of_eq rfl (.refl _)) rfl
      rw [Pool.depositors, List.filter_append, List.map_append]
      exact (List.append_nil _).symm ▸ h.waiting
  | @called j lock hworks hlock hmode =>
      refine h.worked ?_ rfl rfl (.of_eq rfl (.refl _)) rfl
      have hactive : j.isActive = true := by rw [Job.isActive, hworks.stage]
      exact (Pool.depositors_update_fetching hworkers hworks.mem hactive _ _).symm ▸ h.waiting
  | @callPanicked j _ _ hworks | @fetchPanicked j _ _ _ hworks =>
      exact leave (h.waiting.erase j.worker) h.direct h.awake hworkers fun _ =>
        isCancelled_leave_panicked hstaffed.guarded hstaffed.alert
  | @fetched j _ _ hworks | @fetchFailed j _ _ hworks | @fetchDropped j _ _ hworks =>
      have hactive : j.isActive = true := by rw [Job.isActive, hworks.stage]
      exact h.handIn hworkers hworks.mem hactive _ _
  | @handedIn j outcome hworks hopen hline hroom houtcome =>
      refine h.worked ?_ rfl rfl (.of_eq rfl (.refl _)) rfl
      exact (Pool.depositors_without hworkers j.worker .done).symm ▸ h.line_tail hline
  | @handedInLast j outcome hworks hopen hline hroom houtcome =>
      have hcancelled := hstaffed.dropped j hworks.mem outcome hworks.stage houtcome
      have htail := h.line_tail hline
      refine leave ?_ h.direct h.awake hworkers fun _ =>
        (signals_leave _ j.worker .done).isCancelled hcancelled
      -- it has left the line already
      refine List.Perm.trans ?_ htail
      rw [List.erase_of_not_mem fun hmem =>
        (Pool.nodup_depositors hworkers).not_mem_erase (htail.subset hmem)]
  | @undelivered j _ hworks hclosed =>
      refine leave (h.waiting.erase j.worker) h.direct h.awake hworkers fun hrunning => ?_
      rw [howned.live hrunning] at hclosed
      cases hclosed

/-- **Every change keeps the line in hand and the workers in their places.** -/
theorem change (h : p.Flowing) (howned : p.Owned dropped) (hstaffed : p.Staffed)
    (hchange : p.Change q) : q.Flowing := by
  cases hchange with
  | coordinated hstep => exact h.coordinatorStep hstaffed hstep
  | worked hstep => exact h.workerStep howned hstaffed hstep
  | hookReleased mode =>
      rcases exists_releaseHook p mode with heq | ⟨phase, hrunning, heq, -⟩
      · rwa [heq]
      · rw [heq]
        exact ⟨h.waiting, h.direct, h.awake, fun _ => h.present hrunning⟩
  | @fetchReleased j hj mode =>
      rw [releaseFetch]
      split
      · rename_i number hstage
        refine h.worked ?_ rfl rfl (.of_eq rfl (.refl _)) rfl
        have hactive : j.isActive = true := by rw [Job.isActive, hstage]
        exact (Pool.depositors_update_fetching howned.workers hj hactive _ _).symm ▸ h.waiting
      · exact h
  | tasksSpared hspares hlatch htokens =>
      refine h.worked ?_ (by rw [hspares.dispatch]) hspares.coordinator (.of_eq hlatch htokens)
        hspares.gone
      rw [hspares.completions, Pool.depositors, hspares.busy]
      exact h.waiting
  | renewed hspares hfinished =>
      refine ⟨?_, by rw [hspares.dispatch]; exact h.direct,
        by rw [hspares.coordinator]; exact h.awake, fun hq => ?_⟩
      · rw [hspares.completions, Pool.depositors, hspares.busy]
        exact h.waiting
      · rw [hspares.sparesCoordinator.isOver, hfinished.ended] at hq
        cases hq

/-- A new run has its workers, and nobody in line. -/
theorem launched (hlaunched : p.Launched q) : q.Flowing := by
  obtain ⟨size, capacity, -, hpool, hcompletions⟩ := hlaunched.pool
  obtain ⟨places, hdispatch⟩ := hlaunched.dispatch
  refine ⟨?_, by rw [hdispatch], by rw [hlaunched.coordinator], fun _ _ => by rw [hpool]; rfl⟩
  rw [hcompletions, hpool]
  exact .refl _

end Flowing

/-! ### At rest -/

/-- A coordinator that finds nothing to do has not drained, is not cancelled, and has nothing to
take or to dispatch. -/
theorem eq_none_of_choose? (h : p.choose? = none) :
    p.isCancelled = false ∧ p.takeCompletion? = none ∧ p.dispatchSlot? = none ∧
      p.takeReference? = none := by
  rw [choose?] at h
  split at h
  · cases h
  · split at h
    · cases h
    · rename_i hlive
      split at h
      · cases h
      · split at h
        · cases h
        · exact ⟨by simpa using hlive, ‹_›, ‹_›, h⟩

/-- A coordinator that finds no completion to take has none before it. -/
theorem completions_eq_nil_of_takeCompletion? (hawake : p.coordinator.completionsDone = false)
    (hnone : p.takeCompletion? = none) : p.completions.items = [] := by
  rw [takeCompletion?, hawake, Queue.pop?] at hnone
  cases hitems : p.completions.items with
  | nil => rfl
  | cons c rest => simp [hitems] at hnone

namespace Quiescent

/-- A coordinator that waits for neither the lock nor a hook, and is not through, is between two
events. -/
theorem phase_eq_choosing (h : p.Quiescent) (hwants : p.coordinator.phase.wants = [])
    (hhook : p.heldHook? = none) (hrunning : p.isOver = false) :
    p.coordinator.phase = .choosing := by
  have hpaused := h.isPaused hwants
  cases hphase : p.coordinator.phase with
  | choosing => rfl
  | ended ending => simp [Pipeline.isOver, hphase] at hrunning
  | inUnresolved r mode =>
      cases mode with
      | hold => simp [heldHook?, hphase] at hhook
      | _ => simp [hphase, Phase.isPaused] at hpaused
  | inProcess r mode outcome rest delivered =>
      cases mode with
      | hold => simp [heldHook?, hphase] at hhook
      | _ => simp [hphase, Phase.isPaused] at hpaused
  | _ => simp [hphase, Phase.isPaused] at hpaused

variable (hphase : p.coordinator.phase = .choosing)
include hphase

theorem choose?_eq_none (h : p.Quiescent) : p.choose? = none := by
  have hnone := h.coordinate
  rwa [coordinate?, hphase] at hnone

/-- Between two events no completion is left. -/
theorem completions_eq_nil (h : p.Quiescent) (hawake : p.coordinator.completionsDone = false) :
    p.completions.items = [] :=
  completions_eq_nil_of_takeCompletion? hawake (eq_none_of_choose? (h.choose?_eq_none hphase)).2.1

/-- Between two events a slot is filled only if the dispatch queue is full. -/
theorem dispatch_full (h : p.Quiescent) (hopen : p.dispatch.closed = false)
    (hdirect : p.dispatch.line = []) (hslot : p.coordinator.slot.isSome = true) :
    p.dispatch.hasRoom = false := by
  have hnone := (eq_none_of_choose? (h.choose?_eq_none hphase)).2.2.1
  obtain ⟨l, hslot⟩ := Option.isSome_iff_exists.mp hslot
  refine Queue.hasRoom_eq_false_of_free hdirect ?_
  rw [dispatchSlot?, hslot] at hnone
  by_contra hfree
  simp [Queue.offer, hopen, Nat.pos_of_ne_zero hfree] at hnone

/-- Between two events nothing is left in the intake unless the slot is filled. -/
theorem intake_eq_nil (h : p.Quiescent)
    (hclosed : p.coordinator.intakeDone = true → p.intake.queue.items = [])
    (hslot : p.coordinator.slot = none) : p.intake.queue.items = [] := by
  have hnone := (eq_none_of_choose? (h.choose?_eq_none hphase)).2.2.2
  cases hdone : p.coordinator.intakeDone with
  | true => exact hclosed hdone
  | false =>
      rw [takeReference?, hslot, hdone, Queue.pop?] at hnone
      cases hitems : p.intake.queue.items with
      | nil => rfl
      | cons r rest => simp [hitems] at hnone

omit hphase

/-- An idle worker has emptied the dispatch queue. -/
theorem dispatch_eq_nil (h : p.Quiescent) (hworkers : p.pool.workers.Nodup)
    (hlive : p.isCancelled = false) (hidle : p.pool.idle ≠ []) : p.dispatch.items = [] := by
  obtain ⟨id, rest, hfront⟩ := List.exists_cons_of_ne_nil hidle
  have hmem : id ∈ p.pool.idle := hfront ▸ List.mem_cons_self
  have hnone := h.work id
  have hhead : p.pool.idle.head? = some id := by rw [hfront, List.head?_cons]
  simp only [workOn?, Pool.job?_of_idle hworkers hmem, List.contains_iff_mem.mpr hmem, if_true,
    takeLocation?, hlive, hhead, Bool.false_eq_true, if_false, Queue.pop?] at hnone
  cases hitems : p.dispatch.items with
  | nil => rfl
  | cons l items => simp [hitems] at hnone

/-- Nobody waits to hand a completion in where there is room for one. -/
theorem depositors_eq_nil (h : p.Quiescent) (hworkers : p.pool.workers.Nodup)
    (hwaiting : p.completions.line.Perm p.pool.depositors) (hroom : p.completions.hasRoom = true) :
    p.pool.depositors = [] := by
  cases hline : p.completions.line with
  | nil => exact List.nil_perm.mp (hline ▸ hwaiting)
  | cons id rest =>
      -- whoever is at the head of the line could go on
      obtain ⟨j, hj, hactive, rfl⟩ :=
        Pool.mem_depositors.mp (hwaiting.subset (hline ▸ List.mem_cons_self))
      have hnone := h.work j.worker
      cases hstage : j.stage with
      | handingIn outcome =>
          simp only [workOn?, Pool.job?_of_mem hworkers hj, doJob?, hstage, deposit?] at hnone
          split at hnone
          · cases hnone
          · simp [Queue.enter?, hline, hroom] at hnone
      | _ => simp [Job.isActive, hstage] at hactive

/-- **Every busy worker has a fetch that is held**, if nobody waits for the lock or to hand a
completion in. -/
theorem isHeld (h : p.Quiescent) (hworkers : p.pool.workers.Nodup) (hturns : p.pool.turns = [])
    (hdepositors : p.pool.depositors = []) (hj : j ∈ p.pool.busy) : j.isHeld = true := by
  cases hstage : j.stage with
  | awaitingLock => exact absurd hstage (Pool.stage_ne_awaitingLock hturns hj)
  | fetching number mode =>
      rw [Job.isHeld, hstage, h.mode_eq_hold hworkers ⟨hj, hstage⟩]
  | handingIn outcome =>
      have hmem : j.worker ∈ p.pool.depositors :=
        Pool.mem_depositors.mpr ⟨j, hj, by rw [Job.isActive, hstage], rfl⟩
      rw [hdepositors] at hmem
      cases hmem

end Quiescent

end Pipeline

end SharedFetch
