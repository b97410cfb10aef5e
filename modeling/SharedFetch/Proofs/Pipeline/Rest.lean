import SharedFetch.Proofs.Pipeline.Staff
import SharedFetch.Proofs.Pipeline.Turns

/-!
# Pipelines at rest

A pipeline is *quiescent* if neither the coordinator nor a worker can go on. Then whoever is at the
head of the line for the lock is kept out by somebody who has it. A coordinator that is not in line
is between two events, or waits for a hook that is held, or is through (`Quiescent.isPaused`), and
the only fetches that have been called are held ones. If the run is cancelled besides, and nobody
outside keeps its workers waiting, then it is through (`Quiescent.finished`).

## Main results

* `Quiescent.wants_eq_nil`: the coordinator does not wait for a lock that nobody outside has.
* `Quiescent.finished`: a cancelled run that is quiescent is through.
* `Tidy.change`: a coordinator that is through has closed its queues, and the activity is that of
  the workers.
-/

namespace SharedFetch

namespace Phase

/-- Whether the coordinator is between two events, waits for a hook that is held, or is through. -/
def isPaused : Phase → Bool
  | .choosing | .inUnresolved _ .hold | .inProcess _ .hold .. | .ended _ => true
  | _ => false

end Phase

/-- Whether the worker has a location and no outcome yet. -/
def Job.isActive (j : Job) : Bool :=
  match j.stage with
  | .handingIn _ => false
  | _ => true

namespace Pool

variable {p : Pool} {j : Job}

/-- Of the jobs of some kind, a worker that leaves takes its own along. -/
theorem countP_without (h : p.workers.Nodup) (hj : j ∈ p.busy) (ending : Ending)
    (f : Job → Bool) :
    (p.without j.worker ending).busy.countP f + (f j).toNat = p.busy.countP f := by
  obtain ⟨before, after, hbusy, hwithout, -⟩ := exists_busy_eq h hj
  rw [hwithout, hbusy]
  cases hf : f j <;> simp [hf, List.countP_append]
  omega

/-- Of the jobs of some kind, only that of the worker that goes on may become one or cease to be. -/
theorem countP_update (h : p.workers.Nodup) (hj : j ∈ p.busy) (stage : JobStage)
    (f : Job → Bool) :
    (p.update { j with stage }).busy.countP f + (f j).toNat =
      p.busy.countP f + (f { j with stage }).toNat := by
  obtain ⟨before, after, hbusy, -, hupdate⟩ := exists_busy_eq h hj
  rw [hupdate, hbusy]
  cases hf : f j <;> cases hf' : f { j with stage } <;>
    simp [hf, hf', List.countP_append] <;> omega

end Pool

namespace Pipeline

variable {p q : Pipeline} {j : Job}

/-- Neither the coordinator nor a worker can go on. -/
structure Quiescent (p : Pipeline) : Prop where
  coordinate : p.coordinate? = none
  dropHook : p.dropHook? = none
  work : ∀ id, p.workOn? id = none
  dropFetch : ∀ id, p.dropFetch? id = none

/-- **Whatever can happen in a pipeline is among the candidates.** -/
theorem mem_candidates {event : Event} (h : p.advance event = some q) : event ∈ p.candidates := by
  have hbusy : ∀ {j : Job} {id : Nat}, p.pool.job? id = some j →
      j ∈ p.pool.busy ∧ j.worker = id := fun hjob =>
    ⟨List.mem_of_find?_eq_some hjob, by simpa using List.find?_some hjob⟩
  cases event with
  | coordinate | dropHook => simp [candidates]
  | work id =>
      cases hjob : p.pool.job? id with
      | some j =>
          obtain ⟨hj, rfl⟩ := hbusy hjob
          simp only [candidates, List.mem_append, List.mem_flatMap]
          exact .inl (.inl (.inr ⟨j, hj, List.mem_cons_self⟩))
      | none =>
          have hidle : id ∈ p.pool.idle := by
            by_contra hidle
            simp [advance, workOn?, hjob, hidle] at h
          simp [candidates, hidle]
  | dropFetch id =>
      cases hjob : p.pool.job? id with
      | some j =>
          obtain ⟨hj, rfl⟩ := hbusy hjob
          simp only [candidates, List.mem_append, List.mem_flatMap]
          exact .inl (.inl (.inr ⟨j, hj, List.mem_cons_of_mem _ List.mem_cons_self⟩))
      | none => simp [advance, dropFetch?, hjob] at h
  | produce id =>
      obtain ⟨intake, hintake, -⟩ := Option.map_eq_some_iff.mp h
      obtain ⟨producer, hfind, -⟩ := Option.bind_eq_some_iff.mp hintake
      have hid : producer.id = id := by simpa using List.find?_some hfind
      have hmem : id ∈ p.intake.names := hid ▸ List.mem_map_of_mem (List.mem_of_find?_eq_some hfind)
      simp [candidates, hmem]

namespace Quiescent

/-! ### The lock -/

/-- A coordinator that may have the lock goes on. -/
theorem not_granted (h : p.Quiescent) {access : Access}
    (hwants : access ∈ p.coordinator.phase.wants) : p.lock.grant? .coordinator = none := by
  have hnone := h.coordinate
  cases hphase : p.coordinator.phase with
  | resolving r | reporting r cause | fanningOut outcome rest =>
      simpa [coordinate?, hphase, withLock?] using hnone
  | _ => simp [hphase] at hwants

/-- A worker that waits to call its fetch and may have the lock goes on. -/
theorem not_granted_worker (h : p.Quiescent) (hworkers : p.pool.workers.Nodup)
    (hworks : p.Works j .awaitingLock) : p.lock.grant? (.worker j.worker) = none := by
  have hnone := h.work j.worker
  simpa [workOn?, Pool.job?_of_mem hworkers hworks.mem, doJob?, hworks.stage, withLock?] using hnone

/-- Whoever is at the head of the line is not allowed to have the lock. -/
theorem not_allowed {e : Party × Access} {rest : List (Party × Access)} (h : p.Quiescent)
    (hline : p.InLine [] false) (hworkers : p.pool.workers.Nodup)
    (hfront : p.lock.line = e :: rest) : p.lock.allows e.2 = false := by
  obtain ⟨party, access⟩ := e
  rw [← Bool.not_eq_true]
  intro hallows
  have hgrant := Lock.isSome_grant? hfront hallows
  have hmem : (party, access) ∈ p.turns := by
    have := hline.line.subset (hfront ▸ List.mem_cons_self)
    rwa [List.append_nil] at this
  rcases List.mem_append.mp hmem with hown | hturn
  · obtain ⟨access', hwants, heq⟩ := List.mem_map.mp hown
    cases heq
    rw [h.not_granted hwants] at hgrant
    cases hgrant
  · obtain ⟨j, hj, hstage, heq⟩ := Pool.exists_of_mem_turns hturn
    cases heq
    rw [h.not_granted_worker hworkers ⟨hj, hstage⟩] at hgrant
    cases hgrant

/-- Nobody waits for a lock that is allowed to everybody in line. -/
theorem turns_eq_nil (h : p.Quiescent) (hline : p.InLine [] false) (hworkers : p.pool.workers.Nodup)
    (hallows : ∀ e ∈ p.turns, p.lock.allows e.2 = true) : p.turns = [] := by
  have hperm := hline.line
  rw [List.append_nil] at hperm
  cases hfront : p.lock.line with
  | nil =>
      rw [hfront] at hperm
      exact List.nil_perm.mp hperm
  | cons e rest =>
      have hblocked := h.not_allowed hline hworkers hfront
      rw [hallows e (hperm.subset (hfront ▸ List.mem_cons_self))] at hblocked
      cases hblocked

/-- Workers do not wait for a lock that neither the coordinator nor an outsider writes under. -/
theorem turns_eq_nil_of_wants (h : p.Quiescent) (hline : p.InLine [] false)
    (hworkers : p.pool.workers.Nodup) (hwants : p.coordinator.phase.wants = [])
    (hwrites : p.coordinator.phase.writes = false)
    (hfree : p.pool.turns ≠ [] → p.lock.outsider ≠ some .write) : p.pool.turns = [] := by
  have hturns : p.turns = p.pool.turns := by rw [turns, hwants]; rfl
  rw [← hturns]
  refine h.turns_eq_nil hline hworkers fun e he => ?_
  -- only workers are in line, and they want to read
  rw [hturns] at he
  obtain ⟨j, -, -, rfl⟩ := Pool.exists_of_mem_turns he
  have hwriting : p.lock.writing = false := by rw [hline.writing, hwrites]; rfl
  simpa [Lock.allows, hwriting] using hfree (List.ne_nil_of_mem he)

/-- **The coordinator does not wait for a lock that nobody outside has.** -/
theorem wants_eq_nil (h : p.Quiescent) (hline : p.InLine [] false) (hworkers : p.pool.workers.Nodup)
    (houtsider : p.lock.outsider = none) : p.coordinator.phase.wants = [] := by
  cases hwrites : p.coordinator.phase.writes with
  | true =>
      cases hphase : p.coordinator.phase with
      | resolving | reporting | fanningOut => simp [hphase] at hwrites
      | _ => rfl
  | false =>
      have hturns : p.turns = [] := by
        refine h.turns_eq_nil hline hworkers fun e _ => ?_
        have hwriting : p.lock.writing = false := by rw [hline.writing, hwrites]; rfl
        cases e.2 <;> simp [Lock.allows, hwriting, houtsider]
      simpa using (List.append_eq_nil_iff.mp hturns).1

/-- A coordinator that does not wait for the lock is paused. -/
theorem isPaused (h : p.Quiescent) (hwants : p.coordinator.phase.wants = []) :
    p.coordinator.phase.isPaused = true := by
  have hnone := h.coordinate
  cases hphase : p.coordinator.phase with
  | choosing | ended ending => rfl
  | resolving r | reporting r cause | fanningOut outcome rest => simp [hphase] at hwants
  | inUnresolved r mode =>
      cases mode with
      | hold => rfl
      | _ => simp [coordinate?, hphase, finishUnresolved?] at hnone
  | delivering outcome rest delivered => simp [coordinate?, hphase] at hnone
  | inProcess r mode outcome rest delivered =>
      cases mode with
      | hold => rfl
      | _ => simp [coordinate?, hphase, finishProcess?] at hnone

/-- A fetch that is not over is held. -/
theorem mode_eq_hold {number : Nat} {mode : FetchMode} (h : p.Quiescent)
    (hworkers : p.pool.workers.Nodup) (hworks : p.Works j (.fetching number mode)) :
    mode = .hold := by
  have hnone := h.work j.worker
  simp only [workOn?, Pool.job?_of_mem hworkers hworks.mem, doJob?, hworks.stage] at hnone
  cases mode with
  | hold => rfl
  | _ => simp [finishFetch?] at hnone

/-! ### Cancelled runs -/

/-- A coordinator that is cancelled and paused is through. -/
theorem isOver (h : p.Quiescent) (hcancelled : p.isCancelled = true)
    (hpaused : p.coordinator.phase.isPaused = true) : p.isOver = true := by
  have hnone := h.coordinate
  have hkept := h.dropHook
  cases hphase : p.coordinator.phase with
  | ended ending => rw [Pipeline.isOver, hphase]
  | choosing =>
      rw [coordinate?, hphase] at hnone
      simp only [choose?, hcancelled, if_true] at hnone
      split at hnone <;> cases hnone
  | inUnresolved r mode | inProcess r mode outcome rest delivered =>
      simp [dropHook?, hcancelled, hphase] at hkept
  | _ =>
      rw [hphase] at hpaused
      cases hpaused

/-- Idle workers leave a cancelled run. -/
theorem idle_eq_nil (h : p.Quiescent) (hcancelled : p.isCancelled = true)
    (hworkers : p.pool.workers.Nodup) : p.pool.idle = [] := by
  refine List.eq_nil_iff_forall_not_mem.mpr fun id hid => ?_
  have hnone := h.work id
  simp [workOn?, Pool.job?_of_idle hworkers hid, hid, takeLocation?, hcancelled] at hnone

/-- Busy workers leave a cancelled run whose completions nobody takes, unless they wait for the
lock. -/
theorem busy_eq_nil (h : p.Quiescent) (hcancelled : p.isCancelled = true)
    (hworkers : p.pool.workers.Nodup) (hturns : p.pool.turns = [])
    (hclosed : p.completions.closed = true) : p.pool.busy = [] := by
  refine List.eq_nil_iff_forall_not_mem.mpr fun j hj => ?_
  have hjob := Pool.job?_of_mem hworkers hj
  cases hstage : j.stage with
  | awaitingLock => exact absurd hstage (Pool.stage_ne_awaitingLock hturns hj)
  | fetching number mode =>
      have hnone := h.dropFetch j.worker
      simp [dropFetch?, hcancelled, hjob, hstage] at hnone
  | handingIn outcome =>
      have hnone := h.work j.worker
      simp [workOn?, hjob, doJob?, hstage, deposit?, hclosed] at hnone

/-- **A cancelled run that is quiescent is through**, if nobody outside keeps its workers
waiting. -/
theorem finished (h : p.Quiescent) (hcancelled : p.isCancelled = true)
    (hpaused : p.coordinator.phase.isPaused = true) (hline : p.InLine [] false)
    (hworkers : p.pool.workers.Nodup)
    (hfree : p.pool.turns ≠ [] → p.lock.outsider ≠ some .write)
    (hclosed : p.isOver = true → p.completions.closed = true) : p.Finished := by
  have hover := h.isOver hcancelled hpaused
  obtain ⟨ending, hphase⟩ := exists_of_isOver hover
  have hturns :=
    h.turns_eq_nil_of_wants hline hworkers (by rw [hphase]; rfl) (by rw [hphase]; rfl) hfree
  have hbusy := h.busy_eq_nil hcancelled hworkers hturns (hclosed hover)
  exact ⟨hover, by simp [Pool.isGone, h.idle_eq_nil hcancelled hworkers, hbusy]⟩

end Quiescent

/-! ### What is closed and who is active -/

/-- A coordinator that ends closes its queues. -/
theorem CoordinatorStep.closed (h : p.CoordinatorStep q) (hover : q.isOver = true) :
    q.intake.queue.closed = true ∧ q.completions.closed = true := by
  cases h with
  | stray | stranded | undispatchable | unresolvedFailed | processFailed =>
      rw [abort_eq]
      simp [Pipeline.finish]
  | drained | interrupted | resolvePanicked | unresolvedPanicked | processPanicked
  | unresolvedDropped | processDropped => simp [Pipeline.finish]
  | completionsEnded hlooks | dispatched hlooks | intakeEnded hlooks =>
      simp [Pipeline.isOver, hlooks.phase] at hover
  | _ => cases hover

theorem CoordinatorStep.activity (h : p.CoordinatorStep q) : q.activity = p.activity := by
  cases h with
  | stray | stranded | undispatchable | unresolvedFailed | processFailed => rw [abort_eq]; rfl
  | _ => rfl

theorem WorkerStep.closed (h : p.WorkerStep q) : q.completions.closed = p.completions.closed := by
  cases h with
  | quit | dismissed | callPanicked | fetchPanicked | handedInLast | undelivered =>
      simp [Queue.stepOut, Queue.dropSender]
  | took | called | fetched | fetchFailed | fetchDropped | handedIn => rfl

/-- A coordinator that is through has closed its queues, and as many fetches are in progress as
there are workers with a location and no outcome. -/
structure Tidy (p : Pipeline) : Prop where
  intake : p.isOver = true → p.intake.queue.closed = true
  completions : p.isOver = true → p.completions.closed = true
  active : p.activity.active = p.pool.busy.countP Job.isActive

namespace Tidy

/-- The coordinator takes a step. -/
theorem coordinatorStep (h : p.Tidy) (hstep : p.CoordinatorStep q) : q.Tidy := by
  refine ⟨fun hover => (hstep.closed hover).1, fun hover => (hstep.closed hover).2, ?_⟩
  rw [hstep.activity, hstep.pool]
  exact h.active

/-- Nothing happens to the coordinator and the queues. -/
theorem sameTasks (h : p.Tidy) (hcoordinator : q.coordinator = p.coordinator)
    (hintake : q.intake.queue.closed = p.intake.queue.closed)
    (hcompletions : q.completions.closed = p.completions.closed)
    (hactive : q.activity.active = q.pool.busy.countP Job.isActive) : q.Tidy := by
  have hover : q.isOver = p.isOver := by rw [Pipeline.isOver, Pipeline.isOver, hcoordinator]
  refine ⟨fun hq => ?_, fun hq => ?_, hactive⟩
  · rw [hintake]
    exact h.intake (hover ▸ hq)
  · rw [hcompletions]
    exact h.completions (hover ▸ hq)

/-- A worker goes on to another stage. -/
theorem active_update {stage : JobStage} (h : p.Tidy) (hworkers : p.pool.workers.Nodup)
    (hj : j ∈ p.pool.busy) {active : Nat}
    (hactive : active + j.isActive.toNat =
      p.activity.active + ({ j with stage } : Job).isActive.toNat) :
    active = (p.pool.update { j with stage }).busy.countP Job.isActive := by
  have hcount := Pool.countP_update hworkers hj stage Job.isActive
  have := h.active
  omega

/-- A worker is gone, or idle again. -/
theorem active_without (h : p.Tidy) (hworkers : p.pool.workers.Nodup) (hj : j ∈ p.pool.busy)
    {active : Nat} (hactive : active + j.isActive.toNat = p.activity.active) (ending : Ending) :
    active = (p.pool.without j.worker ending).busy.countP Job.isActive := by
  have hcount := Pool.countP_without hworkers hj ending Job.isActive
  have := h.active
  omega

/-- Whoever is active is counted. -/
theorem leave_add_one (h : p.Tidy) (hj : j ∈ p.pool.busy) (hactive : j.isActive = true) :
    p.activity.leave.active + 1 = p.activity.active := by
  have hpos : 0 < p.pool.busy.countP Job.isActive := List.countP_pos_iff.mpr ⟨j, hj, hactive⟩
  rw [← h.active] at hpos
  simp only [Activity.leave]
  omega

/-- A worker takes a step. -/
theorem workerStep (h : p.Tidy) (hworkers : p.pool.workers.Nodup) (hstep : p.WorkerStep q) :
    q.Tidy := by
  refine h.sameTasks hstep.coordinator (by rw [hstep.intake]) hstep.closed ?_
  cases hstep with
  | quit hidle | dismissed hidle =>
      rw [activity_leave, pool_leave, Pool.busy_without_of_mem_idle hworkers hidle]
      exact h.active
  | took =>
      simp only [Activity.enter, List.countP_append, h.active]
      rfl
  | @called j _ hworks =>
      refine h.active_update hworkers hworks.mem ?_
      simp [Job.isActive, hworks.stage]
  | @callPanicked j _ _ hworks | @fetchPanicked j _ _ _ hworks =>
      have hactive : j.isActive = true := by rw [Job.isActive, hworks.stage]
      rw [activity_leave, pool_leave]
      refine h.active_without hworkers hworks.mem ?_ _
      rw [hactive]
      exact h.leave_add_one hworks.mem hactive
  | @fetched j _ _ hworks | @fetchFailed j _ _ hworks | @fetchDropped j _ _ hworks =>
      have hactive : j.isActive = true := by rw [Job.isActive, hworks.stage]
      refine h.active_update hworkers hworks.mem ?_
      rw [hactive]
      exact h.leave_add_one hworks.mem hactive
  | @handedIn j _ hworks =>
      refine h.active_without hworkers hworks.mem ?_ .done
      simp [Job.isActive, hworks.stage]
  | @handedInLast j _ hworks | @undelivered j _ hworks =>
      rw [activity_leave, pool_leave]
      refine h.active_without hworkers hworks.mem ?_ _
      simp [Job.isActive, hworks.stage]

/-- **Every change leaves things tidy.** -/
theorem change (h : p.Tidy) (hworkers : p.pool.workers.Nodup) (hchange : p.Change q) : q.Tidy := by
  cases hchange with
  | coordinated hstep => exact h.coordinatorStep hstep
  | worked hstep => exact h.workerStep hworkers hstep
  | hookReleased mode =>
      rcases exists_releaseHook p mode with heq | ⟨phase, hrunning, heq, hphase⟩
      · rw [heq]
        exact h
      · rw [heq]
        have hgoing : (p.turnTo phase).isOver = false := by
          rcases hphase with ⟨r, -, rfl⟩ | ⟨r, outcome, rest, delivered, -, rfl⟩ <;> rfl
        refine ⟨fun hover => ?_, fun hover => ?_, h.active⟩
        · rw [hgoing] at hover
          cases hover
        · rw [hgoing] at hover
          cases hover
  | @fetchReleased j hj mode =>
      rw [releaseFetch]
      split
      · rename_i number hstage
        refine h.sameTasks rfl rfl rfl (h.active_update hworkers hj ?_)
        simp [Job.isActive, hstage]
      · exact h
  | tasksSpared hspares | renewed hspares =>
      refine h.sameTasks hspares.coordinator hspares.intake.closed (by rw [hspares.completions]) ?_
      rw [hspares.activity, hspares.busy]
      exact h.active

/-- A new run is tidy. -/
theorem launched (h : p.Tidy) (hlaunched : p.Launched q) : q.Tidy := by
  have hrunning : q.isOver = false := by rw [Pipeline.isOver, hlaunched.coordinator]
  obtain ⟨size, capacity, -, hpool, -⟩ := hlaunched.pool
  refine ⟨fun hover => ?_, fun hover => ?_, ?_⟩
  · rw [hrunning] at hover
    cases hover
  · rw [hrunning] at hover
    cases hover
  · rw [hlaunched.activity, h.active, hlaunched.finished.nobody.2, hpool]
    rfl

end Tidy

end Pipeline

end SharedFetch
