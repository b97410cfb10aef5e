import Mathlib.Algebra.GroupWithZero.Nat
import SharedFetch.Proofs.Intake
import SharedFetch.Proofs.Pipeline.Ownership
import SharedFetch.Proofs.Waiters

/-!
# Every event lowers the work

The work left in a pipeline is a sum over everything on its way, and each piece counts more than
what comes of it by one step. So every event lowers it: the budget of settling is enough, and no
order of events goes on for ever. For the workers and the producers it has to be known that no two
have the same name, since each of them is found by its name.

## Main results

* `CoordinatorStep.work_lt`, `WorkerStep.work_lt`: coordinator and workers lower the work.
* `work_lt_of_advance`: every event of a pipeline does.
-/

namespace SharedFetch

open Pipeline

/-! ### The intake -/

namespace Intake

variable {i j : Intake} {p : Producer} {tokens : Tokens}

/-- A producer that changes is the only one whose work does. -/
theorem work_update (hnames : i.names.Nodup) (hp : p ∈ i.producers) (queue : Queue Reference)
    (task : Task) :
    ({ i with queue }.update { p with task }).work + i.queue.items.length * itemWork +
        taskWork p.task =
      i.work + queue.items.length * itemWork + taskWork task := by
  obtain ⟨before, after, hbefore, hafter⟩ := exists_producers_update hnames hp queue task
  have hsum : ∀ (ps : List Producer) (n : Nat),
      ps.foldr (fun p n => taskWork p.task + n) n =
        ps.foldr (fun p n => taskWork p.task + n) 0 + n := by
    intro ps n
    induction ps with
    | nil => simp
    | cons p ps ih => simp only [List.foldr_cons, ih]; omega
  rw [work, work, hafter, hbefore, List.foldr_append, List.foldr_append, hsum before,
    hsum before (List.foldr _ _ (p :: after))]
  simp only [List.foldr_cons, update]
  omega

/-- A producer that ends gives up what it had to do. -/
theorem work_finish (hnames : i.names.Nodup) (hp : p ∈ i.producers) (queue : Queue Reference)
    (result : Produced) :
    ({ i with queue }.finish p result).work + i.queue.items.length * itemWork + taskWork p.task =
      i.work + queue.items.length * itemWork := by
  have hitems : (if p.era = i.era then (queue.stepOut p.id).dropSender else queue).items =
      queue.items := by
    split <;> rfl
  have hwork := work_update hnames hp
    (if p.era = i.era then (queue.stepOut p.id).dropSender else queue) (.finished result)
  rw [hitems] at hwork
  exact hwork

/-- **A producer lowers the work.** -/
theorem work_lt_of_step (hnames : i.names.Nodup) (hp : p ∈ i.producers)
    (hstep : i.step tokens p = some j) : j.work < i.work := by
  have hfinish : ∀ result, 0 < taskWork p.task → (i.finish p result).work < i.work := by
    intro result hpos
    have hwork : (i.finish p result).work + i.queue.items.length * itemWork + taskWork p.task =
        i.work + i.queue.items.length * itemWork := work_finish hnames hp i.queue result
    omega
  -- who gets in line has one reference less to queue, and who enters has one less in hand
  have hlined : ∀ task, taskWork task < taskWork p.task →
      ({ i with queue := i.queue.queueUp p.id }.update { p with task }).work < i.work := by
    intro task hlt
    have hwork := work_update hnames hp (i.queue.queueUp p.id) task
    rw [show (i.queue.queueUp p.id).items = i.queue.items from rfl] at hwork
    omega
  have hentered : ∀ {r : Reference} {queue : Queue Reference}, i.queue.enter? p.id r = some queue →
      queue.items.length = i.queue.items.length + 1 := by
    intro r queue hqueue
    rw [Queue.eq_of_enter?_eq_some hqueue, List.length_append, List.length_singleton]
  cases goesOn_of_step hstep with
  | refused htask => exact hfinish _ (by rw [htask, taskWork, itemWork]; omega)
  | @submitted r queue htask haccepts henter =>
      have hwork := work_finish hnames hp queue .accepted
      rw [hentered henter, htask, taskWork, if_pos rfl, itemWork] at hwork
      omega
  | linedUp htask =>
      refine hlined _ ?_
      rw [htask, taskWork, taskWork, if_pos rfl, if_neg Bool.false_ne_true]
      omega
  | @forwards token supply inHand sent _ htask hforwards =>
      cases hforwards with
      | cancelled | turnedAway | ended => exact hfinish _ (by rw [htask, taskWork]; omega)
      | @entered r queue hlive haccepts henter =>
          have hwork := work_update hnames hp queue (.forward token supply none (sent + 1))
          rw [hentered henter, htask, taskWork, taskWork] at hwork
          simp only [Option.isSome_some, Option.isSome_none, Bool.false_eq_true, if_true, if_false,
            itemWork] at hwork
          omega
      | pulled hlive haccepts hitems =>
          refine hlined _ ?_
          rw [htask, taskWork, taskWork, hitems, List.length_cons]
          simp only [Option.isSome_some, Option.isSome_none, Bool.false_eq_true, if_true, if_false,
            itemWork]
          omega

end Intake

/-! ### The workers -/

namespace Pool

variable {p : Pool} {j : Job} {id : Nat}

theorem poolWork_eq (p : Pool) :
    poolWork p = p.alive + (p.busy.map fun j => jobWork j.stage).sum := by
  rw [poolWork, List.sum, List.foldr_map]

/-- A job that goes on to another stage is the only one whose work changes. -/
theorem work_update (h : p.workers.Nodup) (hj : j ∈ p.busy) (stage : JobStage) :
    poolWork (p.update { j with stage }) + jobWork j.stage = poolWork p + jobWork stage := by
  obtain ⟨before, after, hbusy, -, hupdate⟩ := exists_busy_eq h hj
  have halive : (p.update { j with stage }).alive = p.alive := by
    rw [alive, alive, hupdate, hbusy]
    simp [update]
  rw [poolWork_eq, poolWork_eq, halive, hupdate, hbusy]
  simp only [List.map_append, List.map_cons, List.sum_append, List.sum_cons]
  omega

/-- A busy worker that leaves gives up its job. -/
theorem work_without (h : p.workers.Nodup) (hj : j ∈ p.busy) (ending : Ending) :
    poolWork (p.without j.worker ending) + jobWork j.stage + 1 = poolWork p := by
  obtain ⟨before, after, hbusy, hwithout, -⟩ := exists_busy_eq h hj
  have hidle : (p.without j.worker ending).idle = p.idle := by
    refine List.erase_of_not_mem fun hmem => ?_
    exact (List.nodup_append.mp h).2.2 _ hmem _ (List.mem_map_of_mem hj) rfl
  rw [poolWork_eq, poolWork_eq, alive, alive, hidle, hwithout, hbusy]
  simp only [List.map_append, List.map_cons, List.sum_append, List.sum_cons, List.length_append,
    List.length_cons]
  omega

/-- A busy worker that is idle again gives up its job. -/
theorem work_return (h : p.workers.Nodup) (hj : j ∈ p.busy) :
    poolWork { p with
        idle := p.idle ++ [j.worker]
        busy := p.busy.filter fun k => k.worker != j.worker } + jobWork j.stage =
      poolWork p := by
  obtain ⟨before, after, hbusy, hwithout, -⟩ := exists_busy_eq h hj
  have hfilter : (p.busy.filter fun k => k.worker != j.worker) = before ++ after := hwithout .done
  rw [poolWork_eq, poolWork_eq, alive, alive, hfilter, hbusy]
  simp only [List.map_append, List.map_cons, List.sum_append, List.sum_cons, List.length_append,
    List.length_cons, List.length_nil]
  omega

/-- An idle worker that leaves is one less. -/
theorem work_without_of_idle (h : p.workers.Nodup) (hid : id ∈ p.idle) (ending : Ending) :
    poolWork (p.without id ending) + 1 = poolWork p := by
  have hlength : (p.without id ending).idle.length + 1 = p.idle.length := by
    have := List.length_erase_of_mem hid
    have hpos := List.length_pos_of_mem hid
    rw [without]
    dsimp only
    omega
  rw [poolWork_eq, poolWork_eq, alive, alive, busy_without_of_mem_idle h hid]
  omega

end Pool

namespace Pipeline

variable {p q : Pipeline}

/-! ### The coordinator -/

theorem coordinatorWork_turn (c : Coordinator) (phase : Phase) :
    coordinatorWork { c with phase } + phaseWork c.phase = coordinatorWork c + phaseWork phase := by
  cases c
  simp only [coordinatorWork]
  omega

/-- A coordinator that ends gives up what it was about, and what stands in its queues. -/
theorem work_finish (p : Pipeline) (e : Ending) :
    (p.finish e).work + phaseWork p.coordinator.phase ≤ p.work := by
  have hturn := coordinatorWork_turn p.coordinator (.ended e)
  rw [phaseWork] at hturn
  simp only [work, finish, Intake.work, Queue.items_dropReceiver, Queue.items_dropSender,
    List.length_nil]
  omega

theorem work_abort (p : Pipeline) (alarm : Alarm) :
    (p.abort alarm).work + phaseWork p.coordinator.phase ≤ p.work := by
  rw [abort_eq]
  exact work_finish _ _

theorem phaseWork_pos {phase : Phase} (h : ∀ ending, phase ≠ .ended ending) :
    0 < phaseWork phase := by
  cases phase with
  | ended ending => exact absurd rfl (h ending)
  | _ => simp only [phaseWork, Intake.itemWork]; omega

/-- **The coordinator lowers the work.** -/
theorem CoordinatorStep.work_lt (h : p.CoordinatorStep q) : q.work < p.work := by
  have hpos : 0 < phaseWork p.coordinator.phase := by
    refine phaseWork_pos fun ending hended => ?_
    have hrunning := h.running
    rw [isOver, hended] at hrunning
    cases hrunning
  -- what is not the coordinator's own goes down before it ends, if at all
  have hfinish : ∀ {r : Pipeline} (e : Ending), r.coordinator.phase = p.coordinator.phase →
      r.work ≤ p.work → (r.finish e).work < p.work := by
    intro r e hphase hle
    have hwork := work_finish r e
    rw [hphase] at hwork
    omega
  have habort : ∀ {r : Pipeline} (alarm : Alarm), r.coordinator.phase = p.coordinator.phase →
      r.work ≤ p.work → (r.abort alarm).work < p.work := by
    intro r alarm hphase hle
    have hwork := work_abort r alarm
    rw [hphase] at hwork
    omega
  cases h with
  | drained | interrupted | resolvePanicked | unresolvedPanicked | processPanicked
  | unresolvedDropped | processDropped => exact hfinish _ rfl (Nat.le_refl _)
  | unresolvedFailed | processFailed | undispatchable => exact habort _ rfl (Nat.le_refl _)
  | stray hlooks hopen hitems hlost =>
      refine habort _ rfl ?_
      simp only [work, hitems, List.length_cons, completionWork]
      omega
  | stranded =>
      refine habort _ rfl ?_
      simp only [work, coordinatorWork, if_true]
      omega
  | @completed c rest references waiters hlooks hopen hitems hfound =>
      have hwaiting := (Waiters.size_of_complete? hfound).2
      simp only [work, coordinatorWork, hlooks.phase, phaseWork, waiterWork, hwaiting, hitems,
        List.length_cons, completionWork]
      omega
  | completionsEnded hlooks hopen =>
      simp only [work, coordinatorWork, hopen, if_true, Bool.false_eq_true, if_false]
      omega
  | dispatched hlooks hnone hslot =>
      simp only [work, coordinatorWork, hslot, Option.isSome_some, Option.isSome_none, if_true,
        Bool.false_eq_true, if_false, slotWork, dispatchWork, List.length_append,
        List.length_singleton]
      omega
  | took hlooks hnone hslot hopen hitems =>
      simp only [work, coordinatorWork, hlooks.phase, phaseWork, Intake.work, hitems,
        List.length_cons, Intake.itemWork]
      omega
  | intakeEnded hlooks hnone hslot hopen =>
      simp only [work, coordinatorWork, hopen, if_true, Bool.false_eq_true, if_false]
      omega
  | @admitted r l lock waiters hphase hlock htarget henroll =>
      have hwaiting := (Waiters.size_of_dispatch henroll).2
      simp only [work, coordinatorWork, hphase, phaseWork, Intake.itemWork, waiterWork, hwaiting,
        Option.isSome_some, if_true, slotWork]
      omega
  | @coalesced r l n lock waiters hphase hlock htarget henroll =>
      have hwaiting := (Waiters.size_of_coalesced henroll).2
      simp only [work, coordinatorWork, hphase, phaseWork, Intake.itemWork, waiterWork, hwaiting]
      omega
  | unresolvable hphase | calledUnresolved hphase | unresolvedSucceeded hphase | fanOutBegun hphase
  | fanOutEnded hphase | calledProcess hphase | processSucceeded hphase =>
      simp only [work, coordinatorWork, hphase, phaseWork, Intake.itemWork, waiterWork,
        List.length_cons, List.length_nil]
      omega

/-- **The workers lower the work.** -/
theorem WorkerStep.work_lt (h : p.WorkerStep q) (hworkers : p.pool.workers.Nodup) :
    q.work < p.work := by
  have hleave : ∀ (r : Pipeline) (id : Nat) (ending : Ending), (r.leave id ending).work ≤
      r.intake.work + coordinatorWork r.coordinator + dispatchWork * r.dispatch.items.length +
        poolWork (r.pool.without id ending) + completionWork * r.completions.items.length := by
    intro r id ending
    simp only [work, intake_leave, coordinator_leave, items_dispatch_leave, pool_leave,
      completions_leave, Queue.items_dropSender, Queue.items_stepOut]
    split
    · rw [List.length_nil]
      omega
    · exact Nat.le_refl _
  cases h with
  | quit hidle | dismissed hidle =>
      have hpool := Pool.work_without_of_idle hworkers hidle .done
      refine Nat.lt_of_le_of_lt (hleave _ _ _) ?_
      rw [work]
      omega
  | @took id idle l items hlive hidle hitems =>
      have hpool : poolWork { p.pool with
          idle := idle, busy := p.pool.busy ++ [⟨id, l, .awaitingLock⟩] } = poolWork p.pool + 6 := by
        rw [Pool.poolWork_eq, Pool.poolWork_eq, Pool.alive, Pool.alive, hidle]
        simp only [List.map_append, List.map_cons, List.map_nil, List.sum_append, List.sum_cons,
          List.sum_nil, List.length_append, List.length_cons, List.length_nil, jobWork]
        omega
      simp only [work, hpool, hitems, List.length_cons, dispatchWork]
      omega
  | @called j lock hworks =>
      have hpool := Pool.work_update hworkers hworks.mem
        (.fetching (p.protocol.fetchNumber j.location) (p.protocol.fetchMode j.location))
      rw [hworks.stage, jobWork, jobWork] at hpool
      simp only [work]
      omega
  | @callPanicked j lock payload hworks =>
      have hpool := Pool.work_without hworkers hworks.mem (.panicked payload)
      refine Nat.lt_of_le_of_lt (hleave _ _ _) ?_
      rw [work]
      dsimp only
      omega
  | @fetched j number value hworks =>
      have hpool := Pool.work_update hworkers hworks.mem
        (.handingIn (.content (contentOf j.location number value)))
      rw [hworks.stage, jobWork, jobWork] at hpool
      simp only [work, handIn, Queue.queueUp]
      omega
  | @fetchFailed j number cause hworks =>
      have hpool := Pool.work_update hworkers hworks.mem
        (.handingIn (.failure (.failed j.location cause)))
      rw [hworks.stage, jobWork, jobWork] at hpool
      simp only [work, handIn, Queue.queueUp]
      omega
  | @fetchPanicked j number mode payload hworks =>
      have hpool := Pool.work_without hworkers hworks.mem (.panicked payload)
      refine Nat.lt_of_le_of_lt (hleave _ _ _) ?_
      rw [work]
      dsimp only
      omega
  | @fetchDropped j number mode hworks =>
      have hpool := Pool.work_update hworkers hworks.mem
        (.handingIn (.failure (.cancelled j.location)))
      rw [hworks.stage, jobWork, jobWork] at hpool
      simp only [work, handIn, Queue.queueUp]
      omega
  | @handedIn j outcome hworks =>
      have hpool := Pool.work_return hworkers hworks.mem
      rw [hworks.stage, jobWork] at hpool
      simp only [work, List.length_append, List.length_singleton, completionWork]
      omega
  | @handedInLast j outcome hworks =>
      have hpool := Pool.work_without hworkers hworks.mem .done
      rw [hworks.stage, jobWork] at hpool
      refine Nat.lt_of_le_of_lt (hleave _ _ _) ?_
      rw [work]
      simp only [List.length_append, List.length_singleton, completionWork]
      omega
  | @undelivered j outcome hworks =>
      have hpool := Pool.work_without hworkers hworks.mem
        (if p.isCancelled then .done else .failed (.undelivered (render j.location)))
      refine Nat.lt_of_le_of_lt (hleave _ _ _) ?_
      rw [work]
      omega

/-- **Every event lowers the work.** -/
theorem work_lt_of_advance {e : Event} (hworkers : p.pool.workers.Nodup)
    (hnames : p.intake.names.Nodup) (h : p.advance e = some q) : q.work < p.work := by
  cases advances_of_advance h with
  | coordinated hstep => exact hstep.work_lt
  | worked hstep => exact hstep.work_lt hworkers
  | produced hfind hstep =>
      have hlt := Intake.work_lt_of_step hnames (List.mem_of_find?_eq_some hfind) hstep
      simp only [Pipeline.work]
      omega

end Pipeline

end SharedFetch
