import Mathlib.Algebra.Order.BigOperators.Group.List
import Mathlib.Algebra.Order.Group.Nat
import SharedFetch.Proofs.Host.Step
import SharedFetch.Proofs.Pipeline.Work

/-!
# Every event lowers the work of a host

The work of a host is that of its pipeline, of its reporter and of its operation. An operation that
is to launch a run counts for all of what it launches, and otherwise each of its phases counts more
than the one after it. So every event lowers the work, and the budget with which a host settles is
enough.

## Main results

* `Host.work_lt_of_advance`: every event of a host lowers its work.
-/

namespace SharedFetch

open Pipeline

namespace Intake

/-- The work of an intake is that of its queue and of its producers. -/
theorem work_eq (i : Intake) :
    i.work = i.queue.items.length * itemWork + (i.producers.map fun p => taskWork p.task).sum := by
  rw [work, List.sum_eq_foldr, List.foldr_map]

/-- Producers that are dismissed have no work left. -/
theorem work_dismiss_le (i : Intake) (keep : Producer → Bool) :
    { i with producers := i.producers.filter keep }.work ≤ i.work := by
  have hkept : ((i.producers.filter keep).map fun p => taskWork p.task).Sublist
      (i.producers.map fun p => taskWork p.task) :=
    List.filter_sublist.map _
  rw [work_eq, work_eq]
  exact Nat.add_le_add_left (hkept.sum_le_sum fun _ _ => Nat.zero_le _) _

/-- A producer that is started brings its work along. -/
theorem work_start (i : Intake) (label era : Nat) (task : Task) (hosted : Bool) :
    (i.start label era task hosted).work = i.work + taskWork task := by
  rw [work_eq, work_eq, start, List.map_append, List.sum_append]
  exact (Nat.add_assoc _ _ _).symm

end Intake

namespace Host

variable {h h' : Host} {op : Operation}

/-- The work of a reporter. -/
def reportingWork (h : Host) : Nat :=
  if h.reporting.isAlive then 1 else 0

theorem reportingWork_le (h : Host) : h.reportingWork ≤ 1 := by
  rw [reportingWork]
  split <;> omega

theorem work_of_operation (hop : h.operation = some op) :
    h.work = h.pipeline.work + h.reportingWork + h.phaseWork op.phase := by
  rw [work, hop]
  rfl

theorem work_of_free (hfree : h.operation = none) : h.work = h.pipeline.work + h.reportingWork := by
  rw [work, hfree]
  rfl

/-- What the operation turns to counts for it. -/
theorem work_turnTo (h : Host) (op : Operation) (phase : OperationPhase) :
    (h.turnTo op phase).work = h.pipeline.work + h.reportingWork + h.phaseWork phase :=
  rfl

/-- A run that is launched has nothing to do but to look, and to see that nothing comes. -/
theorem work_freshPipeline_le (h : Host) :
    h.freshPipeline.work ≤ h.pipeline.work + h.poolSize + 3 := by
  have hwork : h.freshPipeline.work =
      (h.pipeline.intake.producers.map fun p => Intake.taskWork p.task).sum + h.poolSize + 3 := by
    have hcoordinator : coordinatorWork {} = 3 := rfl
    have hpool : poolWork (.launch h.poolSize true) = h.poolSize := by
      simp [poolWork, Pool.launch, Pool.alive]
    rw [Pipeline.work, Intake.work_eq]
    simp only [freshPipeline, hcoordinator, hpool, List.length_nil]
    omega
  rw [hwork, Pipeline.work, Intake.work_eq]
  omega

/-- A producer that works for the host brings its work along. -/
theorem work_watched (h : Host) (op : Operation) (supply : Supply) (token : Token) :
    ({ h with
        pipeline :=
          { h.pipeline with
            intake :=
              h.pipeline.intake.start op.label h.pipeline.intake.era (.forward h.root supply none 0)
                true } }.turnTo op (.watching false)).work =
      h.pipeline.work + Intake.taskWork (.forward token supply none 0) + h.reportingWork + 6 := by
  have htask : Intake.taskWork (.forward h.root supply none 0) =
      Intake.taskWork (.forward token supply none 0) := rfl
  rw [work_turnTo, phaseWork]
  simp only [Pipeline.work, Intake.work_start, reportingWork]
  omega

/-- The run that an operation is to watch over counts for less than the operation did. -/
theorem work_openRun_lt {supply : Supply} (hop : h.operation = some op)
    (hphase : op.phase = .opening supply) (hstart : h.start = .launched h') :
    (h.openRun op supply).work < h.work := by
  have hwork := work_of_operation hop
  rw [hphase, phaseWork] at hwork
  rw [openRun, hstart]
  obtain ⟨-, rfl⟩ := eq_of_start_launched hstart
  have hfresh := h.beginLife.work_freshPipeline_le
  have hlife : h.beginLife.pipeline.work = h.pipeline.work := rfl
  have hsize : h.beginLife.poolSize = h.poolSize := rfl
  dsimp only
  rw [work_watched _ op supply h.root, pipeline_wakeReporter]
  have hreporting := reportingWork_le (wakeReporter { h.beginLife with
    pipeline := h.beginLife.freshPipeline
    running := true
    handles := ⟨true, true, true⟩
    started := h.kind = .runner })
  dsimp only at hreporting ⊢
  omega

/-- An operation turns to a phase that counts less, and all else counts as much as it did. -/
theorem work_turnTo_lt {k : Host} {phase : OperationPhase} (hop : h.operation = some op)
    (hpipeline : k.pipeline.work = h.pipeline.work) (hreporting : k.reporting = h.reporting)
    (hphase : k.phaseWork phase < h.phaseWork op.phase) : (k.turnTo op phase).work < h.work := by
  rw [work_turnTo, work_of_operation hop, hpipeline, reportingWork, reportingWork, hreporting]
  exact Nat.add_lt_add_left hphase _

theorem work_tearDown_lt (hop : h.operation = some op)
    (hphase : op.phase = .draining ∨ ∃ interrupted, op.phase = .watching interrupted) :
    (h.tearDown op).work < h.work := by
  have hcounts : h.phaseWork op.phase = 6 := by
    rcases hphase with hphase | ⟨interrupted, hphase⟩ <;> rw [hphase, phaseWork]
  obtain ⟨tokens, -, -, heq⟩ := exists_tearDown_eq h op
  rw [heq]
  exact work_turnTo_lt hop rfl rfl (by rw [hcounts, phaseWork]; decide)

/-- The end of an operation leaves it nothing to do, nor the producers that worked for the host. -/
theorem work_finishShutdown?_lt {mode mode' : HookMode} {fault fault' : Option Fault}
    (hop : h.operation = some op) (hphase : op.phase = .inShutdown mode' fault')
    (hstep : h.finishShutdown? op fault mode = some h') : h'.work < h.work := by
  have hwork := work_of_operation hop
  rw [hphase, phaseWork] at hwork
  have hdismissed : h.dismissProducers.pipeline.work ≤ h.pipeline.work := by
    have hintake := h.pipeline.intake.work_dismiss_le fun q => !q.hosted
    rw [Pipeline.work, Pipeline.work]
    exact Nat.add_le_add_right (Nat.add_le_add_right (Nat.add_le_add_right
      (Nat.add_le_add_right hintake _) _) _) _
  obtain ⟨hfree, hpipeline, hreporting⟩ : h'.operation = none ∧
      h'.pipeline.work = h.dismissProducers.pipeline.work ∧ h'.reporting = h.reporting := by
    obtain ⟨lost, results, -, ⟨-, rfl⟩ | ⟨-, rfl⟩⟩ := exists_eq_of_finishShutdown? hstep
    · exact ⟨rfl, rfl, rfl⟩
    · exact ⟨rfl, rfl, rfl⟩
  rw [work_of_free hfree, hpipeline, reportingWork, hreporting, ← reportingWork]
  omega

/-- An operation that goes on has less to do. -/
theorem Operates.work_lt (hoperates : h.Operates op h') (hop : h.operation = some op) :
    h'.work < h.work := by
  have hwork := work_of_operation hop
  cases hoperates with
  | openRefused hphase =>
      rw [hphase, phaseWork] at hwork
      rw [work_turnTo, phaseWork]
      omega
  | openBroken hphase hstart =>
      obtain ⟨-, rfl⟩ := eq_of_start_broken hstart
      have hreporting := h.beginLife.wakeReporter.reportingWork_le
      have hlife : h.beginLife.pipeline.work = h.pipeline.work := rfl
      rw [hphase, phaseWork] at hwork
      rw [work_turnTo, phaseWork, pipeline_wakeReporter]
      omega
  | openLaunched hphase hstart => exact work_openRun_lt hop hphase hstart
  | tornDown hphase => exact work_tearDown_lt hop hphase
  | coordinatorJoined hphase | workersJoined hphase | reporterJoined hphase =>
      refine work_turnTo_lt hop rfl rfl ?_
      rw [hphase, phaseWork, phaseWork]
      decide
  | shutdownCalled hphase =>
      refine work_turnTo_lt hop ?_ rfl ?_
      · dsimp only
        split <;> rfl
      · rw [hphase, phaseWork, phaseWork]
        decide
  | concluded hphase hstep => exact work_finishShutdown?_lt hop hphase hstep
  | @returned ending hphase =>
      have hreported : (h.report op.label ending).work = h.pipeline.work + h.reportingWork :=
        work_of_free rfl
      rw [hphase, phaseWork] at hwork
      rw [hreported]
      omega

/-- **Every event lowers the work of a host.** -/
theorem work_lt_of_advance {e : HostEvent} (hworkers : h.pipeline.pool.workers.Nodup)
    (hnames : h.pipeline.intake.names.Nodup) (hstep : h.advance e = some h') :
    h'.work < h.work := by
  cases happens_of_advance hstep with
  | inside _ hinside =>
      have hlt := Pipeline.work_lt_of_advance hworkers hnames hinside
      simp only [work]
      exact Nat.add_lt_add_right (Nat.add_lt_add_right hlt _) _
  | reporterQuit halive =>
      have hquit : h.reporting.quit.2.isAlive = false := by
        cases h.reporting with
        | waiting interval => cases interval <;> rfl
        | _ => rfl
      simp only [work, halive, hquit, if_true, Bool.false_eq_true, if_false]
      exact Nat.add_lt_add_right (Nat.lt_succ_self _) _
  | operated hop hoperates => exact hoperates.work_lt hop

end Host

end SharedFetch
