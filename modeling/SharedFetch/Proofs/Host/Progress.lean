import SharedFetch.Proofs.Host.Integrity
import SharedFetch.Proofs.Host.SingleOwnership
import SharedFetch.Proofs.Host.Step
import SharedFetch.Proofs.Host.Stop
import SharedFetch.Proofs.Pipeline.Flow

/-!
# No deadlock and no idle capacity

A run is launched with all its workers and with places in its queues, and has them until it is torn
down (`Equipped`). A coordinator that is through was cancelled, has panicked, or has left nothing
behind. The producers that work for the host may go on for as long as the run is not cancelled
(`Attended`). With what `Flowing` says of the lines it follows that in a host that has settled
nobody waits for anything but a fetch or a place: neither for somebody who waits in turn, nor while
a worker is idle.

Only somebody outside who has the protocol lock can keep the pipeline from going on.

## Main results

* `Host.Step.continues_or_launches`: within a run workers, places and signals are kept.
* `Chronicle.no_idle_capacity`: where the coordinator is not kept from the lock, a settled host
  makes use of every worker and every place.
-/

namespace SharedFetch

/-- A queue that can be made has places. -/
theorem Queue.pos_of_check {capacity : Nat} (h : Queue.check capacity = .ok ()) : 0 < capacity := by
  rw [check] at h
  split at h
  · cases h
  · omega

namespace Pipeline

variable {p q : Pipeline}

/-- Within a run cancelling is for good, whatever happens. -/
theorem Change.signals (h : p.Change q) (hlatch : p.Finished → p.SameLatch q) : p.Signals q := by
  cases h with
  | coordinated hstep => exact hstep.signals
  | worked hstep => exact hstep.signals
  | hookReleased mode =>
      rw [releaseHook_eq]
      exact .of_eq rfl (.refl _)
  | fetchReleased hj mode =>
      rw [releaseFetch_eq]
      exact .of_eq rfl (.refl _)
  | tasksSpared hspares hlatch htokens => exact .of_eq hlatch htokens
  | renewed hspares hfinished =>
      exact .of_eq (hlatch hfinished).latch (hlatch hfinished).tokens

/-! ### What is left behind -/

/-- Nothing is left, and nothing can come. -/
structure Cleared (p : Pipeline) : Prop where
  waiters : p.coordinator.waiters.isEmpty = true
  slot : p.coordinator.slot = none
  items : p.intake.queue.items = []
  senders : p.intake.queue.senders = 0

/-- The coordinator goes on, was cancelled, has panicked, or has left nothing behind. -/
def EndsClear (p : Pipeline) : Prop :=
  p.isOver = true → p.isCancelled = true ∨
    (∃ payload, p.coordinator.phase = .ended (.panicked payload)) ∨ p.Cleared

/-- A coordinator that ends by itself has seen the end of the intake. -/
theorem CoordinatorStep.endsClear (h : p.CoordinatorStep q) (halert : p.Alert)
    (hclosed : p.coordinator.intakeDone = true →
      p.intake.queue.items = [] ∧ p.intake.queue.senders = 0) : q.EndsClear := by
  intro hover
  refine (h.ended halert hover).imp_right (Or.imp_right ?_)
  rintro ⟨hdrained, rfl⟩
  simp only [isDrained, Bool.and_eq_true, Option.isNone_iff_eq_none] at hdrained
  obtain ⟨⟨hdone, hempty⟩, hslot⟩ := hdrained
  obtain ⟨-, hsenders⟩ := hclosed hdone
  exact ⟨hempty, hslot, rfl, by simpa [finish] using hsenders⟩

namespace EndsClear

/-- The coordinator stays where it is, and nothing comes that could not come. -/
theorem kept (h : p.EndsClear) (hsignals : p.Signals q)
    (hcoordinator : q.coordinator = p.coordinator) (hgrows : p.intake.Grows q.intake) :
    q.EndsClear := by
  intro hover
  rw [isOver, hcoordinator] at hover
  rw [hcoordinator]
  refine (h hover).imp hsignals.isCancelled (Or.imp_right fun hcleared => ?_)
  obtain ⟨new, hitems, hnew⟩ := hgrows.items
  refine ⟨by rw [hcoordinator]; exact hcleared.waiters, by rw [hcoordinator]; exact hcleared.slot,
    ?_, hgrows.senders hcleared.senders⟩
  rw [hitems, hcleared.items, hnew (.inl hcleared.senders), List.append_nil]

/-- **What a coordinator that is through has left behind stays so.** -/
theorem change (h : p.EndsClear) (halert : p.Alert)
    (hclosed : p.coordinator.intakeDone = true →
      p.intake.queue.items = [] ∧ p.intake.queue.senders = 0)
    (hsignals : p.Signals q) (hchange : p.Change q) : q.EndsClear := by
  have hsame : p.intake.Grows p.intake := .of_eq rfl rfl (Nat.le_refl _) rfl
  cases hchange with
  | coordinated hstep => exact hstep.endsClear halert hclosed
  | worked hstep => exact h.kept hsignals hstep.coordinator (hstep.intake ▸ hsame)
  | hookReleased mode =>
      rcases exists_releaseHook p mode with heq | ⟨phase, -, heq, hphase⟩
      · rwa [heq]
      · rw [heq]
        intro hover
        rcases hphase with ⟨r, -, rfl⟩ | ⟨r, outcome, rest, delivered, -, rfl⟩ <;> cases hover
  | fetchReleased hj mode =>
      rw [releaseFetch] at hsignals ⊢
      split at hsignals
      · exact h.kept hsignals rfl hsame
      · exact h
  | tasksSpared hspares | renewed hspares =>
      exact h.kept hsignals hspares.coordinator hspares.intake

end EndsClear

end Pipeline

namespace Host

open Pipeline

variable {h h' : Host} {op : Operation}

/-! ### Runs that go on, and runs that are launched -/

/-- Something happens that launches no run. -/
structure Continues (h h' : Host) : Prop where
  change : h.pipeline.Change h'.pipeline
  settings : h'.settings = h.settings
  running : h'.running = true → h.running = true
  signals : h'.running = true → h.pipeline.Signals h'.pipeline

/-- A run is launched, with its workers and with places in its queues. -/
structure Launches (h h' : Host) : Prop where
  launched : h.pipeline.Launched h'.pipeline
  completions : 0 < h'.pipeline.completions.capacity
  dispatch : 0 < h'.pipeline.dispatch.capacity
  pool : h'.pipeline.pool = .launch h'.poolSize true

/-- A run is launched only if its queues have places. -/
theorem places_of_start_launched (hstart : h.start = .launched h') :
    0 < h.settings.dispatchCapacity ∧ 0 < h.settings.completionCapacity := by
  have hchecks := checkQueues_of_start_launched hstart
  simp only [checkQueues, bind, Except.bind] at hchecks
  split at hchecks
  · cases hchecks
  · split at hchecks
    · cases hchecks
    · rename_i hdispatch
      exact ⟨Queue.pos_of_check hdispatch, Queue.pos_of_check hchecks⟩

/-- The hook for the end of a run has answered, and the producers that worked for the host are
dismissed. -/
theorem intake_of_finishShutdown? {mode : HookMode} {fault : Option Fault}
    (hstep : h.finishShutdown? op fault mode = some h') :
    h'.pipeline.intake = h.dismissProducers.pipeline.intake ∧ h'.settings = h.settings ∧
      h'.running = h.running := by
  obtain ⟨lost, results, -, ⟨-, rfl⟩ | ⟨-, rfl⟩⟩ := exists_eq_of_finishShutdown? hstep
  · exact ⟨rfl, rfl, rfl⟩
  · exact ⟨rfl, rfl, rfl⟩

theorem intake_callShutdown (h : Host) (op : Operation) (fault : Option Fault) :
    (h.callShutdown op fault).pipeline.intake = h.pipeline.intake := by
  simp only [callShutdown, turnTo]
  split <;> rfl

/-- **Whatever happens to a host continues its run or launches one.** -/
theorem Step.continues_or_launches (hstep : h.Step h') (horder : h.Orderly)
    (hchange : h.pipeline.Change h'.pipeline ∨ h.pipeline.Launched h'.pipeline) :
    h.Continues h' ∨ h.Launches h' := by
  have hcontinues : h'.pipeline.intake.era = h.pipeline.intake.era → h'.settings = h.settings →
      (h'.running = true → h.running = true ∧ h.pipeline.SameLatch h'.pipeline) →
      h.Continues h' ∨ h.Launches h' := by
    intro hera hsettings hrun
    refine .inl ⟨hchange.resolve_right fun hlaunched => ?_, hsettings, fun hr => (hrun hr).1,
      fun hr => .of_eq (hrun hr).2.latch (hrun hr).2.tokens⟩
    have := hlaunched.era
    omega
  cases hstep with
  | within hkeeps hlatch hintake =>
      have hchange := change_of_turn hintake hchange
      exact .inl ⟨hchange, hkeeps.settings, fun hr => hkeeps.running ▸ hr,
        fun _ => hchange.signals hlatch⟩
  | launched hfree hstart =>
      have hlaunched := launched_of_start_launched hstart rfl hchange
      obtain ⟨hdispatch, hcompletions⟩ := places_of_start_launched hstart
      obtain ⟨-, rfl⟩ := eq_of_start_launched hstart
      exact .inr ⟨hlaunched, hcompletions, hdispatch, rfl⟩
  | @openLaunched op supply h'' hop hphase hstart =>
      have hlaunched : h.pipeline.Launched (h.openRun op supply).pipeline :=
        launched_of_start_launched hstart (by simp [openRun, hstart, turnTo, Intake.start]) hchange
      obtain ⟨hdispatch, hcompletions⟩ := places_of_start_launched hstart
      refine .inr ⟨hlaunched, ?_, ?_, ?_⟩ <;> rw [openRun, hstart] <;>
        obtain ⟨-, rfl⟩ := eq_of_start_launched hstart <;>
        simp only [turnTo, pipeline_wakeReporter]
      · exact hcompletions
      · exact hdispatch
      · rw [poolSize, (keeps_wakeReporter _).settings]
        rfl
  | broken hfree hstart =>
      obtain ⟨hidle, rfl⟩ := eq_of_start_broken hstart
      refine hcontinues rfl rfl fun hrunning => ?_
      cases hidle.symm.trans hrunning
  | openBroken hop hphase hstart =>
      obtain ⟨hidle, rfl⟩ := eq_of_start_broken hstart
      refine hcontinues (by simp [turnTo, beginLife]) (keeps_wakeReporter h.beginLife).settings
        fun hrunning => ?_
      simp only [turnTo, running_wakeReporter] at hrunning
      cases hidle.symm.trans hrunning
  | stopped hfree hrunning label | tornDown hop hphase =>
      obtain ⟨tokens, htokens, -, heq⟩ := exists_tearDown_eq h _
      rw [heq]
      rw [heq] at hcontinues
      exact hcontinues rfl rfl fun hrunning => ⟨hrunning, rfl, htokens⟩
  | reporterJoined hop hphase hgone =>
      refine hcontinues rfl rfl fun hrunning => ?_
      cases hrunning
  | shutdownCalled hop hphase hlock =>
      have hidle := horder.fits _ hop
      rw [hphase] at hidle
      refine hcontinues (by rw [intake_callShutdown]) rfl fun hrunning => ?_
      cases hidle.symm.trans hrunning
  | concluded hop hphase hstep =>
      have hidle := horder.fits _ hop
      rw [hphase] at hidle
      obtain ⟨hintake, hsettings, hsame⟩ := intake_of_finishShutdown? hstep
      refine hcontinues (by rw [hintake]; rfl) hsettings fun hrunning => ?_
      cases hidle.symm.trans (hsame.symm.trans hrunning)
  | idled | drained | opening | openRefused | coordinatorJoined | workersJoined | returned | supplied
  | interrupted | shutdownAnswered =>
      exact hcontinues rfl rfl fun hrunning => ⟨hrunning, .of_eq rfl rfl⟩

/-! ### Runs -/

/-- A run has its workers and places, and if its coordinator is through, then for a reason. -/
structure Equipped (h : Host) : Prop where
  completions : 0 < h.pipeline.completions.capacity
  dispatch : 0 < h.pipeline.dispatch.capacity
  workers : h.pipeline.pool.alive + h.pipeline.pool.gone.length = h.poolSize
  clear : h.pipeline.EndsClear

namespace Equipped

theorem continues (hequipped : h.Equipped) (hcontinues : h.Continues h') {r : Record}
    (hholds : r.Holds h.pipeline) (halert : h.pipeline.Alert) (hrunning : h'.running = true) :
    h'.Equipped := by
  obtain ⟨hcompletions, hdispatch⟩ := hcontinues.change.capacities
  refine ⟨hcompletions ▸ hequipped.completions, hdispatch ▸ hequipped.dispatch, ?_,
    hequipped.clear.change halert hholds.closed (hcontinues.signals hrunning) hcontinues.change⟩
  rw [hcontinues.change.headcount hholds.owned.workers, hequipped.workers, poolSize, poolSize,
    hcontinues.settings]

theorem launches (hlaunches : h.Launches h') : h'.Equipped := by
  refine ⟨hlaunches.completions, hlaunches.dispatch, ?_, fun hover => ?_⟩
  · rw [hlaunches.pool]
    simp [Pool.launch, Pool.alive]
  · rw [isOver, hlaunches.launched.coordinator] at hover
    cases hover

end Equipped

/-! ### Producers -/

/-- Whether producers that work for the host may go on in a phase of its operation, or else have
nothing to go on for since the run is cancelled. -/
def Tends (h : Host) : OperationPhase → Prop
  | .watching _ => True
  | .joiningCoordinator | .joiningWorkers _ | .joiningReporter _ | .awaitingLock _
  | .inShutdown .. => h.pipeline.isCancelled = true
  | .opening _ | .draining | .returning _ => False

/-- Those who stand in line at the intake are those who wait, and if somebody works for the host,
then there is an operation that cares. -/
structure Attended (h : Host) : Prop where
  lined : h.pipeline.intake.Lined
  tended : (∃ q ∈ h.pipeline.intake.producers, q.hosted = true) →
    ∃ op, h.operation = some op ∧ h.Tends op.phase

namespace Attended

/-- No producer is kept waiting by the host, as long as the run is not cancelled. -/
theorem mayProduce (hattended : h.Attended) (hlive : h.pipeline.isCancelled = false) (id : Nat) :
    h.mayProduce id = true := by
  rw [Host.mayProduce, List.all_eq_true]
  intro q hq
  cases hhosted : q.hosted with
  | false => simp
  | true =>
      obtain ⟨op, hop, htends⟩ := hattended.tended ⟨q, hq, hhosted⟩
      cases hphase : op.phase with
      | watching interrupted =>
          obtain ⟨label, watches, phase⟩ := op
          obtain rfl : phase = .watching interrupted := hphase
          simp [hop]
      | opening | draining | returning =>
          rw [hphase] at htends
          exact htends.elim
      | _ =>
          rw [hphase] at htends
          cases hlive.symm.trans htends

/-- Without an operation nobody works for the host. -/
theorem not_hosted (hattended : h.Attended) (hfree : h.operation = none) :
    ¬ ∃ q ∈ h.pipeline.intake.producers, q.hosted = true := by
  intro hhosted
  obtain ⟨op, hop, -⟩ := hattended.tended hhosted
  cases hfree.symm.trans hop

/-- If somebody works for the host, then its operation cares. -/
theorem tends (hattended : h.Attended) {phase : OperationPhase} (hop : h.operation = some op)
    (hphase : op.phase = phase) (hhosted : ∃ q ∈ h.pipeline.intake.producers, q.hosted = true) :
    h.Tends phase := by
  obtain ⟨op', hop', htends⟩ := hattended.tended hhosted
  obtain rfl := Option.some.inj (hop.symm.trans hop')
  exact hphase ▸ htends

/-- Nothing happens to the intake. -/
theorem kept (hattended : h.Attended) (hintake : h'.pipeline.intake = h.pipeline.intake)
    (htended : (∃ q ∈ h.pipeline.intake.producers, q.hosted = true) →
      ∃ op, h'.operation = some op ∧ h'.Tends op.phase) : h'.Attended :=
  ⟨hintake ▸ hattended.lined, hintake ▸ htended⟩

/-- **Every step of a host keeps this.** -/
theorem step (hattended : h.Attended) (horder : h.Orderly) {ends : List Nat}
    (haccounted : h.pipeline.intake.Accounted ends) (htidy : h.pipeline.Tidy)
    (hchange : h.pipeline.Change h'.pipeline ∨ h.pipeline.Launched h'.pipeline)
    (hstep : h.Step h') : h'.Attended := by
  have heras : ∀ q ∈ h.pipeline.intake.producers, q.era ≤ h.pipeline.intake.era :=
    fun q hq => (haccounted.producers q hq).1
  cases hstep with
  | within hkeeps hlatch hintake =>
      refine ⟨hattended.lined.turn haccounted.names hintake, fun hhosted => ?_⟩
      obtain ⟨op, hop, htends⟩ := hattended.tended (hintake.exists_hosted hhosted)
      refine ⟨op, hkeeps.operation.trans hop, ?_⟩
      have hsignals := (change_of_turn hintake hchange).signals hlatch
      cases hphase : op.phase with
      | watching => trivial
      | opening | draining | returning =>
          rw [hphase] at htends
          exact htends
      | _ =>
          rw [hphase] at htends
          exact hsignals.isCancelled htends
  | launched hfree hstart =>
      obtain ⟨-, rfl⟩ := eq_of_start_launched hstart
      exact ⟨.launched _ heras, fun hhosted => absurd hhosted (hattended.not_hosted hfree)⟩
  | @openLaunched op supply h'' hop hphase hstart =>
      rw [openRun, hstart]
      obtain ⟨-, rfl⟩ := eq_of_start_launched hstart
      refine ⟨?_, fun _ => ⟨_, rfl, trivial⟩⟩
      simp only [turnTo, pipeline_wakeReporter]
      exact Intake.Lined.start (.launched _ heras) rfl _ _ _
  | broken hfree hstart =>
      obtain ⟨-, rfl⟩ := eq_of_start_broken hstart
      exact hattended.kept rfl fun hhosted => absurd hhosted (hattended.not_hosted hfree)
  | openBroken hop hphase hstart =>
      obtain ⟨-, rfl⟩ := eq_of_start_broken hstart
      exact hattended.kept (by simp [turnTo, beginLife]) fun hhosted =>
        (hattended.tends hop hphase hhosted).elim
  | idled hfree | drained hfree | opening hfree =>
      exact hattended.kept rfl fun hhosted => absurd hhosted (hattended.not_hosted hfree)
  | stopped hfree hrunning label | tornDown hop hphase =>
      obtain ⟨tokens, -, hcancelled, heq⟩ := exists_tearDown_eq h _
      rw [heq]
      exact hattended.kept rfl fun _ => ⟨_, rfl, hcancelled⟩
  | openRefused hop hphase | supplied hop hphase =>
      exact hattended.kept rfl fun hhosted => (hattended.tends hop hphase hhosted).elim
  | coordinatorJoined hop hphase | workersJoined hop hphase | reporterJoined hop hphase
  | shutdownAnswered hop hphase =>
      exact hattended.kept rfl fun hhosted => ⟨_, rfl, hattended.tends hop hphase hhosted⟩
  | shutdownCalled hop hphase =>
      refine hattended.kept (intake_callShutdown _ _ _) fun hhosted => ⟨_, rfl, ?_⟩
      have hcancelled := hattended.tends hop hphase hhosted
      rw [callShutdown]
      simp only [turnTo, Tends]
      split <;> exact hcancelled
  | concluded hop hphase hstep =>
      obtain ⟨hintake, -, -⟩ := intake_of_finishShutdown? hstep
      refine ⟨fun hopen => ?_, fun hhosted => ?_⟩
      · have hidle := horder.fits _ hop
        rw [hphase] at hidle
        have hclosed := htidy.intake (horder.rests hidle).ended
        rw [hintake] at hopen
        cases hclosed.symm.trans hopen
      · obtain ⟨q, hq, hhosted⟩ := hhosted
        rw [hintake] at hq
        simp [dismissProducers, hhosted] at hq
  | returned hop hphase =>
      exact hattended.kept rfl fun hhosted => (hattended.tends hop hphase hhosted).elim
  | interrupted hop hphase => exact hattended.kept rfl fun _ => ⟨_, rfl, trivial⟩

/-- **A producer that waits in a settled host waits for a place**, as long as the run is not
cancelled. -/
theorem hasRoom_eq_false (hattended : h.Attended) (hnames : h.pipeline.intake.names.Nodup)
    (hsettled : Settled advance h) (hlive : h.pipeline.isCancelled = false) {q : Producer}
    (hq : q ∈ h.pipeline.intake.producers) (hwaiting : q.task.isWaiting = true) :
    h.pipeline.intake.queue.hasRoom = false := by
  have hidle : ∀ q ∈ h.pipeline.intake.producers,
      h.pipeline.intake.step h.pipeline.tokens q = none := by
    intro q hq
    have hnone := hsettled (.inside (.produce q.id))
    simp only [advance, hattended.mayProduce hlive, if_true, Option.map_eq_none_iff,
      Pipeline.advance, Intake.advance] at hnone
    rwa [Intake.find?_of_mem hnames hq, Option.bind_some] at hnone
  exact hattended.lined.hasRoom_eq_false hidle hq hwaiting

end Attended

end Host

namespace Pipeline

variable {p : Pipeline} {dropped : List Location}

/-! ### Nothing is left to do -/

/-- Coordinator and workers have done what they can. -/
structure Engaged (p : Pipeline) : Prop where
  completions : p.completions.items = []
  fetching : ∀ j ∈ p.pool.busy, j.isHeld = true
  idle : p.pool.idle ≠ [] →
    p.dispatch.items = [] ∧ p.coordinator.slot = none ∧ p.intake.queue.items = []
  filled : p.coordinator.slot.isSome = true → p.dispatch.hasRoom = false ∧ p.pool.idle = []
  taken : p.intake.queue.items ≠ [] → p.coordinator.slot.isSome = true

/-- Where nothing is left, nothing is underway. -/
theorem Cleared.engaged (h : p.Cleared) (howned : p.Owned dropped) : p.Engaged := by
  have hnil := howned.underway_eq_nil h.waiters
  simp only [underway, List.append_eq_nil_iff, List.map_eq_nil_iff] at hnil
  obtain ⟨⟨⟨-, hdispatch⟩, hbusy⟩, hcompletions⟩ := hnil
  refine ⟨hcompletions, ?_, fun _ => ⟨hdispatch, h.slot, h.items⟩, fun hslot => ?_,
    fun hitems => absurd h.items hitems⟩
  · rw [hbusy]
    intro j hj
    cases hj
  · rw [h.slot] at hslot
    cases hslot

/-- A coordinator that goes on in a quiescent pipeline, without a hook that is held, is between two
events, and nobody waits for the lock, unless somebody outside has it. -/
theorem Quiescent.between_events (h : p.Quiescent) (hworkers : p.pool.workers.Nodup)
    (hline : p.InLine [] false) (hhook : p.heldHook? = none)
    (hlock : p.lock.outsider = none ∨ p.lock.line = []) (hrunning : p.isOver = false) :
    p.coordinator.phase = .choosing ∧ p.pool.turns = [] := by
  rcases hlock with houtsider | hnobody
  · have hwants := h.wants_eq_nil hline hworkers houtsider
    have hphase := h.phase_eq_choosing hwants hhook hrunning
    refine ⟨hphase, h.turns_eq_nil_of_wants hline hworkers hwants ?_ fun _ => ?_⟩
    · rw [hphase]
      rfl
    · rw [houtsider]
      exact nofun
  · have hturns := hline.line
    rw [hnobody, List.append_nil] at hturns
    obtain ⟨hwants, hturns⟩ := List.append_eq_nil_iff.mp (List.nil_perm.mp hturns)
    exact ⟨h.phase_eq_choosing (by simpa using hwants) hhook hrunning, hturns⟩

/-- **A quiescent pipeline has done what it can**, if its coordinator is between two events and
nobody waits for the lock. -/
theorem Quiescent.engaged (h : p.Quiescent) (hphase : p.coordinator.phase = .choosing)
    (hturns : p.pool.turns = []) (howned : p.Owned dropped) (hflowing : p.Flowing)
    (hstaffed : p.Staffed) (hplaces : 0 < p.completions.capacity) (hplaces' : 0 < p.dispatch.capacity)
    (hclosed : p.coordinator.intakeDone = true → p.intake.queue.items = []) : p.Engaged := by
  have hworkers := howned.workers
  have hrunning : p.isOver = false := by rw [Pipeline.isOver, hphase]
  obtain ⟨hlive, -⟩ := eq_none_of_choose? (h.choose?_eq_none hphase)
  have hopen : p.dispatch.closed = false := by
    by_contra hclosed
    have hgone := hstaffed.closed (by simpa using hclosed)
    rw [hstaffed.present hrunning hlive] at hgone
    cases hgone
  have hcompletions := h.completions_eq_nil hphase hflowing.awake
  have hdepositors := h.depositors_eq_nil hworkers hflowing.waiting
    (by simp [Queue.hasRoom, hcompletions, hplaces])
  have hfull := h.dispatch_full hphase hopen hflowing.direct
  have htaken : p.coordinator.slot = none → p.intake.queue.items = [] :=
    h.intake_eq_nil hphase hclosed
  -- a dispatch queue that is empty is not full
  have hidle : p.pool.idle ≠ [] → p.dispatch.items = [] ∧ p.coordinator.slot = none := by
    intro hidle
    have hitems := h.dispatch_eq_nil hworkers hlive hidle
    refine ⟨hitems, Option.not_isSome_iff_eq_none.mp fun hslot => ?_⟩
    simpa [Queue.hasRoom, hitems, hplaces'] using hfull hslot
  refine ⟨hcompletions, fun j hj => h.isHeld hworkers hturns hdepositors hj, fun hsome => ?_,
    fun hslot => ⟨hfull hslot, ?_⟩, fun hitems => ?_⟩
  · obtain ⟨hitems, hslot⟩ := hidle hsome
    exact ⟨hitems, hslot, htaken hslot⟩
  · by_contra hsome
    rw [(hidle hsome).2] at hslot
    cases hslot
  · by_contra hslot
    exact hitems (htaken (Option.not_isSome_iff_eq_none.mp hslot))

theorem Engaged.length_held (h : p.Engaged) : p.pool.held.length = p.pool.busy.length := by
  rw [Pool.held, List.length_map, List.filter_eq_self.mpr h.fetching]

/-- If a location is in flight, then some worker waits for its fetch. -/
theorem Engaged.held_ne_nil (h : p.Engaged)
    (hperm : p.coordinator.waiters.locations.Perm p.underway)
    (hworkers : 0 < p.pool.idle.length + p.pool.held.length)
    (hwaiting : p.coordinator.waiters.isEmpty = false) : p.pool.held ≠ [] := by
  intro hheld
  have hbusy : p.pool.busy = [] := by
    rw [← List.length_eq_zero_iff, ← h.length_held, hheld, List.length_nil]
  have hidle : p.pool.idle ≠ [] := by
    intro hidle
    simp [hidle, hheld] at hworkers
  -- so all are idle, and nothing is underway
  obtain ⟨hdispatch, hslot, -⟩ := h.idle hidle
  have hunderway : p.underway = [] := by simp [underway, hslot, hdispatch, hbusy, h.completions]
  rw [hunderway] at hperm
  have hnil : p.coordinator.waiters.entries = [] := List.map_eq_nil_iff.mp hperm.eq_nil
  simp [Waiters.isEmpty, hnil] at hwaiting

end Pipeline

namespace Chronicle

open Pipeline
open Scenario (HostBench)

variable {c : Chronicle}

theorem Reachable.flowing (hc : c.Reachable) : c.pipeline.Flowing := by
  refine (hc.invariant (J := fun _ p => p.Staffed ∧ p.Flowing) ?_ ?_ ?_).2
  · intro p hunused
    refine ⟨hunused.staffed, ?_⟩
    obtain ⟨kind, settings, protocol, tokens, rfl⟩ := hunused
    refine ⟨.refl _, rfl, rfl, fun hrunning => ?_⟩
    cases hrunning
  · exact fun _ p q hlaunched _ => ⟨.launched hlaunched, .launched hlaunched⟩
  · exact fun _ p q hholds hchange h =>
      ⟨h.1.change hholds.owned hchange, h.2.change hholds.owned h.1 hchange⟩

theorem Reachable.equipped (hc : c.Reachable) (hrunning : c.bench.host.running = true) :
    c.bench.host.Equipped := by
  refine hc.induct (J := fun c => c.bench.host.running = true → c.bench.host.Equipped) ?_ ?_
    hrunning
  · intro kind settings protocol ownToken hrunning
    rw [start, HostBench.make] at hrunning
    split at hrunning <;> cases hrunning
  · intro c m hc hequipped hrunning
    have hsound := hc.sound
    have hstep := HostBench.step_move c.bench m
    rcases hstep.continues_or_launches hsound.orderly (hsound.change m) with hcontinues | hlaunches
    · exact (hequipped (hcontinues.running hrunning)).continues hcontinues hsound.holds
        hc.staffed.alert hrunning
    · exact .launches hlaunches

theorem Reachable.attended (hc : c.Reachable) : c.bench.host.Attended := by
  refine hc.induct (J := fun c => c.bench.host.Attended) ?_ ?_
  · intro kind settings protocol ownToken
    have hmake : ∀ h : Host, h.pipeline.intake.queue.line = [] →
        h.pipeline.intake.producers = [] → h.Attended := by
      intro h hline hproducers
      refine ⟨fun _ => ?_, fun hhosted => ?_⟩
      · rw [hline, hproducers]
        exact .refl _
      · simp [hproducers] at hhosted
    rw [start, HostBench.make]
    split <;> exact hmake _ rfl rfl
  · intro c m hc hattended
    have hsound := hc.sound
    exact hattended.step hsound.orderly hsound.accounted hc.tidy (hsound.change m)
      (HostBench.step_move c.bench m)

/-- A coordinator that goes on in a settled host, without a hook that is held, is between two
events, and nobody waits for the lock, unless somebody outside has it. -/
theorem Reachable.between_events (hc : c.Reachable)
    (hsettled : Settled Host.advance c.bench.host) (hhook : c.pipeline.heldHook? = none)
    (hlock : c.pipeline.lock.outsider = none ∨ c.pipeline.lock.line = [])
    (hrunning : c.pipeline.isOver = false) :
    c.pipeline.coordinator.phase = .choosing ∧ c.pipeline.pool.turns = [] :=
  (Host.quiescent_of_settled hsettled).between_events hc.sound.holds.owned.workers
    (hc.sound.orderly.inLine fun hfinished => by cases hrunning.symm.trans hfinished.ended) hhook
    hlock hrunning

/-- **No deadlock and no idle capacity.** Consider a host that has settled with a run that is not
cancelled and in which nobody has panicked; no hook is held, and nobody who stands in line for the
lock is kept waiting by somebody outside. Then no completion is left, and every busy worker waits
for its fetch; as long as the coordinator goes on, every worker is idle or busy. If some worker is
idle, then dispatch queue, slot and intake are empty; if the slot is filled, then the dispatch queue
is full and every worker waits for its fetch; if the intake is not empty, then the slot is filled. A
producer waits only for a place in an intake that is full, and if a location is in flight, then some
worker waits for its fetch. -/
theorem no_idle_capacity (hc : c.Reachable) (hsettled : Settled Host.advance c.bench.host)
    (hrunning : c.bench.host.running = true) (hlive : c.pipeline.isCancelled = false)
    (hcalm : c.pipeline.Calm) (hhook : c.pipeline.heldHook? = none)
    (hlock : c.pipeline.lock.outsider = none ∨ c.pipeline.lock.line = []) :
    let p := c.pipeline
    p.completions.items = [] ∧
    (∀ j ∈ p.pool.busy, j.isHeld = true) ∧
    (p.isOver = false →
      p.pool.idle.length + p.pool.held.length = c.bench.host.poolSize) ∧
    (p.pool.idle ≠ [] →
      p.dispatch.items = [] ∧ p.coordinator.slot = none ∧ p.intake.queue.items = []) ∧
    (p.coordinator.slot.isSome = true →
      p.dispatch.hasRoom = false ∧ p.pool.held.length = c.bench.host.poolSize) ∧
    (p.intake.queue.items ≠ [] → p.coordinator.slot.isSome = true) ∧
    (∀ q ∈ p.intake.producers, q.task.isWaiting = true → p.intake.queue.hasRoom = false) ∧
    (p.coordinator.waiters.isEmpty = false → p.pool.held ≠ []) := by
  intro p
  have hholds := hc.sound.holds
  have hequipped := hc.equipped hrunning
  have hproducers : ∀ q ∈ p.intake.producers, q.task.isWaiting = true →
      p.intake.queue.hasRoom = false := fun q hq hwaiting =>
    hc.attended.hasRoom_eq_false hc.sound.accounted.names hsettled hlive hq hwaiting
  cases hover : p.isOver with
  | true =>
      rcases hequipped.clear hover with hcancelled | ⟨payload, hpanicked⟩ | hcleared
      · cases hlive.symm.trans hcancelled
      · exact absurd hpanicked (hcalm.coordinator payload)
      · have hengaged := hcleared.engaged hholds.owned
        refine ⟨hengaged.completions, hengaged.fetching, nofun, hengaged.idle, fun hslot => ?_,
          hengaged.taken, hproducers, fun hwaiting => ?_⟩
        · cases hcleared.slot ▸ hslot
        · cases hcleared.waiters.symm.trans hwaiting
  | false =>
      obtain ⟨hphase, hturns⟩ := hc.between_events hsettled hhook hlock hover
      have hquiescent : p.Quiescent := Host.quiescent_of_settled hsettled
      have hengaged := hquiescent.engaged hphase hturns hholds.owned hc.flowing hc.staffed
        hequipped.completions hequipped.dispatch fun hdone => (hholds.closed hdone).1
      have hcount : p.pool.idle.length + p.pool.held.length = c.bench.host.poolSize := by
        have hworkers : p.pool.alive + p.pool.gone.length = c.bench.host.poolSize :=
          hequipped.workers
        rw [hengaged.length_held, ← hworkers, hc.flowing.present hover hlive]
        rfl
      refine ⟨hengaged.completions, hengaged.fetching, fun _ => hcount, hengaged.idle,
        fun hslot => ⟨(hengaged.filled hslot).1, ?_⟩, hengaged.taken, hproducers,
        hengaged.held_ne_nil (hholds.owned.perm_underway hover hcalm.workers
          (hc.staffed.present hover hlive)) ?_⟩
      · rw [(hengaged.filled hslot).2] at hcount
        simpa using hcount
      · rw [hcount]
        exact Nat.lt_of_lt_of_le Nat.one_pos (Nat.le_max_right _ _)

/-- A run with one worker and one place in every queue, and with references to five locations. The
fetch of 1 is held, 2 stands in the dispatch queue, 3 in the slot and 4 in the intake, and somebody
waits to submit 5. -/
def crowded : Chronicle :=
  let reference (n : Nat) : Reference := { id := n, target := .location (.number n) }
  let coordinate : HostBench.Move := .event (.inside .coordinate)
  let work : HostBench.Move := .event (.inside (.work 0))
  (start .fetcher ⟨1, 1, 1, 1, ⟨5, 0⟩⟩ {} false).run
    ([.act 0 .start, .act 1 (.trySubmit [reference 1])] ++ List.replicate 3 coordinate ++
      [work, work, .act 2 (.trySubmit [reference 2])] ++ List.replicate 3 coordinate ++
      [.act 3 (.trySubmit [reference 3])] ++ List.replicate 2 coordinate ++
      [.act 4 (.trySubmit [reference 4]), .act 5 (.submit (reference 5)),
        .event (.inside (.produce 0))])

/-- There every place is taken, and the only worker waits for its fetch. -/
theorem no_idle_capacity_crowded :
    (crowded.Reachable ∧ Settled Host.advance crowded.bench.host ∧
      crowded.bench.host.running = true ∧ crowded.pipeline.isCancelled = false ∧
      crowded.pipeline.Calm ∧ crowded.pipeline.heldHook? = none ∧
      crowded.pipeline.lock.outsider = none) ∧
    crowded.pipeline.coordinator.slot = some (.number 3) ∧
    crowded.pipeline.dispatch.hasRoom = false ∧
    crowded.pipeline.pool.held.length = crowded.bench.host.poolSize ∧
    crowded.pipeline.intake.producers.map Producer.task =
      [.submit { id := 5, target := .location (.number 5) } true] ∧
    ∀ q ∈ crowded.pipeline.intake.producers, q.task.isWaiting = true →
      crowded.pipeline.intake.queue.hasRoom = false := by
  have hreachable : crowded.Reachable := ⟨_, _, _, _, _, rfl⟩
  have hsettled : Settled Host.advance crowded.bench.host := Host.settled_of_candidates (by rfl)
  have hphase : crowded.pipeline.coordinator.phase = .choosing := by rfl
  have hgone : crowded.pipeline.pool.gone = [] := by rfl
  have hcalm : crowded.pipeline.Calm := ⟨by simp [hphase], by simp [hgone]⟩
  have hslot : crowded.pipeline.coordinator.slot = some (.number 3) := by rfl
  have hrunning : crowded.bench.host.running = true := by rfl
  have hlive : crowded.pipeline.isCancelled = false := by rfl
  have hhook : crowded.pipeline.heldHook? = none := by rfl
  have houtsider : crowded.pipeline.lock.outsider = none := by rfl
  obtain ⟨-, -, -, -, hfilled, -, hproducers, -⟩ :=
    no_idle_capacity hreachable hsettled hrunning hlive hcalm hhook (.inl houtsider)
  obtain ⟨hfull, hheld⟩ := hfilled (by rw [hslot]; rfl)
  exact ⟨⟨hreachable, hsettled, hrunning, hlive, hcalm, hhook, houtsider⟩, hslot, hfull, hheld,
    by rfl, hproducers⟩

/-- Two references are submitted while somebody outside has the lock to write, so that the
coordinator cannot resolve the first. -/
def lockedOut : Chronicle :=
  (start .fetcher ⟨2, 8, 2, 2, ⟨5, 0⟩⟩ {} false).run
    [.act 0 .start, .act 1 (.guard .write),
      .act 2 (.trySubmit [{ id := 1, target := .location (.number 7) },
        { id := 2, target := .location (.number 8) }]),
      .event (.inside .coordinate)]

/-- **Somebody outside who has the lock leaves capacity idle.** No hook is held in that run, nobody
has panicked and the run is not cancelled; yet both workers are idle and the slot is empty while a
reference stands in the intake. -/
theorem idle_behind_outsider :
    lockedOut.Reachable ∧ Settled Host.advance lockedOut.bench.host ∧
    lockedOut.bench.host.running = true ∧ lockedOut.pipeline.isCancelled = false ∧
    lockedOut.pipeline.Calm ∧ lockedOut.pipeline.heldHook? = none ∧
    lockedOut.pipeline.pool.idle = [0, 1] ∧ lockedOut.pipeline.coordinator.slot = none ∧
    lockedOut.pipeline.intake.queue.items =
      [{ id := 2, target := .location (.number 8) }] := by
  have hphase : lockedOut.pipeline.coordinator.phase =
      .resolving { id := 1, target := .location (.number 7) } := by rfl
  have hgone : lockedOut.pipeline.pool.gone = [] := by rfl
  exact ⟨⟨_, _, _, _, _, rfl⟩, Host.settled_of_candidates (by rfl), by rfl, by rfl,
    ⟨by simp [hphase], by simp [hgone]⟩, by rfl, by rfl, by rfl, by rfl⟩

end Chronicle

end SharedFetch
