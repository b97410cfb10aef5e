import SharedFetch.Proofs.Host.Integrity
import SharedFetch.Proofs.Host.Step
import SharedFetch.Proofs.Pipeline.Alarms

/-!
# What stopping reports

An operation that takes a run down learns how the coordinator has ended, then, when the workers are
gone, which fault the latch has captured, and reports after the hook for the end of the run has
answered. What it knows is tied to the phase it is in (`Host.Knows`): nobody is left by then who
could give the latch another fault, so what it has learned stays true. In the end it reports the
first fault that was given to the latch in the run, whoever found it, or else that the coordinator
has panicked.

All of that is only looked at if the hook has succeeded. If it has failed, its failure is reported,
and whatever was captured is lost (`masked_iff`).

## Main results

* `Observed.Reachable.answers`: along every course of moves, what is captured is the first fault
  that was given to the latch, and an operation that takes the run down knows it.
* `Observed.stop_reports_first`: stopping reports success exactly if the hook has succeeded, no
  fault was captured and the coordinator has not panicked, and else the first fault with all its
  causes.
* `Observed.masked_iff`: exactly when the first fault is part of what is reported.
-/

namespace SharedFetch

open Pipeline

/-- The fault and those it names as its causes, outermost first. -/
def Fault.sources : Fault → List Fault
  | .within context inner => .within context inner :: inner.sources
  | .captured inner => .captured inner :: inner.sources
  | fault => [fault]

/-- The faults that were given to the latch in the run, in order. -/
def Observer.alarms : Observer (List Fault) where
  blank _ := []
  note faults p q := faults ++ p.raised q

namespace OperationPhase

/-- Whether the operation waits for a run to end, or takes it down. -/
def takesDown : OperationPhase → Bool
  | .draining | .joiningCoordinator | .joiningWorkers _ | .joiningReporter _ | .awaitingLock _
  | .inShutdown .. => true
  | .opening _ | .watching _ | .returning _ => false

end OperationPhase

namespace Host

variable {h h' : Host} {op : Operation} {faults : List Fault}

/-- What an operation has found out when the workers are gone: the first fault given to the latch,
or else the one that the coordinator has ended with. -/
def Learned (faults : List Fault) (h : Host) (fault : Option Fault) : Prop :=
  ∃ ending, h.pipeline.ending? = some ending ∧
    fault = (faults.head?.map .captured).or ending.fault?

/-- What an operation knows in a phase. -/
def Knows (faults : List Fault) (h : Host) : OperationPhase → Prop
  | .draining | .watching _ | .joiningCoordinator => h.running = true
  | .joiningWorkers fault =>
      h.running = true ∧ ∃ ending, h.pipeline.ending? = some ending ∧ fault = ending.fault?
  | .joiningReporter fault => h.running = true ∧ h.Learned faults fault
  | .awaitingLock fault | .inShutdown _ fault =>
      h.pipeline.latch.caught = faults.head? ∧ h.Learned faults fault
  | .opening _ | .returning _ => True

/-- The latch of a run has captured the first fault given to it, a coordinator that has ended with a
fault has given one, and operations know what they should. -/
structure Answers (faults : List Fault) (h : Host) : Prop where
  found : ∀ fault ∈ faults, fault.isFound = true
  failed : ∀ fault, h.pipeline.coordinator.phase = .ended (.failed fault) → faults ≠ []
  caught : h.running = true → h.pipeline.latch.caught = faults.head?
  knows : ∀ op, h.operation = some op → h.Knows faults op.phase

/-! ### What does not matter -/

/-- Coordinator and workers that are gone are as they were, in the same run. -/
structure Kept (h h' : Host) : Prop where
  era : h'.pipeline.intake.era = h.pipeline.intake.era
  coordinator : h'.pipeline.coordinator = h.pipeline.coordinator
  gone : h'.pipeline.pool.gone = h.pipeline.pool.gone

namespace Kept

theorem follow (hkept : Kept h h') (faults : List Fault) :
    Observer.alarms.follow faults h.pipeline h'.pipeline = faults := by
  rw [Observer.follow, if_pos hkept.era, Observer.alarms]
  dsimp only
  rw [raised_eq_nil (by rw [hkept.coordinator]; exact Phase.raised_self _) hkept.gone,
    List.append_nil]

/-- No operation is left, or none that was there before. -/
theorem answers (hkept : Kept h h') (hanswers : h.Answers faults)
    (hrun : h'.running = true → h.running = true ∧ h'.pipeline.latch = h.pipeline.latch)
    (hknows : ∀ op, h'.operation = some op → h'.Knows faults op.phase) :
    h'.Answers (Observer.alarms.follow faults h.pipeline h'.pipeline) := by
  rw [hkept.follow]
  refine ⟨hanswers.found, fun fault hended => ?_, fun hrunning => ?_, hknows⟩
  · exact hanswers.failed fault (hkept.coordinator ▸ hended)
  · obtain ⟨hbefore, hlatch⟩ := hrun hrunning
    rw [hlatch]
    exact hanswers.caught hbefore

/-- There is an operation afterwards. -/
theorem turned {op : Operation} (hkept : Kept h h') (hanswers : h.Answers faults)
    (hrun : h'.running = true → h.running = true ∧ h'.pipeline.latch = h.pipeline.latch)
    (hop : h'.operation = some op) (hknows : h'.Knows faults op.phase) :
    h'.Answers (Observer.alarms.follow faults h.pipeline h'.pipeline) :=
  hkept.answers hanswers hrun fun op' hop' => by
    obtain rfl := Option.some.inj (hop.symm.trans hop')
    exact hknows

end Kept

/-- The run is cancelled. -/
theorem Answers.tearDown (hanswers : h.Answers faults) (op : Operation)
    (hrunning : h.running = true) :
    (h.tearDown op).Answers
      (Observer.alarms.follow faults h.pipeline (h.tearDown op).pipeline) := by
  obtain ⟨tokens, -, -, heq⟩ := exists_tearDown_eq h op
  rw [heq]
  exact Kept.turned (by constructor <;> rfl) hanswers (fun _ => ⟨hrunning, rfl⟩) rfl hrunning

/-- The hook for the end of a run has answered, and the operation ends. -/
theorem kept_finishShutdown? {mode : HookMode} {fault : Option Fault}
    (hstep : h.finishShutdown? op fault mode = some h') :
    Kept h h' ∧ h'.operation = none ∧ h'.running = h.running := by
  obtain ⟨lost, results, -, ⟨-, rfl⟩ | ⟨-, rfl⟩⟩ := exists_eq_of_finishShutdown? hstep
  · exact ⟨by constructor <;> rfl, rfl, rfl⟩
  · exact ⟨by constructor <;> rfl, rfl, rfl⟩

/-! ### Steps -/

namespace Answers

/-- A run is launched, and nothing was given to its latch. -/
theorem launched (hlaunched : h.pipeline.Launched h'.pipeline)
    (hknows : ∀ op, h'.operation = some op → h'.Knows [] op.phase) :
    h'.Answers (Observer.alarms.follow faults h.pipeline h'.pipeline) := by
  rw [Observer.follow_of_launched hlaunched]
  refine ⟨nofun, fun fault hended => ?_, fun _ => hlaunched.latch.caught, hknows⟩
  rw [hlaunched.coordinator] at hended
  cases hended

/-- Something happens within the run. -/
theorem within (hanswers : h.Answers faults) (horder : h.Orderly)
    (hstaffed : h.pipeline.Staffed) (hchange : h.pipeline.Change h'.pipeline)
    (hkeeps : h.Keeps h') (hlatch : h.pipeline.Finished → h'.pipeline.latch = h.pipeline.latch) :
    h'.Answers (Observer.alarms.follow faults h.pipeline h'.pipeline) := by
  rw [Observer.follow_of_change hchange, Observer.alarms]
  have hcaptures : h.pipeline.latch.caught = faults.head? →
      h'.pipeline.latch.caught = (faults ++ h.pipeline.raised h'.pipeline).head? := by
    intro hcaught
    rw [hchange.captures hstaffed.guarded hstaffed.alert.coherent hlatch, hcaught, List.head?_append]
  have hlearned : h.pipeline.Finished → ∀ fault, h.Learned faults fault →
      h'.Learned (faults ++ h.pipeline.raised h'.pipeline) fault := by
    rintro hfinished fault ⟨ending, hended, heq⟩
    rw [hchange.raised_of_finished hfinished, List.append_nil]
    exact ⟨ending, hchange.ending? hended, heq⟩
  refine ⟨fun fault hfault => ?_, fun fault hended => ?_, fun hrunning => ?_, fun op hop => ?_⟩
  · exact (List.mem_append.mp hfault).elim (hanswers.found fault) (hchange.isFound fault)
  · rcases hchange.raised_of_failed hended with hbefore | hraised
    · simp [hanswers.failed fault hbefore]
    · simp [hraised]
  · exact hcaptures (hanswers.caught (hkeeps.running ▸ hrunning))
  · rw [hkeeps.operation] at hop
    have hknows := hanswers.knows op hop
    have hfits := horder.fits op hop
    cases hphase : op.phase with
    | draining | watching interrupted | joiningCoordinator =>
        rw [hphase] at hknows
        exact hkeeps.running.trans hknows
    | joiningWorkers fault =>
        rw [hphase] at hknows
        obtain ⟨hrunning, ending, hended, heq⟩ := hknows
        exact ⟨hkeeps.running.trans hrunning, ending, hchange.ending? hended, heq⟩
    | joiningReporter fault =>
        rw [hphase] at hknows hfits
        exact ⟨hkeeps.running.trans hknows.1, hlearned hfits fault hknows.2⟩
    | awaitingLock fault | inShutdown mode fault =>
        rw [hphase] at hknows hfits
        exact ⟨hcaptures hknows.1, hlearned (horder.rests hfits) fault hknows.2⟩
    | opening supply | returning ending => trivial

/-- **Every step of a host keeps this.** -/
theorem step (hanswers : h.Answers faults) (horder : h.Orderly) (hstaffed : h.pipeline.Staffed)
    (hchange : h.pipeline.Change h'.pipeline ∨ h.pipeline.Launched h'.pipeline)
    (hstep : h.Step h') :
    h'.Answers (Observer.alarms.follow faults h.pipeline h'.pipeline) := by
  have hknows : ∀ {op : Operation} {phase : OperationPhase}, h.operation = some op →
      op.phase = phase → h.Knows faults phase :=
    fun hop hphase => hphase ▸ hanswers.knows _ hop
  cases hstep with
  | within hkeeps hlatch hintake =>
      exact hanswers.within horder hstaffed (change_of_turn hintake hchange) hkeeps fun hfinished =>
        (hlatch hfinished).latch
  | launched hfree hstart =>
      have hlaunched := launched_of_start_launched hstart rfl hchange
      obtain ⟨-, rfl⟩ := eq_of_start_launched hstart
      refine .launched hlaunched fun op hop => ?_
      cases hfree.symm.trans hop
  | broken hfree hstart =>
      obtain ⟨hidle, rfl⟩ := eq_of_start_broken hstart
      refine Kept.answers (by constructor <;> rfl) hanswers (fun hrunning => ?_) fun op hop => ?_
      · cases hidle.symm.trans hrunning
      · cases hfree.symm.trans hop
  | idled hfree hidle label =>
      exact Kept.turned (by constructor <;> rfl) hanswers (fun hrunning => ⟨hrunning, rfl⟩) rfl
        trivial
  | drained hfree hrunning label =>
      exact Kept.turned (by constructor <;> rfl) hanswers (fun hrunning => ⟨hrunning, rfl⟩) rfl
        hrunning
  | opening hfree label supply =>
      exact Kept.turned (by constructor <;> rfl) hanswers (fun hrunning => ⟨hrunning, rfl⟩) rfl
        trivial
  | stopped hfree hrunning label => exact hanswers.tearDown _ hrunning
  | @tornDown op hop hphase =>
      refine hanswers.tearDown op ?_
      rcases hphase with hphase | ⟨interrupted, hphase⟩
      · exact hknows hop hphase
      · exact hknows hop hphase
  | openRefused hop hphase hstart =>
      exact Kept.turned (by constructor <;> rfl) hanswers (fun hrunning => ⟨hrunning, rfl⟩) rfl
        trivial
  | openBroken hop hphase hstart =>
      obtain ⟨hidle, rfl⟩ := eq_of_start_broken hstart
      refine Kept.turned (by constructor <;> simp [turnTo] <;> rfl) hanswers
        (fun hrunning => ?_) rfl trivial
      simp only [turnTo, running_wakeReporter] at hrunning
      cases hidle.symm.trans hrunning
  | @openLaunched op supply h' hop hphase hstart =>
      have hlaunched : h.pipeline.Launched (h.openRun op supply).pipeline :=
        launched_of_start_launched hstart (by simp [openRun, hstart, turnTo, Intake.start]) hchange
      refine .launched hlaunched fun op' hop' => ?_
      obtain ⟨-, rfl⟩ := eq_of_start_launched hstart
      simp only [openRun, hstart, turnTo, Option.some.injEq] at hop'
      rw [← hop', openRun, hstart]
      simp [Knows, turnTo]
  | coordinatorJoined hop hphase hending =>
      have hrunning : h.running = true := hknows hop hphase
      exact Kept.turned (by constructor <;> rfl) hanswers (fun _ => ⟨hrunning, rfl⟩) rfl
        ⟨hrunning, _, hending, rfl⟩
  | @workersJoined op fault hop hphase hgone =>
      obtain ⟨hrunning, ending, hended, rfl⟩ :
          h.Knows faults (.joiningWorkers fault) := hknows hop hphase
      refine Kept.turned (by constructor <;> rfl) hanswers (fun _ => ⟨hrunning, rfl⟩) rfl
        ⟨hrunning, ending, hended, ?_⟩
      rw [Latch.error?, hanswers.caught hrunning]
  | @reporterJoined op fault hop hphase hgone =>
      obtain ⟨hrunning, hlearned⟩ : h.Knows faults (.joiningReporter fault) := hknows hop hphase
      refine Kept.turned (by constructor <;> rfl) hanswers (fun hlive => ?_) rfl
        ⟨hanswers.caught hrunning, hlearned⟩
      cases hlive
  | @shutdownCalled op fault lock hop hphase hlock =>
      obtain ⟨hcaught, hlearned⟩ : h.Knows faults (.awaitingLock fault) := hknows hop hphase
      rw [callShutdown]
      cases h.pipeline.protocol.plain with
      | true =>
          exact Kept.turned (by constructor <;> rfl) hanswers (fun hrunning => ⟨hrunning, rfl⟩) rfl
            ⟨hcaught, hlearned⟩
      | false =>
          exact Kept.turned (by constructor <;> rfl) hanswers (fun hrunning => ⟨hrunning, rfl⟩) rfl
            ⟨hcaught, hlearned⟩
  | concluded hop hphase hstep =>
      have hidle : h.running = false := by
        have := horder.fits _ hop
        rwa [hphase] at this
      obtain ⟨hkept, hnone, hrunning⟩ := kept_finishShutdown? hstep
      refine hkept.answers hanswers (fun hlive => ?_) fun op hop => ?_
      · cases hidle.symm.trans (hrunning.symm.trans hlive)
      · cases hnone.symm.trans hop
  | returned hop hphase =>
      refine Kept.answers (by constructor <;> rfl) hanswers (fun hrunning => ⟨hrunning, rfl⟩)
        fun op hop => ?_
      cases hop
  | supplied hop hphase supply' =>
      exact Kept.turned (by constructor <;> rfl) hanswers (fun hrunning => ⟨hrunning, rfl⟩) rfl
        trivial
  | @interrupted op interrupted hop hphase =>
      have hrunning : h.Knows faults (.watching interrupted) := hknows hop hphase
      exact Kept.turned (by constructor <;> rfl) hanswers (fun hrunning => ⟨hrunning, rfl⟩) rfl
        hrunning
  | @shutdownAnswered op fault hop hphase mode =>
      have hlearned : h.Knows faults (.inShutdown .hold fault) := hknows hop hphase
      exact Kept.turned (by constructor <;> rfl) hanswers (fun hrunning => ⟨hrunning, rfl⟩) rfl
        hlearned

end Answers

/-! ### Operations that take a run down -/

/-- The operation that was begun under the given name is still about a run. -/
def Serves (h : Host) (label : Nat) : Prop :=
  ∃ op, h.operation = some op ∧ op.label = label ∧ op.phase.takesDown = true

/-- The operation that was begun under the given name waits for the hook for the end of the run,
which answers with the given mode. -/
def AtHook (h : Host) (label : Nat) (mode : HookMode) : Prop :=
  ∃ op fault, h.operation = some op ∧ op.label = label ∧ op.phase = .inShutdown mode fault

/-- The operation that was begun under the given name is about to call the hook for the end of the
run, and waits for the lock. -/
def AsksHook (h : Host) (label : Nat) : Prop :=
  ∃ op fault, h.operation = some op ∧ op.label = label ∧ op.phase = .awaitingLock fault

/-- Between the one and the other the operation that was begun under the given name has ended. -/
def Returned (h h' : Host) (label : Nat) (ending : Ending) : Prop :=
  h'.operation = none ∧ h'.results = h.results ++ [(label, ending)]

/-- How an operation that has found a fault or none ends, when the hook for the end of the run has
answered. -/
def verdict? (fault : Option Fault) : HookMode → Option Ending
  | .hold => none
  | .succeed => some (.ofFault (fault.map (.within .aborted)))
  | .fail stage cause => some (.failed (.within .shutdown (.hook ⟨stage.getD .shutdown, cause⟩)))
  | .panic payload => some (.panicked payload)

theorem isSome_verdict? (fault : Option Fault) {mode : HookMode} (hmode : mode ≠ .hold) :
    (verdict? fault mode).isSome = true := by
  cases mode with
  | hold => exact absurd rfl hmode
  | _ => rfl

/-- An operation whose hook has answered ends with the verdict. -/
theorem finishShutdown?_eq (h : Host) (op : Operation) (fault : Option Fault) (mode : HookMode) :
    (mode = .hold ∧ h.finishShutdown? op fault mode = none) ∨
      ∃ h' ending, verdict? fault mode = some ending ∧
        h.finishShutdown? op fault mode = some h' ∧ h.Returned h' op.label ending := by
  have hconclude : ∀ fault : Option Fault, h.Returned
      ({ h with pipeline := h.pipeline.freeLock }.conclude op.label fault) op.label
      (.ofFault fault) := by
    intro fault
    rw [conclude]
    split <;> exact ⟨rfl, rfl⟩
  cases mode with
  | hold => exact .inl ⟨rfl, rfl⟩
  | succeed => exact .inr ⟨_, _, rfl, rfl, hconclude _⟩
  | fail stage cause => exact .inr ⟨_, _, rfl, rfl, hconclude _⟩
  | panic payload => exact .inr ⟨_, _, rfl, rfl, rfl, rfl⟩

/-- Only a hook that has succeeded and no fault that was found make for success. -/
theorem eq_done_iff_of_verdict? {mode : HookMode} {fault : Option Fault} {ending : Ending}
    (h : verdict? fault mode = some ending) : ending = .done ↔ mode = .succeed ∧ fault = none := by
  cases mode with
  | hold => cases h
  | succeed =>
      rw [← Option.some.inj h]
      cases fault <;> simp [Ending.ofFault]
  | fail stage cause | panic payload =>
      rw [← Option.some.inj h]
      simp

/-- What an operation has found out before it reports. -/
theorem Answers.eq_none_iff {mode : HookMode} {fault : Option Fault} (hanswers : h.Answers faults)
    (hop : h.operation = some op) (hphase : op.phase = .inShutdown mode fault) :
    (fault = none ↔ h.pipeline.latch.caught = none ∧
      ∀ payload, h.pipeline.ending? ≠ some (.panicked payload)) ∧
    ∀ first others, faults = first :: others → fault = some (.captured first) := by
  obtain ⟨hcaught, ending, hended, heq⟩ : h.Knows faults (.inShutdown mode fault) :=
    hphase ▸ hanswers.knows op hop
  rw [hcaught, hended]
  cases faults with
  | cons first others =>
      refine ⟨?_, fun first' others' hfaults => ?_⟩
      · rw [heq]
        simp
      · rw [heq, (List.cons.inj hfaults).1]
        rfl
  | nil =>
      refine ⟨?_, nofun⟩
      cases ending with
      | done =>
          rw [heq]
          simp [Ending.fault?]
      | failed inner =>
          -- then a fault was given to the latch
          obtain ⟨ending', hphase'⟩ := exists_of_isOver (isOver_of_ending? hended)
          rw [ending?, hphase'] at hended
          exact absurd rfl (hanswers.failed inner (Option.some.inj hended ▸ hphase'))
      | panicked payload =>
          rw [heq]
          simp [Ending.fault?]

/-- Stopping or draining a run begins. -/
theorem serves_beginDrain (hrunning : h.running = true) (label : Nat) :
    (h.beginStop label).Serves label ∧ (h.beginDrain label).Serves label := by
  have hstop : (h.beginStop label).Serves label := by
    rw [beginStop, if_pos hrunning, tearDown]
    cases h.kind <;> exact ⟨_, rfl, rfl, rfl⟩
  refine ⟨hstop, ?_⟩
  rw [beginDrain]
  split
  · exact ⟨_, rfl, rfl, rfl⟩
  · exact hstop

/-- **An operation that takes a run down goes on to do so** until the hook for the end of the run
has answered. -/
theorem Serves.step {label : Nat} (hserves : h.Serves label) (hstep : h.Step h') :
    h'.Serves label ∨ ∃ op mode fault ending, h.operation = some op ∧ op.label = label ∧
      op.phase = .inShutdown mode fault ∧ verdict? fault mode = some ending ∧
      h.Returned h' label ending := by
  obtain ⟨op, hop, hlabel, hphase⟩ := hserves
  have hsame : ∀ {op' : Operation}, h.operation = some op' → op' = op := fun hop' =>
    Option.some.inj (hop'.symm.trans hop)
  cases hstep with
  | within hkeeps hlatch hintake => exact .inl ⟨op, hkeeps.operation.trans hop, hlabel, hphase⟩
  | launched hfree | broken hfree | idled hfree | drained hfree | opening hfree | stopped hfree =>
      cases hfree.symm.trans hop
  | tornDown hop' hwaits =>
      obtain rfl := hsame hop'
      refine .inl ?_
      rw [tearDown]
      cases h.kind <;> exact ⟨_, rfl, hlabel, rfl⟩
  | openRefused hop' hopening | openBroken hop' hopening | openLaunched hop' hopening
  | supplied hop' hopening =>
      obtain rfl := hsame hop'
      rw [hopening] at hphase
      cases hphase
  | interrupted hop' hwatching =>
      obtain rfl := hsame hop'
      rw [hwatching] at hphase
      cases hphase
  | returned hop' hreturning =>
      obtain rfl := hsame hop'
      rw [hreturning] at hphase
      cases hphase
  | coordinatorJoined hop' | workersJoined hop' | reporterJoined hop' | shutdownCalled hop'
  | shutdownAnswered hop' =>
      obtain rfl := hsame hop'
      exact .inl ⟨_, rfl, hlabel, rfl⟩
  | @concluded op' mode fault _ hop' hhook hanswered =>
      obtain rfl := hsame hop'
      rcases h.finishShutdown?_eq op' fault mode with
        ⟨-, hnone⟩ | ⟨h'', ending, hverdict, hsome, hreturned⟩
      · cases hnone.symm.trans hanswered
      · obtain rfl := Option.some.inj (hsome.symm.trans hanswered)
        exact .inr ⟨op', mode, fault, ending, hop', hlabel, hhook, hverdict, hlabel ▸ hreturned⟩

/-- An operation that goes on comes to the hook by calling it, and then the protocol has the
answer. -/
theorem AtHook.of_operates {label : Nat} {mode : HookMode} (hhook : h'.AtHook label mode)
    (hop : h.operation = some op) (hoperates : h.Operates op h') :
    h.AsksHook label ∧ mode = h.pipeline.protocol.shutdownMode := by
  obtain ⟨op', fault', hop', hlabel, hphase'⟩ := hhook
  cases hoperates with
  | shutdownCalled hphase hlock =>
      cases hop'
      cases hphase'
      exact ⟨⟨op, _, hop, hlabel, hphase⟩, rfl⟩
  | openLaunched hphase hstart =>
      rw [openRun, hstart] at hop'
      cases hop'
      cases hphase'
  | tornDown hphase =>
      obtain ⟨tokens, -, -, heq⟩ := exists_tearDown_eq h op
      rw [heq] at hop'
      cases hop'
      cases hphase'
  | concluded hphase hstep =>
      rw [(kept_finishShutdown? hstep).2.1] at hop'
      cases hop'
  | returned hphase => cases hop'
  | openRefused | openBroken | coordinatorJoined | workersJoined | reporterJoined =>
      cases hop'
      cases hphase'

end Host

namespace Scenario.HostBench

open Host

variable {b : HostBench} {label : Nat} {mode : HookMode}

/-- Whatever the caller does, a hook for the end of a run gets another answer only if it is held and
let go. -/
theorem Acts.hook {number : Nat} {action : Action} {b' : HostBench}
    (hacts : b.Acts number action b') (hhook : b'.host.AtHook label mode) :
    b.host.AtHook label mode ∨
      b.host.AtHook label .hold ∧ ∃ key, action = .releaseHook key mode := by
  have hgone : ∀ {host : Host}, host.AtHook label mode → host.operation = none → False := by
    rintro host ⟨op, fault, hop, -⟩ hfree
    cases hfree.symm.trans hop
  cases hacts with
  | launched hfree hstart =>
      obtain ⟨-, rfl⟩ := eq_of_start_launched hstart
      exact (hgone hhook hfree).elim
  | broken hfree hstart =>
      obtain ⟨-, rfl⟩ := eq_of_start_broken hstart
      exact (hgone hhook hfree).elim
  | idled | drained | opened | supplied | interrupted =>
      obtain ⟨op, fault, hop, -, hphase⟩ := hhook
      cases hop
      cases hphase
  | stopped =>
      obtain ⟨tokens, -, -, heq⟩ := exists_tearDown_eq b.host
        { label := number, phase := .joiningCoordinator }
      rw [heq] at hhook
      obtain ⟨op, fault, hop, -, hphase⟩ := hhook
      cases hop
      cases hphase
  | droppedAll =>
      obtain ⟨queue, -, -, -, heq⟩ := exists_queue_dropAll b.senders b
      rw [heq] at hhook
      exact .inl hhook
  | shutdownReleased hop hphase key mode =>
      obtain ⟨op', fault', hop', hlabel, hphase'⟩ := hhook
      cases hop'
      cases hphase'
      exact .inr ⟨⟨_, _, hop, hlabel, hphase⟩, key, rfl⟩
  | nothing | offered | submitted | forwarded | cloned | dropped | fed | unfed | cancelled
  | rootReplaced | fetchReleased | hookReleased | guarded | unguarded => exact .inl hhook

/-- **Where the answer of the hook for the end of a run comes from.** It is what the protocol says
when the hook is called, or what a hook that is held is let go with. -/
theorem hook_move {m : Move} (hhook : (b.move m).host.AtHook label mode) :
    b.host.AtHook label mode ∨
      (b.host.AtHook label .hold ∧ ∃ number key, m = .act number (.releaseHook key mode)) ∨
      b.host.AsksHook label ∧ mode = b.pipeline.protocol.shutdownMode := by
  have hbecomes := b.becomes_move m
  generalize b.move m = b' at hbecomes hhook
  cases hbecomes with
  | stays | elapses | reports => exact .inl hhook
  | wakes =>
      obtain ⟨op, fault, hop, hlabel, hphase⟩ := hhook
      exact .inl ⟨op, fault, b.host.keeps_wakeReporter.operation ▸ hop, hlabel, hphase⟩
  | @acts number action b' hacts =>
      rcases hacts.hook hhook with hbefore | ⟨hheld, key, rfl⟩
      · exact .inl hbefore
      · exact .inr (.inl ⟨hheld, number, key, rfl⟩)
  | advances hstep =>
      cases happens_of_advance hstep with
      | inside | reporterQuit => exact .inl hhook
      | operated hop hoperates => exact .inr (.inr (hhook.of_operates hop hoperates))

end Scenario.HostBench

namespace Observed

open Scenario (HostBench)

variable {α : Type} {w : Observer α}

/-- The host that is observed. -/
def host (o : Observed α) : Host :=
  o.chronicle.bench.host

/-- Along every course of moves, what is captured is the first fault that was given to the latch,
and operations know it. -/
theorem Reachable.answers {o : Observed (List Fault)} (h : o.Reachable .alarms) :
    o.host.Answers o.notes := by
  refine h.induct (J := fun o => o.host.Answers o.notes) ?_ ?_
  · intro kind settings protocol ownToken
    have hmake : ∀ h : Host, h.running = false → h.operation = none →
        h.pipeline.coordinator.phase = .ended .done → h.Answers [] := by
      intro h hidle hfree hphase
      refine ⟨fun _ hmem => absurd hmem List.not_mem_nil, fun fault hended => ?_,
        fun hrunning => ?_, fun op hop => ?_⟩
      · cases hphase.symm.trans hended
      · cases hidle.symm.trans hrunning
      · cases hfree.symm.trans hop
    rw [host, start, Chronicle.start, HostBench.make]
    split <;> exact hmake _ rfl rfl rfl
  · intro o m hreachable hanswers
    have hsound := hreachable.chronicle.sound
    exact hanswers.step hsound.orderly hreachable.chronicle.staffed (hsound.change m)
      (HostBench.step_move o.chronicle.bench m)

/-- An operation that takes a run down goes on to do so, along every course of moves, until it ends
with its verdict. -/
theorem serves_run {o : Observed α} {label : Nat} (hserves : o.host.Serves label)
    (moves : List HostBench.Move) :
    (o.run w moves).host.Serves label ∨
      ∃ before m after op mode fault ending, moves = before ++ m :: after ∧
        (o.run w before).host.operation = some op ∧ op.label = label ∧
        op.phase = .inShutdown mode fault ∧ Host.verdict? fault mode = some ending ∧
        (o.run w before).host.Returned ((o.run w before).move w m).host label ending := by
  induction moves generalizing o with
  | nil => exact .inl hserves
  | cons m moves ih =>
      rcases hserves.step (HostBench.step_move o.chronicle.bench m) with hserves' | hreturned
      · rcases ih (o := o.move w m) hserves' with hlast | ⟨before, m', after, rest⟩
        · exact .inl hlast
        · obtain ⟨op, mode, fault, ending, hmoves, hrest⟩ := rest
          exact .inr ⟨m :: before, m', after, op, mode, fault, ending, by rw [hmoves]; rfl, hrest⟩
      · obtain ⟨op, mode, fault, ending, hrest⟩ := hreturned
        exact .inr ⟨[], m, moves, op, mode, fault, ending, rfl, hrest⟩

/-- Along some moves the hook for the end of a run was called by the operation with the given name.
The mode is what the protocol had for it, or, if that was to hold it, what it was let go with. -/
def HookAnswered (w : Observer α) (o : Observed α) (label : Nat) (moves : List HostBench.Move)
    (mode : HookMode) : Prop :=
  ∃ early call late, moves = early ++ call :: late ∧
    let asking := o.run w early
    asking.host.AsksHook label ∧
    (asking.chronicle.pipeline.protocol.shutdownMode = mode ∨
      asking.chronicle.pipeline.protocol.shutdownMode = .hold ∧
        ∃ number key, .act number (.releaseHook key mode) ∈ late)

/-- More moves change nothing about where an answer came from. -/
theorem HookAnswered.append {o : Observed α} {label : Nat} {moves : List HostBench.Move}
    {mode : HookMode} (h : HookAnswered w o label moves mode) (m : HostBench.Move) :
    HookAnswered w o label (moves ++ [m]) mode := by
  obtain ⟨early, call, late, rfl, hasks, hmode⟩ := h
  refine ⟨early, call, late ++ [m], by simp, hasks, hmode.imp_right ?_⟩
  rintro ⟨hhold, number, key, hmem⟩
  exact ⟨hhold, number, key, List.mem_append_left _ hmem⟩

/-- The answer of a hook that an operation waits for came about after the operation was begun. -/
theorem hookAnswered_of_atHook {o : Observed α} {label : Nat}
    (hbegun : ∀ mode, ¬ o.host.AtHook label mode) {moves : List HostBench.Move} {mode : HookMode}
    (hhook : (o.run w moves).host.AtHook label mode) : HookAnswered w o label moves mode := by
  induction moves using List.reverseRecOn generalizing mode with
  | nil => exact absurd hhook (hbegun mode)
  | append_singleton moves m ih =>
      have hlast : o.run w (moves ++ [m]) = (o.run w moves).move w m := by
        rw [run, run, List.foldl_append]
        rfl
      rw [hlast] at hhook
      rcases HostBench.hook_move hhook with hbefore | ⟨hheld, number, key, rfl⟩ | ⟨hasks, hmode⟩
      · exact (ih hbefore).append m
      · obtain ⟨early, call, late, rfl, hasks, hmode⟩ := ih hheld
        refine ⟨early, call, late ++ [.act number (.releaseHook key mode)], by simp, hasks,
          .inr ⟨hmode.elim id And.left, ?_⟩⟩
        exact ⟨number, key, List.mem_append_right _ List.mem_cons_self⟩
      · exact ⟨moves, m, [], rfl, hasks, .inl hmode.symm⟩

/-- An operation whose hook has answered ends with its verdict when it goes on. -/
theorem returned_operate {o : Observed α} {op : Operation} {mode : HookMode}
    {fault : Option Fault} {ending : Ending} (hop : o.host.operation = some op)
    (hphase : op.phase = .inShutdown mode fault)
    (hverdict : Host.verdict? fault mode = some ending) :
    o.host.Returned (o.move w (.event .operate)).host op.label ending := by
  rcases o.host.finishShutdown?_eq op fault mode with
    ⟨hhold, -⟩ | ⟨host', ending', hverdict', hsome, hreturned⟩
  · rw [hhold] at hverdict
    cases hverdict
  · obtain rfl := Option.some.inj (hverdict.symm.trans hverdict')
    have hadvance : o.host.advance .operate = some host' := by
      simpa [Host.advance, hop, Host.operateOn?, hphase] using hsome
    have hmoved : (o.move w (.event .operate)).host = host' := by
      simp only [host, move, Chronicle.move, HostBench.move] at hadvance ⊢
      rw [hadvance, Option.getD_some]
    rw [hmoved]
    exact hreturned

/-- **Stopping reports the first fault.** Stopping or draining a run, once begun, goes on until the
hook for the end of the run has answered, with what the protocol had for it or with what it was let
go with, and then returns. It returns success exactly if the hook has succeeded, no fault was
captured in the run and the coordinator has not panicked. If the hook has succeeded and a fault was
captured, then that is the first one given to the latch in the run, and what is returned has its
text and all its texts below that of the context, whatever else was given to the latch later and
however the coordinator has ended. -/
theorem stop_reports_first {o : Observed (List Fault)} (h : o.Reachable .alarms)
    (hfree : o.chronicle.bench.isBusy = false) (hrunning : o.host.running = true) {number : Nat}
    {action : HostBench.Action} (haction : action = .stop ∨ action = .drain)
    (moves : List HostBench.Move) :
    let begun := o.move .alarms (.act number action)
    let last := begun.run .alarms moves
    (last.host.Serves number ∨
      ∃ before m after mode ending, moves = before ++ m :: after ∧
        let last := begun.run .alarms before
        let p := last.chronicle.pipeline
        last.host.AtHook number mode ∧ HookAnswered .alarms begun number before mode ∧
        last.host.Returned (last.move .alarms m).host number ending ∧
        (ending = .done ↔ mode = .succeed ∧ p.latch.caught = none ∧
          ∀ payload, p.ending? ≠ some (.panicked payload)) ∧
        p.latch.caught = last.notes.head? ∧
        ∀ first others, mode = .succeed → last.notes = first :: others →
          ∃ fault, ending = .failed fault ∧
            fault.texts = "coalescing pipeline aborted" :: first.message :: first.texts) ∧
    ∀ mode, mode ≠ .hold → last.host.AtHook number mode →
      ∃ ending, last.host.Returned (last.move .alarms (.event .operate)).host number ending := by
  intro begun last
  have hbegun : begun.Reachable .alarms := h.move _
  have hserves : begun.host.Serves number := by
    obtain ⟨hstop, hdrain⟩ := Host.serves_beginDrain hrunning number
    rcases haction with rfl | rfl
    · simpa [begun, host, move, Chronicle.move, HostBench.move, HostBench.perform, hfree] using hstop
    · simpa [begun, host, move, Chronicle.move, HostBench.move, HostBench.perform, hfree] using hdrain
  have hnobody : ∀ mode, ¬ begun.host.AtHook number mode := by
    have hnone : o.host.operation = none ∧ o.host.lost = false := by
      simpa [HostBench.isBusy, Host.isBusy, host] using hfree
    intro mode hhook
    rcases HostBench.hook_move hhook with
      ⟨op, fault, hop, -⟩ | ⟨⟨op, fault, hop, -⟩, -⟩ | ⟨⟨op, fault, hop, -⟩, -⟩ <;>
    cases hnone.1.symm.trans hop
  refine ⟨(serves_run hserves moves).imp_right ?_, ?_⟩
  · rintro ⟨before, m, after, op, mode, fault, ending, hmoves, hop, hlabel, hphase, hverdict,
      hreturned⟩
    have hanswers := (hbegun.run before).answers
    obtain ⟨hnone, hfirst⟩ := hanswers.eq_none_iff hop hphase
    have hknows := hanswers.knows op hop
    rw [hphase] at hknows
    have hhook : (begun.run .alarms before).host.AtHook number mode :=
      ⟨op, fault, hop, hlabel, hphase⟩
    refine ⟨before, m, after, mode, ending, hmoves, hhook, hookAnswered_of_atHook hnobody hhook,
      hreturned, ?_, hknows.1, ?_⟩
    · rw [Host.eq_done_iff_of_verdict? hverdict, hnone]
      rfl
    · rintro first others rfl hnotes
      rw [hfirst first others hnotes] at hverdict
      exact ⟨_, (Option.some.inj hverdict).symm, rfl⟩
  · rintro mode hmode ⟨op, fault, hop, hlabel, hphase⟩
    obtain ⟨ending, hverdict⟩ := Option.isSome_iff_exists.mp (Host.isSome_verdict? fault hmode)
    exact ⟨ending, hlabel ▸ returned_operate hop hphase hverdict⟩

/-- Two locations are fetched. The hook that takes the first delivery fails, and then the other
fetch panics. -/
def failedTwice (shutdowns : List HookMode) : Observed (List Fault) :=
  let references : List Reference :=
    [{ id := 1, target := .location (.number 7),
       process := .fail none ⟨"no room", ["disk full"]⟩ },
      { id := 2, target := .location (.number 8) }]
  let coordinate : HostBench.Move := .event (.inside .coordinate)
  let work (id : Nat) : HostBench.Move := .event (.inside (.work id))
  let protocol : Protocol := { fetches := [("8", .hold)], otherwise := .content none, shutdowns }
  (start .alarms .fetcher ⟨2, 8, 2, 2, ⟨5, 0⟩⟩ protocol false).run .alarms
    ([.act 0 .start, .act 1 (.trySubmit references)] ++ List.replicate 6 coordinate ++
      [work 0, work 0, work 1, work 1, work 0, work 0] ++ List.replicate 4 coordinate ++
      [.act 2 (.release none (.panic (.text "torn"))), work 1, work 0])

/-- The moves that take a run down whose coordinator and workers have left. -/
def takingDown : List HostBench.Move :=
  let operate : HostBench.Move := .event .operate
  [operate, operate, .event .quitReporter, operate, operate, operate]

/-- The answer of the hook for the end of the run, where an operation waits for it. -/
def hookMode? (o : Observed α) : Option HookMode :=
  o.host.operation.bind fun op =>
    match op.phase with
    | .inShutdown mode _ => some mode
    | _ => none

/-- An operation that takes a run down waits for one hook at a time. -/
theorem hookMode?_of_atHook {o : Observed α} {label : Nat} {mode : HookMode}
    (h : o.host.AtHook label mode) : o.hookMode? = some mode := by
  obtain ⟨op, fault, hop, -, hphase⟩ := h
  rw [hookMode?, hop, Option.bind_some, hphase]

/-- If there is an answer only before the last of those moves, then that is the answer of the
hook. -/
theorem mode_of_takingDown {o : Observed (List Fault)} {answer mode : HookMode}
    (hmodes : (List.range 6).map (fun k => (o.run .alarms (takingDown.take k)).hookMode?) =
      [none, none, none, none, none, some answer])
    {before after : List HostBench.Move} {m : HostBench.Move}
    (hmoves : takingDown = before ++ m :: after)
    (hhook : (o.run .alarms before).host.AtHook 3 mode) : mode = answer := by
  have hbefore : before = takingDown.take before.length := by rw [hmoves, List.take_left]
  have hlength : before.length < 6 := by
    have := congrArg List.length hmoves
    simp only [List.length_append, List.length_cons, takingDown, List.length_nil] at this
    omega
  have hmem := List.mem_map_of_mem (f := fun k =>
    (o.run .alarms (takingDown.take k)).hookMode?) (List.mem_range.mpr hlength)
  rw [hmodes, ← hbefore, hookMode?_of_atHook hhook] at hmem
  simpa using hmem

/-- If such a run is stopped and the hook for its end succeeds, the failure of the first hook is
reported with its causes, and the panic is not. If the hook for its end fails, stopping does not
succeed either. -/
theorem stop_reports_first_failedTwice :
    let o := failedTwice []
    let o' := failedTwice [.fail none ⟨"no farewell", []⟩]
    let begun := o.move .alarms (.act 3 .stop)
    let begun' := o'.move .alarms (.act 3 .stop)
    (o.Reachable .alarms ∧ o.chronicle.bench.isBusy = false ∧ o.host.running = true) ∧
    (o'.Reachable .alarms ∧ o'.chronicle.bench.isBusy = false ∧ o'.host.running = true) ∧
    o.notes.map Fault.message =
      ["Process protocol error: no room", "worker 1 panicked: torn"] ∧
    (∃ before m after ending, takingDown = before ++ m :: after ∧
      let last := begun.run .alarms before
      last.host.AtHook 3 .succeed ∧ last.host.Returned (last.move .alarms m).host 3 ending ∧
      ∀ first others, last.notes = first :: others →
        ∃ fault, ending = .failed fault ∧
          fault.texts = "coalescing pipeline aborted" :: first.message :: first.texts) ∧
    ∃ before m after ending, takingDown = before ++ m :: after ∧
      let last := begun'.run .alarms before
      last.host.AtHook 3 (.fail none ⟨"no farewell", []⟩) ∧
      HookAnswered .alarms begun' 3 before (.fail none ⟨"no farewell", []⟩) ∧
      last.host.Returned (last.move .alarms m).host 3 ending ∧ ending ≠ .done := by
  intro o o' begun begun'
  have hstart : o.Reachable .alarms ∧ o.chronicle.bench.isBusy = false ∧ o.host.running = true :=
    ⟨⟨_, _, _, _, _, rfl⟩, by rfl, by rfl⟩
  have hstart' : o'.Reachable .alarms ∧ o'.chronicle.bench.isBusy = false ∧
      o'.host.running = true :=
    ⟨⟨_, _, _, _, _, rfl⟩, by rfl, by rfl⟩
  have hnone : (begun.run .alarms takingDown).host.operation = none := by rfl
  have hnone' : (begun'.run .alarms takingDown).host.operation = none := by rfl
  refine ⟨hstart, hstart', by rfl, ?_, ?_⟩
  · obtain ⟨hreachable, hfree, hrunning⟩ := hstart
    rcases (@stop_reports_first o hreachable hfree hrunning 3 _ (.inl rfl) takingDown).1 with
      ⟨op, hop, -⟩ | ⟨before, m, after, mode, ending, hmoves, hhook, -, hreturned, -, -, hfirst⟩
    · cases hnone.symm.trans hop
    · obtain rfl : mode = .succeed := mode_of_takingDown (by rfl) hmoves hhook
      exact ⟨before, m, after, ending, hmoves, hhook, hreturned, fun first others =>
        hfirst first others rfl⟩
  · obtain ⟨hreachable, hfree, hrunning⟩ := hstart'
    rcases (@stop_reports_first o' hreachable hfree hrunning 3 _ (.inl rfl) takingDown).1 with
      ⟨op, hop, -⟩ | ⟨before, m, after, mode, ending, hmoves, hhook, hanswered, hreturned, hdone, -⟩
    · cases hnone'.symm.trans hop
    · obtain rfl : mode = .fail none ⟨"no farewell", []⟩ :=
        mode_of_takingDown (by rfl) hmoves hhook
      refine ⟨before, m, after, ending, hmoves, hhook, hanswered, hreturned, fun heq => ?_⟩
      cases (hdone.mp heq).1

/-- **When the first fault is part of what is reported.** In a run in which a fault was given to the
latch, an operation that takes the run down reports a fault, whether the hook for the end of the run
succeeds or fails. The first fault that was given to the latch is among the sources of that exactly
if the hook has succeeded, or if the hook has failed with the very same failure: a failure of the
hook is reported alone. -/
theorem masked_iff {o : Observed (List Fault)} (h : o.Reachable .alarms) {label : Nat}
    {mode : HookMode} (hhook : o.host.AtHook label mode)
    (hanswered : mode = .succeed ∨ ∃ stage cause, mode = .fail stage cause) {first : Fault}
    {others : List Fault} (hnotes : o.notes = first :: others) :
    ∃ fault, o.host.Returned (o.move .alarms (.event .operate)).host label (.failed fault) ∧
      (mode = .succeed → fault = .within .aborted (.captured first)) ∧
      (∀ stage cause, mode = .fail stage cause →
        fault = .within .shutdown (.hook ⟨stage.getD .shutdown, cause⟩)) ∧
      (first ∈ fault.sources ↔ mode = .succeed ∨
        ∃ stage cause, mode = .fail stage cause ∧
          first = .hook ⟨stage.getD .shutdown, cause⟩) := by
  obtain ⟨op, fault, hop, rfl, hphase⟩ := hhook
  have hanswers := h.answers
  obtain rfl := (hanswers.eq_none_iff hop hphase).2 first others hnotes
  have hfound := hanswers.found first (hnotes ▸ List.mem_cons_self)
  rcases hanswered with rfl | ⟨stage, cause, rfl⟩
  · refine ⟨_, returned_operate hop hphase rfl, fun _ => rfl, nofun, ?_⟩
    have hmem : ∀ fault : Fault, fault ∈ fault.sources := by
      intro fault
      cases fault <;> exact List.mem_cons_self
    simp [Fault.sources, hmem first]
  · refine ⟨_, returned_operate hop hphase rfl, nofun, ?_, ?_⟩
    · rintro stage' cause' heq
      cases heq
      rfl
    · constructor
      · intro hmem
        rcases List.mem_cons.mp hmem with rfl | hmem
        · -- nobody in the pipeline finds such a fault
          cases hfound
        · exact .inr ⟨stage, cause, rfl, List.mem_singleton.mp hmem⟩
      · rintro (heq | ⟨stage', cause', heq, rfl⟩)
        · cases heq
        · cases heq
          exact List.mem_cons_of_mem _ List.mem_cons_self

/-- The run in which two faults were given to the latch is being stopped, and the hook for its end
has answered with a failure. -/
def masked : Observed (List Fault) :=
  (failedTwice [.fail none ⟨"no farewell", []⟩]).run .alarms (.act 3 .stop :: takingDown.dropLast)

set_option maxRecDepth 1024 in
/-- There the first fault given to the latch is no part of what is reported. -/
theorem masked_iff_masked :
    let first : Fault := .hook ⟨.process, ⟨"no room", ["disk full"]⟩⟩
    (masked.Reachable .alarms ∧ masked.host.AtHook 3 (.fail none ⟨"no farewell", []⟩) ∧
      masked.notes = [first, .workerPanic 1 (.text "torn")]) ∧
    ∃ fault,
      masked.host.Returned (masked.move .alarms (.event .operate)).host 3 (.failed fault) ∧
      fault = .within .shutdown (.hook ⟨.shutdown, ⟨"no farewell", []⟩⟩) ∧
      ¬ first ∈ fault.sources := by
  intro first
  have hreachable : masked.Reachable .alarms :=
    Reachable.run ⟨_, _, _, _, _, rfl⟩ (.act 3 .stop :: takingDown.dropLast)
  have hhook : masked.host.AtHook 3 (.fail none ⟨"no farewell", []⟩) := ⟨_, _, by rfl, by rfl, by rfl⟩
  have hnotes : masked.notes = [first, .workerPanic 1 (.text "torn")] := by rfl
  refine ⟨⟨hreachable, hhook, hnotes⟩, ?_⟩
  obtain ⟨fault, hreturned, -, hfault, hiff⟩ :=
    masked_iff hreachable hhook (.inr ⟨_, _, rfl⟩) hnotes
  refine ⟨fault, hreturned, hfault _ _ rfl, fun hmem => ?_⟩
  rcases hiff.mp hmem with heq | ⟨stage, cause, hmode, heq⟩
  · cases heq
  · cases hmode
    simp [first] at heq

set_option maxRecDepth 1024 in
/-- **A captured fault can be masked.** A hook that takes a delivery has failed, the latch has
captured that failure, and the hook for the end of the run fails as well. Stopping then reports the
second failure, and the captured fault is not among its sources. -/
theorem captured_fault_lost :
    let first : Fault := .hook ⟨.process, ⟨"no room", ["disk full"]⟩⟩
    masked.chronicle.pipeline.latch.caught = some first ∧
    ∃ fault, (masked.move .alarms (.event .operate)).host.results = [(3, .failed fault)] ∧
      fault.texts = ["failed to shutdown protocol", "Shutdown protocol error: no farewell",
        "no farewell"] ∧
      ¬ first ∈ fault.sources := by
  intro first
  refine ⟨by rfl, .within .shutdown (.hook ⟨.shutdown, ⟨"no farewell", []⟩⟩), by rfl, by rfl,
    fun hmem => ?_⟩
  simp [Fault.sources, first] at hmem

end Observed

end SharedFetch
