import SharedFetch.Proofs.Pipeline.Staff

/-!
# The faults that alarms carry

The latch is given a fault by every coordinator that ends with one and by every worker that fails or
panics, and captures the first. The journal shows only that one, so what was given to the latch is
read off the ends of coordinator and workers (`Pipeline.raised`). A change of the pipeline keeps
what is captured, or captures the first fault that it gives to the latch (`Change.captures`).

## Main results

* `Change.captures`: what a change captures.
* `Change.raised_of_failed`: a coordinator that ends with a fault has given one to the latch.
-/

namespace SharedFetch

namespace Fault

/-- The fault that was given to the latch, if this is the one that came back. -/
def origin : Fault → Fault
  | .captured inner => inner
  | fault => fault

/-- Whether a fault is one that somebody in a pipeline may find, rather than one that is reported at
the end of a run. -/
def isFound : Fault → Bool
  | .captured _ | .within .shutdown _ => false
  | _ => true

theorem origin_of_isFound {fault : Fault} (h : fault.isFound = true) : fault.origin = fault := by
  cases fault with
  | captured inner => cases h
  | _ => rfl

end Fault

/-- An alarm comes back captured, or as it was. -/
theorem Latch.origin_returned (l : Latch) (tokens : Tokens) {alarm : Alarm}
    (h : alarm.fault.isFound = true) : (l.trigger tokens alarm).returned.origin = alarm.fault := by
  rw [trigger]
  split
  · exact Fault.origin_of_isFound h
  · rfl

namespace Phase

/-- The fault that a coordinator has given to the latch when it goes from one phase to another. -/
def raised : Phase → Phase → List Fault
  | .ended _, _ => []
  | _, .ended (.failed fault) => [fault.origin]
  | _, _ => []

theorem raised_self (phase : Phase) : phase.raised phase = [] := by
  cases phase <;> rfl

theorem raised_ended {phase : Phase} {fault : Fault} (h : ∀ ending, phase ≠ .ended ending) :
    phase.raised (.ended (.failed fault)) = [fault.origin] := by
  cases phase with
  | ended ending => exact absurd rfl (h ending)
  | _ => rfl

/-- A coordinator that goes on, or ends without a fault, has given none. -/
theorem raised_eq_nil {phase after : Phase} (h : ∀ fault, after ≠ .ended (.failed fault)) :
    phase.raised after = [] := by
  cases after with
  | ended ending =>
      cases ending with
      | failed fault => exact absurd rfl (h fault)
      | done | panicked => cases phase <;> rfl
  | _ => cases phase <;> rfl

end Phase

namespace Pipeline

variable {p q r : Pipeline}

/-- The fault that a worker has given to the latch when it has ended. -/
def raisedBy (e : Nat × Ending) : Option Fault :=
  (workerAlarm? e.1 e.2).map Alarm.fault

/-- The faults that were given to the latch between one pipeline and another. -/
def raised (p q : Pipeline) : List Fault :=
  p.coordinator.phase.raised q.coordinator.phase ++
    (q.pool.gone.drop p.pool.gone.length).filterMap raisedBy

/-- Nobody has ended. -/
theorem raised_eq_nil (hphase : p.coordinator.phase.raised q.coordinator.phase = [])
    (hgone : q.pool.gone = p.pool.gone) : p.raised q = [] := by
  rw [raised, hphase, hgone, List.drop_length]
  rfl

/-- What is captured is kept, and otherwise the first fault given to the latch is captured. -/
def Captures (p q : Pipeline) : Prop :=
  q.latch.caught = p.latch.caught.or (p.raised q).head?

theorem Captures.of_nil (hlatch : q.latch.caught = p.latch.caught) (hraised : p.raised q = []) :
    Captures p q := by
  rw [Captures, hlatch, hraised, List.head?_nil, Option.or_none]

/-- A coordinator ends with an alarm. -/
theorem raised_abort {alarm : Alarm} (hrunning : p.isOver = false) (hpool : r.pool = p.pool)
    (halarm : alarm.fault.isFound = true) : p.raised (r.abort alarm) = [alarm.fault] := by
  have hgoing : ∀ ending, p.coordinator.phase ≠ .ended ending := by
    intro ending hphase
    simp [isOver, hphase] at hrunning
  rw [raised, abort_eq]
  simp only [finish, hpool, List.drop_length, List.filterMap_nil, List.append_nil]
  rw [Phase.raised_ended hgoing, Latch.origin_returned _ _ halarm]

theorem Captures.abort {alarm : Alarm} (hrunning : p.isOver = false) (hpool : r.pool = p.pool)
    (hlatch : r.latch = p.latch) (hcoherent : p.latch.Coherent)
    (halarm : alarm.fault.isFound = true) : Captures p (r.abort alarm) := by
  rw [Captures, raised_abort hrunning hpool halarm, abort_eq]
  simp only [finish, hlatch, hcoherent.caught_trigger, List.head?_cons]
  cases p.latch.caught <;> rfl

/-- A coordinator that takes a step gives a fault to the latch only if it ends with that. -/
theorem CoordinatorStep.raised_eq_nil_or_abort (h : p.CoordinatorStep q) :
    (p.raised q = [] ∧ q.latch = p.latch ∧ ∀ fault, q.coordinator.phase ≠ .ended (.failed fault)) ∨
      ∃ (r : Pipeline) (alarm : Alarm), q = r.abort alarm ∧ r.pool = p.pool ∧ r.latch = p.latch ∧
        alarm.fault.isFound = true := by
  have hpool := h.pool
  have hgoes : (∀ fault, q.coordinator.phase ≠ .ended (.failed fault)) →
      p.raised q = [] := fun hphase =>
    raised_eq_nil (Phase.raised_eq_nil hphase) (by rw [hpool])
  cases h with
  | stray | stranded | undispatchable | unresolvedFailed | processFailed =>
      exact .inr ⟨_, _, rfl, rfl, rfl, rfl⟩
  | completionsEnded hlooks | dispatched hlooks | intakeEnded hlooks =>
      have hphase : ∀ fault, p.coordinator.phase ≠ .ended (.failed fault) := by
        intro fault hended
        cases hlooks.phase.symm.trans hended
      exact .inl ⟨hgoes hphase, rfl, hphase⟩
  | _ =>
      refine .inl ⟨hgoes ?_, rfl, ?_⟩ <;>
      · intro fault hended
        cases hended

theorem CoordinatorStep.captures (h : p.CoordinatorStep q) (hcoherent : p.latch.Coherent) :
    Captures p q := by
  rcases h.raised_eq_nil_or_abort with ⟨hraised, hlatch, -⟩ | ⟨r, alarm, rfl, hpool, hlatch, halarm⟩
  · exact .of_nil (by rw [hlatch]) hraised
  · exact .abort h.running hpool hlatch hcoherent halarm

/-! ### The workers -/

/-- A worker leaves. -/
theorem raised_leave {id : Nat} {ending : Ending} (hcoordinator : r.coordinator = p.coordinator)
    (hpool : r.pool = p.pool) :
    p.raised (r.leave id ending) = (raisedBy (id, ending)).toList := by
  rw [raised, coordinator_leave, hcoordinator, Phase.raised_self, pool_leave, Pool.without, hpool]
  simp only [List.nil_append, List.drop_left]
  cases hraised : raisedBy (id, ending) <;> simp [hraised]

theorem Captures.leave {id : Nat} {ending : Ending} (hguarded : p.pool.guarded = true)
    (hcoordinator : r.coordinator = p.coordinator) (hpool : r.pool = p.pool)
    (hlatch : r.latch = p.latch) (hcoherent : p.latch.Coherent) :
    Captures p (r.leave id ending) := by
  rw [Captures, raised_leave hcoordinator hpool, raisedBy]
  cases halarm : workerAlarm? id ending with
  | none => simp [Pipeline.leave, halarm, hlatch]
  | some alarm =>
      rw [(leave_alarmed (hpool ▸ hguarded) halarm).1, hlatch, hcoherent.caught_trigger]
      cases p.latch.caught <;> rfl

/-- A worker that takes a step gives a fault to the latch only if it leaves. -/
theorem WorkerStep.raised_eq_nil_or_leave (h : p.WorkerStep q) :
    (p.raised q = [] ∧ q.latch = p.latch) ∨
      ∃ (r : Pipeline) (id : Nat) (ending : Ending), q = r.leave id ending ∧
        r.coordinator = p.coordinator ∧ r.pool = p.pool ∧ r.latch = p.latch := by
  cases h with
  | quit | dismissed | callPanicked | fetchPanicked | handedInLast | undelivered =>
      exact .inr ⟨_, _, _, rfl, rfl, rfl, rfl⟩
  | took | called | fetched | fetchFailed | fetchDropped | handedIn =>
      exact .inl ⟨raised_eq_nil (Phase.raised_self _) rfl, rfl⟩

theorem WorkerStep.captures (h : p.WorkerStep q) (hguarded : p.pool.guarded = true)
    (hcoherent : p.latch.Coherent) : Captures p q := by
  rcases h.raised_eq_nil_or_leave with
    ⟨hraised, hlatch⟩ | ⟨r, id, ending, rfl, hcoordinator, hpool, hlatch⟩
  · exact .of_nil (by rw [hlatch]) hraised
  · exact .leave hguarded hcoordinator hpool hlatch hcoherent

/-- A worker finds what it gives to the latch. -/
theorem isFound_of_raisedBy {e : Nat × Ending} {fault : Fault} (h : raisedBy e = some fault) :
    fault.isFound = true := by
  obtain ⟨id, ending⟩ := e
  cases ending with
  | done => cases h
  | failed inner => cases h; rfl
  | panicked payload => cases h; rfl

/-! ### Changes -/

/-- Where nobody takes a step, nobody ends. -/
theorem raised_releaseHook (p : Pipeline) (mode : HookMode) : p.raised (p.releaseHook mode) = [] := by
  rcases exists_releaseHook p mode with heq | ⟨phase, hrunning, heq, hphase⟩
  · rw [heq]
    exact raised_eq_nil (Phase.raised_self _) rfl
  · rw [heq]
    refine raised_eq_nil (Phase.raised_eq_nil fun fault hended => ?_) rfl
    rcases hphase with ⟨r, -, rfl⟩ | ⟨r, outcome, rest, delivered, -, rfl⟩ <;> cases hended

theorem raised_releaseFetch (p : Pipeline) (j : Job) (mode : FetchMode) :
    p.raised (p.releaseFetch j mode) = [] := by
  rw [releaseFetch]
  split <;> exact raised_eq_nil (Phase.raised_self _) rfl

theorem SparesTasks.raised (h : p.SparesTasks q) : p.raised q = [] :=
  raised_eq_nil (by rw [h.coordinator]; exact Phase.raised_self _) h.gone

/-- **What a change captures.** A run that is through is meant to keep its latch. -/
theorem Change.captures (h : p.Change q) (hguarded : p.pool.guarded = true)
    (hcoherent : p.latch.Coherent) (hlatch : p.Finished → q.latch = p.latch) : Captures p q := by
  cases h with
  | coordinated hstep => exact hstep.captures hcoherent
  | worked hstep => exact hstep.captures hguarded hcoherent
  | hookReleased mode =>
      refine .of_nil ?_ (raised_releaseHook p mode)
      rw [releaseHook_eq]
  | fetchReleased hj mode =>
      refine .of_nil ?_ (raised_releaseFetch p _ mode)
      rw [releaseFetch_eq]
  | tasksSpared hspares hkept => exact .of_nil (by rw [hkept]) hspares.raised
  | renewed hspares hfinished => exact .of_nil (by rw [hlatch hfinished]) hspares.raised

/-- A coordinator that ends with a fault has given one to the latch. -/
theorem Change.raised_of_failed (h : p.Change q) {fault : Fault}
    (hended : q.coordinator.phase = .ended (.failed fault)) :
    p.coordinator.phase = .ended (.failed fault) ∨ p.raised q ≠ [] := by
  cases h with
  | coordinated hstep =>
      rcases hstep.raised_eq_nil_or_abort with
        ⟨-, -, hphase⟩ | ⟨r, alarm, rfl, hpool, -, halarm⟩
      · exact absurd hended (hphase fault)
      · exact .inr (by simp [raised_abort hstep.running hpool halarm])
  | worked hstep => exact .inl (hstep.coordinator ▸ hended)
  | hookReleased mode =>
      rcases exists_releaseHook p mode with heq | ⟨phase, -, heq, hphase⟩
      · exact .inl (heq ▸ hended)
      · rw [heq] at hended
        rcases hphase with ⟨r, -, rfl⟩ | ⟨r, outcome, rest, delivered, -, rfl⟩ <;> cases hended
  | fetchReleased hj mode =>
      exact .inl ((sparesCoordinator_releaseFetch p _ mode).coordinator ▸ hended)
  | tasksSpared hspares | renewed hspares => exact .inl (hspares.coordinator ▸ hended)

/-- Nobody gives the latch a fault that is only reported at the end of a run. -/
theorem Change.isFound (h : p.Change q) : ∀ fault ∈ p.raised q, fault.isFound = true := by
  intro fault hfault
  cases h with
  | coordinated hstep =>
      rcases hstep.raised_eq_nil_or_abort with ⟨hraised, -⟩ | ⟨r, alarm, rfl, hpool, -, halarm⟩
      · rw [hraised] at hfault
        cases hfault
      · rw [raised_abort hstep.running hpool halarm, List.mem_singleton] at hfault
        exact hfault ▸ halarm
  | worked hstep =>
      rcases hstep.raised_eq_nil_or_leave with
        ⟨hraised, -⟩ | ⟨r, id, ending, rfl, hcoordinator, hpool, -⟩
      · rw [hraised] at hfault
        cases hfault
      · rw [raised_leave hcoordinator hpool, Option.mem_toList] at hfault
        exact isFound_of_raisedBy hfault
  | hookReleased mode =>
      rw [raised_releaseHook] at hfault
      cases hfault
  | fetchReleased hj mode =>
      rw [raised_releaseFetch] at hfault
      cases hfault
  | tasksSpared hspares | renewed hspares =>
      rw [hspares.raised] at hfault
      cases hfault

/-- In a run that is through nobody gives anything to the latch. -/
theorem Change.raised_of_finished (h : p.Change q) (hfinished : p.Finished) : p.raised q = [] := by
  cases h with
  | coordinated hstep =>
      have hrunning := hstep.running
      rw [hfinished.ended] at hrunning
      cases hrunning
  | worked hstep =>
      have hstaffed := hstep.isGone_eq_false
      rw [hfinished.gone] at hstaffed
      cases hstaffed
  | hookReleased mode => exact raised_releaseHook p mode
  | fetchReleased hj mode => exact raised_releaseFetch p _ mode
  | tasksSpared hspares | renewed hspares => exact hspares.raised

/-- A coordinator that is through stays so. -/
theorem Change.ending? (h : p.Change q) {ending : Ending} (hended : p.ending? = some ending) :
    q.ending? = some ending := by
  have hover := isOver_of_ending? hended
  have hkept : q.coordinator = p.coordinator → q.ending? = some ending := by
    intro hcoordinator
    rwa [Pipeline.ending?, hcoordinator]
  rcases h.cases with hstep | ⟨mode, rfl⟩ | hspares
  · have hrunning := hstep.running
    rw [hover] at hrunning
    cases hrunning
  · rcases exists_releaseHook p mode with heq | ⟨phase, hrunning, -⟩
    · rwa [heq]
    · rw [hover] at hrunning
      cases hrunning
  · exact hkept hspares.coordinator

end Pipeline

end SharedFetch
