import SharedFetch.Proofs.Host.Observer
import SharedFetch.Proofs.Pipeline.Balance

/-!
# Conservation laws of the counters

Since the launch of a run every reference that was taken is one that could not be resolved, one
that has joined others, or one with which a location was admitted; every location that was admitted
has been completed or is in flight; and every reference that was taken is one that could not be
resolved, has been served, or waits. The laws hold whenever the coordinator is between two events,
and at the end of a run that was drained. Workers and callers have no part in them: they only write
other counters.

## Main results

* `Observed.counters_conserved`: the conservation laws along every course of moves.
-/

namespace SharedFetch

open Pipeline

/-- The counters at the launch of the run. -/
def Observer.baseline : Observer Counters where
  blank p := p.counters
  note base _ _ := base

/-- The locations that were admitted in a run. -/
def Ledger.admitted (g : Ledger) (c : Coordinator) : List Location :=
  g.dispatched ++ c.slot.toList

namespace Pipeline

variable {p q : Pipeline} {base : Counters}

/-- The balance is a matter of the coordinator and its counters. -/
theorem InBalance.congr (h : InBalance base p)
    (hcounters : q.counters.coordinators = p.counters.coordinators)
    (hcoordinator : q.coordinator = p.coordinator) : InBalance base q := by
  simp only [Counters.coordinators, Counters.mk.injEq] at hcounters
  obtain ⟨hreferences, hfailures, hcoalesced, hdispatched, hcompletions, -, -, hdeliveries, -⟩ :=
    hcounters
  rw [InBalance, hcoordinator]
  refine ⟨?_, ?_, ?_⟩
  · simp only [Counters.since, hreferences, hfailures, hcoalesced, hdispatched]
    exact h.references
  · simp only [Counters.since, hdispatched, hcompletions]
    exact h.dispatched
  · simp only [Counters.since, hreferences, hfailures, hdeliveries]
    exact h.deliveries

end Pipeline

/-- The counters add up while the coordinator goes on, and after it has drained. Once a location
was admitted, the gauge shows how many are in flight. -/
structure Record.Tallies (base : Counters) (r : Record) (p : Pipeline) : Prop where
  balance : p.isOver = false ∨ .note .drained ∈ p.entriesFrom r.since → p.InBalance base
  gauge : p.isOver = false → r.ledger.admitted p.coordinator ≠ [] →
    p.counters.inFlight = UInt64.ofNat p.coordinator.waiters.size

namespace Record.Tallies

variable {p q : Pipeline} {r : Record} {base : Counters}

/-- Nothing is admitted but into the slot, and when it is, the gauge is set. -/
theorem gauge_coordinatorStep (h : r.Tallies base p) (hstep : p.CoordinatorStep q)
    (hrunning : q.isOver = false) (hadmitted : (r.ledger.follow p q).admitted q.coordinator ≠ []) :
    q.counters.inFlight = UInt64.ofNat q.coordinator.waiters.size := by
  have hgauge := h.gauge hstep.running
  cases hstep with
  | completed | admitted => rfl
  | dispatched hlooks hnone hfull hopen hroom =>
      refine hgauge ?_
      rw [Ledger.admitted, hfull]
      simp
  | coalesced hphase hlock htarget henroll =>
      rw [(Waiters.size_of_coalesced henroll).1]
      refine hgauge ?_
      simpa [Ledger.admitted, Ledger.follow] using hadmitted
  | took | completionsEnded | intakeEnded | unresolvable | calledUnresolved
  | unresolvedSucceeded | fanOutBegun | fanOutEnded | calledProcess | processSucceeded =>
      refine hgauge ?_
      simpa [Ledger.admitted, Ledger.follow] using hadmitted
  | drained | interrupted | resolvePanicked | unresolvedPanicked | processPanicked
  | unresolvedDropped | processDropped => cases hrunning
  | stray | stranded | undispatchable | unresolvedFailed | processFailed =>
      rw [abort_eq] at hrunning
      cases hrunning

/-- The coordinator takes a step. -/
theorem coordinated (h : r.Tallies base p) (hholds : r.Holds p) (hstep : p.CoordinatorStep q) :
    (r.follow p q).Tallies base q := by
  have hbalanced := h.balance (.inl hstep.running)
  rw [follow_of_era_eq (Change.coordinated hstep).era]
  refine ⟨fun hcase => ?_, h.gauge_coordinatorStep hstep⟩
  cases hover : q.isOver with
  | false =>
      exact hbalanced.coordinatorStep (fun _ => hholds.faithful.slot_eq_none) hstep hover
  | true =>
      -- only a coordinator that has drained says so
      rcases hcase with hrunning | hdrained
      · rw [hover] at hrunning
        cases hrunning
      · obtain ⟨new, hwrites⟩ := hstep.exists_writes
        rw [entriesFrom_append hholds.since hwrites.journal, List.mem_append,
          List.mem_reverse] at hdrained
        rcases hdrained with hold | hnew
        · have hrunning := hstep.running
          rw [isOver, (hholds.drained hold).phase] at hrunning
          cases hrunning
        · obtain ⟨hphase, hempty⟩ := hwrites.drained hnew
          rw [hstep.eq_of_isDrained hphase hempty]
          exact hbalanced.turned rfl rfl rfl (by rw [hphase]; rfl) (by rw [hphase]; rfl)

/-- Something happens that the coordinator has no part in. -/
theorem sparesCoordinator (h : r.Tallies base p) (hholds : r.Holds p)
    (hspares : SparesCoordinator p q) : (r.follow p q).Tallies base q := by
  rw [follow_of_era_eq hspares.intake.era, hspares.follow]
  refine ⟨fun hcase => (h.balance ?_).congr hspares.counters hspares.coordinator, ?_⟩
  · rw [hspares.isOver] at hcase
    exact hcase.imp_right (hspares.mem_entriesFrom hholds.since rfl)
  · rw [hspares.isOver, hspares.coordinator]
    intro hrunning hadmitted
    rw [← h.gauge hrunning hadmitted]
    exact congrArg (fun c => c.inFlight) hspares.counters

/-- A hook that was held is given its answer. -/
theorem hookReleased (h : r.Tallies base p) (hholds : r.Holds p) (mode : HookMode) :
    (r.follow p (p.releaseHook mode)).Tallies base (p.releaseHook mode) := by
  have hera := (Change.hookReleased (p := p) mode).era
  rcases exists_releaseHook p mode with heq | ⟨phase, hrunning, heq, hphase⟩
  · rw [heq]
    exact h.sparesCoordinator hholds (SparesTasks.refl p).sparesCoordinator
  · rw [heq] at hera ⊢
    rw [follow_of_era_eq hera]
    refine ⟨fun _ => (h.balance (.inl hrunning)).turned rfl rfl rfl ?_ ?_, fun _ hadmitted =>
      h.gauge hrunning (by simpa [Ledger.admitted, Ledger.follow, turnTo] using hadmitted)⟩
    · rcases hphase with ⟨r, hphase, rfl⟩ | ⟨r, outcome, rest, delivered, hphase, rfl⟩ <;>
        (rw [hphase]; rfl)
    · rcases hphase with ⟨r, hphase, rfl⟩ | ⟨r, outcome, rest, delivered, hphase, rfl⟩ <;>
        (rw [hphase]; rfl)

/-- Every change keeps the counters in balance. -/
theorem change (h : r.Tallies base p) (hholds : r.Holds p) (hchange : p.Change q) :
    (r.follow p q).Tallies base q := by
  rcases hchange.cases with hstep | ⟨mode, rfl⟩ | hspares
  · exact h.coordinated hholds hstep
  · exact h.hookReleased hholds mode
  · exact h.sparesCoordinator hholds hspares

/-- A new run begins with nothing counted. -/
theorem launched (hlaunched : p.Launched q) :
    Tallies q.counters { since := q.journal.length } q := by
  refine ⟨fun _ => ?_, fun _ hadmitted => ?_⟩
  · rw [InBalance, hlaunched.coordinator]
    exact Counters.Balance.zero q.counters
  · rw [Ledger.admitted, hlaunched.coordinator] at hadmitted
    exact absurd rfl hadmitted

end Record.Tallies

namespace Observed

open Scenario (HostBench)

/-- Along every course of moves the counters are in balance. -/
theorem Reachable.tallies {o : Observed Counters} (h : o.Reachable Observer.baseline) :
    o.chronicle.record.Tallies o.notes o.chronicle.pipeline := by
  refine h.invariant (J := fun base r p => r.Tallies base p) ?_ ?_ ?_
  · -- the coordinator of a host that has never run has not drained
    rintro p ⟨kind, settings, protocol, tokens, rfl⟩
    exact ⟨fun hcase => by simp [isOver, Host.make, entriesFrom, history] at hcase, nofun⟩
  · exact fun _ _ p q hlaunched _ => .launched hlaunched
  · exact fun base r p q hholds hchange htallies => htallies.change hholds hchange

/-- **The conservation laws of the counters.** Whenever the coordinator is between two events, with
`s` locations in its slot, what was counted since the launch of the run satisfies the three laws,
and once a location was admitted the gauge is the number of locations in flight. After a drained
end the laws hold with nothing in flight and nothing waiting. -/
theorem counters_conserved {o : Observed Counters} (h : o.Reachable Observer.baseline) :
    let p := o.chronicle.pipeline
    let t := p.counters.since o.notes
    let s := p.coordinator.pending
    (p.coordinator.phase = .choosing →
      t.references = t.resolutionFailures + t.coalesced + t.dispatched + s ∧
      t.dispatched + s = t.completions + UInt64.ofNat p.coordinator.waiters.size ∧
      t.references =
        t.resolutionFailures + t.deliveries + UInt64.ofNat p.coordinator.waiters.waiting ∧
      (o.chronicle.ledger.admitted p.coordinator ≠ [] →
        p.counters.inFlight = UInt64.ofNat p.coordinator.waiters.size)) ∧
    (.note .drained ∈ o.chronicle.entries →
      t.references = t.resolutionFailures + t.deliveries ∧
      t.references = t.resolutionFailures + t.coalesced + t.dispatched ∧
      t.completions = t.dispatched) := by
  intro p t s
  have htallies := h.tallies
  have hholds := h.chronicle.sound.holds
  refine ⟨fun hphase => ?_, fun hdrained => ?_⟩
  · have hrunning : p.isOver = false := by rw [isOver, hphase]
    have hbalance := htallies.balance (.inl hrunning)
    rw [InBalance, hphase] at hbalance
    obtain ⟨hreferences, hdispatched, hdeliveries⟩ := hbalance
    refine ⟨?_, hdispatched, ?_, htallies.gauge hrunning⟩
    · simpa using hreferences
    · simpa using hdeliveries
  · have hended := hholds.drained hdrained
    have hempty : p.coordinator.waiters.entries = [] := by
      simpa [Waiters.isEmpty] using hended.waiters
    have hfree : p.coordinator.pending = 0 := by
      have hnil := hholds.owned.underway_eq_nil hended.waiters
      simp only [underway, List.append_eq_nil_iff, Option.toList_eq_nil_iff] at hnil
      rw [Coordinator.pending, hnil.1.1.1]
      rfl
    have hbalance := htallies.balance (.inr hdrained)
    rw [InBalance, hended.phase, hfree, Waiters.size, Waiters.waiting, Waiters.references,
      hempty] at hbalance
    obtain ⟨hreferences, hdispatched, hdeliveries⟩ := hbalance
    refine ⟨?_, ?_, ?_⟩
    · simpa using hdeliveries
    · simpa using hreferences
    · simpa using hdispatched.symm

/-- A host with a run behind it, in which one reference was served, and a second run with four
references: the first and the third lead to one location and are served, the second leads nowhere,
and the location of the fourth stands in the slot. -/
def relaunched : Observed Counters :=
  let references : List Reference :=
    [{ id := 1, target := .location (.number 7) }, { id := 2, target := .nowhere ⟨"gone", []⟩ },
      { id := 3, target := .location (.number 7) }, { id := 4, target := .location (.number 8) }]
  let coordinate : HostBench.Move := .event (.inside .coordinate)
  let work : HostBench.Move := .event (.inside (.work 0))
  let before : List HostBench.Move :=
    [.act 0 .start, .act 1 (.trySubmit (references.take 1)), .act 2 .drop] ++
      List.replicate 3 coordinate ++ List.replicate 4 work ++ List.replicate 8 coordinate
  let between : List HostBench.Move :=
    [.act 3 .stop, work, .event .quitReporter] ++ List.replicate 5 (.event .operate)
  let after : List HostBench.Move :=
    [.act 4 .start, .act 5 (.trySubmit references)] ++ List.replicate 11 coordinate ++
      List.replicate 4 work ++ List.replicate 7 coordinate
  (start .baseline .fetcher ⟨1, 8, 1, 1, ⟨5, 0⟩⟩ { otherwise := .content none } false).run .baseline
    (before ++ between ++ after)

set_option maxRecDepth 1024 in
/-- The laws in that run: of four references one could not be resolved, one has joined another, and
two locations were admitted, of which one is still in the slot. -/
theorem counters_conserved_relaunched :
    let p := relaunched.chronicle.pipeline
    let t := p.counters.since relaunched.notes
    relaunched.Reachable .baseline ∧
    p.coordinator.phase = .choosing ∧
    relaunched.notes.toList = [1, 0, 0, 1, 1, 0, 0, 1, 0] ∧
    t.toList = [4, 1, 1, 1, 1, 0, 0, 2, 1] ∧
    p.coordinator.pending = 1 ∧ p.coordinator.waiters.size = 1 ∧
    t.references = t.resolutionFailures + t.coalesced + t.dispatched + p.coordinator.pending := by
  have hreachable : relaunched.Reachable .baseline := ⟨_, _, _, _, _, rfl⟩
  have hphase : relaunched.chronicle.pipeline.coordinator.phase = .choosing := by rfl
  exact ⟨hreachable, hphase, by rfl, by rfl, by rfl, by rfl,
    ((counters_conserved hreachable).1 hphase).1⟩

end Observed

end SharedFetch
