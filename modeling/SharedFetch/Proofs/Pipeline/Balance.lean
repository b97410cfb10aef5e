import SharedFetch.Proofs.Pipeline.Change

/-!
# The balance of the counters

The counters are kept in different places of the coordinator, before and after it waits for the
lock and for hooks. What was counted since some moment (`Counters.since`) nevertheless adds up at
every point where the coordinator may stand, once what it has in hand is taken into account: a
reference that it has taken and not resolved (`Phase.unsettled`), and the references of a fan-out
that is not yet counted (`Phase.owed`). Counters wrap, and the sums are meant modulo the same.

## Main results

* `Pipeline.InBalance.coordinatorStep`: every step of a coordinator that goes on keeps the balance.
-/

namespace SharedFetch

namespace Counters

/-- What was counted since the counters were at `base`. The two gauges are what they are. -/
def since (c base : Counters) : Counters where
  references := c.references - base.references
  resolutionFailures := c.resolutionFailures - base.resolutionFailures
  coalesced := c.coalesced - base.coalesced
  dispatched := c.dispatched - base.dispatched
  completions := c.completions - base.completions
  fetchFailures := c.fetchFailures - base.fetchFailures
  cancelledFetches := c.cancelledFetches - base.cancelledFetches
  deliveries := c.deliveries - base.deliveries
  inFlight := c.inFlight
  poolSize := c.poolSize

/-- What is recorded now is counted since then. -/
theorem since_record (c base : Counters) (change : Change) :
    (c.record change).since base = (c.since base).record change := by
  cases change <;> simp only [since, record, mk.injEq, true_and, and_true] <;> grind

/-- Counters that add up, with `pending` locations in the slot, `unsettled` references taken and
not resolved, `size` locations in flight, for which `waiting` references wait, and a fan-out to
`owed` references that is not yet counted. -/
structure Balance (t : Counters) (pending unsettled : UInt64) (size waiting owed : Nat) :
    Prop where
  references : t.references =
    t.resolutionFailures + t.coalesced + t.dispatched + pending + unsettled
  dispatched : t.dispatched + pending = t.completions + UInt64.ofNat size
  deliveries : t.references = t.resolutionFailures + t.deliveries + UInt64.ofNat waiting +
    UInt64.ofNat owed + unsettled

namespace Balance

variable {t : Counters} {pending : UInt64} {size waiting owed : Nat}

/-- Nothing was counted yet. -/
theorem zero (c : Counters) : (c.since c).Balance 0 0 0 0 0 := by
  constructor <;> simp [since]

/-- A gauge is no counter. -/
theorem gauged {unsettled : UInt64} (h : t.Balance pending unsettled size waiting owed)
    (n : UInt64) : (t.record (.inFlight n)).Balance pending unsettled size waiting owed :=
  ⟨h.references, h.dispatched, h.deliveries⟩

/-- A reference is taken. -/
theorem took (h : t.Balance pending 0 size waiting 0) :
    (t.record .reference).Balance pending 1 size waiting 0 := by
  obtain ⟨hreferences, hdispatched, hdeliveries⟩ := h
  constructor <;> simp only [record] <;> grind

/-- A reference is resolved to a new location. -/
theorem admitted (h : t.Balance 0 1 size waiting 0) :
    t.Balance 1 0 (size + 1) (waiting + 1) 0 := by
  obtain ⟨hreferences, hdispatched, hdeliveries⟩ := h
  refine ⟨?_, ?_, ?_⟩
  · grind
  · rw [UInt64.ofNat_add]
    grind
  · rw [UInt64.ofNat_add]
    grind

/-- A reference is resolved to a location in flight. -/
theorem coalesced (h : t.Balance pending 1 size waiting 0) :
    (t.record .coalesced).Balance pending 0 size (waiting + 1) 0 := by
  obtain ⟨hreferences, hdispatched, hdeliveries⟩ := h
  constructor <;> simp only [record, UInt64.ofNat_add] <;> grind

/-- A reference cannot be resolved. -/
theorem unresolvable (h : t.Balance pending 1 size waiting 0) :
    (t.record .resolutionFailure).Balance pending 0 size waiting 0 := by
  obtain ⟨hreferences, hdispatched, hdeliveries⟩ := h
  constructor <;> simp only [record] <;> grind

/-- The location in the slot is put into the dispatch queue. -/
theorem placed (h : t.Balance 1 0 size waiting 0) :
    (t.record .dispatch).Balance 0 0 size waiting 0 := by
  obtain ⟨hreferences, hdispatched, hdeliveries⟩ := h
  constructor <;> simp only [record] <;> grind

/-- A completion is taken, and its references are about to be served. -/
theorem completed (h : t.Balance pending 0 (size + 1) (waiting + owed) 0) :
    (t.record .completion).Balance pending 0 size waiting owed := by
  obtain ⟨hreferences, hdispatched, hdeliveries⟩ := h
  simp only [UInt64.ofNat_add] at hdispatched hdeliveries
  constructor <;> simp only [record] <;> grind

/-- The deliveries of a fan-out are counted. -/
theorem fannedOut (h : t.Balance pending 0 size waiting owed) :
    (t.record (.deliveries (UInt64.ofNat owed))).Balance pending 0 size waiting 0 := by
  obtain ⟨hreferences, hdispatched, hdeliveries⟩ := h
  constructor <;> simp only [record] <;> grind

end Balance

end Counters

namespace Phase

/-- The number of references that were taken and not yet resolved. -/
@[simp] def unsettled : Phase → UInt64
  | .resolving _ => 1
  | _ => 0

/-- The number of references of a fan-out whose deliveries are not yet counted. -/
@[simp] def owed : Phase → Nat
  | .fanningOut _ rest => rest.length
  | .delivering _ rest delivered => rest.length + delivered
  | .inProcess _ _ _ rest delivered => rest.length + (delivered + 1)
  | _ => 0

end Phase

/-- The number of locations that wait in the slot. -/
def Coordinator.pending (c : Coordinator) : UInt64 :=
  if c.slot.isSome then 1 else 0

namespace Pipeline

variable {p q : Pipeline} {base : Counters}

/-- What was counted since `base` adds up with what the coordinator has in hand. -/
def InBalance (base : Counters) (p : Pipeline) : Prop :=
  (p.counters.since base).Balance p.coordinator.pending p.coordinator.phase.unsettled
    p.coordinator.waiters.size p.coordinator.waiters.waiting p.coordinator.phase.owed

namespace InBalance

/-- The coordinator turns to something else, and nothing is counted. -/
theorem turned (h : InBalance base p) (hcounters : q.counters = p.counters)
    (hwaiters : q.coordinator.waiters = p.coordinator.waiters)
    (hslot : q.coordinator.slot = p.coordinator.slot)
    (hunsettled : q.coordinator.phase.unsettled = p.coordinator.phase.unsettled)
    (howed : q.coordinator.phase.owed = p.coordinator.phase.owed) : InBalance base q := by
  rw [InBalance, hcounters, Coordinator.pending, hslot, hwaiters, hunsettled, howed]
  exact h

/-- A step of a coordinator that goes on keeps the balance, provided that the slot is free when a
location fills it. -/
theorem coordinatorStep (h : InBalance base p)
    (hslot : ∀ r, p.coordinator.phase = .resolving r → p.coordinator.slot = none)
    (hstep : p.CoordinatorStep q) (hrunning : q.isOver = false) : InBalance base q := by
  have hstart := h
  rw [InBalance] at h
  cases hstep with
  | @completed c rest references waiters hlooks hopen hitems hfound =>
      obtain ⟨hsize, hwaiting⟩ := Waiters.size_of_complete? hfound
      rw [hlooks.phase, hsize, hwaiting] at h
      rw [InBalance, Counters.since_record, Counters.since_record]
      exact h.completed.gauged _
  | dispatched hlooks hnone hfull hopen hroom =>
      rw [hlooks.phase, Coordinator.pending, hfull] at h
      rw [InBalance, Counters.since_record, hlooks.phase]
      exact h.placed
  | took hlooks hnone hfree hopen hitems =>
      rw [hlooks.phase] at h
      rw [InBalance, Counters.since_record]
      exact h.took
  | admitted hphase hlock htarget henroll =>
      obtain ⟨hsize, hwaiting⟩ := Waiters.size_of_dispatch henroll
      rw [hphase, Coordinator.pending, hslot _ hphase] at h
      rw [InBalance, Counters.since_record, hsize, hwaiting]
      exact h.admitted.gauged _
  | coalesced hphase hlock htarget henroll =>
      obtain ⟨hsize, hwaiting⟩ := Waiters.size_of_coalesced henroll
      rw [hphase] at h
      rw [InBalance, Counters.since_record, hsize, hwaiting]
      exact h.coalesced
  | unresolvable hphase hlock htarget =>
      rw [hphase] at h
      rw [InBalance, Counters.since_record]
      exact h.unresolvable
  | fanOutEnded hphase =>
      rw [hphase, Phase.owed, List.length_nil, Nat.zero_add] at h
      rw [InBalance, Counters.since_record]
      exact h.fannedOut
  | completionsEnded hlooks | intakeEnded hlooks => exact hstart.turned rfl rfl rfl rfl rfl
  | calledUnresolved hphase | unresolvedSucceeded hphase | fanOutBegun hphase
  | processSucceeded hphase =>
      exact hstart.turned rfl rfl rfl (by rw [hphase]; rfl) (by rw [hphase]; rfl)
  | calledProcess hphase =>
      refine hstart.turned rfl rfl rfl (by rw [hphase]; rfl) ?_
      rw [hphase, Phase.owed, Phase.owed, List.length_cons]
      omega
  | drained | interrupted | resolvePanicked | unresolvedPanicked | processPanicked
  | unresolvedDropped | processDropped => cases hrunning
  | stray | stranded | undispatchable | unresolvedFailed | processFailed =>
      rw [abort_eq] at hrunning
      cases hrunning

end InBalance

end Pipeline

end SharedFetch
