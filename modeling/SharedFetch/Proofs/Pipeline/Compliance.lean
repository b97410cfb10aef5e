import SharedFetch.Proofs.Pipeline.Schedule

/-!
# Pipelines whose answers comply

Whether every hook succeeds and every fetch is held is a matter of what the pipeline will call, and
what it calls depends on the order in which coordinator and workers go on. It is enough to look at
what is in the pipeline at one time: if every reference that waits, in the intake or for a location,
has hooks that succeed, and every location on its way will be held, then this stays so
(`Compliant.coordinatorStep`, `Compliant.workerStep`), and whatever is called complies.

## Main results

* `Compliant.smooth_of_runs`: where all that is in the pipeline complies, every run is smooth.
-/

namespace SharedFetch

/-- Resolving the reference does not panic, its hooks succeed at once, and its location is the same
as itself and will be held. -/
structure Protocol.Serves (protocol : Protocol) (r : Reference) : Prop where
  resolves : ∀ payload, r.target ≠ .panic payload
  holds : ∀ l, r.target = .location l → (l == l) = true ∧ protocol.fetchMode l = .hold
  processes : r.process = .succeed
  reports : protocol.unresolvedMode r = .succeed

/-- Whatever the coordinator is at, and comes to by itself, succeeds at once. -/
def Phase.Complies (protocol : Protocol) : Phase → Prop
  | .resolving r => protocol.Serves r
  | .reporting r _ => protocol.unresolvedMode r = .succeed
  | .inUnresolved _ mode => mode = .succeed
  | .fanningOut _ rest | .delivering _ rest _ => ∀ r ∈ rest, r.process = .succeed
  | .inProcess _ mode _ rest _ => mode = .succeed ∧ ∀ r ∈ rest, r.process = .succeed
  | .choosing | .ended _ => True

/-- That a fetch is called changes nothing about the answers. -/
theorem Protocol.Serves.noteFetch {protocol : Protocol} {r : Reference} (h : protocol.Serves r)
    (l : Location) : (protocol.noteFetch l).Serves r :=
  ⟨h.resolves, h.holds, h.processes, h.reports⟩

theorem Phase.Complies.noteFetch {protocol : Protocol} {phase : Phase}
    (h : phase.Complies protocol) (l : Location) : phase.Complies (protocol.noteFetch l) := by
  cases phase with
  | resolving r => exact Protocol.Serves.noteFetch h l
  | _ => exact h

namespace Pipeline

variable {p q : Pipeline} {es : List Event} {j : Job}

/-- Of what is in the pipeline, every hook succeeds at once and every fetch is held. -/
structure Compliant (p : Pipeline) : Prop where
  phase : p.coordinator.phase.Complies p.protocol
  waiters : ∀ r ∈ p.coordinator.waiters.references, r.process = .succeed
  whole : ∀ l ∈ p.coordinator.waiters.locations, (l == l) = true
  intake : ∀ r ∈ p.intake.queue.items, p.protocol.Serves r
  fetches : ∀ l ∈ p.coordinator.slot.toList ++ p.dispatch.items, p.protocol.fetchMode l = .hold
  jobs : ∀ j ∈ p.pool.busy, j.stage = .awaitingLock → p.protocol.fetchMode j.location = .hold

namespace Compliant

theorem smooth (h : p.Compliant) : p.Smooth := by
  refine ⟨?_, h.jobs, h.whole⟩
  have hphase := h.phase
  cases hcase : p.coordinator.phase with
  | resolving r =>
      rw [hcase] at hphase
      exact hphase.resolves
  | inUnresolved r mode =>
      rw [hcase] at hphase
      exact hphase
  | inProcess r mode outcome rest delivered =>
      rw [hcase] at hphase
      exact hphase.1
  | _ => trivial

/-- The workers are left alone. -/
theorem coordinated (h : p.Compliant) (hprotocol : q.protocol = p.protocol) (hpool : q.pool = p.pool)
    (hphase : q.coordinator.phase.Complies p.protocol)
    (hwaiters : ∀ r ∈ q.coordinator.waiters.references, r.process = .succeed)
    (hwhole : ∀ l ∈ q.coordinator.waiters.locations, (l == l) = true)
    (hintake : ∀ r ∈ q.intake.queue.items, r ∈ p.intake.queue.items)
    (hfetches : ∀ l ∈ q.coordinator.slot.toList ++ q.dispatch.items,
      p.protocol.fetchMode l = .hold) : q.Compliant := by
  refine ⟨hprotocol ▸ hphase, hwaiters, hwhole, fun r hr => ?_, hprotocol ▸ hfetches, ?_⟩
  · rw [hprotocol]
    exact h.intake r (hintake r hr)
  · rw [hprotocol, hpool]
    exact h.jobs

/-- Only what the coordinator is at changes. -/
theorem turned (h : p.Compliant) (hprotocol : q.protocol = p.protocol) (hpool : q.pool = p.pool)
    (hphase : q.coordinator.phase.Complies p.protocol)
    (hwaiters : q.coordinator.waiters = p.coordinator.waiters)
    (hslot : q.coordinator.slot = p.coordinator.slot)
    (hintake : ∀ r ∈ q.intake.queue.items, r ∈ p.intake.queue.items)
    (hdispatch : q.dispatch.items = p.dispatch.items) : q.Compliant := by
  refine h.coordinated hprotocol hpool hphase ?_ ?_ hintake ?_
  · rw [hwaiters]
    exact h.waiters
  · rw [hwaiters]
    exact h.whole
  · rw [hslot, hdispatch]
    exact h.fetches

/-- What is in the pipeline complies after a step of the coordinator. -/
theorem coordinatorStep (h : p.Compliant) (hstep : p.CoordinatorStep q) : q.Compliant := by
  have hphase := h.phase
  cases hstep with
  | drained | interrupted | resolvePanicked | unresolvedPanicked | processPanicked
  | unresolvedDropped | processDropped =>
      exact h.turned rfl rfl trivial rfl rfl (List.forall_mem_nil _) rfl
  | stray | stranded | undispatchable | unresolvedFailed | processFailed =>
      rw [abort_eq]
      exact h.turned rfl rfl trivial rfl rfl (List.forall_mem_nil _) rfl
  | completionsEnded hlooks | intakeEnded hlooks =>
      exact h.turned rfl rfl (hlooks.phase ▸ trivial) rfl rfl (fun _ hr => hr) rfl
  | completed hlooks hopen hitems hfound =>
      obtain ⟨before, k, after, hw, -, -, rfl⟩ := Waiters.complete?_eq_some_iff.mp hfound
      refine h.coordinated rfl rfl ?_ ?_ ?_ (fun r hr => hr) h.fetches
      · intro r hr
        exact h.waiters r (by simp [Waiters.references, hw, hr])
      · intro r hr
        refine h.waiters r ?_
        simp only [Waiters.references, hw, List.flatMap_append, List.flatMap_cons,
          List.mem_append] at hr ⊢
        exact hr.imp_right .inr
      · intro l hl
        refine h.whole l ?_
        simp only [Waiters.locations, hw, List.map_append, List.map_cons, List.mem_append,
          List.mem_cons] at hl ⊢
        exact hl.imp_right .inr
  | dispatched hlooks hnone hslot =>
      refine h.coordinated rfl rfl (hlooks.phase ▸ trivial) h.waiters h.whole (fun r hr => hr) ?_
      intro l hl
      refine h.fetches l ?_
      simp only [Option.toList_none, List.nil_append, List.mem_append, List.mem_singleton] at hl
      simpa [hslot] using hl.symm
  | took hlooks hnone hslot hopen hitems =>
      refine h.coordinated rfl rfl ?_ h.waiters h.whole ?_ h.fetches
      · exact h.intake _ (hitems ▸ List.mem_cons_self)
      · exact fun r hr => hitems ▸ List.mem_cons_of_mem _ hr
  | admitted hresolving hlock htarget henroll =>
      rw [hresolving] at hphase
      obtain ⟨-, -, hwaiters⟩ := Waiters.enroll_eq_dispatch henroll
      obtain ⟨hwhole, hholds⟩ := hphase.holds _ htarget
      refine h.coordinated rfl rfl trivial ?_ ?_ (fun r hr => hr) ?_
      · rw [hwaiters]
        intro r hr
        simp only [Waiters.references, List.flatMap_append, List.flatMap_singleton,
          List.mem_append, List.mem_singleton] at hr
        rcases hr with hr | rfl
        · exact h.waiters r hr
        · exact hphase.processes
      · rw [hwaiters]
        intro l hl
        simp only [Waiters.locations, List.map_append, List.map_singleton, List.mem_append,
          List.mem_singleton] at hl
        rcases hl with hl | rfl
        · exact h.whole l hl
        · exact hwhole
      · intro l hl
        simp only [Option.toList_some, List.singleton_append, List.mem_cons] at hl
        rcases hl with rfl | hl
        · exact hholds
        · exact h.fetches l (List.mem_append_right _ hl)
  | coalesced hresolving hlock htarget henroll =>
      rw [hresolving] at hphase
      obtain ⟨before, k, rs, after, hw, -, -, -, hwaiters⟩ := Waiters.enroll_eq_coalesced henroll
      refine h.coordinated rfl rfl trivial ?_ ?_ (fun r hr => hr) h.fetches
      · rw [hwaiters]
        intro r hr
        simp only [Waiters.references, List.flatMap_append, List.flatMap_cons, List.mem_append,
          List.mem_singleton] at hr
        rcases hr with hr | (hr | rfl) | hr
        · exact h.waiters r (by simp [Waiters.references, hw, hr])
        · exact h.waiters r (by simp [Waiters.references, hw, hr])
        · exact hphase.processes
        · exact h.waiters r (by simp [Waiters.references, hw, hr])
      · rw [hwaiters]
        intro l hl
        refine h.whole l ?_
        simpa [Waiters.locations, hw] using hl
  | unresolvable hresolving =>
      rw [hresolving] at hphase
      exact h.turned rfl rfl hphase.reports rfl rfl (fun _ hr => hr) rfl
  | calledUnresolved hreporting =>
      rw [hreporting] at hphase
      exact h.turned rfl rfl hphase rfl rfl (fun _ hr => hr) rfl
  | unresolvedSucceeded | fanOutEnded => exact h.turned rfl rfl trivial rfl rfl (fun _ hr => hr) rfl
  | fanOutBegun hfanning =>
      rw [hfanning] at hphase
      exact h.turned rfl rfl hphase rfl rfl (fun _ hr => hr) rfl
  | calledProcess hdelivering =>
      rw [hdelivering] at hphase
      exact h.turned rfl rfl ⟨hphase _ List.mem_cons_self,
        fun r hr => hphase r (List.mem_cons_of_mem _ hr)⟩ rfl rfl (fun _ hr => hr) rfl
  | processSucceeded hhook =>
      rw [hhook] at hphase
      exact h.turned rfl rfl hphase.2 rfl rfl (fun _ hr => hr) rfl

/-- A worker goes on with its job, or leaves. -/
theorem worked (h : p.Compliant) (hprotocol : q.protocol = p.protocol)
    (hcoordinator : q.coordinator = p.coordinator) (hintake : q.intake = p.intake)
    (hdispatch : ∀ l ∈ q.dispatch.items, l ∈ p.dispatch.items)
    (hjobs : ∀ j ∈ q.pool.busy, j.stage = .awaitingLock →
      p.protocol.fetchMode j.location = .hold) : q.Compliant := by
  refine ⟨?_, ?_, ?_, ?_, ?_, ?_⟩
  · rw [hcoordinator, hprotocol]
    exact h.phase
  · rw [hcoordinator]
    exact h.waiters
  · rw [hcoordinator]
    exact h.whole
  · rw [hintake, hprotocol]
    exact h.intake
  · rw [hcoordinator, hprotocol]
    intro l hl
    refine h.fetches l ?_
    rw [List.mem_append] at hl ⊢
    exact hl.imp_right (hdispatch l)
  · rw [hprotocol]
    exact hjobs

theorem leave (h : p.Compliant) (id : Nat) (ending : Ending) : (p.leave id ending).Compliant := by
  refine h.worked (by simp) (by simp) (by simp) (fun l hl => ?_) fun j hj => ?_
  · rw [items_dispatch_leave] at hl
    split at hl
    · cases hl
    · exact hl
  · rw [pool_leave] at hj
    exact h.jobs j (List.mem_of_mem_filter hj)

/-- A job that goes on to another stage has called its fetch. -/
theorem jobs_update {stage : JobStage} (h : p.Compliant) (hstage : stage ≠ .awaitingLock) :
    ∀ k ∈ (p.pool.update { j with stage }).busy, k.stage = .awaitingLock →
      p.protocol.fetchMode k.location = .hold := by
  intro k hk
  obtain ⟨k', hk', rfl⟩ := List.mem_map.mp hk
  split
  · exact fun hwaits => absurd hwaits hstage
  · exact h.jobs k' hk'

theorem handIn (h : p.Compliant) (j : Job) (outcome : Delivery) : (p.handIn j outcome).Compliant :=
  h.worked rfl rfl rfl (fun l hl => hl) (h.jobs_update (by simp))

theorem noteFetch (h : p.Compliant) (l : Location) :
    { p with protocol := p.protocol.noteFetch l }.Compliant :=
  ⟨h.phase.noteFetch l, h.waiters, h.whole, fun r hr => (h.intake r hr).noteFetch l, h.fetches,
    h.jobs⟩

/-- What is in the pipeline complies after a step of a worker. -/
theorem workerStep (h : p.Compliant) (hstep : p.WorkerStep q) : q.Compliant := by
  cases hstep with
  | quit | dismissed | undelivered => exact h.leave _ _
  | took hlive hidle hitems =>
      refine h.worked rfl rfl rfl (fun l hl => hitems ▸ List.mem_cons_of_mem _ hl) fun j hj => ?_
      rcases List.mem_append.mp hj with hj | hj
      · exact h.jobs j hj
      · rw [List.mem_singleton.mp hj]
        exact fun _ => h.fetches _ (by simp [hitems])
  | called hworks =>
      exact (h.noteFetch _).worked rfl rfl rfl (fun l hl => hl) (h.jobs_update (by simp))
  | callPanicked hworks =>
      refine Compliant.leave ?_ _ _
      exact (h.noteFetch _).worked rfl rfl rfl (fun l hl => hl) h.jobs
  | fetched => exact h.handIn _ _
  | fetchFailed | fetchDropped =>
      refine Compliant.handIn ?_ _ _
      exact h.worked rfl rfl rfl (fun l hl => hl) h.jobs
  | fetchPanicked =>
      refine Compliant.leave ?_ _ _
      exact h.worked rfl rfl rfl (fun l hl => hl) h.jobs
  | handedIn =>
      exact h.worked rfl rfl rfl (fun l hl => hl) fun k hk => h.jobs k (List.mem_of_mem_filter hk)
  | handedInLast =>
      refine Compliant.leave ?_ _ _
      exact h.worked rfl rfl rfl (fun l hl => hl) h.jobs

/-- **Where all that is in the pipeline complies, every run is smooth.** -/
theorem smooth_of_runs (h : p.Compliant) (hruns : p.Runs es q) : q.Smooth := by
  induction hruns with
  | done p => exact h.smooth
  | step hown hadvance hrest ih =>
      rcases step_of_advance hown hadvance with hstep | hstep
      · exact ih (h.coordinatorStep hstep)
      · exact ih (h.workerStep hstep)

end Compliant

end Pipeline

end SharedFetch
