import SharedFetch.Proofs.Host.Progress

/-!
# How much is in flight

Nothing limits the waiters as such. That there are never many of them comes from the coordinator,
which takes a reference only while its slot is empty and no completion is ready: every location in
flight then stands in the dispatch queue, is with a worker, or was with one that panicked. So at
most one location is in flight for each place of the dispatch queue and for each worker that the run
began with, and one more, which the reference in hand may bring (`Bounded`).

The queues have no more items than places, since whoever puts something in has found a place.

## Main results

* `Pipeline.Change.confined`: within a run no queue gets more items than places.
* `Pipeline.Bounded.change`: every change keeps the locations in flight within bounds.
* `Chronicle.in_flight_bounded`: what a host that has come to any state can hold at most.
-/

namespace SharedFetch

namespace Pipeline

variable {p q : Pipeline} {dropped : List Location}

/-! ### Queues -/

/-- The coordinator puts a location into the dispatch queue only if there is a place. -/
theorem CoordinatorStep.confined (h : p.CoordinatorStep q) :
    p.dispatch.Confined q.dispatch ∧ p.completions.Confined q.completions := by
  have hcomplete : ∀ {c : Completion} {rest : List Completion}, p.completions.items = c :: rest →
      p.completions.Confined { p.completions with items := rest } := by
    intro c rest hitems
    refine ⟨rfl, fun hfits => ?_⟩
    rw [hitems, List.length_cons] at hfits
    exact Nat.le_of_succ_le hfits
  cases h with
  | completed hlooks hopen hitems => exact ⟨.refl _, hcomplete hitems⟩
  | stray hlooks hopen hitems =>
      rw [abort_eq]
      exact ⟨.of_eq rfl rfl, (hcomplete hitems).trans (.dropReceiver _)⟩
  | dispatched hlooks hnone hslot hopen hroom =>
      refine ⟨⟨rfl, fun _ => ?_⟩, .refl _⟩
      rw [List.length_append, List.length_singleton]
      omega
  | stranded | undispatchable | unresolvedFailed | processFailed =>
      rw [abort_eq]
      exact ⟨.of_eq rfl rfl, .dropReceiver _⟩
  | drained | interrupted | resolvePanicked | unresolvedPanicked | processPanicked
  | unresolvedDropped | processDropped => exact ⟨.of_eq rfl rfl, .dropReceiver _⟩
  | completionsEnded | took | intakeEnded | admitted | coalesced | unresolvable | calledUnresolved
  | unresolvedSucceeded | fanOutBegun | fanOutEnded | calledProcess | processSucceeded =>
      exact ⟨.refl _, .refl _⟩

/-- A worker that leaves puts nothing into the queues. -/
theorem confined_leave {r : Pipeline} (hdispatch : r.dispatch = p.dispatch)
    (hcompletions : p.completions.Confined r.completions) (id : Nat) (ending : Ending) :
    p.dispatch.Confined (r.leave id ending).dispatch ∧
      p.completions.Confined (r.leave id ending).completions := by
  rw [completions_leave, dispatch_leave, hdispatch]
  refine ⟨?_, hcompletions.trans (.of_eq rfl rfl)⟩
  split
  · exact .dropReceiver _
  · exact .refl _

/-- A worker hands its completion in only if there is a place. -/
theorem WorkerStep.confined (h : p.WorkerStep q) :
    p.dispatch.Confined q.dispatch ∧ p.completions.Confined q.completions := by
  have hhandIn : ∀ {j : Job} {outcome : Delivery}, p.completions.hasRoom = true →
      p.completions.Confined
        { p.completions with
          line := p.completions.line.tail
          items := p.completions.items ++ [Completion.mk j.location outcome] } := by
    intro j outcome hroom
    refine ⟨rfl, fun _ => ?_⟩
    simp only [Queue.hasRoom, decide_eq_true_eq] at hroom
    rw [List.length_append, List.length_singleton]
    exact hroom
  cases h with
  | quit | dismissed | undelivered | callPanicked | fetchPanicked =>
      refine confined_leave ?_ ?_ _ _
      · rfl
      · exact .refl _
  | took hlive hidle hitems =>
      refine ⟨⟨rfl, fun hfits => ?_⟩, .refl _⟩
      rw [hitems, List.length_cons] at hfits
      exact Nat.le_of_succ_le hfits
  | called | fetched | fetchFailed | fetchDropped => exact ⟨.refl _, .of_eq rfl rfl⟩
  | handedIn hworks hopen hline hroom => exact ⟨.refl _, hhandIn hroom⟩
  | handedInLast hworks hopen hline hroom =>
      refine confined_leave ?_ ?_ _ _
      · rfl
      · exact hhandIn hroom

/-- **Within a run no queue gets more items than places.** -/
theorem Change.confined (h : p.Change q) :
    p.dispatch.Confined q.dispatch ∧ p.completions.Confined q.completions := by
  cases h with
  | coordinated hstep => exact hstep.confined
  | worked hstep => exact hstep.confined
  | hookReleased mode =>
      rw [releaseHook_eq]
      exact ⟨.refl _, .refl _⟩
  | fetchReleased hj mode =>
      rw [releaseFetch_eq]
      exact ⟨.refl _, .refl _⟩
  | tasksSpared hspares | renewed hspares =>
      rw [hspares.dispatch, hspares.completions]
      exact ⟨.refl _, .refl _⟩

/-! ### Locations in flight -/

/-- The workers of a run, with those that are gone. -/
def headcount (p : Pipeline) : Nat :=
  p.pool.alive + p.pool.gone.length

/-- No queue has more items than places, and there are not more locations in flight than the places
of the dispatch queue, the workers and the one in the slot. As long as a reference is in hand, there
is room for its location. -/
structure Bounded (p : Pipeline) : Prop where
  dispatch : p.dispatch.items.length ≤ p.dispatch.capacity
  completions : p.completions.items.length ≤ p.completions.capacity
  resolving : ∀ r, p.coordinator.phase = .resolving r →
    p.coordinator.waiters.size ≤ p.dispatch.capacity + p.headcount
  size : p.coordinator.waiters.size ≤ 1 + p.dispatch.capacity + p.headcount

/-- Where a worker is left, the slot is empty and no completion is ready, every location in flight
is in the dispatch queue, or with a worker, or was with one that panicked. -/
theorem Owned.size_le (h : p.Owned dropped) (hrunning : p.isOver = false)
    (hstaffed : p.pool.isGone = false) (hslot : p.coordinator.slot = none)
    (hcompletions : p.completions.items = [])
    (hdispatch : p.dispatch.items.length ≤ p.dispatch.capacity) :
    p.coordinator.waiters.size ≤ p.dispatch.capacity + p.headcount := by
  obtain ⟨lost, hperm, hlost⟩ := h.locations
  have hsize := hperm.length_eq
  rw [Waiters.locations, List.length_map, underway, hslot, hcompletions, h.kept hstaffed] at hsize
  simp only [Option.toList_none, List.nil_append, List.map_nil, List.append_nil,
    List.length_append, List.length_map] at hsize
  have hpanics : p.pool.panics ≤ p.pool.gone.length := List.countP_le_length
  have hlost := hlost hrunning
  rw [Waiters.size, headcount, Pool.alive]
  omega

/-- What a step of the coordinator does to the locations in flight. -/
inductive Admits (p q : Pipeline) : Prop where
  /-- It takes a reference, which it does only if the run is not cancelled, its slot is empty and no
  completion is ready. -/
  | took (hlive : p.isCancelled = false)
      (hwaiters : q.coordinator.waiters = p.coordinator.waiters)
      (hslot : p.coordinator.slot = none) (hnone : p.takeCompletion? = none)
  /-- The reference in hand brings one more. -/
  | admitted {r : Reference} (hphase : p.coordinator.phase = .resolving r)
      (hafter : q.coordinator.phase = .choosing)
      (hsize : q.coordinator.waiters.size = p.coordinator.waiters.size + 1)
  /-- Otherwise there are as many as before, or fewer, and no reference is in hand. -/
  | kept (hafter : q.coordinator.phase.inHand = [])
      (hsize : q.coordinator.waiters.size ≤ p.coordinator.waiters.size)

theorem CoordinatorStep.admits (h : p.CoordinatorStep q) : Admits p q := by
  cases h with
  | took hlooks hnone hslot => exact .took hlooks.live rfl hslot hnone
  | admitted hphase hlock htarget henroll =>
      exact .admitted hphase rfl (Waiters.size_of_dispatch henroll).1
  | coalesced hphase hlock htarget henroll =>
      exact .kept rfl (Waiters.size_of_coalesced henroll).1.le
  | completed hlooks hopen hitems hfound =>
      refine .kept rfl ?_
      rw [(Waiters.size_of_complete? hfound).1]
      exact Nat.le_succ _
  | stray | stranded | undispatchable | unresolvedFailed | processFailed =>
      rw [abort_eq]
      exact .kept rfl (Nat.le_refl _)
  | completionsEnded hlooks | dispatched hlooks | intakeEnded hlooks =>
      exact .kept (by rw [hlooks.phase]; rfl) (Nat.le_refl _)
  | drained | interrupted | resolvePanicked | unresolvedPanicked | processPanicked
  | unresolvedDropped | processDropped | unresolvable | calledUnresolved | unresolvedSucceeded
  | fanOutBegun | fanOutEnded | calledProcess | processSucceeded =>
      exact .kept rfl (Nat.le_refl _)

namespace Bounded

/-- The coordinator takes a step. -/
theorem coordinatorStep (h : p.Bounded) (howned : p.Owned dropped) (hflowing : p.Flowing)
    (hstaffed : p.Staffed) (hstep : p.CoordinatorStep q) : q.Bounded := by
  obtain ⟨hdispatch, hcompletions⟩ := hstep.confined
  have hheadcount : q.headcount = p.headcount := by rw [headcount, hstep.pool, headcount]
  refine ⟨hdispatch.capacity ▸ hdispatch.items h.dispatch,
    hcompletions.capacity ▸ hcompletions.items h.completions, ?_, ?_⟩ <;>
    rw [hdispatch.capacity, hheadcount]
  · intro r hr
    cases hstep.admits with
    | took hlive hwaiters hslot hnone =>
        rw [hwaiters]
        exact howned.size_le hstep.running (hstaffed.present hstep.running hlive) hslot
          (completions_eq_nil_of_takeCompletion? hflowing.awake hnone) h.dispatch
    | admitted hphase hafter hsize => cases hafter.symm.trans hr
    | kept hafter hsize =>
        rw [hr] at hafter
        cases hafter
  · have hsize := h.size
    cases hstep.admits with
    | took hlive hwaiters hslot hnone => rwa [hwaiters]
    | admitted hphase hafter hgrown =>
        have hroom := h.resolving _ hphase
        omega
    | kept hafter hle => omega

/-- The coordinator has no part in what happens. -/
theorem of_waiters_eq (h : p.Bounded) (hchange : p.Change q) (hworkers : p.pool.workers.Nodup)
    (hwaiters : q.coordinator.waiters = p.coordinator.waiters)
    (hphase : ∀ r, q.coordinator.phase = .resolving r → p.coordinator.phase = .resolving r) :
    q.Bounded := by
  obtain ⟨hdispatch, hcompletions⟩ := hchange.confined
  have hheadcount : q.headcount = p.headcount := hchange.headcount hworkers
  refine ⟨hdispatch.capacity ▸ hdispatch.items h.dispatch,
    hcompletions.capacity ▸ hcompletions.items h.completions, fun r hr => ?_, ?_⟩ <;>
    rw [hdispatch.capacity, hheadcount, hwaiters]
  · exact h.resolving r (hphase r hr)
  · exact h.size

/-- **Every change keeps the locations in flight within bounds.** -/
theorem change (h : p.Bounded) (howned : p.Owned dropped) (hflowing : p.Flowing)
    (hstaffed : p.Staffed) (hchange : p.Change q) : q.Bounded := by
  rcases hchange.cases with hstep | ⟨mode, rfl⟩ | hspares
  · exact h.coordinatorStep howned hflowing hstaffed hstep
  · rcases exists_releaseHook p mode with heq | ⟨phase, -, heq, hphase⟩
    · rwa [heq]
    · refine h.of_waiters_eq hchange howned.workers (by rw [heq]; rfl) fun r hr => ?_
      rw [heq] at hr
      obtain rfl : phase = .resolving r := hr
      rcases hphase with ⟨_, -, hphase⟩ | ⟨_, _, _, _, -, hphase⟩ <;> cases hphase
  · refine h.of_waiters_eq hchange howned.workers (by rw [hspares.coordinator]) fun r hr => ?_
    rwa [hspares.coordinator] at hr

/-- A pipeline with nothing in it. -/
theorem of_empty (hdispatch : p.dispatch.items = []) (hcompletions : p.completions.items = [])
    (hwaiters : p.coordinator.waiters = {}) : p.Bounded := by
  refine ⟨by simp [hdispatch], by simp [hcompletions], fun r _ => ?_, ?_⟩ <;>
  · rw [hwaiters]
    exact Nat.zero_le _

end Bounded

end Pipeline

namespace Host

open Pipeline

variable {h h' : Host}

/-- Something happens that launches no run, and the intake keeps its places. -/
structure Stays (h h' : Host) : Prop where
  settings : h'.settings = h.settings
  era : h'.pipeline.intake.era = h.pipeline.intake.era
  queue : h.pipeline.intake.queue.Confined h'.pipeline.intake.queue

/-- A run is launched, with empty queues and workers as the settings say. -/
structure Renews (h h' : Host) : Prop where
  settings : h'.settings = h.settings
  intake : h'.pipeline.intake.queue = { capacity := h.settings.intakeCapacity }
  dispatch : h'.pipeline.dispatch = { capacity := h.settings.dispatchCapacity }
  completions : h'.pipeline.completions =
    { capacity := h.settings.completionCapacity, senders := h.poolSize }
  pool : h'.pipeline.pool = .launch h.poolSize true

/-- **Whatever happens to a host keeps its queues or makes new ones.** -/
theorem Step.stays_or_renews (hstep : h.Step h') : h.Stays h' ∨ h.Renews h' := by
  cases hstep with
  | within hkeeps hlatch hintake =>
      exact .inl ⟨hkeeps.settings, hintake.era, hintake.confined⟩
  | launched hfree hstart =>
      obtain ⟨-, rfl⟩ := eq_of_start_launched hstart
      exact .inr ⟨rfl, rfl, rfl, rfl, rfl⟩
  | @openLaunched op supply h'' hop hphase hstart =>
      rw [openRun, hstart]
      obtain ⟨-, rfl⟩ := eq_of_start_launched hstart
      refine .inr ⟨(keeps_wakeReporter _).settings, ?_, ?_, ?_, ?_⟩ <;>
      · simp only [turnTo, pipeline_wakeReporter]
        rfl
  | broken hfree hstart =>
      obtain ⟨-, rfl⟩ := eq_of_start_broken hstart
      exact .inl ⟨rfl, rfl, .refl _⟩
  | openBroken hop hphase hstart =>
      obtain ⟨-, rfl⟩ := eq_of_start_broken hstart
      refine .inl ⟨(keeps_wakeReporter h.beginLife).settings, ?_, ?_⟩ <;>
        simp only [turnTo, pipeline_wakeReporter]
      · rfl
      · exact .refl _
  | stopped hfree hrunning label | tornDown hop hphase =>
      obtain ⟨tokens, -, -, heq⟩ := exists_tearDown_eq h _
      rw [heq]
      exact .inl ⟨rfl, rfl, .refl _⟩
  | shutdownCalled hop hphase hlock =>
      exact .inl ⟨rfl, by rw [intake_callShutdown], by rw [intake_callShutdown]; exact .refl _⟩
  | concluded hop hphase hstep =>
      obtain ⟨hintake, hsettings, -⟩ := intake_of_finishShutdown? hstep
      exact .inl ⟨hsettings, by rw [hintake]; rfl, by rw [hintake]; exact .refl _⟩
  | idled | drained | opening | openRefused | coordinatorJoined | workersJoined | reporterJoined
  | returned | supplied | interrupted | shutdownAnswered => exact .inl ⟨rfl, rfl, .refl _⟩

/-- Queues and pool have the sizes that the settings give. -/
structure Sized (h : Host) : Prop where
  intake : h.pipeline.intake.queue.capacity = h.settings.intakeCapacity
  accepted : h.pipeline.intake.queue.items.length ≤ h.pipeline.intake.queue.capacity
  dispatch : h.pipeline.dispatch.capacity = h.settings.dispatchCapacity
  completions : h.pipeline.completions.capacity = h.settings.completionCapacity
  workers : h.pipeline.headcount ≤ h.poolSize

theorem Sized.stays (hsized : h.Sized) (hstays : h.Stays h')
    (hchange : h.pipeline.Change h'.pipeline) (hworkers : h.pipeline.pool.workers.Nodup) :
    h'.Sized := by
  obtain ⟨hdispatch, hcompletions⟩ := hchange.confined
  obtain ⟨hsettings, -, hqueue⟩ := hstays
  have hheadcount : h'.pipeline.headcount = h.pipeline.headcount := hchange.headcount hworkers
  refine ⟨?_, hqueue.capacity ▸ hqueue.items hsized.accepted, ?_, ?_, ?_⟩
  · rw [hqueue.capacity, hsettings, hsized.intake]
  · rw [hdispatch.capacity, hsettings, hsized.dispatch]
  · rw [hcompletions.capacity, hsettings, hsized.completions]
  · rw [hheadcount, poolSize, hsettings]
    exact hsized.workers

theorem Renews.sized (hrenews : h.Renews h') : h'.Sized := by
  obtain ⟨hsettings, hintake, hdispatch, hcompletions, hpool⟩ := hrenews
  refine ⟨by rw [hintake, hsettings], by simp [hintake], by rw [hdispatch, hsettings],
    by rw [hcompletions, hsettings], ?_⟩
  rw [headcount, hpool, poolSize, poolSize, hsettings]
  simp [Pool.launch, Pool.alive]

end Host

namespace Chronicle

open Pipeline
open Scenario (HostBench)

variable {c : Chronicle}

theorem Reachable.bounded (hc : c.Reachable) : c.pipeline.Bounded := by
  refine hc.induct (J := fun c => c.pipeline.Bounded) ?_ ?_
  · intro kind settings protocol ownToken
    obtain ⟨tokens, hpipeline⟩ := exists_pipeline_start kind settings protocol ownToken
    rw [hpipeline]
    exact .of_empty rfl rfl rfl
  · intro c m hc hbounded
    have hsound := hc.sound
    rcases hsound.change m with hchange | hlaunched
    · exact hbounded.change hsound.holds.owned hc.flowing hc.staffed hchange
    · obtain ⟨places, hdispatch⟩ := hlaunched.dispatch
      obtain ⟨size, capacity, -, -, hcompletions⟩ := hlaunched.pool
      exact .of_empty (by rw [hdispatch]) (by rw [hcompletions]) (by rw [hlaunched.coordinator])

theorem Reachable.sized (hc : c.Reachable) : c.bench.host.Sized := by
  refine hc.induct (J := fun c => c.bench.host.Sized) ?_ ?_
  · intro kind settings protocol ownToken
    rw [start, HostBench.make]
    split <;> exact ⟨rfl, Nat.zero_le _, rfl, rfl, Nat.zero_le _⟩
  · intro c m hc hsized
    have hsound := hc.sound
    rcases (HostBench.step_move c.bench m).stays_or_renews with hstays | hrenews
    · have hchange := (hsound.change m).resolve_right fun hlaunched => by
        have hera := hlaunched.era.symm.trans hstays.era
        exact absurd hera (Nat.succ_ne_self _)
      exact hsized.stays hstays hchange hsound.holds.owned.workers
    · exact hrenews.sized

/-- **Bounded in-flight work.** Whatever its callers submit and in whatever order things happen,
workers that panic included, a host never has more references in its intake, more locations in its
dispatch queue and more completions waiting than the places that its settings give these queues. No
worker has more than one location, and no more workers have one than the host launches. The
locations in flight are never more than the places of the dispatch queue, the workers, and one, let
alone than these and the places for completions. -/
theorem in_flight_bounded (hc : c.Reachable) :
    let settings := c.bench.host.settings
    let workers := c.bench.host.poolSize
    c.pipeline.intake.queue.items.length ≤ settings.intakeCapacity ∧
    c.pipeline.dispatch.items.length ≤ settings.dispatchCapacity ∧
    c.pipeline.completions.items.length ≤ settings.completionCapacity ∧
    (c.pipeline.pool.busy.map Job.worker).Nodup ∧ c.pipeline.pool.busy.length ≤ workers ∧
    c.pipeline.coordinator.waiters.size ≤ 1 + settings.dispatchCapacity + workers ∧
    c.pipeline.coordinator.waiters.size ≤
      1 + settings.dispatchCapacity + workers + settings.completionCapacity := by
  intro settings workers
  have hsized := hc.sized
  have hbounded := hc.bounded
  have hnodup := (List.nodup_append.mp hc.sound.holds.owned.workers).2.1
  have hplaces : c.pipeline.dispatch.capacity = settings.dispatchCapacity := hsized.dispatch
  have hworkers : c.pipeline.headcount ≤ workers := hsized.workers
  have hsize := hbounded.size
  refine ⟨hsized.intake ▸ hsized.accepted, hplaces ▸ hbounded.dispatch,
    hsized.completions ▸ hbounded.completions, hnodup, ?_, ?_, ?_⟩
  · rw [headcount, Pool.alive] at hworkers
    omega
  · omega
  · omega

/-- A run with one worker, one place for locations and one for completions. Of four references with
locations of their own, the first has its completion waiting, the second is queued, the coordinator
holds the third, and the fourth has to stay in the intake. -/
def packed : Chronicle :=
  let references : List Reference :=
    [1, 2, 3, 4].map fun n => { id := n, target := .location (.number n) }
  let opening : List HostBench.Move := [.act 0 .start, .act 1 (.trySubmit references)]
  let answer : HostBench.Move := .act 2 (.release none (.content none))
  let coordinate : HostBench.Move := .event (.inside .coordinate)
  let work : HostBench.Move := .event (.inside (.work 0))
  (start .fetcher ⟨1, 6, 1, 1, ⟨5, 0⟩⟩ {} false).run
    (opening ++ List.replicate 3 coordinate ++ [work, work] ++ List.replicate 5 coordinate ++
      [answer, work, work])

theorem in_flight_bounded_packed :
    packed.Reachable ∧ packed.pipeline.intake.queue.items.length = 1 ∧
    packed.pipeline.dispatch.items.length = 1 ∧ packed.pipeline.completions.items.length = 1 ∧
    packed.pipeline.coordinator.waiters.size = 3 ∧
    packed.pipeline.coordinator.waiters.size ≤ 1 + 1 + 1 := by
  have hreachable : packed.Reachable := ⟨_, _, _, _, _, rfl⟩
  exact ⟨hreachable, by rfl, by rfl, by rfl, by rfl, (in_flight_bounded hreachable).2.2.2.2.2.1⟩

end Chronicle

end SharedFetch
