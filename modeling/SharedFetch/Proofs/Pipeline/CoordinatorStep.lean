import SharedFetch.Pipeline.Step
import SharedFetch.Proofs.Waiters

/-!
# What a step of the coordinator does

`CoordinatorStep p q` lists everything that the coordinator can do in one step, with what it
has found and with every part of the pipeline that changes. A part that is not named in the
pipeline after the step is as it was. Whatever is proved about the coordinator is proved from
this list.

The coordinator ends in one of two ways: in good order or with a panic it only lets go of its
queues (`Pipeline.finish`); with an alarm it also sets off the latch (`Pipeline.abort`).

## Main results

* `coordinatorStep_of_coordinate?`, `coordinatorStep_of_dropHook?`: the list is complete.
* `raise_eq`, `abort_eq`: what an alarm changes.
-/

namespace SharedFetch.Pipeline

/-- The coordinator looks for something to do: it is between two events, has not drained and
is not cancelled. -/
structure Looks (p : Pipeline) : Prop where
  phase : p.coordinator.phase = .choosing
  busy : p.isDrained = false
  live : p.isCancelled = false

/-- One step of the coordinator, with what it finds and the pipeline after it. -/
inductive CoordinatorStep (p : Pipeline) : Pipeline → Prop where
  /-- It leaves because nothing is left to do. -/
  | drained (hphase : p.coordinator.phase = .choosing) (hdrained : p.isDrained = true) :
      CoordinatorStep p
        ({ p with journal := .note .stopped :: .note .drained :: p.journal }.finish .done)
  /-- It leaves because the run is cancelled. -/
  | interrupted (hphase : p.coordinator.phase = .choosing) (hbusy : p.isDrained = false)
      (hcancelled : p.isCancelled = true) :
      CoordinatorStep p
        ({ p with
            journal :=
              .note .stopped ::
                .note (.interrupted p.coordinator.waiters.size p.coordinator.waiters.waiting) ::
                p.journal }.finish .done)
  /-- It takes a completion, whose references wait no longer. -/
  | completed {c : Completion} {rest : List Completion} {references : List Reference}
      {waiters : Waiters Location Reference} (hlooks : p.Looks)
      (hopen : p.coordinator.completionsDone = false) (hitems : p.completions.items = c :: rest)
      (hfound : p.coordinator.waiters.complete? c.location = some (references, waiters)) :
      CoordinatorStep p
        { p with
          completions := { p.completions with items := rest }
          coordinator :=
            { p.coordinator with waiters, phase := .fanningOut c.outcome references }
          counters :=
            (p.counters.record .completion).record (.inFlight (UInt64.ofNat waiters.size))
          lock := p.lock.queueUp .coordinator .write
          journal :=
            .note (.fanningOut c.location references.length c.outcome.isSuccess) :: p.journal }
  /-- It takes a completion that nothing waits for. -/
  | stray {c : Completion} {rest : List Completion} (hlooks : p.Looks)
      (hopen : p.coordinator.completionsDone = false) (hitems : p.completions.items = c :: rest)
      (hlost : p.coordinator.waiters.complete? c.location = none) :
      CoordinatorStep p
        ({ p with
            completions := { p.completions with items := rest }
            counters := p.counters.record .completion }.abort
          (.pipeline "coordinator received unexpected completion" (.violation (.of c.location))))
  /-- It sees the end of the completions, and nothing waits for one. -/
  | completionsEnded (hlooks : p.Looks) (hopen : p.coordinator.completionsDone = false)
      (hexhausted : p.completions.isExhausted = true)
      (hempty : p.coordinator.waiters.isEmpty = true) :
      CoordinatorStep p
        { p with
          coordinator := { p.coordinator with completionsDone := true }
          journal := .note .completionsClosed :: p.journal }
  /-- It sees the end of the completions while locations are in flight. -/
  | stranded (hlooks : p.Looks) (hopen : p.coordinator.completionsDone = false)
      (hexhausted : p.completions.isExhausted = true)
      (hwaiting : p.coordinator.waiters.isEmpty = false) :
      CoordinatorStep p
        ({ p with coordinator := { p.coordinator with completionsDone := true } }.abort
          (.pipeline "coordinator" (.stranded p.coordinator.waiters.size)))
  /-- It puts the location in its slot into the dispatch queue. -/
  | dispatched {l : Location} (hlooks : p.Looks) (hnone : p.takeCompletion? = none)
      (hslot : p.coordinator.slot = some l) (hopen : p.dispatch.closed = false)
      (hroom : p.dispatch.items.length + p.dispatch.line.length < p.dispatch.capacity) :
      CoordinatorStep p
        { p with
          dispatch := { p.dispatch with items := p.dispatch.items ++ [l] }
          coordinator := { p.coordinator with slot := none }
          counters := p.counters.record .dispatch }
  /-- It finds the dispatch queue closed with a location in its slot. -/
  | undispatchable {l : Location} (hlooks : p.Looks) (hnone : p.takeCompletion? = none)
      (hslot : p.coordinator.slot = some l) (hclosed : p.dispatch.closed = true) :
      CoordinatorStep p (p.abort (.pipeline "coordinator" .undispatchable))
  /-- It takes a reference. -/
  | took {r : Reference} {rest : List Reference} (hlooks : p.Looks)
      (hnone : p.takeCompletion? = none) (hslot : p.coordinator.slot = none)
      (hopen : p.coordinator.intakeDone = false) (hitems : p.intake.queue.items = r :: rest) :
      CoordinatorStep p
        { p with
          intake := { p.intake with queue := { p.intake.queue with items := rest } }
          coordinator := { p.coordinator with phase := .resolving r }
          counters := p.counters.record .reference
          lock := p.lock.queueUp .coordinator .read }
  /-- It sees the end of the intake. -/
  | intakeEnded (hlooks : p.Looks) (hnone : p.takeCompletion? = none)
      (hslot : p.coordinator.slot = none) (hopen : p.coordinator.intakeDone = false)
      (hexhausted : p.intake.queue.isExhausted = true) :
      CoordinatorStep p
        { p with
          coordinator := { p.coordinator with intakeDone := true }
          journal := .note (.intakeClosed p.coordinator.waiters.size) :: p.journal }
  /-- It resolves a reference to a new location, which fills the slot. -/
  | admitted {r : Reference} {l : Location} {lock : Lock Party}
      {waiters : Waiters Location Reference} (hphase : p.coordinator.phase = .resolving r)
      (hlock : p.lock.grant? .coordinator = some lock) (htarget : r.target = .location l)
      (henroll : p.coordinator.waiters.enroll l r = (.dispatch l, waiters)) :
      CoordinatorStep p
        { p with
          lock
          coordinator := { p.coordinator with waiters, slot := some l, phase := .choosing }
          counters := p.counters.record (.inFlight (UInt64.ofNat waiters.size))
          journal := .note (.dispatching l) :: .resolve r :: p.journal }
  /-- It resolves a reference to a location in flight, which it joins. -/
  | coalesced {r : Reference} {l : Location} {n : Nat} {lock : Lock Party}
      {waiters : Waiters Location Reference} (hphase : p.coordinator.phase = .resolving r)
      (hlock : p.lock.grant? .coordinator = some lock) (htarget : r.target = .location l)
      (henroll : p.coordinator.waiters.enroll l r = (.coalesced n, waiters)) :
      CoordinatorStep p
        { p with
          lock
          coordinator := { p.coordinator with waiters, phase := .choosing }
          counters := p.counters.record .coalesced
          journal := .note (.coalesced n) :: .resolve r :: p.journal }
  /-- It cannot resolve a reference. -/
  | unresolvable {r : Reference} {cause : Chain} {lock : Lock Party}
      (hphase : p.coordinator.phase = .resolving r)
      (hlock : p.lock.grant? .coordinator = some lock) (htarget : r.target = .nowhere cause) :
      CoordinatorStep p
        { p with
          lock := lock.queueUp .coordinator .write
          coordinator := { p.coordinator with phase := .reporting r cause }
          counters := p.counters.record .resolutionFailure
          journal := .note (.unresolvable (unresolvedText r cause)) :: .resolve r :: p.journal }
  /-- Resolving a reference panics. -/
  | resolvePanicked {r : Reference} {payload : Payload} {lock : Lock Party}
      (hphase : p.coordinator.phase = .resolving r)
      (hlock : p.lock.grant? .coordinator = some lock) (htarget : r.target = .panic payload) :
      CoordinatorStep p
        ({ p with lock, journal := .resolve r :: p.journal }.finish (.panicked payload))
  /-- It calls the hook for an unresolvable reference. -/
  | calledUnresolved {r : Reference} {cause : Chain} {lock : Lock Party}
      (hphase : p.coordinator.phase = .reporting r cause)
      (hlock : p.lock.grant? .coordinator = some lock) :
      CoordinatorStep p
        { p with
          lock
          coordinator :=
            { p.coordinator with phase := .inUnresolved r (p.protocol.unresolvedMode r) }
          journal :=
            if p.protocol.plain then p.journal
            else .unresolved r (unresolvedText r cause) :: p.journal }
  /-- The hook for an unresolvable reference has succeeded. -/
  | unresolvedSucceeded {r : Reference}
      (hphase : p.coordinator.phase = .inUnresolved r .succeed) :
      CoordinatorStep p
        { p with
          lock := p.lock.release
          coordinator := { p.coordinator with phase := .choosing } }
  /-- The hook for an unresolvable reference has failed. -/
  | unresolvedFailed {r : Reference} {stage : Option Stage} {cause : Chain}
      (hphase : p.coordinator.phase = .inUnresolved r (.fail stage cause)) :
      CoordinatorStep p
        ({ p with lock := p.lock.release }.abort (.hook ⟨stage.getD .unresolved, cause⟩))
  /-- The hook for an unresolvable reference has panicked. -/
  | unresolvedPanicked {r : Reference} {payload : Payload}
      (hphase : p.coordinator.phase = .inUnresolved r (.panic payload)) :
      CoordinatorStep p ({ p with lock := p.lock.release }.finish (.panicked payload))
  /-- It gets the lock for a fan-out. -/
  | fanOutBegun {outcome : Delivery} {rest : List Reference} {lock : Lock Party}
      (hphase : p.coordinator.phase = .fanningOut outcome rest)
      (hlock : p.lock.grant? .coordinator = some lock) :
      CoordinatorStep p
        { p with
          lock
          coordinator := { p.coordinator with phase := .delivering outcome rest 0 } }
  /-- A fan-out is over. -/
  | fanOutEnded {outcome : Delivery} {delivered : Nat}
      (hphase : p.coordinator.phase = .delivering outcome [] delivered) :
      CoordinatorStep p
        { p with
          lock := p.lock.release
          coordinator := { p.coordinator with phase := .choosing }
          counters := p.counters.record (.deliveries (UInt64.ofNat delivered)) }
  /-- It calls the hook that takes a delivery. -/
  | calledProcess {r : Reference} {outcome : Delivery} {rest : List Reference} {delivered : Nat}
      (hphase : p.coordinator.phase = .delivering outcome (r :: rest) delivered) :
      CoordinatorStep p
        { p with
          coordinator :=
            { p.coordinator with phase := .inProcess r r.process outcome rest delivered }
          journal := .process r outcome :: p.journal }
  /-- The hook that takes a delivery has succeeded. -/
  | processSucceeded {r : Reference} {outcome : Delivery} {rest : List Reference}
      {delivered : Nat}
      (hphase : p.coordinator.phase = .inProcess r .succeed outcome rest delivered) :
      CoordinatorStep p
        { p with
          coordinator := { p.coordinator with phase := .delivering outcome rest (delivered + 1) } }
  /-- The hook that takes a delivery has failed. -/
  | processFailed {r : Reference} {stage : Option Stage} {cause : Chain} {outcome : Delivery}
      {rest : List Reference} {delivered : Nat}
      (hphase : p.coordinator.phase = .inProcess r (.fail stage cause) outcome rest delivered) :
      CoordinatorStep p
        ({ p with
            lock := p.lock.release
            counters := p.counters.record (.deliveries (UInt64.ofNat delivered)) }.abort
          (.hook ⟨stage.getD .process, cause⟩))
  /-- The hook that takes a delivery has panicked. -/
  | processPanicked {r : Reference} {payload : Payload} {outcome : Delivery}
      {rest : List Reference} {delivered : Nat}
      (hphase : p.coordinator.phase = .inProcess r (.panic payload) outcome rest delivered) :
      CoordinatorStep p ({ p with lock := p.lock.release }.finish (.panicked payload))
  /-- It drops the hook for an unresolvable reference. -/
  | unresolvedDropped {r : Reference} {mode : HookMode}
      (hphase : p.coordinator.phase = .inUnresolved r mode) (hcancelled : p.isCancelled = true) :
      CoordinatorStep p
        ({ p with
            lock := p.lock.release
            journal := .note .stopped :: p.journal }.finish .done)
  /-- It drops the hook that takes a delivery. -/
  | processDropped {r : Reference} {mode : HookMode} {outcome : Delivery}
      {rest : List Reference} {delivered : Nat}
      (hphase : p.coordinator.phase = .inProcess r mode outcome rest delivered)
      (hcancelled : p.isCancelled = true) :
      CoordinatorStep p
        ({ p with
            lock := p.lock.release
            counters := p.counters.record (.deliveries (UInt64.ofNat delivered))
            journal := .note .stopped :: p.journal }.finish .done)

/-! ### Alarms -/

/-- What an alarm writes into the journal. -/
def alarmEntries (p : Pipeline) (alarm : Alarm) : List Entry :=
  ((p.latch.trigger p.tokens alarm).logged.map fun a => .note (.alarm a)).toList

/-- An alarm changes the latch and the tokens, and may be logged. -/
theorem raise_eq (p : Pipeline) (alarm : Alarm) :
    (p.raise alarm).2 =
      { p with
        latch := (p.latch.trigger p.tokens alarm).latch
        tokens := (p.latch.trigger p.tokens alarm).tokens
        journal := p.alarmEntries alarm ++ p.journal } := by
  rw [raise, alarmEntries]
  cases (p.latch.trigger p.tokens alarm).logged <;> simp [log]

/-- The coordinator that ends with an alarm sets off the latch and lets go of its queues. -/
theorem abort_eq (p : Pipeline) (alarm : Alarm) :
    p.abort alarm =
      ({ p with
          latch := (p.latch.trigger p.tokens alarm).latch
          tokens := (p.latch.trigger p.tokens alarm).tokens
          journal := p.alarmEntries alarm ++ p.journal }.finish
        (.failed (p.latch.trigger p.tokens alarm).returned)) := by
  have h := p.raise_eq alarm
  rw [abort, show p.raise alarm = ((p.raise alarm).1, (p.raise alarm).2) from rfl]
  simp only [h]
  rfl

/-- An alarm writes nothing but that it was raised. -/
theorem eq_of_mem_alarmEntries {p : Pipeline} {alarm : Alarm} {e : Entry}
    (h : e ∈ p.alarmEntries alarm) : ∃ a, e = .note (.alarm a) := by
  simp only [alarmEntries, Option.mem_toList, Option.map_eq_some_iff] at h
  obtain ⟨a, -, rfl⟩ := h
  exact ⟨a, rfl⟩

/-! ### The list is complete -/

variable {p q : Pipeline}

theorem coordinatorStep_of_takeCompletion? (hlooks : p.Looks) (h : p.takeCompletion? = some q) :
    CoordinatorStep p q := by
  rw [takeCompletion?] at h
  cases hdone : p.coordinator.completionsDone with
  | true => simp [hdone] at h
  | false =>
      simp only [hdone, Bool.false_eq_true, if_false] at h
      rcases hitems : p.completions.items with _ | ⟨c, rest⟩
      · simp only [Queue.pop?, hitems, Option.ite_none_right_eq_some, Option.some.injEq] at h
        obtain ⟨hexhausted, rfl⟩ := h
        cases hempty : p.coordinator.waiters.isEmpty with
        | true =>
            have := CoordinatorStep.completionsEnded hlooks hdone hexhausted hempty
            simpa [endCompletions, log, hempty] using this
        | false =>
            have := CoordinatorStep.stranded hlooks hdone hexhausted hempty
            simpa [endCompletions, hempty] using this
      · simp only [Queue.pop?, hitems, Option.some.injEq] at h
        subst h
        rcases hfound : p.coordinator.waiters.complete? c.location with _ | ⟨references, waiters⟩
        · have := CoordinatorStep.stray hlooks hdone hitems hfound
          simpa [complete, count, hfound] using this
        · have := CoordinatorStep.completed hlooks hdone hitems hfound
          simpa [complete, count, gauge, log, askLock, turnTo, hfound] using this

theorem coordinatorStep_of_dispatchSlot? (hlooks : p.Looks) (hnone : p.takeCompletion? = none)
    (h : p.dispatchSlot? = some q) : CoordinatorStep p q := by
  rw [dispatchSlot?] at h
  rcases hslot : p.coordinator.slot with _ | l
  · simp [hslot] at h
  · simp only [hslot] at h
    cases hclosed : p.dispatch.closed with
    | true =>
        simp only [Queue.offer, hclosed, if_true, Option.some.injEq] at h
        exact h ▸ .undispatchable hlooks hnone hslot hclosed
    | false =>
        by_cases hfree : 0 < p.dispatch.free
        · simp only [Queue.offer, hclosed, Bool.false_eq_true, if_false, hfree, if_true,
            Option.some.injEq] at h
          have hroom : p.dispatch.items.length + p.dispatch.line.length < p.dispatch.capacity := by
            rw [Queue.free] at hfree
            omega
          exact h ▸ .dispatched hlooks hnone hslot hclosed hroom
        · simp [Queue.offer, hclosed, hfree] at h

theorem coordinatorStep_of_takeReference? (hlooks : p.Looks) (hnone : p.takeCompletion? = none)
    (h : p.takeReference? = some q) : CoordinatorStep p q := by
  simp only [takeReference?, Option.ite_none_left_eq_some, Bool.or_eq_true, not_or,
    Bool.not_eq_true, Option.isSome_eq_false_iff, Option.isNone_iff_eq_none] at h
  obtain ⟨⟨hslot, hopen⟩, h⟩ := h
  rcases hitems : p.intake.queue.items with _ | ⟨r, rest⟩
  · simp only [Queue.pop?, hitems, Option.ite_none_right_eq_some, Option.some.injEq] at h
    obtain ⟨hexhausted, rfl⟩ := h
    exact .intakeEnded hlooks hnone hslot hopen hexhausted
  · simp only [Queue.pop?, hitems, Option.some.injEq] at h
    exact h ▸ .took hlooks hnone hslot hopen hitems

theorem coordinatorStep_of_choose? (hphase : p.coordinator.phase = .choosing)
    (h : p.choose? = some q) : CoordinatorStep p q := by
  rw [choose?] at h
  cases hdrained : p.isDrained with
  | true =>
      simp only [hdrained, if_true, Option.some.injEq] at h
      exact h ▸ .drained hphase hdrained
  | false =>
      cases hcancelled : p.isCancelled with
      | true =>
          simp only [hdrained, hcancelled, Bool.false_eq_true, if_false, if_true,
            Option.some.injEq] at h
          exact h ▸ .interrupted hphase hdrained hcancelled
      | false =>
          have hlooks : p.Looks := ⟨hphase, hdrained, hcancelled⟩
          simp only [hdrained, hcancelled, Bool.false_eq_true, if_false] at h
          rcases htake : p.takeCompletion? with _ | next
          · rcases hslot : p.dispatchSlot? with _ | next
            · simp only [htake, hslot] at h
              exact coordinatorStep_of_takeReference? hlooks htake h
            · simp only [htake, hslot, Option.some.injEq] at h
              exact h ▸ coordinatorStep_of_dispatchSlot? hlooks htake hslot
          · simp only [htake, Option.some.injEq] at h
            exact h ▸ coordinatorStep_of_takeCompletion? hlooks htake

theorem coordinatorStep_resolve {r : Reference} {lock : Lock Party}
    (hphase : p.coordinator.phase = .resolving r)
    (hlock : p.lock.grant? .coordinator = some lock) :
    CoordinatorStep p ({ p with lock }.resolve r) := by
  rw [resolve]
  cases htarget : r.target with
  | location l =>
      rcases henroll : p.coordinator.waiters.enroll l r with ⟨k | n, waiters⟩
      · obtain ⟨rfl, -, -⟩ := Waiters.enroll_eq_dispatch henroll
        have := CoordinatorStep.admitted hphase hlock htarget henroll
        simpa [enroll, log, gauge, count, henroll] using this
      · have := CoordinatorStep.coalesced hphase hlock htarget henroll
        simpa [enroll, log, count, henroll] using this
  | nowhere cause => exact .unresolvable hphase hlock htarget
  | panic payload => exact .resolvePanicked hphase hlock htarget

/-- **Every step of the coordinator is in the list.** -/
theorem coordinatorStep_of_coordinate? (h : p.coordinate? = some q) : CoordinatorStep p q := by
  rw [coordinate?] at h
  cases hphase : p.coordinator.phase with
  | choosing =>
      simp only [hphase] at h
      exact coordinatorStep_of_choose? hphase h
  | resolving r =>
      simp only [hphase, withLock?, Option.map_map, Option.map_eq_some_iff] at h
      obtain ⟨lock, hlock, rfl⟩ := h
      exact coordinatorStep_resolve hphase hlock
  | reporting r cause =>
      simp only [hphase, withLock?, Option.map_map, Option.map_eq_some_iff] at h
      obtain ⟨lock, hlock, rfl⟩ := h
      have := CoordinatorStep.calledUnresolved hphase hlock
      cases hplain : p.protocol.plain <;>
        simpa [callUnresolved, turnTo, log, hplain] using this
  | inUnresolved r mode =>
      simp only [hphase] at h
      cases mode with
      | hold => simp [finishUnresolved?] at h
      | succeed => exact Option.some.inj h ▸ .unresolvedSucceeded hphase
      | fail stage cause => exact Option.some.inj h ▸ .unresolvedFailed hphase
      | panic payload => exact Option.some.inj h ▸ .unresolvedPanicked hphase
  | fanningOut outcome rest =>
      simp only [hphase, withLock?, Option.map_map, Option.map_eq_some_iff] at h
      obtain ⟨lock, hlock, rfl⟩ := h
      exact .fanOutBegun hphase hlock
  | delivering outcome rest delivered =>
      simp only [hphase, Option.some.injEq] at h
      subst h
      cases rest with
      | nil => exact .fanOutEnded hphase
      | cons r rest => exact .calledProcess hphase
  | inProcess r mode outcome rest delivered =>
      simp only [hphase] at h
      cases mode with
      | hold => simp [finishProcess?] at h
      | succeed => exact Option.some.inj h ▸ .processSucceeded hphase
      | fail stage cause => exact Option.some.inj h ▸ .processFailed hphase
      | panic payload => exact Option.some.inj h ▸ .processPanicked hphase
  | ended ending => simp [hphase] at h

/-- Dropping a hook is in the list as well. -/
theorem coordinatorStep_of_dropHook? (h : p.dropHook? = some q) : CoordinatorStep p q := by
  rw [dropHook?] at h
  cases hcancelled : p.isCancelled with
  | false => simp [hcancelled] at h
  | true =>
      cases hphase : p.coordinator.phase with
      | inUnresolved r mode =>
          simp only [hcancelled, hphase, if_true, Option.some.injEq] at h
          exact h ▸ .unresolvedDropped hphase hcancelled
      | inProcess r mode outcome rest delivered =>
          simp only [hcancelled, hphase, if_true, Option.some.injEq] at h
          exact h ▸ .processDropped hphase hcancelled
      | _ => simp [hcancelled, hphase] at h

/-- A hook that is let go has to do with the coordinator alone. -/
theorem releaseHook_eq (p : Pipeline) (mode : HookMode) :
    p.releaseHook mode = { p with coordinator := (p.releaseHook mode).coordinator } := by
  rw [releaseHook]
  split <;> rfl

/-- Only a coordinator that has not ended takes steps. -/
theorem CoordinatorStep.running (h : p.CoordinatorStep q) : p.isOver = false := by
  cases h with
  | completed hlooks | stray hlooks | completionsEnded hlooks | stranded hlooks
  | dispatched hlooks | undispatchable hlooks | took hlooks | intakeEnded hlooks =>
      rw [isOver, hlooks.phase]
  | drained hphase | interrupted hphase | admitted hphase | coalesced hphase
  | unresolvable hphase | resolvePanicked hphase | calledUnresolved hphase
  | unresolvedSucceeded hphase | unresolvedFailed hphase | unresolvedPanicked hphase
  | fanOutBegun hphase | fanOutEnded hphase | calledProcess hphase | processSucceeded hphase
  | processFailed hphase | processPanicked hphase | unresolvedDropped hphase
  | processDropped hphase =>
      rw [isOver, hphase]

theorem exists_of_isOver (h : p.isOver = true) : ∃ ending, p.coordinator.phase = .ended ending := by
  rw [isOver] at h
  split at h
  · exact ⟨_, ‹_›⟩
  · cases h

/-- A coordinator that has an ending is through. -/
theorem isOver_of_ending? {ending : Ending} (h : p.ending? = some ending) : p.isOver = true := by
  rw [ending?] at h
  rw [isOver]
  split at h
  · rfl
  · cases h

/-- The coordinator has nothing to do with the pool. -/
theorem CoordinatorStep.pool (h : p.CoordinatorStep q) : q.pool = p.pool := by
  cases h with
  | stray | stranded | undispatchable | unresolvedFailed | processFailed => rw [abort_eq]; rfl
  | _ => rfl

/-- A coordinator that has drained leaves. -/
theorem CoordinatorStep.eq_of_isDrained (h : p.CoordinatorStep q)
    (hphase : p.coordinator.phase = .choosing) (hdrained : p.isDrained = true) :
    q = { p with journal := .note .stopped :: .note .drained :: p.journal }.finish .done := by
  have hbusy : ¬ p.isDrained = false := by simp [hdrained]
  cases h with
  | drained => rfl
  | interrupted _ h => exact absurd h hbusy
  | completed hlooks | stray hlooks | completionsEnded hlooks | stranded hlooks
  | dispatched hlooks | undispatchable hlooks | took hlooks | intakeEnded hlooks =>
      exact absurd hlooks.busy hbusy
  | admitted h | coalesced h | unresolvable h | resolvePanicked h | calledUnresolved h
  | unresolvedSucceeded h | unresolvedFailed h | unresolvedPanicked h | fanOutBegun h
  | fanOutEnded h | calledProcess h | processSucceeded h | processFailed h | processPanicked h
  | unresolvedDropped h | processDropped h => simp [hphase] at h

/-- The coordinator sees the end of the intake once that is exhausted. -/
theorem CoordinatorStep.intakeDone (h : p.CoordinatorStep q)
    (hdone : q.coordinator.intakeDone = true) :
    p.coordinator.intakeDone = true ∨ p.intake.queue.isExhausted = true := by
  cases h with
  | intakeEnded _ _ _ _ hexhausted => exact .inr hexhausted
  | stray | stranded | undispatchable | unresolvedFailed | processFailed =>
      rw [abort_eq] at hdone
      exact .inl hdone
  | _ => exact .inl hdone

/-- A fault that an alarm hands back is of the kind of the alarm. -/
theorem kind_returned (latch : Latch) (tokens : Tokens) (alarm : Alarm) :
    (latch.trigger tokens alarm).returned.kind = alarm.fault.kind := by
  rw [Latch.trigger]
  split <;> rfl

/-- A coordinator that finds what every completion is for does not end with a violation. -/
theorem CoordinatorStep.kind_ne_violation (h : p.CoordinatorStep q)
    (hfound : ∀ c ∈ p.completions.items,
      (p.coordinator.waiters.complete? c.location).isSome = true)
    {ending : Ending} {fault : Fault} (hended : q.coordinator.phase = .ended ending)
    (hfault : ending.fault? = some fault) : fault.kind ≠ .violation := by
  have hfailed : ∀ (p : Pipeline) (alarm : Alarm), alarm.fault.kind ≠ .violation →
      (p.abort alarm).coordinator.phase = .ended ending → fault.kind ≠ .violation := by
    intro p alarm hkind hended
    rw [abort_eq] at hended
    obtain rfl := Phase.ended.inj hended
    obtain rfl := Option.some.inj hfault
    rwa [kind_returned]
  cases h with
  | stray hlooks hopen hitems hlost =>
      have := hfound _ (hitems ▸ List.mem_cons_self)
      rw [hlost] at this
      exact absurd this Bool.false_ne_true
  | stranded | undispatchable | unresolvedFailed | processFailed =>
      exact hfailed _ _ (by simp [Alarm.fault, Fault.kind]) hended
  | drained | interrupted | unresolvedDropped | processDropped =>
      obtain rfl := Phase.ended.inj hended
      cases hfault
  | resolvePanicked | unresolvedPanicked | processPanicked =>
      obtain rfl := Phase.ended.inj hended
      obtain rfl := Option.some.inj hfault
      simp [Fault.kind]
  | completionsEnded hlooks | dispatched hlooks | intakeEnded hlooks =>
      cases hlooks.phase.symm.trans hended
  | completed | took | admitted | coalesced | unresolvable | calledUnresolved
  | unresolvedSucceeded | fanOutBegun | fanOutEnded | calledProcess | processSucceeded =>
      cases hended

end SharedFetch.Pipeline
