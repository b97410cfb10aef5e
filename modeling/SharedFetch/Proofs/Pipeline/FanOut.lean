import SharedFetch.Proofs.Pipeline.Alarms

/-!
# The fan-out of a completion

A coordinator that takes up a completion gives its outcome to the references that wait for the
location, one after the other. It first waits for its turn to write the protocol, and then for each
hook that it calls, and in between anything may happen to the pipeline: workers go on, hooks and
fetches that are held are answered, tokens are cancelled. `Serves` are the courses of such a
fan-out, `FanOutAt` lists the positions that it can be in, and `Serves.served` says that it is
always in one of them. It is over when all hooks have succeeded, or with the first that has not.

## Convention

What has become of a hook is read off the phases before and after the step in which the coordinator
sees it. A hook that is held has not ended. A coordinator whose hook panics counts no delivery of
the fan-out at all, not even of the hooks that had succeeded.

## Main results

* `FanOutAt.coordinatorStep`: every step of the coordinator leads to the next position.
* `completion_fans_out`: what a completion does, whether anything waits for its location or not.
-/

namespace SharedFetch

/-- What has become of a hook that was to take a delivery. -/
inductive HookEnd where
  | succeeded
  | failed (failure : HookFailure)
  | dropped
  | panicked (payload : Payload)

namespace Phase

/-- Whether the coordinator is giving references their delivery. -/
def isServing : Phase → Bool
  | .fanningOut .. | .delivering .. | .inProcess .. => true
  | _ => false

/-- What has become of the hook that takes a delivery, where the coordinator goes from one phase to
another. -/
def hookEnd? : Phase → Phase → Option HookEnd
  | .inProcess .., .delivering .. => some .succeeded
  | .inProcess _ (.fail stage cause) _ _ _, .ended (.failed _) =>
    some (.failed ⟨stage.getD .process, cause⟩)
  | .inProcess .., .ended .done => some .dropped
  | .inProcess .., .ended (.panicked payload) => some (.panicked payload)
  | _, _ => none

/-- Nothing becomes of a hook in a phase that lasts. -/
theorem hookEnd?_self (phase : Phase) : phase.hookEnd? phase = none := by
  cases phase <;> rfl

end Phase

namespace Counters

/-- To count no delivery changes nothing. -/
theorem coordinators_record_none (c : Counters) :
    (c.record (.deliveries (UInt64.ofNat 0))).coordinators = c.coordinators := by
  simp [record, coordinators]

/-- What is counted of a fan-out depends on the counters of the coordinator only. -/
theorem coordinators_record_congr {c d : Counters} (h : c.coordinators = d.coordinators)
    (n : UInt64) : (c.record (.deliveries n)).coordinators =
      (d.record (.deliveries n)).coordinators := by
  simp only [coordinators, Counters.mk.injEq] at h
  simp [record, coordinators, h]

end Counters

namespace Pipeline

/-- The positions of a fan-out: what has become of the hooks called so far, the phase of the
coordinator, the references whose hook it has called, and the deliveries that it has counted. -/
inductive FanOutAt (outcome : Delivery) (references : List Reference) :
    List HookEnd → Phase → List Reference → Nat → Prop where
  /-- It waits for the lock. -/
  | waiting : FanOutAt outcome references [] (.fanningOut outcome references) [] 0
  /-- It is between two hooks. -/
  | between {given left : List Reference} (hreferences : references = given ++ left) :
      FanOutAt outcome references (List.replicate given.length .succeeded)
        (.delivering outcome left given.length) given 0
  /-- It waits for a hook. -/
  | calling {given rest : List Reference} {r : Reference} (mode : HookMode)
      (hreferences : references = given ++ r :: rest) :
      FanOutAt outcome references (List.replicate given.length .succeeded)
        (.inProcess r mode outcome rest given.length) (given ++ [r]) 0
  /-- All hooks have succeeded. -/
  | served : FanOutAt outcome references (List.replicate references.length .succeeded) .choosing
      references references.length
  /-- A hook has failed. -/
  | failed {given rest : List Reference} {r : Reference} (failure : HookFailure) (fault : Fault)
      (hreferences : references = given ++ r :: rest) :
      FanOutAt outcome references (List.replicate given.length .succeeded ++ [.failed failure])
        (.ended (.failed fault)) (given ++ [r]) given.length
  /-- A hook was dropped. -/
  | dropped {given rest : List Reference} {r : Reference}
      (hreferences : references = given ++ r :: rest) :
      FanOutAt outcome references (List.replicate given.length .succeeded ++ [.dropped])
        (.ended .done) (given ++ [r]) given.length
  /-- A hook has panicked. -/
  | panicked {given rest : List Reference} {r : Reference} (payload : Payload)
      (hreferences : references = given ++ r :: rest) :
      FanOutAt outcome references (List.replicate given.length .succeeded ++ [.panicked payload])
        (.ended (.panicked payload)) (given ++ [r]) 0

variable {p q r : Pipeline} {outcome : Delivery} {references called : List Reference}
  {ends : List HookEnd} {counted n : Nat}

/-- A step of the coordinator leads from one position to the next. -/
structure FanOutStep (p q : Pipeline) (outcome : Delivery) (references : List Reference)
    (ends : List HookEnd) (called : List Reference) : Prop where
  position : ∃ new counted, FanOutAt outcome references
      (ends ++ (p.coordinator.phase.hookEnd? q.coordinator.phase).toList) q.coordinator.phase
      (called ++ new) counted ∧
    deliveries (p.coordinator.phase.called q.coordinator.phase) = new.map (·, outcome) ∧
    q.counters.coordinators =
      (p.counters.record (.deliveries (UInt64.ofNat counted))).coordinators
  waiters : q.coordinator.waiters = p.coordinator.waiters
  slot : q.coordinator.slot = p.coordinator.slot

theorem FanOutAt.coordinatorStep
    (h : FanOutAt outcome references ends p.coordinator.phase called counted)
    (hserving : p.coordinator.phase.isServing = true) (hstep : p.CoordinatorStep q) :
    FanOutStep p q outcome references ends called := by
  cases hstep with
  | drained hphase | interrupted hphase | admitted hphase | coalesced hphase | unresolvable hphase
  | resolvePanicked hphase | calledUnresolved hphase | unresolvedSucceeded hphase
  | unresolvedFailed hphase | unresolvedPanicked hphase | unresolvedDropped hphase =>
      rw [hphase] at hserving
      cases hserving
  | completed hlooks | stray hlooks | completionsEnded hlooks | stranded hlooks
  | dispatched hlooks | undispatchable hlooks | took hlooks | intakeEnded hlooks =>
      rw [hlooks.phase] at hserving
      cases hserving
  | fanOutBegun hphase hlock =>
      rw [hphase] at h
      cases h
      refine ⟨⟨[], 0, ?_, ?_, ?_⟩, rfl, rfl⟩
      · rw [hphase]
        exact .between (List.nil_append references).symm
      · rw [hphase]
        rfl
      · rw [Counters.coordinators_record_none]
  | fanOutEnded hphase =>
      rw [hphase] at h
      cases h with
      | between hreferences =>
          obtain rfl : references = called := by simpa using hreferences
          refine ⟨⟨[], references.length, ?_, ?_, rfl⟩, rfl, rfl⟩
          · rw [hphase, List.append_nil]
            exact (List.append_nil _).symm ▸ .served
          · rw [hphase]
            rfl
  | @calledProcess r outcome' rest delivered hphase =>
      rw [hphase] at h
      cases h with
      | between hreferences =>
          refine ⟨⟨[r], 0, ?_, ?_, ?_⟩, rfl, rfl⟩
          · rw [hphase]
            exact (List.append_nil _).symm ▸ .calling r.process hreferences
          · rw [hphase]
            rfl
          · rw [Counters.coordinators_record_none]
  | @processSucceeded r outcome' rest delivered hphase =>
      rw [hphase] at h
      cases h with
      | @calling given _ _ _ hreferences =>
          refine ⟨⟨[], 0, ?_, ?_, ?_⟩, rfl, rfl⟩
          · have hnext : FanOutAt outcome references
                (List.replicate (given ++ [r]).length .succeeded)
                (.delivering outcome rest (given ++ [r]).length) (given ++ [r]) 0 :=
              .between (by rw [hreferences, List.append_assoc, List.singleton_append])
            rw [hphase, List.append_nil]
            rwa [List.length_append, List.length_singleton, List.replicate_succ'] at hnext
          · rw [hphase]
            rfl
          · rw [Counters.coordinators_record_none]
  | @processFailed r stage cause outcome' rest delivered hphase =>
      rw [hphase] at h
      cases h with
      | @calling given _ _ _ hreferences =>
          rw [abort_eq]
          refine ⟨⟨[], given.length, ?_, ?_, rfl⟩, rfl, rfl⟩
          · rw [hphase, List.append_nil]
            exact .failed _ _ hreferences
          · rw [hphase]
            rfl
  | @processPanicked r payload outcome' rest delivered hphase =>
      rw [hphase] at h
      cases h with
      | calling mode hreferences =>
          refine ⟨⟨[], 0, ?_, ?_, ?_⟩, rfl, rfl⟩
          · rw [hphase, List.append_nil]
            exact .panicked payload hreferences
          · rw [hphase]
            rfl
          · rw [Counters.coordinators_record_none]
            rfl
  | @processDropped r mode outcome' rest delivered hphase hcancelled =>
      rw [hphase] at h
      cases h with
      | @calling given _ _ _ hreferences =>
          refine ⟨⟨[], given.length, ?_, ?_, rfl⟩, rfl, rfl⟩
          · rw [hphase, List.append_nil]
            exact .dropped hreferences
          · rw [hphase]
            rfl

/-! ### Courses -/

/-- The courses of a fan-out: from `p` to `q` the coordinator has been giving references their
delivery, whatever else has happened, and `ends` tells what has become of the hooks that ended. -/
inductive Serves (p : Pipeline) : List HookEnd → Pipeline → Prop where
  | start : Serves p [] p
  | change {ends : List HookEnd} {q r : Pipeline} (h : Serves p ends q)
      (hserving : q.coordinator.phase.isServing = true) (hchange : q.Change r) :
      Serves p (ends ++ (q.coordinator.phase.hookEnd? r.coordinator.phase).toList) r

/-- What has been done for a fan-out between `p`, where it was due, and `q`. The journal is read
from its entry `n`. -/
structure Served (n : Nat) (p : Pipeline) (outcome : Delivery) (references : List Reference)
    (ends : List HookEnd) (q : Pipeline) : Prop where
  position : ∃ called counted,
    FanOutAt outcome references ends q.coordinator.phase called counted ∧
    deliveriesIn (q.entriesFrom n) = called.map (·, outcome) ∧
    q.counters.coordinators =
      (p.counters.record (.deliveries (UInt64.ofNat counted))).coordinators
  journal : n ≤ q.journal.length
  waiters : q.coordinator.waiters = p.coordinator.waiters
  slot : q.coordinator.slot = p.coordinator.slot

/-- As long as a fan-out goes on, none of its deliveries is counted. -/
theorem FanOutAt.counted_eq_zero {phase : Phase}
    (h : FanOutAt outcome references ends phase called counted)
    (hserving : phase.isServing = true) : counted = 0 := by
  cases h with
  | waiting | between | calling => rfl
  | served | failed | dropped | panicked => cases hserving

/-- A hook that is answered has not ended. -/
theorem hookEnd?_releaseHook (p : Pipeline) (mode : HookMode) :
    p.coordinator.phase.hookEnd? (p.releaseHook mode).coordinator.phase = none := by
  rcases exists_releaseHook p mode with heq | ⟨phase, -, heq, ⟨r, hphase, rfl⟩ | hheld⟩
  · rw [heq, Phase.hookEnd?_self]
  · rw [heq, hphase]
    rfl
  · obtain ⟨r, outcome, rest, delivered, hphase, rfl⟩ := hheld
    rw [heq, hphase]
    rfl

namespace Served

/-- The coordinator takes a step. -/
theorem coordinatorStep (h : Served n p outcome references ends q)
    (hserving : q.coordinator.phase.isServing = true) (hstep : q.CoordinatorStep r) :
    Served n p outcome references
      (ends ++ (q.coordinator.phase.hookEnd? r.coordinator.phase).toList) r := by
  obtain ⟨called, counted, hat, hcalled, hcounted⟩ := h.position
  obtain ⟨⟨new, counted', hnext, hnew, hrecorded⟩, hwaiters, hslot⟩ :=
    hat.coordinatorStep hserving hstep
  obtain ⟨written, hwrites⟩ := hstep.exists_writes
  obtain rfl := hat.counted_eq_zero hserving
  rw [Counters.coordinators_record_none] at hcounted
  refine ⟨⟨called ++ new, counted', hnext, ?_, ?_⟩, ?_, hwaiters.trans h.waiters,
    hslot.trans h.slot⟩
  · rw [entriesFrom_append h.journal hwrites.journal, deliveriesIn_append, hcalled,
      hwrites.delivered, hnew, List.map_append]
  · rw [hrecorded]
    exact Counters.coordinators_record_congr hcounted _
  · rw [hwrites.journal, List.length_append]
    exact Nat.le_add_left_of_le h.journal

/-- The position is kept: no hook is called and none has ended. -/
theorem kept (h : Served n p outcome references ends q)
    (hat : ∀ called counted, FanOutAt outcome references ends q.coordinator.phase called counted →
      FanOutAt outcome references ends r.coordinator.phase called counted)
    (hjournal : ∃ new, r.journal = new ++ q.journal ∧ ∀ e ∈ new, e.isForeign = true)
    (hcounters : r.counters.coordinators = q.counters.coordinators)
    (hwaiters : r.coordinator.waiters = q.coordinator.waiters)
    (hslot : r.coordinator.slot = q.coordinator.slot) : Served n p outcome references ends r := by
  obtain ⟨called, counted, hposition, hcalled, hcounted⟩ := h.position
  obtain ⟨new, hnew, hforeign⟩ := hjournal
  refine ⟨⟨called, counted, hat _ _ hposition, ?_, hcounters.trans hcounted⟩, ?_,
    hwaiters.trans h.waiters, hslot.trans h.slot⟩
  · have hquiet : ∀ e ∈ new.reverse, e.isQuiet = true := fun e he =>
      Entry.isQuiet_of_isForeign (hforeign e (List.mem_reverse.mp he))
    rw [entriesFrom_append h.journal hnew, deliveriesIn_append, deliveriesIn_eq_nil hquiet,
      List.append_nil, hcalled]
  · rw [hnew, List.length_append]
    exact Nat.le_add_left_of_le h.journal

/-- A hook that is held is answered. -/
theorem releaseHook (h : Served n p outcome references ends q)
    (hserving : q.coordinator.phase.isServing = true) (mode : HookMode) :
    Served n p outcome references
      (ends ++ (q.coordinator.phase.hookEnd? (q.releaseHook mode).coordinator.phase).toList)
      (q.releaseHook mode) := by
  rw [hookEnd?_releaseHook, Option.toList_none, List.append_nil]
  rcases exists_releaseHook q mode with heq | ⟨phase, -, heq, ⟨r, hphase, -⟩ | hheld⟩
  · rwa [heq]
  · rw [hphase] at hserving
    cases hserving
  · obtain ⟨r, outcome', rest, delivered, hphase, rfl⟩ := hheld
    rw [heq]
    refine h.kept (fun called counted hat => ?_) ⟨[], rfl, by simp⟩ rfl rfl rfl
    rw [hphase] at hat
    cases hat with
    | calling _ hreferences => exact .calling mode hreferences

/-- The coordinator has no part in what happens. -/
theorem sparesCoordinator (h : Served n p outcome references ends q)
    (hspares : SparesCoordinator q r) :
    Served n p outcome references
      (ends ++ (q.coordinator.phase.hookEnd? r.coordinator.phase).toList) r := by
  have hsame := hspares.coordinator
  rw [hsame, Phase.hookEnd?_self, Option.toList_none, List.append_nil]
  exact h.kept (fun _ _ hat => hsame ▸ hat) hspares.journal hspares.counters (by rw [hsame])
    (by rw [hsame])

end Served

/-- **A fan-out is always in one of its positions**, whatever happens around it. -/
theorem Serves.served (hphase : p.coordinator.phase = .fanningOut outcome references)
    (hn : n ≤ p.journal.length) (hquiet : deliveriesIn (p.entriesFrom n) = [])
    (h : p.Serves ends q) : Served n p outcome references ends q := by
  induction h with
  | start =>
      refine ⟨⟨[], 0, hphase ▸ .waiting, hquiet, ?_⟩, hn, rfl, rfl⟩
      rw [Counters.coordinators_record_none]
  | change h hserving hchange ih =>
      rcases hchange.cases with hstep | ⟨mode, rfl⟩ | hspares
      · exact ih.coordinatorStep hserving hstep
      · exact ih.releaseHook hserving mode
      · exact ih.sparesCoordinator hspares

/-! ### Ways out -/

/-- Within a run that goes on, every alarm cancels both tokens. -/
theorem Armed.change (h : p.Armed) (hrunning : p.isOver = false) (hchange : p.Change q) :
    q.Armed := by
  cases hchange with
  | coordinated hstep => exact h.alarmed hstep.alarmed
  | worked hstep => exact h.alarmed hstep.alarmed
  | hookReleased mode =>
      rw [releaseHook_eq]
      exact h.of_eq rfl (.refl _)
  | fetchReleased hj mode =>
      rw [releaseFetch_eq]
      exact h.of_eq rfl (.refl _)
  | tasksSpared hspares hlatch htokens => exact h.of_eq hlatch htokens
  | renewed hspares hfinished hunset =>
      rw [hfinished.ended] at hrunning
      cases hrunning

theorem isOver_eq_false_of_isServing (h : p.coordinator.phase.isServing = true) :
    p.isOver = false := by
  rw [isOver]
  split
  · rename_i ending hphase
    rw [hphase] at h
    cases h
  · rfl

theorem Serves.armed (h : p.Serves ends q) (harmed : p.Armed) : q.Armed := by
  induction h with
  | start => exact harmed
  | change h hserving hchange ih =>
      exact ih.change (isOver_eq_false_of_isServing hserving) hchange

/-- How a hook of a fan-out ends for the latch: a hook that fails sets it off, and the coordinator
ends with the fault that it is handed back; a hook is dropped because the run is cancelled, which
sets off nothing; nor does one that succeeds. -/
structure Exits (p q : Pipeline) : Prop where
  failed : ∀ failure, p.coordinator.phase.hookEnd? q.coordinator.phase = some (.failed failure) →
    q.coordinator.phase =
      .ended (.failed (p.latch.trigger p.tokens (.hook failure)).returned) ∧
    q.latch = (p.latch.trigger p.tokens (.hook failure)).latch ∧
    q.tokens = (p.latch.trigger p.tokens (.hook failure)).tokens
  dropped : p.coordinator.phase.hookEnd? q.coordinator.phase = some .dropped →
    p.isCancelled = true ∧ q.latch = p.latch ∧ q.tokens = p.tokens
  succeeded : p.coordinator.phase.hookEnd? q.coordinator.phase = some .succeeded →
    q.latch = p.latch ∧ q.tokens = p.tokens

/-- A step in which no hook ends. -/
theorem Exits.of_none (h : p.coordinator.phase.hookEnd? q.coordinator.phase = none) :
    Exits p q := by
  refine ⟨fun failure hend => ?_, fun hend => ?_, fun hend => ?_⟩ <;>
  · rw [h] at hend
    cases hend

theorem CoordinatorStep.exits (h : p.CoordinatorStep q)
    (hserving : p.coordinator.phase.isServing = true) : Exits p q := by
  cases h with
  | drained hphase | interrupted hphase | admitted hphase | coalesced hphase | unresolvable hphase
  | resolvePanicked hphase | calledUnresolved hphase | unresolvedSucceeded hphase
  | unresolvedFailed hphase | unresolvedPanicked hphase | unresolvedDropped hphase =>
      rw [hphase] at hserving
      cases hserving
  | completed hlooks | stray hlooks | completionsEnded hlooks | stranded hlooks
  | dispatched hlooks | undispatchable hlooks | took hlooks | intakeEnded hlooks =>
      rw [hlooks.phase] at hserving
      cases hserving
  | fanOutBegun hphase | fanOutEnded hphase | calledProcess hphase =>
      exact .of_none (by rw [hphase]; rfl)
  | processSucceeded hphase =>
      refine ⟨fun failure hend => ?_, fun hend => ?_, fun _ => ⟨rfl, rfl⟩⟩ <;>
      · rw [hphase] at hend
        cases hend
  | processFailed hphase =>
      rw [abort_eq]
      refine ⟨fun failure hend => ?_, fun hend => ?_, fun hend => ?_⟩ <;> rw [hphase] at hend <;>
        cases hend
      exact ⟨rfl, rfl, rfl⟩
  | processPanicked hphase =>
      refine ⟨fun failure hend => ?_, fun hend => ?_, fun hend => ?_⟩ <;>
      · rw [hphase] at hend
        cases hend
  | processDropped hphase hcancelled =>
      refine ⟨fun failure hend => ?_, fun _ => ⟨hcancelled, rfl, rfl⟩, fun hend => ?_⟩ <;>
      · rw [hphase] at hend
        cases hend

theorem Change.exits (h : p.Change q) (hserving : p.coordinator.phase.isServing = true) :
    Exits p q := by
  rcases h.cases with hstep | ⟨mode, rfl⟩ | hspares
  · exact hstep.exits hserving
  · exact .of_none (hookEnd?_releaseHook p mode)
  · exact .of_none (by rw [hspares.coordinator, Phase.hookEnd?_self])

/-- A fan-out goes on, unless the coordinator waits for the lock or for a hook that is held. -/
theorem isSome_coordinate?_of_isServing (h : p.coordinator.phase.isServing = true) :
    p.coordinate?.isSome = true ∨
      (∃ outcome rest, p.coordinator.phase = .fanningOut outcome rest) ∧
        p.lock.grant? .coordinator = none ∨
      ∃ r outcome rest delivered,
        p.coordinator.phase = .inProcess r .hold outcome rest delivered := by
  rw [coordinate?]
  cases hphase : p.coordinator.phase with
  | fanningOut outcome rest =>
      cases hlock : p.lock.grant? .coordinator with
      | none => exact .inr (.inl ⟨⟨outcome, rest, rfl⟩, rfl⟩)
      | some lock => simp [withLock?, hlock]
  | delivering outcome rest delivered => exact .inl rfl
  | inProcess r mode outcome rest delivered =>
      cases mode with
      | hold => exact .inr (.inr ⟨r, outcome, rest, delivered, rfl⟩)
      | succeed | fail | panic => exact .inl rfl
  | choosing | resolving | reporting | inUnresolved | ended =>
      rw [hphase] at h
      cases h

/-- What the coordinator does with a completion that is ready. -/
theorem coordinate?_of_completion {c : Completion} {rest : List Completion} (hlooks : p.Looks)
    (hopen : p.coordinator.completionsDone = false) (hitems : p.completions.items = c :: rest) :
    p.coordinate? =
      some ({ p with completions := { p.completions with items := rest } }.complete c) := by
  simp [coordinate?, hlooks.phase, choose?, hlooks.busy, hlooks.live, takeCompletion?, hopen,
    Queue.pop?, hitems]

/-- If references wait for its location, the coordinator is about to serve them. -/
theorem coordinate?_of_found {c : Completion} {rest : List Completion}
    {waiters : Waiters Location Reference} (hlooks : p.Looks)
    (hopen : p.coordinator.completionsDone = false) (hitems : p.completions.items = c :: rest)
    (hfound : p.coordinator.waiters.complete? c.location = some (references, waiters)) :
    p.coordinate? = some
      { p with
        completions := { p.completions with items := rest }
        coordinator := { p.coordinator with waiters, phase := .fanningOut c.outcome references }
        counters :=
          (p.counters.record .completion).record (.inFlight (UInt64.ofNat waiters.size))
        lock := p.lock.queueUp .coordinator .write
        journal :=
          .note (.fanningOut c.location references.length c.outcome.isSuccess) :: p.journal } := by
  rw [coordinate?_of_completion hlooks hopen hitems]
  simp [complete, count, gauge, log, askLock, turnTo, hfound]

/-- If nothing waits for its location, the coordinator ends with an alarm. -/
theorem coordinate?_of_lost {c : Completion} {rest : List Completion} (hlooks : p.Looks)
    (hopen : p.coordinator.completionsDone = false) (hitems : p.completions.items = c :: rest)
    (hlost : p.coordinator.waiters.complete? c.location = none) :
    p.coordinate? = some
      ({ p with
          completions := { p.completions with items := rest }
          counters := p.counters.record .completion }.abort
        (.pipeline "coordinator received unexpected completion" (.violation (.of c.location)))) := by
  rw [coordinate?_of_completion hlooks hopen hitems]
  simp [complete, count, hlost]

/-- A coordinator that ends with an alarm calls no hook. -/
theorem entriesFrom_abort (p : Pipeline) (alarm : Alarm) :
    deliveriesIn ((p.abort alarm).entriesFrom p.journal.length) = [] ∧
      unresolvedIn ((p.abort alarm).entriesFrom p.journal.length) = [] := by
  have hjournal : (p.abort alarm).journal = p.alarmEntries alarm ++ p.journal := by
    rw [abort_eq]
    rfl
  have hquiet : ∀ e ∈ (p.alarmEntries alarm).reverse, e.isQuiet = true := by
    intro e he
    obtain ⟨a, rfl⟩ := eq_of_mem_alarmEntries (List.mem_reverse.mp he)
    rfl
  rw [entriesFrom_append (Nat.le_refl _) hjournal, entriesFrom_length, List.nil_append]
  exact ⟨deliveriesIn_eq_nil hquiet, unresolvedIn_eq_nil hquiet⟩

/-- Once the run is cancelled, the coordinator can drop the hook that it waits for. -/
theorem exists_dropHook? {r : Reference} {mode : HookMode} {rest : List Reference}
    {delivered : Nat} (hphase : p.coordinator.phase = .inProcess r mode outcome rest delivered)
    (hcancelled : p.isCancelled = true) :
    ∃ q, p.dropHook? = some q ∧
      p.coordinator.phase.hookEnd? q.coordinator.phase = some .dropped := by
  rw [dropHook?, if_pos hcancelled, hphase]
  exact ⟨_, rfl, rfl⟩

/-- **The fan-out of a completion.** Let a completion be the next thing that the coordinator takes
up. If references wait for its location, their entry is removed, and from then on, whatever happens
around the coordinator, the fan-out is in one of its positions: the hooks were called for the
references in order, with the outcome of the completion, up to the first that has not succeeded; the
completion is counted, the gauge shows the entries that are left, and those are the other entries as
they were, as is the slot; when the fan-out is over, as many deliveries are counted as hooks have
succeeded, unless one has panicked. A hook that fails sets off the latch and cancels the run and its
root, and the coordinator ends with that fault; a hook that is dropped sets off nothing, and the
coordinator stops. As long as it is not over, the fan-out goes on, unless it waits for the lock or
for a hook that is held, and once the run is cancelled such a hook can be dropped; what the
coordinator does in either way is one of the changes that may happen. If nothing waits for the
location, no hook is called, waiters and slot are as they were, only the completion is counted, and
the latch captures a violation that names the location. -/
theorem completion_fans_out {c : Completion} {rest : List Completion} (hlooks : p.Looks)
    (halert : p.Alert) (hopen : p.coordinator.completionsDone = false)
    (hitems : p.completions.items = c :: rest) :
    (∀ before k references after,
      p.coordinator.waiters.entries = before ++ (k, references) :: after →
      Waiters.Lacks c.location before → (k == c.location) = true →
      ∃ s, p.coordinate? = some s ∧ ∀ ends q, s.Serves ends q →
        (∃ called counted,
          FanOutAt c.outcome references ends q.coordinator.phase called counted ∧
          deliveriesIn (q.entriesFrom p.journal.length) = called.map (·, c.outcome) ∧
          q.counters.coordinators =
            { p.counters.coordinators with
              completions := p.counters.completions + 1
              deliveries := p.counters.deliveries + UInt64.ofNat counted
              inFlight := UInt64.ofNat (before ++ after).length }) ∧
        q.coordinator.waiters.entries = before ++ after ∧
        q.coordinator.slot = p.coordinator.slot ∧
        (q.coordinator.phase.isServing = true →
          (q.coordinate?.isSome = true ∨
            (∃ outcome rest, q.coordinator.phase = .fanningOut outcome rest) ∧
              q.lock.grant? .coordinator = none ∨
            ∃ r outcome rest delivered,
              q.coordinator.phase = .inProcess r .hold outcome rest delivered) ∧
          (∀ r mode outcome rest delivered,
            q.coordinator.phase = .inProcess r mode outcome rest delivered →
            q.isCancelled = true → ∃ s, q.dropHook? = some s ∧
              q.coordinator.phase.hookEnd? s.coordinator.phase = some .dropped) ∧
          (∀ r, q.coordinate? = some r ∨ q.dropHook? = some r → q.Change r) ∧
          ∀ r, q.Change r → Exits q r ∧
            ∀ failure, q.coordinator.phase.hookEnd? r.coordinator.phase = some (.failed failure) →
              r.tokens.isCancelled r.latch.run = true ∧
                r.tokens.isCancelled r.latch.root = true)) ∧
    (Waiters.Lacks c.location p.coordinator.waiters.entries →
      ∃ q, p.coordinate? = some q ∧
        deliveriesIn (q.entriesFrom p.journal.length) = [] ∧
        unresolvedIn (q.entriesFrom p.journal.length) = [] ∧
        q.coordinator.waiters = p.coordinator.waiters ∧
        q.coordinator.slot = p.coordinator.slot ∧
        q.counters = { p.counters with completions := p.counters.completions + 1 } ∧
        q.coordinator.phase = .ended (.failed (.captured (.violation ⟨render c.location⟩))) ∧
        q.latch.caught = some (.violation ⟨render c.location⟩) ∧
        q.tokens.isCancelled q.latch.run = true ∧ q.tokens.isCancelled q.latch.root = true) := by
  have hunset : p.latch.Unset := halert.unset hlooks.live
  have harmed : p.Armed := by
    intro htriggered
    rw [hunset.triggered] at htriggered
    cases htriggered
  refine ⟨fun before k references after hentries hlacks hk => ?_, fun hlacks => ?_⟩
  · have hfound := Waiters.complete?_eq_some_iff.mpr ⟨before, k, after, hentries, hlacks, hk, rfl⟩
    refine ⟨_, coordinate?_of_found hlooks hopen hitems hfound, fun ends q hserves => ?_⟩
    have hserved := hserves.served (n := p.journal.length) rfl (by simp) (by
      simp [entriesFrom, history, deliveriesIn, Entry.delivery?])
    obtain ⟨called, counted, hat, hcalled, hcounted⟩ := hserved.position
    refine ⟨⟨called, counted, hat, hcalled, hcounted⟩, by rw [hserved.waiters], hserved.slot,
      fun hserving => ⟨isSome_coordinate?_of_isServing hserving,
        fun _ _ _ _ _ => exists_dropHook?, fun r hr => ?_, fun r hchange => ?_⟩⟩
    · exact .coordinated
        (hr.elim coordinatorStep_of_coordinate? coordinatorStep_of_dropHook?)
    have hexits := hchange.exits hserving
    refine ⟨hexits, fun failure hend => ?_⟩
    obtain ⟨-, hlatch, htokens⟩ := hexits.failed failure hend
    exact isCancelled_of_raised (hserves.armed harmed) hlatch htokens
  · have hlost := Waiters.complete?_eq_none_iff.mpr hlacks
    refine ⟨_, coordinate?_of_lost hlooks hopen hitems hlost, (entriesFrom_abort _ _).1,
      (entriesFrom_abort _ _).2, ?_⟩
    rw [abort_eq]
    refine ⟨rfl, rfl, rfl, ?_, ?_, isCancelled_of_raised harmed rfl rfl⟩
    · simp only [Pipeline.finish, hunset.trigger]
      rfl
    · simp only [Pipeline.finish, hunset.trigger]
      rfl

/-- A coordinator about to take up the completion of a location that three references wait for. The
hook of the second is held. Another location is in flight, and a third is in the slot. -/
def threeWaiting : Pipeline where
  protocol := {}
  tokens := (Tokens.child (Tokens.fresh {}).2 0).2
  latch := { root := 0, run := 1 }
  intake := { queue := { capacity := 1 } }
  dispatch := { capacity := 1 }
  completions := { capacity := 1, items := [⟨.text "a", .content "x"⟩] }
  coordinator :=
    { waiters := ⟨[(.text "b", [⟨4, .location (.text "b"), .succeed, .succeed⟩]),
        (.text "a", [⟨1, .location (.text "a"), .succeed, .succeed⟩,
          ⟨2, .location (.text "a"), .hold, .succeed⟩,
          ⟨3, .location (.text "a"), .succeed, .succeed⟩])]⟩
      slot := some (.text "c") }

/-- The coordinator takes its next step. -/
def goOn (p : Pipeline) : Pipeline :=
  p.coordinate?.getD p

theorem Change.goOn (h : p.coordinate?.isSome = true) : p.Change p.goOn := by
  obtain ⟨q, hq⟩ := Option.isSome_iff_exists.mp h
  rw [Pipeline.goOn, hq]
  exact .coordinated (coordinatorStep_of_coordinate? hq)

/-- The hook of the second reference is let go, and fails. -/
def secondFails : Pipeline :=
  (threeWaiting.goOn.goOn.goOn.goOn.goOn.releaseHook (.fail none default)).goOn

/-- The first two references have their delivery, the third never gets it, and one delivery is
counted. The other location is still in flight, the slot is as it was, and both tokens are
cancelled. -/
theorem completion_fans_out_secondFails :
    threeWaiting.goOn.Serves [.succeeded, .failed ⟨.process, default⟩] secondFails ∧
    (deliveriesIn (secondFails.entriesFrom 0)).map (fun d => (d.1.id, d.2)) =
      [(1, .content "x"), (2, .content "x")] ∧
    secondFails.counters.deliveries = 1 ∧ secondFails.counters.inFlight = 1 ∧
    secondFails.coordinator.waiters.locations = [.text "b"] ∧
    secondFails.coordinator.slot = some (.text "c") ∧
    secondFails.tokens.isCancelled 0 = true ∧ secondFails.tokens.isCancelled 1 = true := by
  obtain ⟨hfound, -⟩ := completion_fans_out (p := threeWaiting) ⟨rfl, rfl, rfl⟩
    (.of_unset ⟨rfl, rfl⟩) rfl rfl
  obtain ⟨s, hs, hserves⟩ := hfound [(.text "b", [⟨4, .location (.text "b"), .succeed, .succeed⟩])]
    (.text "a") _ [] rfl (by simp [Waiters.Lacks]; rfl) rfl
  obtain rfl : threeWaiting.goOn = s := Option.some.inj hs
  have hdue := Serves.start (p := threeWaiting.goOn)
  have hfirst := (hdue.change rfl (.goOn rfl)).change rfl (.goOn rfl)
  have hsecond := (hfirst.change rfl (.goOn rfl)).change rfl (.goOn rfl)
  have hheld := hsecond.change rfl (.hookReleased (.fail none default))
  have hlast : (threeWaiting.goOn.goOn.goOn.goOn.goOn.releaseHook (.fail none default)).Change
      secondFails := .goOn rfl
  have hfails := hheld.change rfl hlast
  obtain ⟨⟨called, counted, -, hcalled, hcounted⟩, hwaiters, hslot, -⟩ := hserves _ _ hfails
  obtain ⟨-, -, -, hserving⟩ := hserves _ _ hheld
  obtain ⟨hrun, hroot⟩ := ((hserving rfl).2.2.2 _ hlast).2 ⟨.process, default⟩ rfl
  refine ⟨hfails, by rfl, by rfl, by rfl, ?_, hslot, hroot, hrun⟩
  rw [Waiters.locations, hwaiters]
  rfl

end Pipeline

end SharedFetch
