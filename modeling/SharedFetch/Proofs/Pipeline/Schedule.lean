import SharedFetch.Proofs.Pipeline.Forecast
import SharedFetch.Proofs.Pipeline.Stopping
import SharedFetch.Proofs.Pipeline.Work

/-!
# Runs of coordinator and workers

Between two things that happen outside, coordinator and workers go on in any order, until none of
them can (`Runs`). A fetch that is answered in a pipeline that was still makes its worker the only
one who can go on, until its completion is handed in (`Answering.only`); so it makes no difference
that the others are allowed to go first. If the coordinator has panicked, then the worker cannot
hand it in and fails, which cancels the run; what the others do then comes to the same in any order
as well (`Disbanding`).

## Main results

* `Runs.of_only`: where only one can go on, every run begins with it.
* `Answering.only`: only the worker whose fetch is answered can go on.
* `Disbanding.workerStep`, `Disbanding.remains_of_quiescent`: what is left of a run that disbands is
  settled beforehand.
-/

namespace SharedFetch

/-- Whether the event is a step of the coordinator or of a worker. -/
def Event.isOwn : Event → Bool
  | .produce _ => false
  | _ => true

namespace Pool

variable {p : Pool} {j : Job}

theorem job?_update_of_ne {id : Nat} (hid : id ≠ j.worker) : (p.update j).job? id = p.job? id := by
  rw [job?_update]
  cases hjob : p.job? id with
  | none => rfl
  | some k =>
      have hworker := (job?_eq_some hjob).2
      rw [Option.map_some, if_neg (by rw [hworker]; exact hid)]

theorem job?_update_self (h : p.workers.Nodup) (hj : j ∈ p.busy) (stage : JobStage) :
    (p.update { j with stage }).job? j.worker = some { j with stage } := by
  have hnodup : (p.update { j with stage }).workers.Nodup := by
    rw [workers, map_worker_update]
    exact h
  refine job?_of_mem (j := { j with stage }) hnodup ?_
  exact List.mem_map.mpr ⟨j, hj, if_pos rfl⟩

/-- Nobody else's job changes with that of a worker. -/
theorem mem_busy_of_mem_without {stage : JobStage} {k : Job}
    (hk : k ∈ (p.update { j with stage }).busy.filter fun k => k.worker != j.worker) :
    k ∈ p.busy := by
  obtain ⟨hmem, hother⟩ := List.mem_filter.mp hk
  obtain ⟨k', hk', rfl⟩ := List.mem_map.mp hmem
  split at hother
  · simp at hother
  · rename_i hworker
    rwa [if_neg hworker]

theorem update_update (stage stage' : JobStage) :
    (p.update { j with stage }).update { j with stage := stage' } =
      p.update { j with stage := stage' } := by
  simp only [update, List.map_map, Pool.mk.injEq, true_and, and_true]
  refine List.map_congr_left fun k _ => ?_
  simp only [Function.comp_apply]
  split <;> simp_all

end Pool

namespace Pipeline

variable {p q r : Pipeline} {e : Event} {es : List Event} {j : Job} {stage : JobStage}

/-- Coordinator and workers take the steps given, in this order. -/
inductive Runs : Pipeline → List Event → Pipeline → Prop where
  | done (p : Pipeline) : Runs p [] p
  | step {p q r : Pipeline} {e : Event} {es : List Event} (hown : e.isOwn = true)
      (hadvance : p.advance e = some q) (hrest : Runs q es r) : Runs p (e :: es) r

theorem Runs.trans {es' : List Event} (h : p.Runs es q) (h' : q.Runs es' r) :
    p.Runs (es ++ es') r := by
  induction h with
  | done p => exact h'
  | step hown hadvance hrest ih => exact .step hown hadvance (ih h')

theorem step_of_advance (hown : e.isOwn = true) (h : p.advance e = some q) :
    p.CoordinatorStep q ∨ p.WorkerStep q := by
  cases advances_of_advance h with
  | coordinated hstep => exact .inl hstep
  | worked hstep => exact .inr hstep
  | produced => cases hown

theorem Quiescent.advance_eq_none (h : p.Quiescent) (hown : e.isOwn = true) :
    p.advance e = none := by
  cases e with
  | coordinate => exact h.coordinate
  | dropHook => exact h.dropHook
  | work id => exact h.work id
  | dropFetch id => exact h.dropFetch id
  | produce id => cases hown

/-- Where somebody can go on, there is an event. -/
theorem exists_of_not_quiescent (h : ¬ p.Quiescent) :
    ∃ e q, e.isOwn = true ∧ p.advance e = some q := by
  by_contra hnone
  have hevery : ∀ e : Event, e.isOwn = true → p.advance e = none := by
    intro e hown
    cases hadvance : p.advance e with
    | none => rfl
    | some q => exact absurd ⟨e, q, hown, hadvance⟩ hnone
  exact h ⟨hevery .coordinate rfl, hevery .dropHook rfl, fun id => hevery (.work id) rfl,
    fun id => hevery (.dropFetch id) rfl⟩

/-- To be still is to have no event among the candidates. -/
theorem quiescent_of_candidates (h : (p.candidates.all fun e => (p.advance e).isNone) = true) :
    p.Quiescent := by
  by_contra hquiescent
  obtain ⟨e, q, -, hadvance⟩ := exists_of_not_quiescent hquiescent
  have hnone := List.all_eq_true.mp h e (mem_candidates hadvance)
  rw [hadvance] at hnone
  cases hnone

/-- The pipeline after the steps given, if they can be taken. -/
def after (p : Pipeline) (es : List Event) : Pipeline :=
  (es.foldlM advance p).getD p

theorem runs_after (hown : es.all Event.isOwn = true)
    (hsome : (es.foldlM advance p).isSome = true) : p.Runs es (p.after es) := by
  induction es generalizing p with
  | nil => exact .done p
  | cons e es ih =>
      rw [List.all_cons, Bool.and_eq_true] at hown
      rw [after]
      cases hadvance : p.advance e with
      | none => simp [List.foldlM_cons, hadvance] at hsome
      | some q =>
          simp only [List.foldlM_cons, hadvance, Option.bind_eq_bind, Option.bind_some] at hsome ⊢
          obtain ⟨r, hr⟩ := Option.isSome_iff_exists.mp hsome
          have hrest := ih hown.2 hsome
          rw [after, hr] at hrest
          rw [hr]
          exact .step hown.1 hadvance hrest

/-- Where nobody can go on, a run is over before it begins. -/
theorem Runs.eq_of_quiescent (hruns : p.Runs es q) (h : p.Quiescent) : q = p := by
  cases hruns with
  | done => rfl
  | step hown hadvance =>
      rw [h.advance_eq_none hown] at hadvance
      cases hadvance

/-- Where only one can go on, every run begins with it. -/
theorem Runs.of_only (hruns : p.Runs es r) (hquiescent : r.Quiescent) (hown : e.isOwn = true)
    (hnext : p.advance e = some q)
    (honly : ∀ e', e'.isOwn = true → e' ≠ e → p.advance e' = none) : ∃ es', q.Runs es' r := by
  cases hruns with
  | done =>
      rw [hquiescent.advance_eq_none hown] at hnext
      cases hnext
  | @step _ q' _ e' es' hown' hadvance hrest =>
      by_cases hfirst : e' = e
      · rw [hfirst, hnext] at hadvance
        cases hadvance
        exact ⟨es', hrest⟩
      · rw [honly e' hown' hfirst] at hadvance
        cases hadvance

theorem CoordinatorStep.outsider (h : p.CoordinatorStep q) :
    q.lock.outsider = p.lock.outsider := by
  cases h with
  | admitted hphase hlock | coalesced hphase hlock | unresolvable hphase hlock
  | resolvePanicked hphase hlock | calledUnresolved hphase hlock | fanOutBegun hphase hlock =>
      have houtsider := Lock.outsider_of_grant? hlock
      exact houtsider
  | stray | stranded | undispatchable | unresolvedFailed | processFailed =>
      rw [abort_eq]
      rfl
  | _ => rfl

/-- An outsider stays outside. -/
theorem Runs.outsider (h : p.Runs es q) : q.lock.outsider = p.lock.outsider := by
  induction h with
  | done p => rfl
  | step hown hadvance hrest ih =>
      rw [ih]
      rcases step_of_advance hown hadvance with hstep | hstep
      · exact hstep.outsider
      · exact hstep.outsider

/-! ### A fetch is answered -/

/-- A job of a pipeline is at another stage, and nothing else has changed that the coordinator or
another worker looks at. -/
structure Answering (p q : Pipeline) (j : Job) (stage : JobStage) : Prop where
  coordinator : q.coordinator = p.coordinator
  cancelled : q.isCancelled = p.isCancelled
  items : q.completions.items = p.completions.items
  senders : q.completions.senders = p.completions.senders
  dispatch : q.dispatch = p.dispatch
  intake : q.intake = p.intake
  pool : q.pool = p.pool.update { j with stage }

namespace Answering

/-- The coordinator that found nothing to do finds nothing. -/
theorem choose?_eq_none (h : Answering p q j stage) (hnone : p.choose? = none) :
    q.choose? = none := by
  obtain ⟨hlive, hcompletion, hdispatch, hreference⟩ := eq_none_of_choose? hnone
  have hbusy : q.isDrained = false := by
    rw [isDrained, h.coordinator, ← isDrained]
    cases hdrained : p.isDrained with
    | false => rfl
    | true => simp [choose?, hdrained] at hnone
  have hcompletion' : q.takeCompletion? = none := by
    rw [takeCompletion?] at hcompletion ⊢
    rw [h.coordinator, Queue.pop?, Queue.isExhausted, h.items, h.senders]
    cases hitems : p.completions.items with
    | nil => simpa [Queue.pop?, Queue.isExhausted, hitems] using hcompletion
    | cons c rest => simpa [Queue.pop?, hitems] using hcompletion
  have hdispatch' : q.dispatchSlot? = none := by
    rw [dispatchSlot?] at hdispatch ⊢
    rw [h.coordinator, h.dispatch]
    cases hslot : p.coordinator.slot with
    | none => rfl
    | some l =>
        rw [hslot] at hdispatch
        revert hdispatch
        simp only
        split <;> simp
  have hreference' : q.takeReference? = none := by
    rw [takeReference?] at hreference ⊢
    rw [h.coordinator, h.intake]
    revert hreference
    split
    · simp
    · split
      · simp
      · split <;> simp
  rw [choose?, hbusy, h.cancelled, hlive, hcompletion', hdispatch']
  exact hreference'

/-- **Only the worker whose fetch is answered can go on**, if nobody could before. -/
theorem only (h : Answering p q j stage) (hquiescent : p.Quiescent) (hlive : p.isCancelled = false)
    (hphase : p.coordinator.phase = .choosing ∨ p.isOver = true)
    (hheld : ∀ k ∈ p.pool.busy, k.isHeld = true)
    (hown : e.isOwn = true) (hother : e ≠ .work j.worker) : q.advance e = none := by
  have hcancelled : q.isCancelled = false := h.cancelled.trans hlive
  cases e with
  | coordinate =>
      rw [advance, coordinate?, h.coordinator]
      rcases hphase with hphase | hover
      · rw [hphase]
        exact h.choose?_eq_none (hquiescent.choose?_eq_none hphase)
      · obtain ⟨ending, hphase⟩ := exists_of_isOver hover
        rw [hphase]
  | dropHook => simp [advance, dropHook?, hcancelled]
  | dropFetch id => simp [advance, dropFetch?, hcancelled]
  | produce id => cases hown
  | work id =>
      have hid : id ≠ j.worker := fun hid => hother (by rw [hid])
      have hnone := hquiescent.work id
      rw [workOn?] at hnone
      rw [advance, workOn?, h.pool, Pool.job?_update_of_ne (j := { j with stage }) hid]
      cases hjob : p.pool.job? id with
      | some k =>
          have hk := hheld k (Pool.job?_eq_some hjob).1
          cases hstage : k.stage with
          | fetching number mode =>
              cases mode with
              | hold => simp [doJob?, hstage, finishFetch?]
              | _ => simp [Job.isHeld, hstage] at hk
          | _ => simp [Job.isHeld, hstage] at hk
      | none =>
          simp only [hjob, takeLocation?, hlive, Bool.false_eq_true, if_false] at hnone
          simp only [takeLocation?, hcancelled, h.pool, h.dispatch, Pool.update,
            Bool.false_eq_true, if_false]
          revert hnone
          split
          · split
            · split
              · simp
              · split <;> simp
            · simp
          · simp

end Answering

/-- A worker whose fetch is answered gets in line with its outcome. -/
theorem exists_handingIn {number : Nat} {mode : FetchMode} (hworkers : p.pool.workers.Nodup)
    (hworks : p.Works j (.fetching number .hold)) (hanswer : mode.isAnswer = true) :
    Answering p (p.releaseFetch j mode) j (.fetching number mode) ∧
    ∃ outcome q, outcome.isCancelled = false ∧
      (p.releaseFetch j mode).advance (.work j.worker) = some q ∧
      Answering p q j (.handingIn outcome) ∧ q.completions = p.completions.queueUp j.worker ∧
      q.latch = p.latch := by
  have hrelease : p.releaseFetch j mode =
      { p with pool := p.pool.update { j with stage := .fetching number mode } } := by
    rw [releaseFetch, hworks.stage]
  have hjob := Pool.job?_update_self hworkers hworks.mem (.fetching number mode)
  have hfinish : (p.releaseFetch j mode).advance (.work j.worker) =
      (p.releaseFetch j mode).finishFetch? { j with stage := .fetching number mode } number mode := by
    rw [hrelease]
    simp only [advance, workOn?, hjob, doJob?]
  obtain ⟨outcome, failures, hkept, hhanded⟩ := exists_of_isAnswer (p.releaseFetch j mode)
    { j with stage := .fetching number mode } number hanswer
  rw [← hfinish, hrelease] at hhanded
  rw [hrelease]
  exact ⟨⟨rfl, rfl, rfl, rfl, rfl, rfl, rfl⟩, outcome, _, hkept, hhanded,
    ⟨rfl, rfl, rfl, rfl, rfl, rfl, Pool.update_update _ _⟩, rfl, rfl⟩

/-! ### A run disbands -/

/-- The coordinator is through and the run is cancelled; every worker that is left is idle, waits
for a fetch that will be dropped, or has an outcome that nobody takes. -/
structure Disbanding (p : Pipeline) : Prop where
  ended : p.isOver = true
  cancelled : p.isCancelled = true
  closed : p.completions.closed = true
  jobs : ∀ j ∈ p.pool.busy, j.isHeld = true ∨ ∃ outcome, j.stage = .handingIn outcome
  /-- The last worker takes the dispatch queue with it. -/
  emptied : p.pool.isGone = true → p.dispatch.items = []

/-- What one will see of a run that disbands: every fetch is dropped, and the workers leave nothing
in the dispatch queue. -/
def remains (p : Pipeline) : Outlook :=
  { p.outlook with
    dispatch := []
    taken := []
    counters := (fun c => c.record .cancelledFetch)^[p.pool.held.length] p.counters
    activity := Activity.leave^[p.pool.held.length] p.activity }

namespace Disbanding

theorem stage_of_works (h : p.Disbanding) (hworks : p.Works j stage) :
    (∃ number, stage = .fetching number .hold) ∨ ∃ outcome, stage = .handingIn outcome := by
  rw [← hworks.stage]
  rcases h.jobs j hworks.mem with hheld | houtcome
  · cases hstage : j.stage with
    | fetching number mode =>
        cases mode with
        | hold => exact .inl ⟨number, rfl⟩
        | _ => simp [Job.isHeld, hstage] at hheld
    | _ => simp [Job.isHeld, hstage] at hheld
  · exact .inr houtcome

/-- The last worker that leaves takes the dispatch queue with it. -/
theorem emptied_leave (p : Pipeline) (id : Nat) (ending : Ending) :
    (p.leave id ending).pool.isGone = true → (p.leave id ending).dispatch.items = [] := by
  intro hgone
  rw [pool_leave] at hgone
  rw [items_dispatch_leave, if_pos hgone]

/-- A worker leaves, and no fetch with it. -/
theorem left {id : Nat} (h : p.Disbanding)
    (hheld : ((p.pool.without id .done).busy.filter Job.isHeld) = p.pool.busy.filter Job.isHeld) :
    (p.leave id .done).Disbanding ∧ (p.leave id .done).remains = p.remains := by
  refine ⟨⟨?_, h.cancelled, ?_, ?_, emptied_leave p id .done⟩, ?_⟩
  · rw [isOver, coordinator_leave]
    exact h.ended
  · rw [completions_leave]
    exact h.closed
  · rw [pool_leave]
    exact fun j hj => h.jobs j (List.mem_of_mem_filter hj)
  · have hsame : (p.leave id .done).pool.held = p.pool.held := by
      rw [Pool.held, pool_leave, hheld, ← Pool.held]
    rw [remains, remains, outlook, outlook, hsame, coordinator_leave, intake_leave, counters_leave,
      activity_leave]
    rfl

/-- **No step of a worker changes what will be left.** -/
theorem workerStep (h : p.Disbanding) (hworkers : p.pool.workers.Nodup) (hstep : p.WorkerStep q) :
    q.Disbanding ∧ q.remains = p.remains := by
  cases hstep with
  | quit hidle hcancelled =>
      exact h.left (by rw [Pool.busy_without_of_mem_idle hworkers hidle])
  | dismissed hidle hlive | took hlive => cases h.cancelled.symm.trans hlive
  | called hworks | callPanicked hworks | fetched hworks | fetchFailed hworks =>
      rcases h.stage_of_works hworks with ⟨number, hstage⟩ | ⟨outcome, hstage⟩ <;> cases hstage
  | fetchPanicked hworks hmode =>
      rcases h.stage_of_works hworks with ⟨number, hstage⟩ | ⟨outcome, hstage⟩
      · cases hstage
        rcases hmode with hmode | hmode <;> cases hmode
      · cases hstage
  | @fetchDropped j number mode hworks hcancelled =>
      have hmode : mode = .hold := by
        rcases h.stage_of_works hworks with ⟨number, hstage⟩ | ⟨outcome, hstage⟩ <;> cases hstage
        rfl
      subst hmode
      obtain ⟨before, after, hbusy, -, hupdate⟩ := Pool.exists_busy_eq hworkers hworks.mem
      have hjobs := hupdate (.handingIn (.failure (.cancelled j.location)))
      refine ⟨⟨h.ended, h.cancelled, h.closed, fun k hk => ?_, fun hgone => ?_⟩, ?_⟩
      · simp only [handIn, hjobs, List.mem_append, List.mem_cons] at hk
        rcases hk with hk | rfl | hk
        · exact h.jobs k (by simp [hbusy, hk])
        · exact .inr ⟨_, rfl⟩
        · exact h.jobs k (by simp [hbusy, hk])
      · simp [handIn, hjobs, Pool.isGone] at hgone
      · -- one fetch fewer is to be dropped
        have hcount : p.pool.held.length =
            (p.pool.update { j with
              stage := .handingIn (.failure (.cancelled j.location)) }).held.length + 1 := by
          have hwaits : j.isHeld = true := by rw [Job.isHeld, hworks.stage]
          have hdropped : ({ j with
            stage := .handingIn (.failure (.cancelled j.location)) } : Job).isHeld = false := rfl
          simp [Pool.held, hjobs, hbusy, hwaits, hdropped]
          omega
        simp only [remains, outlook, handIn, hcount, Function.iterate_succ_apply]
  | handedIn hworks hopen | handedInLast hworks hopen => cases h.closed.symm.trans hopen
  | undelivered hworks hclosed =>
      rw [if_pos h.cancelled]
      refine h.left ?_
      obtain ⟨before, after, hbusy, hwithout, -⟩ := Pool.exists_busy_eq hworkers hworks.mem
      rw [hwithout, hbusy, List.filter_append, List.filter_append,
        List.filter_cons_of_neg (by simp [Job.isHeld, hworks.stage])]

/-- Where nobody can go on, all have left. -/
theorem remains_of_quiescent (h : p.Disbanding) (hworkers : p.pool.workers.Nodup)
    (hquiescent : p.Quiescent) : p.remains = p.outlook := by
  have hturns : p.pool.turns = [] := by
    rw [Pool.turns, List.filterMap_eq_nil_iff]
    intro j hj
    cases hstage : j.stage with
    | awaitingLock =>
        rcases h.stage_of_works ⟨hj, hstage⟩ with ⟨number, hstage⟩ | ⟨outcome, hstage⟩ <;>
          cases hstage
    | _ => rw [Job.turn?, hstage]
  have hbusy := hquiescent.busy_eq_nil h.cancelled hworkers hturns h.closed
  have hheld : p.pool.held = [] := by rw [Pool.held, hbusy]; rfl
  have hgone : p.pool.isGone = true := by
    rw [Pool.isGone, hbusy, hquiescent.idle_eq_nil h.cancelled hworkers]
    rfl
  rw [remains, outlook, hheld, h.emptied hgone]
  rfl

end Disbanding

/-! ### What an answer leads to -/

/-- Nobody can go on, the run is not cancelled, the coordinator is between two events or through,
and every busy worker waits for a fetch that is held. -/
structure Resting (p : Pipeline) : Prop where
  quiescent : p.Quiescent
  live : p.isCancelled = false
  phase : p.coordinator.phase = .choosing ∨ p.isOver = true
  held : ∀ k ∈ p.pool.busy, k.isHeld = true

namespace Resting

variable {number : Nat} {mode : FetchMode}

/-- Every run begins with the two steps of the worker whose fetch is answered. -/
theorem exists_twice (h : p.Resting) (hworkers : p.pool.workers.Nodup)
    (hworks : p.Works j (.fetching number .hold)) (hanswer : mode.isAnswer = true) :
    ∃ outcome q, outcome.isCancelled = false ∧ Answering p q j (.handingIn outcome) ∧
      q.completions = p.completions.queueUp j.worker ∧ q.latch = p.latch ∧
      q.advance (.work j.worker) = q.deposit? { j with stage := .handingIn outcome } outcome ∧
      ∀ r, q.advance (.work j.worker) = some r →
        (p.releaseFetch j mode).Runs [.work j.worker, .work j.worker] r ∧
        ∀ es r', (p.releaseFetch j mode).Runs es r' → r'.Quiescent → ∃ es', r.Runs es' r' := by
  obtain ⟨hfetching, outcome, q, hkept, hfirst, hhanding, hcompletions, hlatch⟩ :=
    exists_handingIn hworkers hworks hanswer
  refine ⟨outcome, q, hkept, hhanding, hcompletions, hlatch, ?_, fun r hsecond => ?_⟩
  · rw [advance, workOn?, hhanding.pool, Pool.job?_update_self hworkers hworks.mem]
    rfl
  · refine ⟨.step rfl hfirst (.step rfl hsecond (.done r)), fun es r' hruns hquiescent => ?_⟩
    obtain ⟨es', hruns⟩ := hruns.of_only hquiescent rfl hfirst
      fun _ hown hother => hfetching.only h.quiescent h.live h.phase h.held hown hother
    exact hruns.of_only hquiescent rfl hsecond
      fun _ hown hother => hhanding.only h.quiescent h.live h.phase h.held hown hother

/-- **A coordinator that goes on finds the completion before anybody else can go on.** -/
theorem exists_prompt (h : p.Resting) {dropped : List Location} (howned : p.Owned dropped)
    (hphase : p.coordinator.phase = .choosing) (hworks : p.Works j (.fetching number .hold))
    (hanswer : mode.isAnswer = true) (hline : p.completions.line = [])
    (hroom : p.completions.hasRoom = true) :
    ∃ r, r.Prompt ∧ (p.releaseFetch j mode).Runs [.work j.worker, .work j.worker] r ∧
      ∀ es r', (p.releaseFetch j mode).Runs es r' → r'.Quiescent → ∃ es', r.Runs es' r' := by
  obtain ⟨outcome, q, hkept, hhanding, hcompletions, -, hwork, hforced⟩ :=
    h.exists_twice howned.workers hworks hanswer
  have hopen : p.completions.closed = false := howned.live (by rw [isOver, hphase])
  have henter : q.completions.enter? j.worker ⟨j.location, outcome⟩ =
      some { p.completions with items := p.completions.items ++ [⟨j.location, outcome⟩] } := by
    have hmay : p.completions.items.length < p.completions.capacity := by
      simpa [Queue.hasRoom] using hroom
    rw [hcompletions]
    simp [Queue.enter?, Queue.queueUp, Queue.hasRoom, hline, hmay]
  have hdeposit : q.advance (.work j.worker) = some { q with
      completions :=
        { p.completions with items := p.completions.items ++ [⟨j.location, outcome⟩] }
      pool := { q.pool with
        idle := q.pool.idle ++ [j.worker]
        busy := q.pool.busy.filter fun k => k.worker != j.worker } } := by
    rw [hwork, deposit?, henter, hkept, hcompletions]
    simp [Queue.queueUp, hopen]
  refine ⟨_, ?_, hforced _ hdeposit⟩
  refine ⟨hhanding.cancelled.trans h.live, ?_, fun k hk => ?_⟩
  · rw [hhanding.coordinator, hphase]
    intro payload hended
    cases hended
  · rw [hhanding.pool] at hk
    exact .inl (h.held k (Pool.mem_busy_of_mem_without hk))

/-- **If the coordinator has panicked, then the run disbands before anybody else can go on.** -/
theorem exists_disbanding (h : p.Resting) (hworkers : p.pool.workers.Nodup)
    (hover : p.isOver = true) (hworks : p.Works j (.fetching number .hold))
    (hanswer : mode.isAnswer = true) (hclosed : p.completions.closed = true)
    (hstaffed : p.Staffed) :
    ∃ r, r.Disbanding ∧ (p.releaseFetch j mode).Runs [.work j.worker, .work j.worker] r ∧
      ∀ es r', (p.releaseFetch j mode).Runs es r' → r'.Quiescent → ∃ es', r.Runs es' r' := by
  obtain ⟨outcome, q, -, hhanding, hcompletions, hlatch, hwork, hforced⟩ :=
    h.exists_twice hworkers hworks hanswer
  have hleave : q.advance (.work j.worker) =
      some (q.leave j.worker (.failed (.undelivered (render j.location)))) := by
    rw [hwork, deposit?, hcompletions, hhanding.cancelled, h.live]
    simp [Queue.queueUp, hclosed]
  refine ⟨_, ?_, hforced _ hleave⟩
  have halert : q.Alert := by
    refine ⟨hlatch ▸ hstaffed.alert.coherent, fun htriggered => ?_⟩
    rw [hlatch] at htriggered
    cases h.live.symm.trans (hstaffed.alert.cancelled htriggered)
  have hguarded : q.pool.guarded = true := by
    rw [hhanding.pool]
    exact hstaffed.guarded
  have halarm : workerAlarm? j.worker (.failed (.undelivered (render j.location))) = some _ := rfl
  obtain ⟨hraised, htokens⟩ := leave_alarmed hguarded halarm
  refine ⟨?_, isCancelled_raise hraised htokens halert, ?_, fun k hk => ?_,
    Disbanding.emptied_leave q _ _⟩
  · rw [isOver, coordinator_leave, hhanding.coordinator]
    exact hover
  · rw [completions_leave, hcompletions]
    exact hclosed
  · rw [pool_leave, hhanding.pool] at hk
    exact .inl (h.held k (Pool.mem_busy_of_mem_without hk))

end Resting

end Pipeline

end SharedFetch
