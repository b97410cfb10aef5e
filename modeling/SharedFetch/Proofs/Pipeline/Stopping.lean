import SharedFetch.Proofs.Pipeline.Rest

/-!
# Stopping

From the moment at which a paused run is cancelled, all that still happens is that it is taken down
(`Halted`): the coordinator leaves, and counts what it has delivered of the fan-out in which it is
interrupted; workers call and drop their fetches, hand in what they can, and leave. Nothing is taken
up, dispatched, resolved or delivered any more, as long as nobody outside answers the hook that the
coordinator waits for.

If no hook was held then the only fetches were held ones, and as nobody calls another, each of them
is dropped and counted (`Winding`), unless somebody outside answers it first.

## Main results

* `Halted.unansweredChange`: while nobody outside answers, a halted run stays halted, and nothing is
  added to its ledger.
* `Winding.unansweredChange`: fetches that are held, and fetches that were dropped, are as many as
  before.
-/

namespace SharedFetch

@[simp] theorem Counters.record_deliveries_zero (c : Counters) : c.record (.deliveries 0) = c := by
  simp [record]

namespace Phase

/-- The number of deliveries of a fan-out that the coordinator waits to go on with. -/
def delivered : Phase → Nat
  | .inProcess _ _ _ _ delivered => delivered
  | _ => 0

end Phase

namespace Pool

theorem turns_without_sublist (p : Pool) (id : Nat) (ending : Ending) :
    (p.without id ending).turns.Sublist p.turns :=
  List.filter_sublist.filterMap _

theorem turns_update_sublist {p : Pool} {j : Job} {stage : JobStage}
    (hstage : ({ j with stage } : Job).turn? = none) :
    (p.update { j with stage }).turns.Sublist p.turns := by
  rw [turns_update hstage .done]
  exact p.turns_without_sublist j.worker .done

end Pool

namespace Pipeline

variable {p q r : Pipeline}

/-- The dispatch queue is as it was at `p`, or the last worker has dropped it. -/
def Untaken (p q : Pipeline) : Prop :=
  q.dispatch.items = p.dispatch.items ∨ q.pool.isGone = true ∧ q.dispatch.items = []

/-- Workers and dispatch queue stay as they are. -/
theorem Untaken.congr (h : Untaken p q) (hdispatch : r.dispatch.items = q.dispatch.items)
    (hgone : r.pool.isGone = q.pool.isGone) : Untaken p r := by
  rwa [Untaken, hdispatch, hgone]

/-- As long as a worker is left, the queue is as it was. -/
theorem Untaken.trans (h : Untaken p q) (hstaffed : q.pool.isGone = false) (h' : Untaken q r) :
    Untaken p r := by
  have hitems : q.dispatch.items = p.dispatch.items := by
    refine h.resolve_right fun hdropped => ?_
    cases hstaffed.symm.trans hdropped.1
  rwa [Untaken, ← hitems]

/-- A worker that leaves takes nothing. -/
theorem untaken_leave (hdispatch : r.dispatch = p.dispatch) (id : Nat) (ending : Ending) :
    Untaken p (r.leave id ending) := by
  rw [Untaken, items_dispatch_leave, pool_leave, hdispatch]
  cases (r.pool.without id ending).isGone with
  | true => exact .inr ⟨rfl, rfl⟩
  | false => exact .inl rfl

/-- The run was paused at `p`, was cancelled then, and has come to `q`. -/
structure Halted (p q : Pipeline) : Prop where
  cancelled : q.isCancelled = true ∨ q.Finished
  coordinator : q.isOver = true ∨ q.coordinator = p.coordinator
  counters : q.counters.coordinators =
    if q.isOver then
      p.counters.coordinators.record (.deliveries (UInt64.ofNat p.coordinator.phase.delivered))
    else p.counters.coordinators
  dispatch : Untaken p q
  journal : ∃ new, q.journal = new ++ p.journal ∧ ∀ e ∈ new, e.isCall = true → e = .shutdown
  /-- Nobody outside begins to keep the workers from reading the protocol. -/
  free : p.lock.outsider ≠ some .write → q.pool.turns ≠ [] → q.lock.outsider ≠ some .write

/-! ### What a step leaves alone -/

/-- Nobody waits if the line is empty. -/
theorem InLine.turns_eq_nil {others : List (Party × Access)} {held : Bool}
    (h : p.InLine others held) (hline : p.lock.line = []) : p.pool.turns = [] := by
  have := h.line
  rw [hline, List.nil_perm, List.append_eq_nil_iff, turns, List.append_eq_nil_iff] at this
  exact this.1.2

theorem SparesTasks.finished (h : p.SparesTasks q) (hfinished : p.Finished) : q.Finished := by
  refine ⟨?_, ?_⟩
  · rw [isOver, h.coordinator]
    exact hfinished.ended
  · rw [Pool.isGone, h.idle, h.busy]
    exact hfinished.gone

theorem WorkerStep.outsider (h : p.WorkerStep q) : q.lock.outsider = p.lock.outsider := by
  cases h with
  | quit | dismissed | fetchPanicked | handedInLast | undelivered => simp
  | callPanicked hworks hlock => simp [Lock.outsider_of_grant? hlock]
  | called hworks hlock => exact Lock.outsider_of_grant? hlock
  | took | fetched | fetchFailed | fetchDropped | handedIn => rfl

/-- In a cancelled run nobody takes a location, or a turn for the lock. -/
theorem WorkerStep.of_cancelled (h : p.WorkerStep q) (hcancelled : p.isCancelled = true) :
    Untaken p q ∧ q.pool.turns.Sublist p.pool.turns := by
  cases h with
  | quit | dismissed | callPanicked | fetchPanicked | handedInLast | undelivered =>
      exact ⟨untaken_leave (by rfl) _ _, by rw [pool_leave]; exact Pool.turns_without_sublist _ _ _⟩
  | took hlive =>
      rw [hcancelled] at hlive
      cases hlive
  | called | fetched | fetchFailed | fetchDropped =>
      exact ⟨.inl rfl, Pool.turns_update_sublist rfl⟩
  | handedIn => exact ⟨.inl rfl, Pool.turns_without_sublist _ _ .done⟩

theorem CoordinatorStep.cancelledFetches (h : p.CoordinatorStep q) :
    q.counters.cancelledFetches = p.counters.cancelledFetches := by
  cases h with
  | stray | stranded | undispatchable | unresolvedFailed | processFailed => rw [abort_eq]; rfl
  | _ => rfl

/-! ### The coordinator -/

namespace Halted

/-- Something happens that the coordinator has no part in. -/
theorem sparesCoordinator (h : Halted p q) (hspares : SparesCoordinator q r)
    (hcancelled : r.isCancelled = true ∨ r.Finished) (hdispatch : Untaken p r)
    (hfree : p.lock.outsider ≠ some .write → r.pool.turns ≠ [] → r.lock.outsider ≠ some .write) :
    Halted p r := by
  have hover := hspares.isOver
  refine ⟨hcancelled, ?_, ?_, hdispatch, ?_, hfree⟩
  · rw [hover, hspares.coordinator]
    exact h.coordinator
  · rw [hover, hspares.counters]
    exact h.counters
  · obtain ⟨old, hold, hcalls⟩ := h.journal
    obtain ⟨new, hnew, hforeign⟩ := hspares.journal
    refine ⟨new ++ old, by rw [hnew, hold, List.append_assoc], fun e he hcall => ?_⟩
    rcases List.mem_append.mp he with he | he
    · have := hforeign e he
      cases e with
      | shutdown => rfl
      | resolve | process | unresolved => cases this
      | fetch | note => cases hcall
    · exact hcalls e he hcall

/-- A coordinator leaves, and counts what it has delivered of a fan-out. -/
theorem ended (new : List Entry) (h : Halted p q) (hrunning : q.isOver = false)
    (hcancelled : r.isCancelled = true) (hover : r.isOver = true)
    (hcounters : r.counters.coordinators = q.counters.coordinators.record
      (.deliveries (UInt64.ofNat p.coordinator.phase.delivered)))
    (hdispatch : r.dispatch.items = q.dispatch.items) (hjournal : r.journal = new ++ q.journal)
    (hnew : ∀ e ∈ new, e.isCall = false) (hpool : r.pool = q.pool)
    (houtsider : r.lock.outsider = q.lock.outsider) : Halted p r := by
  refine ⟨.inl hcancelled, .inl hover, ?_, h.dispatch.congr hdispatch (by rw [hpool]), ?_, ?_⟩
  · rw [hcounters, h.counters, hrunning, hover]
    rfl
  · obtain ⟨old, hold, hcalls⟩ := h.journal
    refine ⟨new ++ old, by rw [hjournal, hold, List.append_assoc], fun e he hcall => ?_⟩
    rcases List.mem_append.mp he with he | he
    · rw [hnew e he] at hcall
      cases hcall
    · exact hcalls e he hcall
  · rw [hpool, houtsider]
    exact h.free

/-- A coordinator that is cancelled while it is paused leaves. -/
theorem coordinatorStep (h : Halted p q) (hpaused : p.coordinator.phase.isPaused = true)
    (hstep : q.CoordinatorStep r) : Halted p r ∧ ∀ g : Ledger, g.follow q r = g := by
  have hrunning := hstep.running
  have hcancelled : q.isCancelled = true := by
    refine h.cancelled.resolve_right fun hfinished => ?_
    rw [hfinished.ended] at hrunning
    cases hrunning
  have hcoordinator : q.coordinator = p.coordinator := by
    refine h.coordinator.resolve_left ?_
    rw [hrunning]
    exact Bool.false_ne_true
  have hafter := hstep.signals.isCancelled hcancelled
  rw [← hcoordinator] at hpaused
  -- what the coordinator would do in any other phase, or if it were not cancelled, is excluded
  cases hstep with
  | drained hphase | interrupted hphase =>
      refine ⟨ended [_, _] h hrunning hafter rfl ?_ rfl rfl (by simp [Entry.isCall]) rfl rfl,
        fun g => Ledger.follow_finish (by constructor <;> rfl)⟩
      rw [← hcoordinator, hphase]
      simp [Phase.delivered, Pipeline.finish]
  | unresolvedDropped hphase =>
      refine ⟨ended [_] h hrunning hafter rfl ?_ rfl rfl (by simp [Entry.isCall]) rfl rfl,
        fun g => Ledger.follow_finish (by constructor <;> rfl)⟩
      rw [← hcoordinator, hphase]
      simp [Phase.delivered, Pipeline.finish]
  | processDropped hphase =>
      refine ⟨ended [_] h hrunning hafter rfl ?_ rfl rfl (by simp [Entry.isCall]) rfl rfl,
        fun g => Ledger.follow_finish (by constructor <;> rfl)⟩
      rw [← hcoordinator, hphase]
      rfl
  | completed hlooks | stray hlooks | completionsEnded hlooks | stranded hlooks | dispatched hlooks
  | undispatchable hlooks | took hlooks | intakeEnded hlooks =>
      have hlive := hlooks.live
      rw [hcancelled] at hlive
      cases hlive
  | admitted hphase | coalesced hphase | unresolvable hphase | resolvePanicked hphase
  | calledUnresolved hphase | unresolvedSucceeded hphase | unresolvedFailed hphase
  | unresolvedPanicked hphase | fanOutBegun hphase | fanOutEnded hphase | calledProcess hphase
  | processSucceeded hphase | processFailed hphase | processPanicked hphase =>
      rw [hphase] at hpaused
      cases hpaused

/-! ### Workers and everything else -/

/-- A worker goes on, or leaves. -/
theorem workerStep (h : Halted p q) (hstep : q.WorkerStep r) : Halted p r := by
  have hcancelled : q.isCancelled = true := by
    refine h.cancelled.resolve_right fun hfinished => ?_
    have hstaffed := hstep.isGone_eq_false
    rw [hfinished.gone] at hstaffed
    cases hstaffed
  obtain ⟨hdispatch, hturns⟩ := hstep.of_cancelled hcancelled
  refine h.sparesCoordinator hstep.sparesCoordinator (.inl (hstep.signals.isCancelled hcancelled))
    (h.dispatch.trans hstep.isGone_eq_false hdispatch) ?_
  intro houtsider hsome
  rw [hstep.outsider]
  refine h.free houtsider fun hnil => hsome ?_
  rwa [hnil, List.sublist_nil] at hturns

/-- Something happens apart from coordinator and workers. -/
theorem sparesTasks {others : List (Party × Access)} {held : Bool} (h : Halted p q)
    (hline : q.InLine others held) (hspares : q.SparesTasks r)
    (hcancelled : r.isCancelled = true ∨ r.Finished) : Halted p r := by
  refine h.sparesCoordinator hspares.sparesCoordinator hcancelled
    (h.dispatch.congr (by rw [hspares.dispatch])
      (by rw [Pool.isGone, hspares.idle, hspares.busy]; rfl)) ?_
  intro houtsider hsome hwrite
  have hturns : r.pool.turns = q.pool.turns := by rw [Pool.turns, hspares.busy]; rfl
  rw [hturns] at hsome
  rcases hspares.outsider hwrite with hbefore | hempty
  · exact h.free houtsider hsome hbefore
  · exact hsome (hline.turns_eq_nil hempty)

/-- **While nobody outside answers, a halted run stays halted**, and nothing is added to its
ledger. -/
theorem unansweredChange {others : List (Party × Access)} {held : Bool} (h : Halted p q)
    (hpaused : p.coordinator.phase.isPaused = true) (hline : q.InLine others held)
    (hunanswered : q.UnansweredChange r) : Halted p r ∧ ∀ g : Ledger, g.follow q r = g := by
  cases hunanswered with
  | coordinated hstep =>
      exact h.coordinatorStep hpaused
        (hstep.elim coordinatorStep_of_coordinate? coordinatorStep_of_dropHook?)
  | worked hstep =>
      have hstep := hstep.elim workerStep_of_workOn? workerStep_of_dropFetch?
      exact ⟨h.workerStep hstep, hstep.sparesCoordinator.follow⟩
  | tasksSpared hspares hlatch htokens =>
      refine ⟨h.sparesTasks hline hspares ?_, hspares.sparesCoordinator.follow⟩
      exact h.cancelled.imp (Signals.of_eq hlatch htokens).isCancelled hspares.finished
  | renewed hspares hfinished =>
      exact ⟨h.sparesTasks hline hspares (.inr (hspares.finished hfinished)),
        hspares.sparesCoordinator.follow⟩

/-- A fetch that was held is given its answer. -/
theorem releaseFetch {j : Job} (h : Halted p q) (hj : j ∈ q.pool.busy) (mode : FetchMode) :
    Halted p (q.releaseFetch j mode) := by
  have hcancelled : q.isCancelled = true := by
    refine h.cancelled.resolve_right fun hfinished => ?_
    rw [hfinished.nobody.2] at hj
    cases hj
  have hspares := sparesCoordinator_releaseFetch q j mode
  rw [Pipeline.releaseFetch] at hspares ⊢
  split at hspares
  · rename_i number hstage
    refine h.sparesCoordinator hspares (.inl hcancelled)
      (h.dispatch.congr rfl (by simp [Pool.isGone, Pool.update])) fun houtsider hsome => ?_
    refine h.free houtsider fun hnil => hsome ?_
    have hturns : (q.pool.update { j with stage := .fetching number mode }).turns.Sublist
        q.pool.turns := Pool.turns_update_sublist rfl
    rwa [hnil, List.sublist_nil] at hturns
  · exact h

/-- The run is cancelled, and nothing else happens to it. -/
theorem begun {others : List (Party × Access)} {held : Bool} (hline : p.InLine others held)
    (hspares : p.SparesTasks q) (hcancelled : q.isCancelled = true) : Halted p q := by
  have hover := hspares.sparesCoordinator.isOver
  refine ⟨.inl hcancelled, .inr hspares.coordinator, ?_, .inl (by rw [hspares.dispatch]), ?_,
    fun houtsider hsome hwrite => ?_⟩
  · rw [hspares.sparesCoordinator.counters, hover]
    split
    · rename_i hover
      obtain ⟨ending, hphase⟩ := exists_of_isOver hover
      rw [hphase]
      simp [Phase.delivered]
    · rfl
  · obtain ⟨new, hnew, hshutdown⟩ := hspares.journal
    exact ⟨new, hnew, fun e he _ => hshutdown e he⟩
  · have hturns : q.pool.turns = p.pool.turns := by rw [Pool.turns, hspares.busy]; rfl
    rcases hspares.outsider hwrite with hbefore | hempty
    · exact houtsider hbefore
    · exact hsome (hturns.trans (hline.turns_eq_nil hempty))

/-- What the coordinator counts, but for deliveries, stays as it is. -/
theorem counters_eq (h : Halted p q) :
    q.counters.references = p.counters.references ∧
    q.counters.resolutionFailures = p.counters.resolutionFailures ∧
    q.counters.coalesced = p.counters.coalesced ∧
    q.counters.dispatched = p.counters.dispatched ∧
    q.counters.completions = p.counters.completions := by
  have hcounters := h.counters
  split at hcounters <;>
    simp only [Counters.coordinators, Counters.record, Counters.mk.injEq] at hcounters <;>
    exact ⟨hcounters.1, hcounters.2.1, hcounters.2.2.1, hcounters.2.2.2.1, hcounters.2.2.2.2.1⟩

/-- A coordinator that leaves counts what it has delivered of the fan-out. -/
theorem deliveries_eq (h : Halted p q) :
    q.counters.deliveries = p.counters.deliveries +
      if q.isOver then UInt64.ofNat p.coordinator.phase.delivered else 0 := by
  have hcounters := congrArg Counters.deliveries h.counters
  split at hcounters
  · rename_i hover
    rw [if_pos hover]
    exact hcounters
  · rename_i hrunning
    rw [if_neg hrunning, UInt64.add_zero]
    exact hcounters

end Halted

/-! ### Fetches that were waiting -/

/-- The run was cancelled at `p` while no hook was held, and has come to `q`: of the fetches that
were held then, each is still held or was dropped and counted, and nobody else fetches. -/
structure Winding (p q : Pipeline) : Prop where
  balance : q.counters.cancelledFetches + UInt64.ofNat (q.pool.busy.countP Job.isHeld) =
    p.counters.cancelledFetches + UInt64.ofNat (p.pool.busy.countP Job.isHeld)
  waiting : ∀ j ∈ q.pool.busy, j.isHeld = true ∨ j.isActive = false

namespace Winding

/-- Where no hook is held and nobody waits for the lock, all fetches are held. -/
theorem of_quiescent (hquiescent : p.Quiescent) (hline : p.InLine [] false)
    (hworkers : p.pool.workers.Nodup) (hwants : p.coordinator.phase.wants = [])
    (houtsider : p.lock.outsider ≠ some .write) (hhook : p.heldHook? = none) : Winding p p := by
  have hwrites : p.coordinator.phase.writes = false := by
    have hpaused := hquiescent.isPaused hwants
    cases hphase : p.coordinator.phase with
    | inUnresolved r mode | inProcess r mode =>
        rw [hphase] at hpaused
        cases mode with
        | hold => simp [heldHook?, hphase] at hhook
        | _ => cases hpaused
    | delivering =>
        rw [hphase] at hpaused
        cases hpaused
    | _ => rfl
  have hturns := hquiescent.turns_eq_nil_of_wants hline hworkers hwants hwrites fun _ => houtsider
  refine ⟨rfl, fun j hj => ?_⟩
  cases hstage : j.stage with
  | awaitingLock => exact absurd hstage (Pool.stage_ne_awaitingLock hturns hj)
  | fetching number mode =>
      obtain rfl := hquiescent.mode_eq_hold hworkers ⟨hj, hstage⟩
      exact .inl (by rw [Job.isHeld, hstage])
  | handingIn outcome => exact .inr (by rw [Job.isActive, hstage])

/-- In a run that is through nobody fetches. -/
theorem of_finished (h : p.Finished) : Winding p p := by
  refine ⟨rfl, fun j hj => ?_⟩
  rw [h.nobody.2] at hj
  cases hj

/-- Nothing happens to the workers. -/
theorem kept (h : Winding p q) (hbusy : r.pool.busy = q.pool.busy)
    (hcounters : r.counters.cancelledFetches = q.counters.cancelledFetches) : Winding p r := by
  refine ⟨?_, ?_⟩
  · rw [hcounters, hbusy]
    exact h.balance
  · rw [hbusy]
    exact h.waiting

/-- A worker with an outcome is gone, or idle again. -/
theorem left {j : Job} {outcome : Delivery} (h : Winding p q) (hworkers : q.pool.workers.Nodup)
    (hworks : q.Works j (.handingIn outcome))
    (hbusy : r.pool.busy = (q.pool.without j.worker .done).busy)
    (hcounters : r.counters.cancelledFetches = q.counters.cancelledFetches) : Winding p r := by
  have hcount := Pool.countP_without hworkers hworks.mem .done Job.isHeld
  have hheld : j.isHeld = false := by rw [Job.isHeld, hworks.stage]
  rw [hheld, Bool.toNat_false, Nat.add_zero] at hcount
  refine ⟨?_, fun k hk => h.waiting k ?_⟩
  · rw [hcounters, hbusy, hcount]
    exact h.balance
  · rw [hbusy] at hk
    exact List.mem_of_mem_filter hk

/-- A fetch that was held is dropped. -/
theorem dropped {j : Job} {number : Nat} {mode : FetchMode} {outcome : Delivery} (h : Winding p q)
    (hworkers : q.pool.workers.Nodup) (hworks : q.Works j (.fetching number mode))
    (hbusy : r.pool.busy = (q.pool.update { j with stage := .handingIn outcome }).busy)
    (hcounters : r.counters.cancelledFetches = q.counters.cancelledFetches + 1) :
    Winding p r := by
  have hheld : j.isHeld = true := by
    refine (h.waiting j hworks.mem).resolve_right ?_
    rw [Job.isActive, hworks.stage]
    exact Bool.noConfusion
  have hcount := Pool.countP_update hworkers hworks.mem (.handingIn outcome) Job.isHeld
  have hdone : ({ j with stage := .handingIn outcome } : Job).isHeld = false := rfl
  rw [hheld, hdone, Bool.toNat_true, Bool.toNat_false] at hcount
  obtain ⟨before, after, hbefore, -, hupdate⟩ := Pool.exists_busy_eq hworkers hworks.mem
  refine ⟨?_, fun k hk => ?_⟩
  · rw [← h.balance, ← Nat.add_zero (List.countP _ q.pool.busy), ← hcount, hcounters, hbusy,
      UInt64.ofNat_add]
    grind
  · rw [hbusy, hupdate] at hk
    rcases List.mem_append.mp hk with hk | hk
    · exact h.waiting k (hbefore ▸ List.mem_append_left _ hk)
    · rcases List.mem_cons.mp hk with rfl | hk
      · exact .inr rfl
      · exact h.waiting k (hbefore ▸ List.mem_append_right _ (List.mem_cons_of_mem _ hk))

/-- Nobody has a job that goes on by itself. -/
theorem not_works {j : Job} {stage : JobStage} (h : Winding p q) (hworks : q.Works j stage)
    (hheld : ({ j with stage } : Job).isHeld = false)
    (hactive : ({ j with stage } : Job).isActive = true) : False := by
  have heq : ({ j with stage } : Job) = j := by rw [← hworks.stage]
  rw [heq] at hheld hactive
  rcases h.waiting j hworks.mem with hwaits | hdone
  · rw [hheld] at hwaits
    cases hwaits
  · rw [hactive] at hdone
    cases hdone

/-- A worker takes a step. -/
theorem workerStep (h : Winding p q) (hworkers : q.pool.workers.Nodup)
    (hcancelled : q.isCancelled = true) (hstep : q.WorkerStep r) : Winding p r := by
  cases hstep with
  | quit hidle | dismissed hidle =>
      exact h.kept (by rw [pool_leave, Pool.busy_without_of_mem_idle hworkers hidle]) (by simp)
  | took hlive =>
      rw [hcancelled] at hlive
      cases hlive
  | called hworks | callPanicked hworks | fetched hworks | fetchFailed hworks =>
      exact (h.not_works hworks rfl rfl).elim
  | fetchPanicked hworks hmode =>
      refine (h.not_works hworks ?_ rfl).elim
      rcases hmode with rfl | rfl <;> rfl
  | fetchDropped hworks => exact h.dropped hworkers hworks rfl rfl
  | handedIn hworks => exact h.left hworkers hworks rfl rfl
  | handedInLast hworks => exact h.left hworkers hworks (by rw [pool_leave]) (by simp)
  | undelivered hworks => exact h.left hworkers hworks (by rw [pool_leave]; rfl) (by simp)

/-- Once nobody is left, every fetch that was held has been counted. -/
theorem cancelledFetches_eq (h : Winding p q) (hfinished : q.Finished) :
    q.counters.cancelledFetches =
      p.counters.cancelledFetches + UInt64.ofNat p.pool.held.length := by
  have hbalance := h.balance
  rw [hfinished.nobody.2, List.countP_eq_length_filter (l := p.pool.busy)] at hbalance
  rw [Pool.held, List.length_map, ← hbalance]
  exact (UInt64.add_zero _).symm

/-- **While nobody outside answers, the fetches that were held are accounted for.** -/
theorem unansweredChange (h : Winding p q) (hworkers : q.pool.workers.Nodup)
    (hcancelled : q.isCancelled = true ∨ q.Finished) (hunanswered : q.UnansweredChange r) :
    Winding p r := by
  cases hunanswered with
  | coordinated hstep =>
      have hstep := hstep.elim coordinatorStep_of_coordinate? coordinatorStep_of_dropHook?
      exact h.kept (by rw [hstep.pool]) hstep.cancelledFetches
  | worked hstep =>
      have hstep := hstep.elim workerStep_of_workOn? workerStep_of_dropFetch?
      refine h.workerStep hworkers (hcancelled.resolve_right fun hfinished => ?_) hstep
      have hstaffed := hstep.isGone_eq_false
      rw [hfinished.gone] at hstaffed
      cases hstaffed
  | tasksSpared hspares | renewed hspares =>
      exact h.kept hspares.busy (by rw [hspares.counters])

end Winding

end Pipeline

end SharedFetch
