import SharedFetch.Proofs.Pipeline.Change

/-!
# Who is there, and who may leave

While the coordinator goes on and the run is not cancelled, every worker is there: a worker leaves
because the run is cancelled, because nothing can come any more, which takes the coordinator to
have ended, or with a panic, which sets off the latch and so cancels the run. Hence the queues
between coordinator and workers are open for as long as both of them go on (`Staffed`). A
coordinator ends because the run is cancelled, with a panic, or because it has drained, and then no
worker is left with a location.

Cancelling is for good within a run (`Signals`), and so is what follows from it.

## Main results

* `Signals.isCancelled`: within a run cancelling is for good.
* `Staffed.change`: every change keeps the queues open to those who need them.
-/

namespace SharedFetch

namespace Pool

variable {p : Pool} {id : Nat} {j : Job}

/-- An idle worker that leaves is one worker less. -/
theorem alive_without_of_mem_idle (h : p.workers.Nodup) (hid : id ∈ p.idle) (ending : Ending) :
    (p.without id ending).alive + 1 = p.alive := by
  have hpos := List.length_pos_of_mem hid
  rw [alive, busy_without_of_mem_idle h hid ending, without, List.length_erase_of_mem hid, alive]
  omega

/-- A busy worker that leaves is one worker less. -/
theorem alive_without_of_mem_busy (h : p.workers.Nodup) (hj : j ∈ p.busy) (ending : Ending) :
    (p.without j.worker ending).alive + 1 = p.alive := by
  have hidle : j.worker ∉ p.idle := fun hid =>
    (List.nodup_append.mp h).2.2 _ hid _ (List.mem_map_of_mem hj) rfl
  have hbusy := (busy_perm_without h hj ending).length_eq
  rw [List.length_cons] at hbusy
  have hsame : (p.without j.worker ending).idle = p.idle := List.erase_of_not_mem hidle
  rw [alive, alive, hsame, hbusy]
  omega

theorem isGone_iff_alive_eq_zero (p : Pool) : p.isGone = true ↔ p.alive = 0 := by
  simp [isGone, alive]

@[simp] theorem alive_update (p : Pool) (j : Job) : (p.update j).alive = p.alive := by
  simp [alive, update]

end Pool

namespace Pipeline

variable {p q r : Pipeline} {dropped : List Location}

/-! ### Signals -/

/-- If the latch was triggered, it has captured a fault and cancelled the run. -/
def Alert (p : Pipeline) : Prop :=
  p.latch.Alert p.tokens

/-- The run has the token that it had, and that is cancelled if it was, or if a fault is captured
in between. -/
structure Signals (p q : Pipeline) : Prop where
  run : q.latch.run = p.latch.run
  tokens : p.tokens.Extends q.tokens
  alert : p.Alert → q.Alert

namespace Signals

theorem of_eq (hlatch : q.latch = p.latch) (htokens : p.tokens.Extends q.tokens) :
    Signals p q := by
  refine ⟨by rw [hlatch], htokens, fun halert => ?_⟩
  rw [Alert, hlatch]
  exact halert.extended htokens

/-- **Within a run cancelling is for good.** -/
theorem isCancelled (h : Signals p q) (hcancelled : p.isCancelled = true) :
    q.isCancelled = true := by
  rw [Pipeline.isCancelled, h.run]
  exact h.tokens.isCancelled hcancelled

theorem isCancelled_eq_false (h : Signals p q) (hlive : q.isCancelled = false) :
    p.isCancelled = false := by
  cases hcancelled : p.isCancelled with
  | false => rfl
  | true => rw [h.isCancelled hcancelled] at hlive; cases hlive

end Signals

/-- An alarm cancels the run. -/
theorem isCancelled_raise {alarm : Alarm}
    (hlatch : q.latch = (p.latch.trigger p.tokens alarm).latch)
    (htokens : q.tokens = (p.latch.trigger p.tokens alarm).tokens) (halert : p.Alert) :
    q.isCancelled = true := by
  rw [isCancelled, hlatch, htokens, Latch.run_trigger]
  exact p.latch.isCancelled_trigger p.tokens alarm halert.cancelled

theorem signals_raise {alarm : Alarm} (hlatch : q.latch = (p.latch.trigger p.tokens alarm).latch)
    (htokens : q.tokens = (p.latch.trigger p.tokens alarm).tokens) : Signals p q :=
  ⟨by rw [hlatch, Latch.run_trigger], htokens ▸ p.latch.extends_trigger p.tokens alarm,
    fun halert => by rw [Alert, hlatch, htokens]; exact halert.trigger alarm⟩

/-- A coordinator that ends with an alarm leaves the run cancelled. -/
theorem isCancelled_abort {alarm : Alarm} (halert : p.Alert) :
    (p.abort alarm).isCancelled = true := by
  rw [abort_eq]
  exact isCancelled_raise rfl rfl halert

/-- A worker that leaves with an alarm sets off the latch of a guarded pool. -/
theorem leave_alarmed {id : Nat} {ending : Ending} {alarm : Alarm}
    (hguarded : p.pool.guarded = true) (halarm : workerAlarm? id ending = some alarm) :
    (p.leave id ending).latch = (p.latch.trigger p.tokens alarm).latch ∧
      (p.leave id ending).tokens = (p.latch.trigger p.tokens alarm).tokens := by
  rw [leave]
  simp only [halarm, hguarded, if_true, raise_eq]
  exact ⟨trivial, trivial⟩

/-- Latch and tokens are as they were, or an alarm was raised. -/
inductive Alarmed (p q : Pipeline) : Prop where
  | quiet (hlatch : q.latch = p.latch) (htokens : q.tokens = p.tokens)
  | raised (alarm : Alarm) (hlatch : q.latch = (p.latch.trigger p.tokens alarm).latch)
      (htokens : q.tokens = (p.latch.trigger p.tokens alarm).tokens)

/-- A worker that leaves may raise an alarm. -/
theorem alarmed_leave (hlatch : r.latch = p.latch) (htokens : r.tokens = p.tokens) (id : Nat)
    (ending : Ending) : p.Alarmed (r.leave id ending) := by
  cases halarm : workerAlarm? id ending with
  | none => exact .quiet (by rw [leave, halarm, hlatch]) (by rw [leave, halarm, htokens])
  | some alarm =>
      cases hguarded : r.pool.guarded with
      | true =>
          obtain ⟨hraised, hcancelled⟩ := leave_alarmed hguarded halarm
          rw [hlatch, htokens] at hraised hcancelled
          exact .raised alarm hraised hcancelled
      | false =>
          refine .quiet ?_ ?_
          · simp only [leave, halarm, hguarded, Bool.false_eq_true, if_false, hlatch]
          · simp only [leave, halarm, hguarded, Bool.false_eq_true, if_false, htokens]

theorem CoordinatorStep.alarmed (h : p.CoordinatorStep q) : p.Alarmed q := by
  cases h with
  | stray | stranded | undispatchable | unresolvedFailed | processFailed =>
      rw [abort_eq]
      exact .raised _ rfl rfl
  | _ => exact .quiet rfl rfl

theorem WorkerStep.alarmed (h : p.WorkerStep q) : p.Alarmed q := by
  cases h with
  | quit | dismissed | undelivered | callPanicked | fetchPanicked | handedInLast =>
      refine alarmed_leave ?_ ?_ _ _ <;> rfl
  | took | called | fetched | fetchFailed | fetchDropped | handedIn => exact .quiet rfl rfl

/-- An alarm is a signal. -/
theorem Alarmed.signals (h : p.Alarmed q) : Signals p q := by
  cases h with
  | quiet hlatch htokens => exact .of_eq hlatch (htokens ▸ .refl _)
  | raised alarm hlatch htokens => exact signals_raise hlatch htokens

theorem signals_leave (p : Pipeline) (id : Nat) (ending : Ending) :
    Signals p (p.leave id ending) :=
  (alarmed_leave rfl rfl id ending).signals

theorem CoordinatorStep.signals (h : p.CoordinatorStep q) : Signals p q :=
  h.alarmed.signals

theorem WorkerStep.signals (h : p.WorkerStep q) : Signals p q :=
  h.alarmed.signals

/-- A latch that was triggered has cancelled the run and its root. -/
def Armed (p : Pipeline) : Prop :=
  p.latch.triggered = true →
    p.tokens.isCancelled p.latch.run = true ∧ p.tokens.isCancelled p.latch.root = true

/-- An alarm cancels the run and its root. -/
theorem isCancelled_of_raised {alarm : Alarm} (harmed : p.Armed)
    (hlatch : q.latch = (p.latch.trigger p.tokens alarm).latch)
    (htokens : q.tokens = (p.latch.trigger p.tokens alarm).tokens) :
    q.tokens.isCancelled q.latch.run = true ∧ q.tokens.isCancelled q.latch.root = true := by
  rw [hlatch, htokens, Latch.run_trigger, Latch.root_trigger]
  exact ⟨p.latch.isCancelled_trigger p.tokens alarm fun htriggered => (harmed htriggered).1,
    p.latch.isCancelled_root_trigger p.tokens alarm fun htriggered => (harmed htriggered).2⟩

/-- The latch stays as it is, and what was cancelled stays cancelled. -/
theorem Armed.of_eq (h : p.Armed) (hlatch : q.latch = p.latch)
    (htokens : p.tokens.Extends q.tokens) : q.Armed := by
  intro htriggered
  rw [hlatch] at htriggered ⊢
  exact ⟨htokens.isCancelled (h htriggered).1, htokens.isCancelled (h htriggered).2⟩

/-- An alarm leaves the latch so. -/
theorem Armed.alarmed (h : p.Armed) (halarmed : p.Alarmed q) : q.Armed := by
  cases halarmed with
  | quiet hlatch htokens => exact h.of_eq hlatch (htokens ▸ .refl _)
  | raised alarm hlatch htokens => exact fun _ => isCancelled_of_raised h hlatch htokens

/-- A worker that panics cancels the run. -/
theorem isCancelled_leave_panicked {id : Nat} {payload : Payload}
    (hguarded : p.pool.guarded = true) (halert : p.Alert) :
    (p.leave id (.panicked payload)).isCancelled = true := by
  have halarm : workerAlarm? id (.panicked payload) = some _ := rfl
  obtain ⟨hlatch, htokens⟩ := leave_alarmed hguarded halarm
  exact isCancelled_raise hlatch htokens halert

/-! ### The coordinator -/

/-- The coordinator takes from the completions and makes no sending end. -/
theorem CoordinatorStep.completions (h : p.CoordinatorStep q) :
    q.completions.senders = p.completions.senders ∧ q.completions.items ⊆ p.completions.items := by
  cases h with
  | completed hlooks hopen hitems =>
      exact ⟨rfl, by rw [hitems]; exact List.subset_cons_self _ _⟩
  | stray | stranded | undispatchable | unresolvedFailed | processFailed =>
      rw [abort_eq]
      exact ⟨by simp [Pipeline.finish], by simp [Pipeline.finish]⟩
  | drained | interrupted | resolvePanicked | unresolvedPanicked | processPanicked
  | unresolvedDropped | processDropped =>
      exact ⟨by simp [Pipeline.finish], by simp [Pipeline.finish]⟩
  | completionsEnded | dispatched | took | intakeEnded | admitted | coalesced | unresolvable
  | calledUnresolved | unresolvedSucceeded | fanOutBegun | fanOutEnded | calledProcess
  | processSucceeded => exact ⟨rfl, List.Subset.refl _⟩

/-- The coordinator does not close the dispatch queue, and keeps its sending end until it ends. -/
theorem CoordinatorStep.dispatch (h : p.CoordinatorStep q) :
    q.dispatch.closed = p.dispatch.closed ∧
      (q.isOver = false → q.dispatch.senders = p.dispatch.senders) := by
  cases h with
  | stray | stranded | undispatchable | unresolvedFailed | processFailed =>
      rw [abort_eq]
      exact ⟨rfl, nofun⟩
  | drained | interrupted | resolvePanicked | unresolvedPanicked | processPanicked
  | unresolvedDropped | processDropped => exact ⟨rfl, nofun⟩
  | _ => exact ⟨rfl, fun _ => rfl⟩

/-- A coordinator ends because the run is cancelled, with a panic, or drained. -/
theorem CoordinatorStep.ended (h : p.CoordinatorStep q) (halert : p.Alert)
    (hover : q.isOver = true) :
    q.isCancelled = true ∨ (∃ payload, q.coordinator.phase = .ended (.panicked payload)) ∨
      p.isDrained = true ∧
        q = { p with journal := .note .stopped :: .note .drained :: p.journal }.finish .done := by
  cases h with
  | drained hphase hdrained => exact .inr (.inr ⟨hdrained, rfl⟩)
  | interrupted hphase hbusy hcancelled => exact .inl hcancelled
  | unresolvedDropped hphase hcancelled | processDropped hphase hcancelled =>
      exact .inl hcancelled
  | stray | stranded | undispatchable | unresolvedFailed | processFailed =>
      exact .inl (isCancelled_abort halert)
  | resolvePanicked | unresolvedPanicked | processPanicked => exact .inr (.inl ⟨_, rfl⟩)
  | completionsEnded hlooks | dispatched hlooks | intakeEnded hlooks =>
      rw [isOver, hlooks.phase] at hover
      cases hover
  | completed | took | admitted | coalesced | unresolvable | calledUnresolved
  | unresolvedSucceeded | fanOutBegun | fanOutEnded | calledProcess | processSucceeded =>
      cases hover

/-! ### Those who are there -/

/-- While the coordinator goes on and the run is not cancelled, the workers are there, and the
queues between them are open. -/
structure Staffed (p : Pipeline) : Prop where
  guarded : p.pool.guarded = true
  alert : p.Alert
  /-- Every worker has a sending end of the completions. -/
  senders : p.completions.senders = p.pool.alive
  /-- The dispatch queue is closed by the last worker. -/
  closed : p.dispatch.closed = true → p.pool.isGone = true
  feeding : p.isOver = false → p.dispatch.senders ≠ 0
  present : p.isOver = false → p.isCancelled = false → p.pool.isGone = false
  /-- A fetch is dropped only once the run is cancelled. -/
  dropped : ∀ j ∈ p.pool.busy, ∀ d, j.stage = .handingIn d → d.isCancelled = true →
    p.isCancelled = true
  abandoned : p.isOver = false → ∀ c ∈ p.completions.items, c.outcome.isCancelled = true →
    p.isCancelled = true
  /-- A coordinator that was neither cancelled nor panicked has left no location behind. -/
  left : p.isOver = true → p.isCancelled = true ∨
    (∃ payload, p.coordinator.phase = .ended (.panicked payload)) ∨
    p.pool.busy = [] ∧ (p.dispatch.items = [] ∨ p.pool.idle = [])

namespace Staffed

/-- A step of the coordinator. -/
theorem coordinatorStep (h : p.Staffed) (howned : p.Owned dropped) (hstep : p.CoordinatorStep q) :
    q.Staffed := by
  have hsignals := hstep.signals
  have hpool := hstep.pool
  obtain ⟨hsenders, hitems⟩ := hstep.completions
  obtain ⟨hclosed, hfeeding⟩ := hstep.dispatch
  refine ⟨hpool ▸ h.guarded, hsignals.alert h.alert, ?_, ?_, fun hq => ?_, fun _ hlive => ?_,
    fun j hj d hd hcancelled => ?_, fun _ c hc hcancelled => ?_, fun hq => ?_⟩
  · rw [hsenders, hpool, h.senders]
  · rw [hclosed, hpool]
    exact h.closed
  · rw [hfeeding hq]
    exact h.feeding hstep.running
  · rw [hpool]
    exact h.present hstep.running (hsignals.isCancelled_eq_false hlive)
  · exact hsignals.isCancelled (h.dropped j (hpool ▸ hj) d hd hcancelled)
  · exact hsignals.isCancelled (h.abandoned hstep.running c (hitems hc) hcancelled)
  · rcases hstep.ended h.alert hq with hcancelled | hpanicked | ⟨hdrained, heq⟩
    · exact .inl hcancelled
    · exact .inr (.inl hpanicked)
    · have hdispatch : q.dispatch.items = p.dispatch.items := by rw [heq]; rfl
      -- nothing waits, so nothing is underway
      simp only [isDrained, Bool.and_eq_true] at hdrained
      have hnil := howned.underway_eq_nil hdrained.1.2
      simp only [underway, List.append_eq_nil_iff, List.map_eq_nil_iff] at hnil
      exact .inr (.inr ⟨hpool ▸ hnil.1.2, .inl (hdispatch.trans hnil.1.1.2)⟩)

/-- Nobody comes or leaves. -/
theorem kept (h : p.Staffed) (hcoordinator : q.coordinator = p.coordinator)
    (hlatch : q.latch = p.latch) (htokens : p.tokens.Extends q.tokens)
    (hguarded : q.pool.guarded = p.pool.guarded) (halive : q.pool.alive = p.pool.alive)
    (hsenders : q.completions.senders = p.completions.senders)
    (hclosed : q.dispatch.closed = p.dispatch.closed)
    (hfeeding : q.dispatch.senders = p.dispatch.senders)
    (hdropped : ∀ j ∈ q.pool.busy, ∀ d, j.stage = .handingIn d → d.isCancelled = true →
      p.isCancelled = true)
    (habandoned : ∀ c ∈ q.completions.items, c ∈ p.completions.items ∨
      (c.outcome.isCancelled = true → p.isCancelled = true))
    (hleft : p.pool.busy = [] ∧ (p.dispatch.items = [] ∨ p.pool.idle = []) →
      q.pool.busy = [] ∧ (q.dispatch.items = [] ∨ q.pool.idle = [])) : q.Staffed := by
  have hsignals : Signals p q := .of_eq hlatch htokens
  have hover : q.isOver = p.isOver := by rw [isOver, isOver, hcoordinator]
  have hgone : q.pool.isGone = p.pool.isGone := by
    rw [Bool.eq_iff_iff, Pool.isGone_iff_alive_eq_zero, Pool.isGone_iff_alive_eq_zero, halive]
  refine ⟨hguarded.trans h.guarded, hsignals.alert h.alert, ?_, ?_, ?_, fun hq hlive => ?_,
    fun j hj d hd hcancelled => hsignals.isCancelled (hdropped j hj d hd hcancelled),
    fun hq c hc hcancelled => ?_, fun hq => ?_⟩
  · rw [hsenders, halive, h.senders]
  · rw [hclosed, hgone]
    exact h.closed
  · rw [hover, hfeeding]
    exact h.feeding
  · rw [hgone]
    exact h.present (hover ▸ hq) (hsignals.isCancelled_eq_false hlive)
  · rcases habandoned c hc with hold | hnew
    · exact hsignals.isCancelled (h.abandoned (hover ▸ hq) c hold hcancelled)
    · exact hsignals.isCancelled (hnew hcancelled)
  · rw [hcoordinator]
    exact (h.left (hover ▸ hq)).imp hsignals.isCancelled (Or.imp_right hleft)

/-- Nothing happens to coordinator, workers and queues. -/
theorem sameTasks (h : p.Staffed) (htasks : SameTasks p q) (hlatch : q.latch = p.latch)
    (htokens : p.tokens.Extends q.tokens) : q.Staffed := by
  obtain ⟨hcoordinator, hdispatch, hcompletions, hidle, hbusy, -, hguarded⟩ := htasks
  refine h.kept hcoordinator hlatch htokens hguarded ?_ (by rw [hcompletions])
    (by rw [hdispatch]) (by rw [hdispatch]) (fun j hj => h.dropped j (hbusy ▸ hj))
    (fun c hc => .inl (hcompletions ▸ hc)) ?_
  · rw [Pool.alive, hidle, hbusy, Pool.alive]
  · rw [hbusy, hdispatch, hidle]
    exact id

/-- A job goes on to another stage. -/
theorem updated {j : Job} {stage : JobStage} (h : p.Staffed) (hj : j ∈ p.pool.busy)
    (hpool : q.pool = p.pool.update { j with stage })
    (hstage : ∀ d, stage = .handingIn d → d.isCancelled = true → p.isCancelled = true)
    (hcoordinator : q.coordinator = p.coordinator) (hlatch : q.latch = p.latch)
    (htokens : q.tokens = p.tokens) (hdispatch : q.dispatch = p.dispatch)
    (hsenders : q.completions.senders = p.completions.senders)
    (hitems : q.completions.items = p.completions.items) : q.Staffed := by
  refine h.kept hcoordinator hlatch (htokens ▸ .refl _) (by rw [hpool]; rfl)
    (by rw [hpool, Pool.alive_update]) hsenders (by rw [hdispatch]) (by rw [hdispatch])
    (fun k hk d hd hcancelled => ?_) (fun c hc => .inl (hitems ▸ hc))
    (fun hleft => absurd hleft.1 (List.ne_nil_of_mem hj))
  rw [hpool, Pool.update, List.mem_map] at hk
  obtain ⟨k, hk, rfl⟩ := hk
  split at hd
  · exact hstage d hd hcancelled
  · exact h.dropped k hk d hd hcancelled

/-- A worker leaves. -/
theorem leave {id : Nat} {ending : Ending} (h : p.Staffed)
    (halive : (p.pool.without id ending).alive + 1 = p.pool.alive)
    (hwhy : p.isOver = false → (p.leave id ending).isCancelled = true) :
    (p.leave id ending).Staffed := by
  have hsignals := signals_leave p id ending
  have hover : (p.leave id ending).isOver = p.isOver := by
    rw [isOver, isOver, coordinator_leave]
  refine ⟨?_, hsignals.alert h.alert, ?_, fun hclosed => ?_, fun hq => ?_, fun hq hlive => ?_,
    fun j hj d hd hcancelled => ?_, fun hq _ _ _ => hwhy (hover ▸ hq), fun hq => ?_⟩
  · rw [pool_leave]
    exact h.guarded
  · have hsenders := h.senders
    rw [completions_leave, pool_leave, Queue.dropSender, Queue.stepOut]
    dsimp only
    omega
  · rw [pool_leave]
    cases hgone : (p.pool.without id ending).isGone with
    | true => rfl
    | false =>
        rw [dispatch_leave, hgone] at hclosed
        have := (Pool.isGone_iff_alive_eq_zero _).mp (h.closed hclosed)
        omega
  · rw [dispatch_leave]
    have hfeeding := h.feeding (hover ▸ hq)
    split
    · rwa [Queue.senders_dropReceiver]
    · exact hfeeding
  · rw [hwhy (hover ▸ hq)] at hlive
    cases hlive
  · rw [pool_leave] at hj
    exact hsignals.isCancelled (h.dropped j (List.mem_of_mem_filter hj) d hd hcancelled)
  · rw [coordinator_leave, pool_leave, items_dispatch_leave, Pool.without]
    refine (h.left (hover ▸ hq)).imp hsignals.isCancelled (Or.imp_right fun hleft => ?_)
    rw [hleft.1]
    refine ⟨rfl, hleft.2.imp (fun hitems => ?_) fun hidle => by rw [hidle]; rfl⟩
    rw [hitems, ite_self]

/-- A worker panics. -/
theorem leave_panicked {j : Job} {payload : Payload} (h : p.Staffed)
    (hworkers : p.pool.workers.Nodup) (hj : j ∈ p.pool.busy) :
    (p.leave j.worker (.panicked payload)).Staffed :=
  h.leave (Pool.alive_without_of_mem_busy hworkers hj _) fun _ =>
    isCancelled_leave_panicked h.guarded h.alert

/-- A step of a worker. -/
theorem workerStep (h : p.Staffed) (howned : p.Owned dropped) (hstep : p.WorkerStep q) :
    q.Staffed := by
  cases hstep with
  | @quit id hidle hcancelled =>
      exact h.leave (Pool.alive_without_of_mem_idle howned.workers hidle _) fun _ =>
        (signals_leave p id .done).isCancelled hcancelled
  | dismissed hidle hlive hexhausted =>
      -- the coordinator has given up its sending end
      refine h.leave (Pool.alive_without_of_mem_idle howned.workers hidle _) fun hrunning => ?_
      simp only [Queue.isExhausted, Bool.and_eq_true, beq_iff_eq] at hexhausted
      exact absurd hexhausted.2 (h.feeding hrunning)
  | took hlive hidle hitems =>
      refine h.kept rfl rfl (.refl _) rfl ?_ rfl rfl rfl ?_ (fun c hc => .inl hc) ?_
      · simp only [Pool.alive, hidle, List.length_append, List.length_cons, List.length_nil]
        omega
      · rintro j hj d hd
        rcases List.mem_append.mp hj with hj | hj
        · exact h.dropped j hj d hd
        · rw [List.mem_singleton.mp hj] at hd
          cases hd
      · rintro ⟨-, hnone⟩
        rw [hitems, hidle] at hnone
        simp at hnone
  | called hworks hlock hmode =>
      refine h.updated hworks.mem rfl (fun d hd => ?_) rfl rfl rfl rfl rfl rfl
      cases hd
  | callPanicked hworks hlock hmode =>
      refine leave_panicked (h.sameTasks ?_ rfl (.refl _)) howned.workers hworks.mem
      constructor <;> rfl
  | fetched hworks =>
      refine h.updated hworks.mem rfl (fun d hd hcancelled => ?_) rfl rfl rfl rfl rfl rfl
      obtain rfl := JobStage.handingIn.inj hd
      cases hcancelled
  | fetchFailed hworks =>
      refine h.updated hworks.mem rfl (fun d hd hcancelled => ?_) rfl rfl rfl rfl rfl rfl
      obtain rfl := JobStage.handingIn.inj hd
      cases hcancelled
  | fetchPanicked hworks hmode =>
      refine leave_panicked (h.sameTasks ?_ rfl (.refl _)) howned.workers hworks.mem
      constructor <;> rfl
  | fetchDropped hworks hcancelled =>
      exact h.updated hworks.mem rfl (fun _ _ _ => hcancelled) rfl rfl rfl rfl rfl rfl
  | @handedIn j outcome hworks hopen hline hroom houtcome =>
      refine h.kept rfl rfl (.refl _) rfl ?_ rfl rfl rfl
        (fun k hk => h.dropped k (List.mem_of_mem_filter hk)) (fun c hc => ?_)
        fun hleft => absurd hleft.1 (List.ne_nil_of_mem hworks.mem)
      · have hbusy := (Pool.busy_perm_without howned.workers hworks.mem .done).length_eq
        simp only [Pool.without, List.length_cons] at hbusy
        simp only [Pool.alive, List.length_append, List.length_singleton]
        omega
      · rcases List.mem_append.mp hc with hc | hc
        · exact .inl hc
        · rw [List.mem_singleton.mp hc, houtcome]
          exact .inr Bool.noConfusion
  | @handedInLast j outcome hworks hopen hline hroom houtcome =>
      have hcancelled := h.dropped j hworks.mem outcome hworks.stage houtcome
      refine leave
        (h.kept rfl rfl (.refl _) rfl rfl rfl rfl rfl h.dropped (fun c hc => ?_) id)
        (Pool.alive_without_of_mem_busy howned.workers hworks.mem .done)
        fun _ => (signals_leave _ j.worker .done).isCancelled hcancelled
      exact (List.mem_append.mp hc).imp_right fun _ _ => hcancelled
  | undelivered hworks hclosed =>
      refine h.leave (Pool.alive_without_of_mem_busy howned.workers hworks.mem _) fun hrunning => ?_
      rw [howned.live hrunning] at hclosed
      cases hclosed

/-- A run that is through has nobody left to be there. -/
theorem renewed (h : p.Staffed) (hspares : p.SparesTasks q) (hfinished : p.Finished)
    (hunset : q.latch.Unset) : q.Staffed := by
  have hover : q.isOver = true := hspares.sparesCoordinator.isOver.trans hfinished.ended
  have hbusy := hspares.busy.trans hfinished.nobody.2
  have hidle := hspares.idle.trans hfinished.nobody.1
  refine ⟨hspares.guarded.trans h.guarded, .of_unset hunset, ?_, fun _ => ?_, fun hq => ?_,
    fun hq => ?_, by simp [hbusy], fun hq => ?_, fun _ => .inr (.inr ⟨hbusy, .inr hidle⟩)⟩
  · rw [hspares.completions, h.senders, Pool.alive, Pool.alive, hspares.idle, hspares.busy]
  · rw [Pool.isGone, hidle, hbusy]
    rfl
  all_goals
    rw [hover] at hq
    cases hq

/-- The workers of a new run are there. -/
theorem launched (hlaunched : p.Launched q) : q.Staffed := by
  obtain ⟨size, capacity, hsize, hpool, hcompletions⟩ := hlaunched.pool
  obtain ⟨places, hdispatch⟩ := hlaunched.dispatch
  have halive : q.pool.alive = size := by simp [hpool, Pool.alive, Pool.launch]
  have hrunning : q.isOver = false := by rw [isOver, hlaunched.coordinator]
  refine ⟨by rw [hpool]; rfl, .of_unset hlaunched.latch, ?_, fun hclosed => ?_, fun _ => ?_,
    fun _ _ => ?_, ?_, fun _ => ?_, fun hq => ?_⟩
  · rw [halive, hcompletions]
  · rw [hdispatch] at hclosed
    cases hclosed
  · rw [hdispatch]
    exact Nat.one_ne_zero
  · rw [← Bool.not_eq_true, Pool.isGone_iff_alive_eq_zero]
    omega
  · rw [hpool]
    intro j hj
    cases hj
  · rw [hcompletions]
    intro c hc
    cases hc
  · rw [hrunning] at hq
    cases hq

/-- Every change keeps the queues open to those who need them. -/
theorem change (h : p.Staffed) (howned : p.Owned dropped) (hchange : p.Change q) :
    q.Staffed := by
  cases hchange with
  | coordinated hstep => exact h.coordinatorStep howned hstep
  | worked hstep => exact h.workerStep howned hstep
  | hookReleased mode =>
      rcases exists_releaseHook p mode with heq | ⟨phase, hrunning, heq, hphase⟩
      · rwa [heq]
      · rw [heq]
        refine ⟨h.guarded, h.alert, h.senders, h.closed, fun _ => h.feeding hrunning,
          fun _ => h.present hrunning, h.dropped, fun _ => h.abandoned hrunning, fun hq => ?_⟩
        rcases hphase with ⟨r, -, rfl⟩ | ⟨r, outcome, rest, delivered, -, rfl⟩ <;> cases hq
  | fetchReleased hj mode =>
      rw [releaseFetch]
      split
      · refine h.updated hj rfl (fun d hd => ?_) rfl rfl rfl rfl rfl rfl
        cases hd
      · exact h
  | tasksSpared hspares hlatch htokens => exact h.sameTasks hspares.toSameTasks hlatch htokens
  | renewed hspares hfinished hunset => exact h.renewed hspares hfinished hunset

end Staffed

end Pipeline

end SharedFetch
