import SharedFetch.Proofs.Tokens
import SharedFetch.Scenario.Host

/-!
# What can happen to a host

A host is taken further by events (`advance`) and by what its caller does (`perform`). Both have
many branches, and in many of them nothing happens. Here each is read once, as a relation with one
case for each thing that can happen, which says what is known then. What is to hold whatever happens
to a host is proved of these cases.

## Main results

* `Host.starts`: what a start comes to.
* `Host.exists_tearDown_eq`: a run that is torn down is cancelled.
* `Host.exists_eq_of_finishShutdown?`: what is left when the hook for the end of a run has answered.
* `Host.operates_of_operateOn?`, `Host.happens_of_advance`: what an operation that goes on does, and
  any other event.
* `Scenario.HostBench.acts_perform`: what a caller who acts does.
-/

namespace SharedFetch

namespace Host

variable {h h' : Host} {op : Operation}

/-! ### Starting -/

/-- What a start can come to, and why. -/
inductive Starts (h : Host) : Start → Prop where
  | alreadyStarted (hstarted : h.started = true) : Starts h (.refused .alreadyStarted)
  | alreadyRunning (hrunning : h.running = true) : Starts h (.refused .alreadyRunning)
  | broken {cause : Misuse} (hidle : h.running = false)
      (hcheck : checkQueues h.settings = .error cause) : Starts h (.broken h.beginLife cause)
  | launched (hidle : h.running = false) (hcheck : checkQueues h.settings = .ok ()) :
      Starts h (.launched { h.beginLife with
        pipeline := h.beginLife.freshPipeline
        running := true
        handles := ⟨true, true, true⟩
        started := h.kind = .runner })

/-- **A start is refused, breaks or launches a run.** -/
theorem starts (h : Host) : h.Starts h.start := by
  rw [start]
  split
  · rename_i hstarted
    exact .alreadyStarted hstarted.2
  · split
    · exact .alreadyRunning ‹_›
    · rename_i hidle
      dsimp only
      split
      · exact .broken (by simpa using hidle) ‹_›
      · exact .launched (by simpa using hidle) ‹_›

/-- A host that launches a run had none. -/
theorem eq_of_start_launched (hstart : h.start = .launched h') :
    h.running = false ∧
      h' = { h.beginLife with
        pipeline := h.beginLife.freshPipeline
        running := true
        handles := ⟨true, true, true⟩
        started := h.kind = .runner } := by
  have hstarts := h.starts
  rw [hstart] at hstarts
  cases hstarts with
  | launched hidle => exact ⟨hidle, rfl⟩

/-- A host that cannot launch a run had none, and has begun one by then. -/
theorem eq_of_start_broken {cause : Misuse} (hstart : h.start = .broken h' cause) :
    h.running = false ∧ h' = h.beginLife := by
  have hstarts := h.starts
  rw [hstart] at hstarts
  cases hstarts with
  | broken hidle => exact ⟨hidle, rfl⟩

/-- A run is launched only if its queues can be made. -/
theorem checkQueues_of_start_launched (hstart : h.start = .launched h') :
    checkQueues h.settings = .ok () := by
  have hstarts := h.starts
  rw [hstart] at hstarts
  cases hstarts with
  | launched _ hcheck => exact hcheck

/-- A start breaks only where queues cannot be made. -/
theorem checkQueues_of_start_broken {cause : Misuse} (hstart : h.start = .broken h' cause) :
    checkQueues h.settings ≠ .ok () := by
  have hstarts := h.starts
  rw [hstart] at hstarts
  cases hstarts with
  | broken _ hcheck =>
      rw [hcheck]
      simp

/-- A start is refused where there is a run, or a runner that was started. -/
theorem of_start_refused {fault : Fault} (hstart : h.start = .refused fault) :
    h.started = true ∨ h.running = true := by
  have hstarts := h.starts
  rw [hstart] at hstarts
  cases hstarts with
  | alreadyStarted hstarted => exact .inl hstarted
  | alreadyRunning hrunning => exact .inr hrunning

/-! ### The end of a run -/

/-- Tearing a run down cancels it. -/
theorem exists_tearDown_eq (h : Host) (op : Operation) :
    ∃ tokens, h.pipeline.tokens.Extends tokens ∧ tokens.isCancelled h.pipeline.latch.run = true ∧
      h.tearDown op =
        { h with
          handles := { h.handles with coordinator := false }
          pipeline := { h.pipeline with tokens } }.turnTo op .joiningCoordinator := by
  unfold tearDown
  split
  · exact ⟨_, Tokens.extends_cancel _ _, Tokens.isCancelled_cancel _ _, rfl⟩
  · exact ⟨_, (Tokens.extends_cancel _ _).trans (Tokens.extends_cancel _ _),
      Tokens.isCancelled_cancel _ _, rfl⟩

/-- The hook for the end of a run has answered. A runner that is not lost is no longer started, and
has a new root. -/
theorem exists_eq_of_finishShutdown? {mode : HookMode} {fault : Option Fault}
    (hstep : h.finishShutdown? op fault mode = some h') :
    ∃ lost results, (h.lost = true → lost = true) ∧
      ((h.kind = .fetcher ∨ lost = true) ∧ h' = { h with
          pipeline := h.dismissProducers.pipeline.freeLock
          operation := none, lost, results } ∨
        h.kind = .runner ∧ h' = { h with
          pipeline := h.dismissProducers.pipeline.freeLock
          operation := none, started := false, lost, results }.renewRoot) := by
  have hkept : ∀ ending : Ending, h.lost = true → (h.lost || ending.isPanic) = true := by
    intro ending hlost
    rw [hlost, Bool.true_or]
  have hconclude : ∀ (label : Nat) (fault : Option Fault),
      ∃ lost results, (h.lost = true → lost = true) ∧
        ((h.kind = .fetcher ∨ lost = true) ∧
          { h with pipeline := h.pipeline.freeLock }.conclude label fault = { h with
            pipeline := h.dismissProducers.pipeline.freeLock
            operation := none, lost, results } ∨
        h.kind = .runner ∧ { h with pipeline := h.pipeline.freeLock }.conclude label fault = { h with
            pipeline := h.dismissProducers.pipeline.freeLock
            operation := none, started := false, lost, results }.renewRoot) := by
    intro label fault
    rw [conclude]
    split
    · rename_i hkind
      exact ⟨_, _, hkept _, .inl ⟨.inl hkind, rfl⟩⟩
    · rename_i hkind
      exact ⟨_, _, hkept _, .inr ⟨hkind, rfl⟩⟩
  cases mode with
  | hold => cases hstep
  | succeed => exact Option.some.inj hstep ▸ hconclude _ _
  | fail stage cause => exact Option.some.inj hstep ▸ hconclude _ _
  | panic payload =>
      obtain rfl := Option.some.inj hstep
      exact ⟨_, _, hkept (.panicked payload), .inl ⟨.inr (Bool.or_true _), rfl⟩⟩

/-! ### Operations and events -/

/-- What an operation that goes on does, by its phase. -/
inductive Operates (h : Host) (op : Operation) : Host → Prop where
  | openRefused {supply : Supply} {fault : Fault} (hphase : op.phase = .opening supply)
      (hstart : h.start = .refused fault) :
      Operates h op (h.turnTo op (.returning (.failed fault)))
  | openBroken {supply : Supply} {h' : Host} {cause : Misuse} (hphase : op.phase = .opening supply)
      (hstart : h.start = .broken h' cause) :
      Operates h op (h'.wakeReporter.turnTo op (.returning (.panicked (.text cause.message))))
  | openLaunched {supply : Supply} {h' : Host} (hphase : op.phase = .opening supply)
      (hstart : h.start = .launched h') : Operates h op (h.openRun op supply)
  /-- Draining or watching goes on to stop the run. -/
  | tornDown (hphase : op.phase = .draining ∨ ∃ interrupted, op.phase = .watching interrupted) :
      Operates h op (h.tearDown op)
  | coordinatorJoined {ending : Ending} (hphase : op.phase = .joiningCoordinator)
      (hending : h.pipeline.ending? = some ending) :
      Operates h op ({ h with
        pipeline := { h.pipeline with pool := { h.pipeline.pool with handles := 0 } }.count
          (.poolSize 0) }.turnTo op (.joiningWorkers ending.fault?))
  | workersJoined {fault : Option Fault} (hphase : op.phase = .joiningWorkers fault)
      (hgone : h.pipeline.pool.isGone = true) :
      Operates h op ({ h with handles := { h.handles with life := false } }.turnTo op
        (.joiningReporter (h.pipeline.latch.error?.or fault)))
  | reporterJoined {fault : Option Fault} (hphase : op.phase = .joiningReporter fault)
      (hgone : h.reporting.isAlive = false) :
      Operates h op ({ h with
        running := false
        handles := { h.handles with done := false }
        pipeline := h.pipeline.askLock .host .write }.turnTo op (.awaitingLock fault))
  | shutdownCalled {fault : Option Fault} {lock : Lock Party} (hphase : op.phase = .awaitingLock fault)
      (hlock : h.pipeline.lock.grant? .host = some lock) :
      Operates h op ({ h with pipeline := { h.pipeline with lock } }.callShutdown op fault)
  | concluded {mode : HookMode} {fault : Option Fault} {h' : Host}
      (hphase : op.phase = .inShutdown mode fault)
      (hstep : h.finishShutdown? op fault mode = some h') : Operates h op h'
  | returned {ending : Ending} (hphase : op.phase = .returning ending) :
      Operates h op (h.report op.label ending)

/-- What a runner does that is to launch a run. -/
theorem operates_openRun {supply : Supply} (hphase : op.phase = .opening supply) :
    h.Operates op (h.openRun op supply) := by
  cases hstart : h.start with
  | refused fault =>
      rw [openRun, hstart]
      exact .openRefused hphase hstart
  | broken h' cause =>
      rw [openRun, hstart]
      exact .openBroken hphase hstart
  | launched h' => exact .openLaunched hphase hstart

/-- **What an operation that goes on does.** -/
theorem operates_of_operateOn? (hstep : h.operateOn? op = some h') : h.Operates op h' := by
  rw [operateOn?] at hstep
  cases hphase : op.phase with
  | opening supply =>
      simp only [hphase, Option.some.injEq] at hstep
      exact hstep ▸ operates_openRun hphase
  | draining =>
      simp only [hphase, Option.ite_none_right_eq_some, Option.some.injEq] at hstep
      exact hstep.2 ▸ .tornDown (.inl hphase)
  | watching interrupted =>
      simp only [hphase, Option.ite_none_right_eq_some, Option.some.injEq] at hstep
      exact hstep.2 ▸ .tornDown (.inr ⟨interrupted, hphase⟩)
  | joiningCoordinator =>
      simp only [hphase, Option.map_eq_some_iff] at hstep
      obtain ⟨ending, hending, rfl⟩ := hstep
      exact .coordinatorJoined hphase hending
  | joiningWorkers fault =>
      simp only [hphase, Option.ite_none_right_eq_some, Option.some.injEq] at hstep
      exact hstep.2 ▸ .workersJoined hphase hstep.1
  | joiningReporter fault =>
      simp only [hphase, Option.ite_none_left_eq_some, Option.some.injEq] at hstep
      exact hstep.2 ▸ .reporterJoined hphase (by simpa using hstep.1)
  | awaitingLock fault =>
      simp only [hphase, Pipeline.withLock?, Option.map_map, Option.map_eq_some_iff] at hstep
      obtain ⟨lock, hlock, rfl⟩ := hstep
      exact .shutdownCalled hphase hlock
  | inShutdown mode fault =>
      simp only [hphase] at hstep
      exact .concluded hphase hstep
  | returning ending =>
      simp only [hphase, Option.some.injEq] at hstep
      exact hstep ▸ .returned hphase

/-- What an event does to a host, if it can happen. -/
inductive Happens (h : Host) : HostEvent → Host → Prop where
  | inside {event : Event} {q : Pipeline}
      (hallowed : ∀ id, event = .produce id → h.mayProduce id = true)
      (hstep : h.pipeline.advance event = some q) :
      Happens h (.inside event) { h with pipeline := q }
  | reporterQuit (halive : h.reporting.isAlive = true)
      (hcancelled : h.pipeline.isCancelled = true) :
      Happens h .quitReporter { h with
        reporting := h.reporting.quit.2
        reports := h.reports ++ h.reporting.quit.1 }
  | operated {op : Operation} {h' : Host} (hop : h.operation = some op)
      (hoperates : h.Operates op h') : Happens h .operate h'

/-- **What an event of a host can be.** -/
theorem happens_of_advance {e : HostEvent} (hstep : h.advance e = some h') : h.Happens e h' := by
  cases e with
  | inside event =>
      simp only [advance, Option.ite_none_right_eq_some, Option.map_eq_some_iff] at hstep
      obtain ⟨hallowed, q, hq, rfl⟩ := hstep
      refine .inside (fun id hproduce => ?_) hq
      rwa [hproduce] at hallowed
  | quitReporter =>
      simp only [advance, Option.ite_none_right_eq_some, Option.some.injEq,
        Bool.and_eq_true] at hstep
      obtain ⟨⟨halive, hcancelled⟩, rfl⟩ := hstep
      exact .reporterQuit halive hcancelled
  | operate =>
      obtain ⟨op, hop, hoperate⟩ := Option.bind_eq_some_iff.mp hstep
      exact .operated hop (operates_of_operateOn? hoperate)

end Host

/-! ### Callers -/

namespace Scenario.HostBench

variable {b : HostBench} {number : Nat}

/-- A host that is not busy has no operation. -/
theorem operation_eq_none (hfree : ¬ b.isBusy = true) : b.host.operation = none := by
  simp only [isBusy, Host.isBusy, Bool.or_eq_true, not_or, Bool.not_eq_true,
    Option.isSome_eq_false_iff, Option.isNone_iff_eq_none] at hfree
  exact hfree.1

/-- What a caller who acts does, in the step with the given number. Where several actions can do it,
none is named. -/
inductive Acts (number : Nat) (b : HostBench) : Action → HostBench → Prop where
  /-- The action is refused, or there is nothing to do. -/
  | nothing {action : Action} : Acts number b action b
  | launched {host : Host} (hfree : b.host.operation = none)
      (hstart : b.host.start = .launched host) :
      Acts number b .start { b with host, senders := host.pipeline.intake.era :: b.senders }
  | broken {host : Host} {cause : Misuse} (hfree : b.host.operation = none)
      (hstart : b.host.start = .broken host cause) :
      Acts number b .start { b with host, misuse := some cause }
  /-- References are offered through the sending end on top of the stack. -/
  | offered {era : Nat} {ends : List Nat} (hsenders : b.senders = era :: ends)
      (refs : List Reference) :
      Acts number b (.trySubmit refs)
        (b.onIntake fun _ => (offerAll b.host.pipeline.intake era refs).2)
  | submitted {era : Nat} {ends : List Nat} (hsenders : b.senders = era :: ends) (r : Reference) :
      Acts number b (.submit r) ((b.onQueue era Queue.addSender).onIntake fun i =>
        i.start number era (.submit r false) false)
  | forwarded {era : Nat} {ends : List Nat} (hsenders : b.senders = era :: ends)
      (supply : Supply) :
      Acts number b (.forward supply) ({ b with senders := ends }.onIntake fun i =>
        i.start number era (.forward b.root supply none 0) false)
  | cloned {era : Nat} {ends : List Nat} (hsenders : b.senders = era :: ends) :
      Acts number b .clone { b.onQueue era Queue.addSender with senders := era :: b.senders }
  | dropped {era : Nat} {ends : List Nat} (hsenders : b.senders = era :: ends) :
      Acts number b .drop { b.onQueue era Queue.dropSender with senders := ends }
  | droppedAll :
      Acts number b .dropAll
        { b.senders.foldl (fun b era => b.onQueue era Queue.dropSender) b with senders := [] }
  /-- Stopping or draining begins where there is no run. -/
  | idled {action : Action} (hfree : b.host.operation = none) (hidle : b.host.running = false) :
      Acts number b action { b with
        host := { b.host with operation := some { label := number, phase := .returning .done } } }
  /-- The run is torn down, because it is to be stopped or a runner is to drain it. -/
  | stopped {action : Action} (hfree : b.host.operation = none)
      (hrunning : b.host.running = true) :
      Acts number b action
        { b with host := b.host.tearDown { label := number, phase := .joiningCoordinator } }
  | drained (hfree : b.host.operation = none) (hkind : b.host.kind = .fetcher)
      (hrunning : b.host.running = true) :
      Acts number b .drain { b with
        host := { b.host with operation := some { label := number, phase := .draining } } }
  | opened (hfree : b.host.operation = none) (hkind : b.host.kind = .runner) (supply : Supply)
      (feed : Option Nat) :
      Acts number b (.run supply) { b with host := b.host.beginRun number supply, feed }
  /-- The stream of a run that is still to be launched changes. -/
  | supplied {action : Action} {op : Operation} {supply : Supply}
      (hop : b.host.operation = some op) (hphase : op.phase = .opening supply)
      (supply' : Supply) (feed : Option Nat) :
      Acts number b action { b with host := b.host.turnTo op (.opening supply'), feed }
  /-- The stream of a producer changes. -/
  | fed {action : Action} (label : Nat) (f : Supply → Supply) (feed : Option Nat) :
      Acts number b action { b.onIntake fun i => i.onSupply label f with feed }
  /-- The feed is let go where there is no stream any more. -/
  | unfed {action : Action} (feed : Option Nat) : Acts number b action { b with feed }
  | interrupted {op : Operation} {interrupted : Bool} (hop : b.host.operation = some op)
      (hphase : op.phase = .watching interrupted) :
      Acts number b .interrupt { b with host := b.host.turnTo op (.watching true) }
  | cancelled : Acts number b .cancel { b with host := b.host.cancel b.root }
  | rootReplaced (hfree : b.host.operation = none) (hidle : b.host.running = false)
      (hkind : b.host.kind = .fetcher) :
      Acts number b .replaceRoot
        { b with host := b.host.renewRoot, root := b.host.renewRoot.root }
  | fetchReleased {location : Option String} {job : Job}
      (hheld : b.host.pipeline.heldFetch? location = some job) (mode : FetchMode) :
      Acts number b (.release location mode) (b.onPipeline fun p => p.releaseFetch job mode)
  | hookReleased (key : Option String) (mode : HookMode) :
      Acts number b (.releaseHook key mode) (b.onPipeline fun p => p.releaseHook mode)
  | shutdownReleased {op : Operation} {fault : Option Fault} (hop : b.host.operation = some op)
      (hphase : op.phase = .inShutdown .hold fault) (key : Option String) (mode : HookMode) :
      Acts number b (.releaseHook key mode)
        { b with host := b.host.turnTo op (.inShutdown mode fault) }
  | guarded (access : Access) :
      Acts number b (.guard access)
        (b.onPipeline fun p => { p with lock := (p.lock.guard access).2 })
  | unguarded :
      Acts number b .unguard (b.onPipeline fun p => { p with lock := p.lock.unguard.2 })

namespace Acts

variable {action : Action}

/-- A stop begins. -/
theorem beginStop (hfree : b.host.operation = none) :
    Acts number b action { b with host := b.host.beginStop number } := by
  rw [Host.beginStop]
  split
  · exact .stopped hfree ‹_›
  · rename_i hidle
    exact .idled hfree (by simpa using hidle)

/-- A drain begins. -/
theorem beginDrain (hfree : b.host.operation = none) :
    Acts number b .drain { b with host := b.host.beginDrain number } := by
  rw [Host.beginDrain]
  split
  · rename_i hrunning
    exact .drained hfree hrunning.1 hrunning.2
  · exact .beginStop hfree

/-- The stream of an operation changes. -/
theorem onSupply (label : Nat) (f : Supply → Supply) (feed : Option Nat) :
    Acts number b action { b with host := b.host.onSupply label f, feed } := by
  rw [Host.onSupply]
  split
  · rename_i op hop
    split
    · split
      · exact .supplied hop ‹_› _ feed
      · exact .unfed feed
    · exact .fed label f feed
  · exact .unfed feed

/-- A runner is interrupted. -/
theorem interrupt : Acts number b .interrupt { b with host := b.host.interrupt } := by
  rw [Host.interrupt]
  split
  · split
    · exact .interrupted ‹_› ‹_›
    · exact .nothing
  · exact .nothing

/-- The hook for the end of a run is given its answer. -/
theorem releaseShutdown (key : Option String) (mode : HookMode) :
    Acts number b (.releaseHook key mode) { b with host := b.host.releaseShutdown mode } := by
  rw [Host.releaseShutdown]
  split
  · split
    · exact .shutdownReleased ‹_› ‹_› key mode
    · exact .nothing
  · exact .nothing

/-- A fetch that is held is given its answer. -/
theorem releaseFetch (location : Option String) (mode : FetchMode) :
    Acts number b (.release location mode)
      (b.onPipeline fun p => (Scenario.releaseFetch p location mode).2) := by
  rw [onPipeline, Scenario.releaseFetch]
  split
  · exact .nothing
  · exact .fetchReleased ‹_› mode

/-- A hook that is held is given its answer. -/
theorem releaseHook (key : Option String) (mode : HookMode) :
    Acts number b (.releaseHook key mode)
      (b.onPipeline fun p => (Scenario.releaseHook p key mode).2) := by
  rw [onPipeline, Scenario.releaseHook]
  split
  · exact .nothing
  · split
    · exact .hookReleased key mode
    · exact .nothing

end Acts

/-- **What a caller who acts does.** Looking whether a run has finished is left out: it lets the
host go on as far as it can. -/
theorem acts_perform {action : Action} (hfinished : action ≠ .finished) :
    b.Acts number action (b.perform number action).2 := by
  cases action with
  | start =>
      rw [perform]
      split
      · exact .nothing
      · rename_i hfree
        have hop := operation_eq_none hfree
        split
        · exact .nothing
        · exact .broken hop ‹_›
        · exact .launched hop ‹_›
  | trySubmit refs =>
      rw [perform]
      split
      · exact .nothing
      · exact .offered ‹_› refs
  | submit r =>
      rw [perform]
      split
      · exact .nothing
      · exact .submitted ‹_› r
  | forward supply =>
      rw [perform]
      split
      · exact .nothing
      · exact .forwarded ‹_› supply
  | clone =>
      rw [perform]
      split
      · exact .nothing
      · exact .cloned ‹_›
  | drop =>
      rw [perform]
      split
      · exact .nothing
      · exact .dropped ‹_›
  | dropAll => exact .droppedAll
  | stop =>
      rw [perform]
      split
      · exact .nothing
      · exact .beginStop (operation_eq_none ‹_›)
  | drain =>
      rw [perform]
      split
      · exact .nothing
      · exact .beginDrain (operation_eq_none ‹_›)
  | run supply =>
      rw [perform]
      split
      · exact .nothing
      · rename_i hfree
        split
        · exact .nothing
        · rename_i hkind
          refine .opened (operation_eq_none hfree) ?_ supply _
          cases hhost : b.host.kind with
          | fetcher => exact absurd hhost hkind
          | runner => rfl
  | push refs =>
      rw [perform]
      split
      · exact .nothing
      · split
        · exact .onSupply _ _ b.feed
        · exact .nothing
  | endFeed =>
      rw [perform]
      split
      · exact .nothing
      · exact .onSupply _ _ none
  | interrupt =>
      rw [perform]
      split
      · split
        · exact .interrupt
        · exact .nothing
      · exact .nothing
  | cancel => exact .cancelled
  | replaceRoot =>
      rw [perform]
      split
      · exact .nothing
      · rename_i hfree
        simp only [Bool.or_eq_true, not_or, Bool.not_eq_true] at hfree
        obtain ⟨⟨hbusy, hidle⟩, hrunner⟩ := hfree
        refine .rootReplaced (operation_eq_none (Bool.not_eq_true _ ▸ hbusy)) hidle ?_
        cases hkind : b.host.kind with
        | fetcher => rfl
        | runner =>
            rw [hkind] at hrunner
            cases hrunner
  | finished => exact absurd rfl hfinished
  | release location mode => exact .releaseFetch location mode
  | releaseHook key mode =>
      rw [perform]
      split
      · split
        · exact .releaseShutdown key mode
        · exact .nothing
      · exact .releaseHook key mode
  | guard access => exact .guarded access
  | unguard => exact .unguarded
  | sleep ms | look => exact .nothing

end Scenario.HostBench

end SharedFetch
