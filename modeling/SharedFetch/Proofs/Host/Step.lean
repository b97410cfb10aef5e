import SharedFetch.Proofs.Host.Observer
import SharedFetch.Proofs.Line

/-!
# What a move does to a host

A host changes in one of the ways of `Host.Step`: something happens within the run that leaves the
operation alone, a run is launched or should have been, an operation begins, goes on from one phase
to the next, or ends. Each way carries what was found before it, so that whatever is said of hosts
along a course of moves is shown case by case.

## Main results

* `HostBench.step_move`: every move is one of these.
* `Observed.Reachable.induct`: what holds of a new host and is kept by every move holds along every
  course of moves.
-/

namespace SharedFetch

open Pipeline

/-- The latch is as it was, and what was cancelled is so. -/
structure Pipeline.SameLatch (p q : Pipeline) : Prop where
  latch : q.latch = p.latch
  tokens : p.tokens.Extends q.tokens

theorem Pipeline.SameLatch.of_eq {p q : Pipeline} (hlatch : q.latch = p.latch)
    (htokens : q.tokens = p.tokens) : p.SameLatch q :=
  ⟨hlatch, htokens ▸ .refl _⟩

/-- Whether the entry says that the hook for the end of a run is called. -/
def Entry.isShutdown : Entry → Bool
  | .shutdown => true
  | _ => false

/-- What is in the charge of the host is as it was: the number of workers it answers for, the gauge
of that number, and what the journal shows of the ends of runs. -/
structure Pipeline.SameCharge (p q : Pipeline) : Prop where
  handles : q.pool.handles = p.pool.handles
  poolSize : q.counters.poolSize = p.counters.poolSize
  shutdowns : q.journal.filter Entry.isShutdown = p.journal.filter Entry.isShutdown

namespace Host

/-- Run and operation are as they were. -/
structure Keeps (h h' : Host) : Prop where
  kind : h'.kind = h.kind
  settings : h'.settings = h.settings
  running : h'.running = h.running
  handles : h'.handles = h.handles
  started : h'.started = h.started
  operation : h'.operation = h.operation
  lost : h'.lost = h.lost

/-- What may happen to a host. -/
inductive Step (h : Host) : Host → Prop where
  /-- Something happens that leaves the operation alone, and also the latch if the run is
  through. -/
  | within {h' : Host} (hkeeps : h.Keeps h')
      (hlatch : h.pipeline.Finished → h.pipeline.SameLatch h'.pipeline)
      (hintake : h.pipeline.intake.Turn h'.pipeline.intake)
      (hcharge : h.pipeline.SameCharge h'.pipeline) : Step h h'
  | launched {h' : Host} (hfree : h.operation = none) (hstart : h.start = .launched h') : Step h h'
  | broken {h' : Host} {cause : Misuse} (hfree : h.operation = none)
      (hstart : h.start = .broken h' cause) : Step h h'
  /-- Stopping begins where there is no run. -/
  | idled (hfree : h.operation = none) (hidle : h.running = false) (label : Nat) :
      Step h { h with operation := some { label, phase := .returning .done } }
  /-- Draining begins. -/
  | drained (hfree : h.operation = none) (hrunning : h.running = true) (label : Nat) :
      Step h { h with operation := some { label, phase := .draining } }
  /-- Watching over a run begins, which is for runners only. -/
  | opening (hfree : h.operation = none) (label : Nat) (supply : Supply)
      (hkind : h.kind = .runner) : Step h (h.beginRun label supply)
  /-- Stopping begins. -/
  | stopped (hfree : h.operation = none) (hrunning : h.running = true) (label : Nat) :
      Step h (h.tearDown { label, phase := .joiningCoordinator })
  /-- Draining or watching goes on to stop the run. -/
  | tornDown {op : Operation} (hop : h.operation = some op)
      (hphase : op.phase = .draining ∨ ∃ interrupted, op.phase = .watching interrupted) :
      Step h (h.tearDown op)
  | openRefused {op : Operation} {supply : Supply} {fault : Fault} (hop : h.operation = some op)
      (hphase : op.phase = .opening supply) (hstart : h.start = .refused fault) :
      Step h (h.turnTo op (.returning (.failed fault)))
  | openBroken {op : Operation} {supply : Supply} {h' : Host} {cause : Misuse}
      (hop : h.operation = some op) (hphase : op.phase = .opening supply)
      (hstart : h.start = .broken h' cause) :
      Step h (h'.wakeReporter.turnTo op (.returning (.panicked (.text cause.message))))
  | openLaunched {op : Operation} {supply : Supply} {h' : Host} (hop : h.operation = some op)
      (hphase : op.phase = .opening supply) (hstart : h.start = .launched h') :
      Step h (h.openRun op supply)
  | coordinatorJoined {op : Operation} {ending : Ending} (hop : h.operation = some op)
      (hphase : op.phase = .joiningCoordinator) (hending : h.pipeline.ending? = some ending) :
      Step h ({ h with
        pipeline := { h.pipeline with pool := { h.pipeline.pool with handles := 0 } }.count
          (.poolSize 0) }.turnTo op (.joiningWorkers ending.fault?))
  | workersJoined {op : Operation} {fault : Option Fault} (hop : h.operation = some op)
      (hphase : op.phase = .joiningWorkers fault) (hgone : h.pipeline.pool.isGone = true) :
      Step h ({ h with handles := { h.handles with life := false } }.turnTo op
        (.joiningReporter (h.pipeline.latch.error?.or fault)))
  | reporterJoined {op : Operation} {fault : Option Fault} (hop : h.operation = some op)
      (hphase : op.phase = .joiningReporter fault) (hgone : h.reporting.isAlive = false) :
      Step h ({ h with
        running := false
        handles := { h.handles with done := false }
        pipeline := h.pipeline.askLock .host .write }.turnTo op (.awaitingLock fault))
  | shutdownCalled {op : Operation} {fault : Option Fault} {lock : Lock Party}
      (hop : h.operation = some op) (hphase : op.phase = .awaitingLock fault)
      (hlock : h.pipeline.lock.grant? .host = some lock) :
      Step h ({ h with pipeline := { h.pipeline with lock } }.callShutdown op fault)
  | concluded {op : Operation} {mode : HookMode} {fault : Option Fault} {h' : Host}
      (hop : h.operation = some op) (hphase : op.phase = .inShutdown mode fault)
      (hstep : h.finishShutdown? op fault mode = some h') : Step h h'
  | returned {op : Operation} {ending : Ending} (hop : h.operation = some op)
      (hphase : op.phase = .returning ending) : Step h (h.report op.label ending)
  /-- The stream of a run that is to be launched changes. -/
  | supplied {op : Operation} {supply : Supply} (hop : h.operation = some op)
      (hphase : op.phase = .opening supply) (supply' : Supply) :
      Step h (h.turnTo op (.opening supply'))
  | interrupted {op : Operation} {interrupted : Bool} (hop : h.operation = some op)
      (hphase : op.phase = .watching interrupted) : Step h (h.turnTo op (.watching true))
  | shutdownAnswered {op : Operation} {fault : Option Fault} (hop : h.operation = some op)
      (hphase : op.phase = .inShutdown .hold fault) (mode : HookMode) :
      Step h (h.turnTo op (.inShutdown mode fault))

variable {h h' : Host} {op : Operation}

namespace Step

/-- Something happens to the pipeline alone, and not to the latch. -/
theorem of_pipeline {q : Pipeline} (hcharge : h.pipeline.SameCharge q)
    (hlatch : h.pipeline.Finished → h.pipeline.SameLatch q)
    (hintake : h.pipeline.intake.Turn q.intake) : h.Step { h with pipeline := q } :=
  .within (by constructor <;> rfl) hlatch hintake hcharge

/-- Nothing happens to the pipeline. -/
theorem of_keeps (hkeeps : h.Keeps h') (hpipeline : h'.pipeline = h.pipeline) : h.Step h' :=
  .within hkeeps (fun _ => .of_eq (by rw [hpipeline]) (by rw [hpipeline])) (hpipeline ▸ .refl _)
    ⟨by rw [hpipeline], by rw [hpipeline], by rw [hpipeline]⟩

theorem refl (h : Host) : h.Step h :=
  .of_keeps (by constructor <;> rfl) rfl

end Step

end Host

/-- The coordinator takes from the intake queue, or drops it. -/
theorem Pipeline.CoordinatorStep.turn {p q : Pipeline} (h : p.CoordinatorStep q) :
    p.intake.Turn q.intake := by
  have hdrop : p.intake.Turn { p.intake with queue := p.intake.queue.dropReceiver } :=
    .queued (Queue.line_dropReceiver _) (fun _ => Queue.closed_dropReceiver _) (.dropReceiver _)
  cases h with
  | took hlooks hnone hslot hopen hitems =>
      refine .queued rfl id ⟨rfl, fun hfits => ?_⟩
      rw [hitems, List.length_cons] at hfits
      exact Nat.le_of_succ_le hfits
  | drained | interrupted | resolvePanicked | unresolvedPanicked | processPanicked
  | unresolvedDropped | processDropped => simpa using hdrop
  | stray | stranded | undispatchable | unresolvedFailed | processFailed => simpa using hdrop
  | completed | completionsEnded | dispatched | intakeEnded | admitted | coalesced | unresolvable
  | calledUnresolved | unresolvedSucceeded | fanOutBegun | fanOutEnded | calledProcess
  | processSucceeded => exact .refl _

/-- Nothing is in the charge of the coordinator that is in that of the host. -/
theorem Pipeline.CoordinatorStep.sameCharge {p q : Pipeline} (h : p.CoordinatorStep q) :
    p.SameCharge q := by
  have habort : ∀ (r : Pipeline) (alarm : Alarm), p.SameCharge r → p.SameCharge (r.abort alarm) := by
    intro r alarm hcharge
    rw [abort_eq]
    refine ⟨hcharge.handles, hcharge.poolSize, ?_⟩
    have hnone : (r.alarmEntries alarm).filter Entry.isShutdown = [] := by
      refine List.filter_eq_nil_iff.mpr fun e he => ?_
      obtain ⟨a, rfl⟩ := eq_of_mem_alarmEntries he
      exact Bool.false_ne_true
    exact (List.filter_append ..).trans (by rw [hnone, List.nil_append, hcharge.shutdowns])
  cases h with
  | stray | stranded | undispatchable | unresolvedFailed | processFailed =>
      exact habort _ _ ⟨rfl, rfl, rfl⟩
  | calledUnresolved =>
      refine ⟨rfl, rfl, ?_⟩
      dsimp only
      split <;> rfl
  | _ => exact ⟨rfl, rfl, rfl⟩

/-- The host answers also for a worker that has left. -/
theorem Pipeline.WorkerStep.sameCharge {p q : Pipeline} (h : p.WorkerStep q) : p.SameCharge q := by
  have hleave : ∀ (r : Pipeline) (id : Nat) (ending : Ending), p.SameCharge r →
      p.SameCharge (r.leave id ending) := by
    intro r id ending hcharge
    refine ⟨by rw [pool_leave]; exact hcharge.handles, by rw [counters_leave, hcharge.poolSize], ?_⟩
    have hnone : (r.leaveEntries id ending).filter Entry.isShutdown = [] := by
      refine List.filter_eq_nil_iff.mpr fun e he => ?_
      obtain ⟨a, rfl⟩ := eq_of_mem_leaveEntries he
      exact Bool.false_ne_true
    rw [journal_leave, List.filter_append, hnone, List.nil_append, hcharge.shutdowns]
  cases h with
  | quit | dismissed | callPanicked | fetchPanicked | handedInLast | undelivered =>
      exact hleave _ _ _ ⟨rfl, rfl, rfl⟩
  | took | called | fetched | fetchFailed | fetchDropped | handedIn => exact ⟨rfl, rfl, rfl⟩

namespace Host

variable {h h' : Host} {op : Operation}

/-- A run that is launched is a new one. -/
theorem launched_of_start_launched (hstart : h.start = .launched h') {q : Pipeline}
    (hera : q.intake.era = h'.pipeline.intake.era)
    (hchange : h.pipeline.Change q ∨ h.pipeline.Launched q) : h.pipeline.Launched q := by
  refine hchange.resolve_left fun hchange => ?_
  obtain ⟨-, rfl⟩ := eq_of_start_launched hstart
  have hsame : h.pipeline.intake.era + 1 = h.pipeline.intake.era := hera.symm.trans hchange.era
  omega

/-- What leaves the operation alone launches no run. -/
theorem change_of_turn {q : Pipeline} (hintake : h.pipeline.intake.Turn q.intake)
    (hchange : h.pipeline.Change q ∨ h.pipeline.Launched q) : h.pipeline.Change q := by
  refine hchange.resolve_right fun hlaunched => ?_
  have hera := hlaunched.era
  rw [hintake.era] at hera
  omega

/-! ### The host by itself -/

theorem keeps_wakeReporter (h : Host) : h.Keeps h.wakeReporter := by
  rw [wakeReporter]
  split <;> constructor <;> rfl

/-- Coordinator, workers or producers go on. -/
theorem step_advanced {event : Event} {q : Pipeline} (hstep : h.pipeline.advance event = some q) :
    h.Step { h with pipeline := q } := by
  cases advances_of_advance hstep with
  | coordinated hstep =>
      refine .of_pipeline hstep.sameCharge (fun hfinished => ?_) hstep.turn
      have hrunning := hstep.running
      rw [hfinished.ended] at hrunning
      cases hrunning
  | worked hstep =>
      refine .of_pipeline hstep.sameCharge (fun hfinished => ?_) (hstep.intake ▸ .refl _)
      have hstaffed := hstep.isGone_eq_false
      rw [hfinished.gone] at hstaffed
      cases hstaffed
  | produced hfind hproduced =>
      exact .of_pipeline ⟨rfl, rfl, rfl⟩ (fun _ => .of_eq rfl rfl)
        (.produced (List.mem_of_find?_eq_some hfind) hproduced)

/-- The operation goes on. -/
theorem Operates.step (hoperates : h.Operates op h') (hop : h.operation = some op) :
    h.Step h' := by
  cases hoperates with
  | openRefused hphase hstart => exact .openRefused hop hphase hstart
  | openBroken hphase hstart => exact .openBroken hop hphase hstart
  | openLaunched hphase hstart => exact .openLaunched hop hphase hstart
  | tornDown hphase => exact .tornDown hop hphase
  | coordinatorJoined hphase hending => exact .coordinatorJoined hop hphase hending
  | workersJoined hphase hgone => exact .workersJoined hop hphase hgone
  | reporterJoined hphase hgone => exact .reporterJoined hop hphase hgone
  | shutdownCalled hphase hlock => exact .shutdownCalled hop hphase hlock
  | concluded hphase hstep => exact .concluded hop hphase hstep
  | returned hphase => exact .returned hop hphase

/-- Something happens in a host. -/
theorem step_advance {e : HostEvent} (hstep : h.advance e = some h') : h.Step h' := by
  cases happens_of_advance hstep with
  | inside _ hinside => exact step_advanced hinside
  | reporterQuit => exact .of_keeps (by constructor <;> rfl) rfl
  | operated hop hoperates => exact hoperates.step hop

end Host

namespace Scenario.HostBench

open Host

variable {b : HostBench}

/-- Somebody who has an end of the intake does something to its queue, but not to the line. -/
theorem turn_onQueue (i : Intake) (era : Nat) {f : Queue Reference → Queue Reference}
    (hline : (f i.queue).line = i.queue.line)
    (hclosed : (f i.queue).closed = i.queue.closed) (hplaces : i.queue.Confined (f i.queue)) :
    i.Turn (if era = i.era then { i with queue := f i.queue } else i) := by
  split
  · exact .queued hline (fun h => hclosed.trans h) hplaces
  · exact .refl i

/-- All ends are given up. -/
theorem exists_queue_dropAll (ends : List Nat) (b : HostBench) :
    ∃ queue : Queue Reference, queue.line = b.host.pipeline.intake.queue.line ∧
      queue.closed = b.host.pipeline.intake.queue.closed ∧
      b.host.pipeline.intake.queue.Confined queue ∧
      (ends.foldl (fun b era => b.onQueue era Queue.dropSender) b).host =
        { b.host with pipeline :=
          { b.host.pipeline with intake := { b.host.pipeline.intake with queue } } } := by
  induction ends generalizing b with
  | nil => exact ⟨_, rfl, rfl, .refl _, rfl⟩
  | cons era ends ih =>
      obtain ⟨queue, hline, hclosed, hplaces, heq⟩ := ih (b.onQueue era Queue.dropSender)
      refine ⟨queue, ?_, ?_, .trans ?_ hplaces, heq.trans ?_⟩
      · rw [hline, onQueue, onIntake, onPipeline]
        dsimp only
        split <;> rfl
      · rw [hclosed, onQueue, onIntake, onPipeline]
        dsimp only
        split <;> rfl
      · rw [onQueue, onIntake, onPipeline]
        dsimp only
        split <;> exact .of_eq rfl rfl
      · rw [onQueue, onIntake, onPipeline]
        dsimp only
        split <;> rfl

/-- References that are offered do not stand in line. -/
theorem line_offerAll {α : Type} (q : Queue α) (items : List α) :
    (q.offerAll items).2.line = q.line := by
  induction items generalizing q with
  | nil => rfl
  | cons a rest ih =>
      refine (ih (q.offer a).2).trans ?_
      rw [Queue.offer]
      split
      · rfl
      · split <;> rfl

theorem turn_offerAll (i : Intake) (era : Nat) (refs : List Reference) :
    i.Turn (offerAll i era refs).2 := by
  rw [offerAll]
  split
  · exact .queued (line_offerAll _ _)
      (fun hclosed => (exists_items_offerAll i.queue refs).2.2.trans hclosed) (.offerAll _ refs)
  · exact .refl i

/-- What the caller does is a step of the host. -/
theorem Acts.step {number : Nat} {action : Action} {b' : HostBench}
    (hacts : b.Acts number action b') : b.host.Step b'.host := by
  cases hacts with
  | nothing | unfed => exact .refl _
  | launched hfree hstart => exact .launched hfree hstart
  | broken hfree hstart => exact .broken hfree hstart
  | offered hsenders refs =>
      exact .of_pipeline ⟨rfl, rfl, rfl⟩ (fun _ => .of_eq rfl rfl) (turn_offerAll _ _ refs)
  | @submitted era ends hsenders r =>
      refine .of_pipeline ⟨rfl, rfl, rfl⟩ (fun _ => .of_eq rfl rfl) ?_
      have htask : (Task.submit r false).isWaiting = false := rfl
      dsimp only [onQueue, onIntake, onPipeline]
      split
      · exact @Intake.Turn.started _ (Queue.addSender _) rfl id (.of_eq rfl rfl) number era _ htask
      · exact .started rfl id (.refl _) number era htask
  | @forwarded era ends hsenders supply =>
      have htask : (Task.forward b.root supply none 0).isWaiting = false := rfl
      exact .of_pipeline ⟨rfl, rfl, rfl⟩ (fun _ => .of_eq rfl rfl)
        (.started rfl id (.refl _) number era htask)
  | cloned | dropped =>
      exact .of_pipeline ⟨rfl, rfl, rfl⟩ (fun _ => .of_eq rfl rfl)
        (turn_onQueue _ _ rfl rfl (.of_eq rfl rfl))
  | droppedAll =>
      obtain ⟨queue, hline, hclosed, hplaces, heq⟩ := exists_queue_dropAll b.senders b
      dsimp only
      rw [heq]
      exact .of_pipeline ⟨rfl, rfl, rfl⟩ (fun _ => .of_eq rfl rfl)
        (.queued hline (fun h => hclosed.trans h) hplaces)
  | idled hfree hidle => exact .idled hfree hidle number
  | stopped hfree hrunning => exact .stopped hfree hrunning number
  | drained hfree _ hrunning => exact .drained hfree hrunning number
  | opened hfree hkind supply => exact .opening hfree number supply hkind
  | supplied hop hphase supply' => exact .supplied hop hphase supply'
  | fed label f =>
      exact .of_pipeline ⟨rfl, rfl, rfl⟩ (fun _ => .of_eq rfl rfl) (.supplied label f)
  | interrupted hop hphase => exact .interrupted hop hphase
  | cancelled =>
      exact .of_pipeline ⟨rfl, rfl, rfl⟩ (fun _ => ⟨rfl, Tokens.extends_cancel _ _⟩) (.refl _)
  | rootReplaced =>
      exact .within (by constructor <;> rfl) (fun _ => ⟨rfl, Tokens.extends_fresh _⟩) (.refl _)
        ⟨rfl, rfl, rfl⟩
  | fetchReleased =>
      rw [onPipeline, Pipeline.releaseFetch]
      split <;> exact .of_pipeline ⟨rfl, rfl, rfl⟩ (fun _ => .of_eq rfl rfl) (.refl _)
  | hookReleased =>
      rw [onPipeline, Pipeline.releaseHook_eq]
      exact .of_pipeline ⟨rfl, rfl, rfl⟩ (fun _ => .of_eq rfl rfl) (.refl _)
  | shutdownReleased hop hphase key mode => exact .shutdownAnswered hop hphase mode
  | guarded | unguarded =>
      exact .of_pipeline ⟨rfl, rfl, rfl⟩ (fun _ => .of_eq rfl rfl) (.refl _)

/-- **Every move is a step of the host.** -/
theorem step_move (b : HostBench) (m : Move) : b.host.Step (b.move m).host := by
  have hbecomes := b.becomes_move m
  generalize b.move m = b' at hbecomes ⊢
  cases hbecomes with
  | stays => exact .refl _
  | acts hacts => exact hacts.step
  | advances hstep => exact step_advance hstep
  | wakes => exact .of_keeps b.host.keeps_wakeReporter (pipeline_wakeReporter _)
  | elapses => exact .of_keeps (by constructor <;> rfl) rfl
  | reports =>
      exact .within (by constructor <;> rfl) (fun _ => .of_eq rfl rfl) .collected ⟨rfl, rfl, rfl⟩

end Scenario.HostBench

namespace Observed

open Scenario (HostBench)

variable {α : Type} {w : Observer α}

/-- Whoever can be reached goes on to somebody who can. -/
theorem Reachable.move {o : Observed α} (h : o.Reachable w) (m : HostBench.Move) :
    (o.move w m).Reachable w := by
  obtain ⟨kind, settings, protocol, ownToken, moves, rfl⟩ := h
  refine ⟨kind, settings, protocol, ownToken, moves ++ [m], ?_⟩
  rw [run, run, List.foldl_append]
  rfl

theorem Reachable.run {o : Observed α} (h : o.Reachable w) (moves : List HostBench.Move) :
    (o.run w moves).Reachable w := by
  induction moves generalizing o with
  | nil => exact h
  | cons m moves ih => exact ih (h.move m)

/-- **What holds of a new host and is kept by every move holds along every course of moves.** -/
theorem Reachable.induct {J : Observed α → Prop}
    (hstart : ∀ kind settings protocol ownToken, J (start w kind settings protocol ownToken))
    (hmove : ∀ o m, o.Reachable w → J o → J (o.move w m)) {o : Observed α}
    (h : o.Reachable w) : J o := by
  obtain ⟨kind, settings, protocol, ownToken, moves, rfl⟩ := h
  have hrun : ∀ (moves : List HostBench.Move) (o : Observed α), o.Reachable w → J o →
      J (o.run w moves) := by
    intro moves
    induction moves with
    | nil => exact fun o _ ho => ho
    | cons m moves ih =>
        exact fun o hreachable ho => ih _ (hreachable.move m) (hmove o m hreachable ho)
  exact hrun moves _ ⟨kind, settings, protocol, ownToken, [], rfl⟩
    (hstart kind settings protocol ownToken)

end Observed

/-- The same without notes. -/
theorem Chronicle.Reachable.induct {J : Chronicle → Prop}
    (hstart : ∀ kind settings protocol ownToken, J (start kind settings protocol ownToken))
    (hmove : ∀ c m, c.Reachable → J c → J (c.move m)) {c : Chronicle} (h : c.Reachable) : J c := by
  obtain ⟨kind, settings, protocol, ownToken, moves, rfl⟩ := h
  have := Observed.Reachable.induct (w := Observer.idle) (J := fun o => J o.chronicle) hstart
    (fun o m hreachable => hmove o.chronicle m hreachable.chronicle)
    ⟨kind, settings, protocol, ownToken, moves, rfl⟩
  rwa [Observed.chronicle_run] at this

end SharedFetch
