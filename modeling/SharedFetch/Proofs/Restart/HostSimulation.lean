import SharedFetch.Proofs.Host.Stop
import SharedFetch.Proofs.Host.Work
import SharedFetch.Proofs.Restart.PipelineSimulation
import SharedFetch.Proofs.Settling
import SharedFetch.Scenario.Host

/-!
# Hosts after a past

Two callers take the same steps, one with a new host and the other with a host that has a past and
no run. Until the first run is launched the hosts are *poised*: they agree in what goes on from run
to run, and whatever earlier runs have left in queues, waiters or latch is not looked at. From the
first launch on, one is the other *later*. So both answer and report the same, but for names, times
and what the past has counted.

## Main results

* `Host.Later.advance`, `Host.Poised.advance`: what can happen in a new host can happen later.
* `Host.rel_settle`: both settle in the same way.
-/

namespace SharedFetch

open Pipeline

/-- The later name of an event of a host. -/
def HostEvent.later (past : Past) : HostEvent → HostEvent
  | .inside e => .inside (e.later past)
  | .quitReporter => .quitReporter
  | .operate => .operate

/-- Whether a producer of the past would go on. -/
def HostEvent.isPast (past : Past) : HostEvent → Bool
  | .inside e => e.isPast past
  | _ => false

/-- The operation with another stream for the run that it is to launch, if it has the given name. -/
def Operation.supplied (label : Nat) (f : Supply → Supply) (op : Operation) : Operation :=
  match op.phase with
  | .opening supply => if op.label = label then { op with phase := .opening (f supply) } else op
  | _ => op

/-- In a pipeline that is through only producers go on. -/
theorem Pipeline.Finished.exists_of_advance {p q : Pipeline} {event : Event} (hfinished : p.Finished)
    (h : p.advance event = some q) :
    ∃ id intake, event = .produce id ∧ p.intake.advance p.tokens id = some intake ∧
      q = { p with intake } := by
  cases advances_of_advance h with
  | coordinated hstep => cases hfinished.ended.symm.trans hstep.running
  | worked hstep => cases hfinished.gone.symm.trans hstep.isGone_eq_false
  | produced hfind hstep =>
      exact ⟨_, _, rfl, Option.bind_eq_some_iff.mpr ⟨_, hfind, hstep⟩, rfl⟩

namespace Host

variable {past : Past}

/-! ### From the first launch on -/

/-- A host as it is later. -/
inductive Later (past : Past) (h : Host) : Host → Prop where
  | mk {q : Pipeline} {reports : List LogLine} (hpipeline : h.pipeline.Later past q)
      (hreports : List.Forall₂ (LogLine.Later past) h.reports reports) :
      Later past h
        { h with
          pipeline := q
          root := past.token h.root
          reporting := h.reporting.later past
          clock := h.clock + past.clock
          reports }

/-- What a start comes to later. -/
inductive Start.Later (past : Past) : Start → Start → Prop where
  | launched {h k : Host} (hlater : h.Later past k) : Later past (.launched h) (.launched k)
  | refused (fault : Fault) : Later past (.refused fault) (.refused fault)
  | broken {h k : Host} (hlater : h.Later past k) (cause : Misuse) :
      Later past (.broken h cause) (.broken k cause)

namespace Later

variable {h k : Host}

/-- The pipeline is the same, later. -/
theorem pipeline (hlater : h.Later past k) : h.pipeline.Later past k.pipeline := by
  cases hlater with
  | mk hpipeline hreports => exact hpipeline

/-- The kind is the same. -/
theorem kind (hlater : h.Later past k) : k.kind = h.kind := by
  cases hlater; rfl

/-- The root has its later name. -/
theorem root (hlater : h.Later past k) : k.root = past.token h.root := by
  cases hlater; rfl

/-- The operation is the same. -/
theorem operation (hlater : h.Later past k) : k.operation = h.operation := by
  cases hlater; rfl

/-- Whether the host takes on an operation does not depend on the past. -/
theorem isBusy (hlater : h.Later past k) : k.isBusy = h.isBusy := by
  cases hlater; rfl

/-- The results that wait to be collected are the same. -/
theorem results (hlater : h.Later past k) : k.results = h.results := by
  cases hlater; rfl

/-- Line by line, what was reported is the same, later. -/
theorem reports (hlater : h.Later past k) :
    List.Forall₂ (LogLine.Later past) h.reports k.reports := by
  cases hlater with
  | mk hpipeline hreports => exact hreports

/-- Part by part, a host is another one later. -/
theorem of_parts (hkind : k.kind = h.kind) (hsettings : k.settings = h.settings)
    (hpipeline : h.pipeline.Later past k.pipeline) (hroot : k.root = past.token h.root)
    (hrunning : k.running = h.running) (hhandles : k.handles = h.handles)
    (hstarted : k.started = h.started) (hoperation : k.operation = h.operation)
    (hlost : k.lost = h.lost) (hresults : k.results = h.results)
    (hreporting : k.reporting = h.reporting.later past) (hclock : k.clock = h.clock + past.clock)
    (hreports : List.Forall₂ (LogLine.Later past) h.reports k.reports) : h.Later past k := by
  obtain ⟨kind, settings, pipeline, root, running, handles, started, operation, lost, results,
    reporting, clock, reports⟩ := k
  dsimp only at *
  subst hkind hsettings hroot hrunning hhandles hstarted hoperation hlost hresults hreporting hclock
  exact ⟨hpipeline, hreports⟩

/-- There is a run later if and only if there is one. -/
theorem running (hlater : h.Later past k) : k.running = h.running := by
  cases hlater; rfl

/-- The handles are the same. -/
theorem handles (hlater : h.Later past k) : k.handles = h.handles := by
  cases hlater; rfl

/-- The pipelines change. -/
theorem withPipeline (hlater : h.Later past k) {p q : Pipeline} (hpipeline : p.Later past q) :
    { h with pipeline := p }.Later past { k with pipeline := q } := by
  cases hlater with
  | mk _ hreports => exact ⟨hpipeline, hreports⟩

/-- The intakes change. -/
theorem withIntake (hlater : h.Later past k) {i j : Intake} (hintake : i.Later past j) :
    { h with pipeline := { h.pipeline with intake := i } }.Later past
      { k with pipeline := { k.pipeline with intake := j } } :=
  hlater.withPipeline { hlater.pipeline with intake := hintake }

/-- The handles change alike. -/
theorem withHandles (hlater : h.Later past k) (f : Handles → Handles) :
    { h with handles := f h.handles }.Later past { k with handles := f k.handles } := by
  cases hlater with
  | mk hpipeline hreports => exact ⟨hpipeline, hreports⟩

/-! ### Operations -/

/-- An operation turns to the same phase. -/
theorem turnTo (hlater : h.Later past k) (op : Operation) (phase : OperationPhase) :
    (h.turnTo op phase).Later past (k.turnTo op phase) := by
  cases hlater with
  | mk hpipeline hreports => exact ⟨hpipeline, hreports⟩

/-- A token is cancelled, under its later name. -/
theorem cancel (hlater : h.Later past k) (token : Token) :
    (h.cancel token).Later past (k.cancel (past.token token)) :=
  hlater.withPipeline { hlater.pipeline with tokens := hlater.pipeline.tokens.cancel token }

/-- A token of the past is cancelled, and nobody notices. -/
theorem cancel_past (hlater : h.Later past k) {token : Token} (hmade : token < past.tokens)
    (hroots : token ∉ past.roots) : h.Later past (k.cancel token) :=
  hlater.withPipeline
    { hlater.pipeline with tokens := hlater.pipeline.tokens.cancel_past hmade hroots }

/-- The host takes a new root. -/
theorem renewRoot (hlater : h.Later past k) : h.renewRoot.Later past k.renewRoot := by
  cases hlater with
  | @mk q reports hpipeline hreports =>
      rw [Host.renewRoot, Host.renewRoot]
      dsimp only [Tokens.fresh]
      rw [hpipeline.tokens.length]
      exact ⟨{ hpipeline with tokens := hpipeline.tokens.append none }, hreports⟩

/-- The producers that work for the host are dismissed. -/
theorem dismissProducers (hlater : h.Later past k) :
    h.dismissProducers.Later past k.dismissProducers :=
  hlater.withIntake hlater.pipeline.intake.dismiss

/-- An operation comes to the same end. -/
theorem report (hlater : h.Later past k) (label : Nat) (ending : Ending) :
    (h.report label ending).Later past (k.report label ending) := by
  cases hlater with
  | mk hpipeline hreports => exact ⟨hpipeline, hreports⟩

/-- A runner is no longer started. -/
theorem unstarted (hlater : h.Later past k) :
    { h with started := false }.Later past { k with started := false } := by
  cases hlater with
  | mk hpipeline hreports => exact ⟨hpipeline, hreports⟩

/-- A run is concluded, and the root renewed unless the host is lost. -/
theorem conclude (hlater : h.Later past k) (label : Nat) (fault : Option Fault) :
    (h.conclude label fault).Later past (k.conclude label fault) := by
  have hreported := hlater.dismissProducers.report label (.ofFault fault)
  rw [Host.conclude, Host.conclude]
  generalize h.dismissProducers.report label (.ofFault fault) = x,
    k.dismissProducers.report label (.ofFault fault) = y at hreported ⊢
  have hrenewed := hreported.unstarted.renewRoot
  cases hreported with
  | mk hpipeline hreports =>
      dsimp only
      split
      · exact ⟨hpipeline, hreports⟩
      · exact hrenewed

/-- The token of the run is cancelled. -/
theorem cancelRun (hlater : h.Later past k) :
    (h.cancel h.pipeline.latch.run).Later past (k.cancel k.pipeline.latch.run) := by
  rw [hlater.pipeline.latch]
  exact hlater.cancel _

/-- A run is torn down. -/
theorem tearDown (hlater : h.Later past k) (op : Operation) :
    (h.tearDown op).Later past (k.tearDown op) := by
  have hroot : (h.cancel h.root).Later past (k.cancel k.root) := by
    rw [hlater.root]
    exact hlater.cancel _
  let forget (handles : Handles) : Handles := { handles with coordinator := false }
  rw [Host.tearDown, Host.tearDown, hlater.kind]
  split
  · exact (hlater.withHandles forget).cancelRun.turnTo _ _
  · exact (hroot.withHandles forget).cancelRun.turnTo _ _

/-- A stop begins. -/
theorem beginStop (hlater : h.Later past k) (label : Nat) :
    (h.beginStop label).Later past (k.beginStop label) := by
  have htorn := hlater.tearDown { label, phase := .joiningCoordinator }
  cases hlater with
  | mk hpipeline hreports =>
      rw [Host.beginStop, Host.beginStop]
      dsimp only
      split
      · exact htorn
      · exact ⟨hpipeline, hreports⟩

/-- A drain begins, or a stop where there is nothing to drain. -/
theorem beginDrain (hlater : h.Later past k) (label : Nat) :
    (h.beginDrain label).Later past (k.beginDrain label) := by
  have hstopping := hlater.beginStop label
  cases hlater with
  | mk hpipeline hreports =>
      rw [Host.beginDrain, Host.beginDrain]
      dsimp only
      split
      · exact ⟨hpipeline, hreports⟩
      · exact hstopping

/-- An operation begins. -/
theorem begun (hlater : h.Later past k) (op : Operation) :
    { h with operation := some op }.Later past { k with operation := some op } :=
  hlater.turnTo op op.phase

/-- The reporter wakes up, and reports the same lines, later. -/
theorem wakeReporter (hlater : h.Later past k) : h.wakeReporter.Later past k.wakeReporter := by
  cases hlater with
  | @mk q reports hpipeline hreports =>
      rw [Host.wakeReporter, Host.wakeReporter, hpipeline.isCancelled]
      split
      · exact ⟨hpipeline, hreports⟩
      · obtain ⟨hreporting, hlines⟩ :=
          Reporting.wake_later past h.reporting h.clock h.pipeline.counters q.counters.inFlight
        rw [← hpipeline.counters] at hreporting hlines
        dsimp only
        rw [hreporting]
        exact ⟨hpipeline, List.rel_append hreports hlines⟩

/-- Time passes, and the reports that fall due are the same, later. -/
theorem elapse (hlater : h.Later past k) (ms : Nat) : (h.elapse ms).Later past (k.elapse ms) := by
  cases hlater with
  | @mk q reports hpipeline hreports =>
      obtain ⟨hreporting, hlines⟩ := Reporting.elapse_later past h.reporting (h.clock + ms)
        h.pipeline.counters q.counters.inFlight
      rw [← hpipeline.counters] at hreporting hlines
      rw [Host.elapse, Host.elapse]
      dsimp only
      rw [Nat.add_right_comm h.clock past.clock ms, hreporting]
      exact ⟨hpipeline, List.rel_append hreports hlines⟩

/-! ### Runs -/

/-- A new life begins, with a token below the root and a latch that is unset. -/
theorem beginLife (hlater : h.Later past k) : h.beginLife.Later past k.beginLife := by
  cases hlater with
  | @mk q reports hpipeline hreports =>
      rw [Host.beginLife, Host.beginLife]
      dsimp only [Tokens.child]
      rw [hpipeline.tokens.length]
      exact ⟨{ hpipeline with
        tokens := hpipeline.tokens.append (some h.root)
        latch := rfl }, hreports⟩

/-- The run that has begun is launched. -/
theorem launch (hlater : h.Later past k) :
    { h with
      pipeline := h.freshPipeline
      running := true
      handles := ⟨true, true, true⟩
      started := h.kind = HostKind.runner }.Later past
      { k with
        pipeline := k.freshPipeline
        running := true
        handles := ⟨true, true, true⟩
        started := k.kind = HostKind.runner } := by
  cases hlater with
  | @mk q reports hpipeline hreports =>
      refine ⟨?_, hreports⟩
      exact { (hpipeline.count (.poolSize (UInt64.ofNat h.poolSize))) with
        intake := hpipeline.intake.relaunched { capacity := h.settings.intakeCapacity }
        dispatch := rfl
        completions := rfl
        coordinator := rfl
        pool := rfl }

/-- **A start comes to the same**, whether it is refused, breaks or launches a run. -/
theorem start (hlater : h.Later past k) : h.start.Later past k.start := by
  have hbegun := hlater.beginLife
  cases hlater with
  | @mk q reports hpipeline hreports =>
      rw [Host.start, Host.start]
      dsimp only
      split
      · exact .refused _
      · split
        · exact .refused _
        · rw [show ({ h with
              pipeline := q
              root := past.token h.root
              reporting := h.reporting.later past
              clock := h.clock + past.clock
              reports } : Host).beginLife.settings = h.beginLife.settings from rfl]
          split
          · exact .broken hbegun _
          · exact .launched hbegun.launch

/-- A run is watched over, with the references of a stream. -/
theorem watched (hlater : h.Later past k) (op : Operation) (supply : Supply) :
    ({ h with pipeline :=
        { h.pipeline with intake := h.pipeline.intake.start op.label h.pipeline.intake.era
                                      (.forward h.root supply none 0) true } }.turnTo op
      (.watching false)).Later past
      ({ k with pipeline :=
          { k.pipeline with intake := k.pipeline.intake.start op.label k.pipeline.intake.era
                                        (.forward k.root supply none 0) true } }.turnTo op
        (.watching false)) := by
  refine (hlater.withIntake ?_).turnTo _ _
  rw [hlater.pipeline.intake.era, hlater.root]
  exact hlater.pipeline.intake.start op.label _ (.forward h.root supply none 0) true

/-- The run that a runner is to watch over is launched, unless the start is refused. -/
theorem openRun (hlater : h.Later past k) (op : Operation) (supply : Supply) :
    (h.openRun op supply).Later past (k.openRun op supply) := by
  have hstart := hlater.start
  rw [Host.openRun, Host.openRun]
  generalize h.start = x, k.start = y at hstart ⊢
  cases hstart with
  | refused fault => exact hlater.turnTo _ _
  | broken hbroken cause => exact hbroken.wakeReporter.turnTo _ _
  | launched hlaunched => exact hlaunched.wakeReporter.watched op supply

/-- The hook for the end of a run returns to the same, or is held. -/
theorem finishShutdown? (hlater : h.Later past k) (op : Operation) (fault : Option Fault)
    (mode : HookMode) :
    Option.Rel (Later past) (h.finishShutdown? op fault mode) (k.finishShutdown? op fault mode) := by
  have hfreed := hlater.withPipeline hlater.pipeline.freeLock
  cases mode with
  | hold => exact .none
  | succeed => exact .some (hfreed.conclude _ _)
  | fail stage cause => exact .some (hfreed.conclude _ _)
  | panic payload => exact .some (hfreed.dismissProducers.report _ _)

/-- The hook for the end of a run is called. -/
theorem callShutdown (hlater : h.Later past k) (op : Operation) (fault : Option Fault) :
    (h.callShutdown op fault).Later past (k.callShutdown op fault) := by
  have hpipeline := hlater.pipeline
  have hnoted : ∀ {p q : Pipeline}, p.Later past q →
      { p with protocol := p.protocol.noteShutdown }.Later past
        { q with protocol := q.protocol.noteShutdown } :=
    fun h => { h with protocol := congrArg Protocol.noteShutdown h.protocol }
  rw [Host.callShutdown, Host.callShutdown, hpipeline.protocol]
  refine (hlater.withPipeline (hnoted ?_)).turnTo _ _
  split
  · exact hpipeline
  · exact hpipeline.log rfl

/-- The host gives its workers up. -/
theorem dropHandles (hlater : h.Later past k) :
    { h with pipeline :=
        { h.pipeline with pool := { h.pipeline.pool with handles := 0 } }.count (.poolSize 0) }.Later
      past
      { k with pipeline :=
        { k.pipeline with pool := { k.pipeline.pool with handles := 0 } }.count (.poolSize 0) } :=
  hlater.withPipeline ((hlater.pipeline.withPool fun pool => { pool with handles := 0 }).count _)

/-- The next thing that an operation does it does later, too. -/
theorem operateOn? (hlater : h.Later past k) (op : Operation) :
    Option.Rel (Later past) (h.operateOn? op) (k.operateOn? op) := by
  have hpipeline := hlater.pipeline
  rw [Host.operateOn?, Host.operateOn?]
  dsimp only
  cases op.phase with
  | opening supply => exact .some (hlater.openRun op supply)
  | draining =>
      dsimp only
      rw [hpipeline.isOver]
      split
      · exact .some (hlater.tearDown op)
      · exact .none
  | watching interrupted =>
      dsimp only
      rw [hpipeline.isOver, hlater.root, hpipeline.tokens.isCancelled]
      split
      · exact .some (hlater.tearDown op)
      · exact .none
  | joiningCoordinator =>
      dsimp only
      rw [hpipeline.ending?]
      cases h.pipeline.ending? with
      | none => exact .none
      | some ending => exact .some (hlater.dropHandles.turnTo _ _)
  | joiningWorkers fault =>
      have herror : k.pipeline.latch.error? = h.pipeline.latch.error? := by
        rw [hpipeline.latch]
        rfl
      dsimp only
      rw [hpipeline.pool, herror]
      split
      · exact .some ((hlater.withHandles fun handles => { handles with life := false }).turnTo _ _)
      · exact .none
  | joiningReporter fault =>
      cases hlater with
      | mk _ hreports =>
          dsimp only
          rw [Reporting.isAlive_later]
          split
          · exact .none
          · refine .some (turnTo ?_ _ _)
            exact ⟨hpipeline.askLock _ _, hreports⟩
  | awaitingLock fault =>
      dsimp only
      rw [Pipeline.withLock?, Pipeline.withLock?, hpipeline.lock]
      cases h.pipeline.lock.grant? .host with
      | none => exact .none
      | some lock =>
          have hgranted : { h.pipeline with lock }.Later past { k.pipeline with lock } :=
            { hpipeline with lock := rfl }
          exact .some ((hlater.withPipeline hgranted).callShutdown op fault)
  | inShutdown mode fault => exact hlater.finishShutdown? op fault mode
  | returning ending => exact .some (hlater.report _ _)

/-! ### Steps -/

/-- A producer may go on under its later name if and only if it may. -/
theorem mayProduce (hlater : h.Later past k) (id : Nat) :
    k.mayProduce (past.producer id) = h.mayProduce id := by
  have hname : ∀ q : Producer, ((q.later past).id != past.producer id) = (q.id != id) := by
    intro q
    exact congrArg (!·) past.producer_injective.beq_eq
  have hintake := hlater.pipeline.intake
  rw [Host.mayProduce, Host.mayProduce, hlater.operation]
  generalize k.pipeline.intake = j at hintake ⊢
  cases hintake with
  | @mk ps hlaunched hpast =>
      rw [Intake.amid, List.all_append, Intake.later, List.all_map]
      rw [List.all_eq_true.mpr fun q hq => by
        rw [bne_iff_ne.mpr (hpast.id_ne id q hq), Bool.true_or, Bool.true_or], Bool.true_and]
      simp only [Function.comp_def, hname]
      rfl

/-- **What can happen in a host can happen later, and comes to the same.** -/
theorem advance (hlater : h.Later past k) (e : HostEvent) :
    Option.Rel (Later past) (h.advance e) (k.advance (e.later past)) := by
  cases e with
  | inside event =>
      have hinside : Option.Rel (Later past)
          ((h.pipeline.advance event).map fun pipeline => { h with pipeline })
          ((k.pipeline.advance (event.later past)).map fun pipeline => { k with pipeline }) := by
        have hadvance := hlater.pipeline.advance event
        generalize h.pipeline.advance event = x, k.pipeline.advance (event.later past) = y
          at hadvance ⊢
        cases hadvance with
        | none => exact .none
        | some hnext => exact .some (hlater.withPipeline hnext)
      cases event with
      | produce id =>
          simp only [Host.advance, HostEvent.later, Event.later, hlater.mayProduce] at hinside ⊢
          split
          · exact hinside
          · exact .none
      | _ => exact hinside
  | quitReporter =>
      cases hlater with
      | mk hpipeline hreports =>
          rw [HostEvent.later, Host.advance, Host.advance]
          dsimp only
          rw [hpipeline.isCancelled, Reporting.isAlive_later, Reporting.quit_later]
          split
          · have hfarewell : List.Forall₂ (LogLine.Later past) h.reporting.quit.1 h.reporting.quit.1 :=
              List.forall₂_same.mpr fun line _ => .same line
            exact .some ⟨hpipeline, List.rel_append hreports hfarewell⟩
          · exact .none
  | operate =>
      rw [HostEvent.later, Host.advance, Host.advance, hlater.operation]
      cases h.operation with
      | none => exact .none
      | some op => exact hlater.operateOn? op

/-- What a producer of the past does is not seen. -/
theorem advance_past {l : Host} (hlater : h.Later past k) {e : HostEvent}
    (hpast : e.isPast past = true) (hstep : k.advance e = some l) : h.Later past l := by
  cases happens_of_advance hstep with
  | inside _ hinside => exact hlater.withPipeline (hlater.pipeline.advance_past hpast hinside)
  | reporterQuit | operated => cases hpast

/-- The same is tried, under later names, and what producers of the past could do besides. -/
theorem candidates (hlater : h.Later past k) :
    (k.candidates.filter fun e => !e.isPast past) = h.candidates.map (HostEvent.later past) := by
  have hinside : ((k.pipeline.candidates.map HostEvent.inside).filter fun e => !e.isPast past) =
      (h.pipeline.candidates.map HostEvent.inside).map (HostEvent.later past) := by
    rw [List.filter_map, List.map_map]
    exact (congrArg (List.map HostEvent.inside) hlater.pipeline.candidates).trans
      (by rw [List.map_map]; rfl)
  rw [Host.candidates, Host.candidates, List.filter_append, List.map_append, hinside]
  rfl

/-! ### From outside -/

/-- The stream of an operation is open later if and only if it is. -/
theorem isFed (hlater : h.Later past k) (label : Nat) : k.isFed label = h.isFed label := by
  rw [Host.isFed, Host.isFed, hlater.operation, hlater.pipeline.intake.isFed]

/-- The stream of an operation changes. -/
theorem onSupply (hlater : h.Later past k) (label : Nat) (f : Supply → Supply) :
    (h.onSupply label f).Later past (k.onSupply label f) := by
  have hsame := hlater
  have hsupplied := hlater.withIntake (hlater.pipeline.intake.onSupply label f)
  cases hlater with
  | mk hpipeline hreports =>
      rw [Host.onSupply, Host.onSupply]
      dsimp only
      split
      · split
        · split
          · exact hsame.turnTo _ _
          · exact hsame
        · exact hsupplied
      · exact hsame

/-- A runner that watches over a run is interrupted. -/
theorem interrupt (hlater : h.Later past k) : h.interrupt.Later past k.interrupt := by
  rw [Host.interrupt, Host.interrupt, hlater.operation]
  split
  · split
    · exact hlater.turnTo _ _
    · exact hlater
  · exact hlater

/-- The hook for the end of a run is held later if and only if it is. -/
theorem holdsShutdown (hlater : h.Later past k) : k.holdsShutdown = h.holdsShutdown := by
  rw [Host.holdsShutdown, Host.holdsShutdown, hlater.operation]

/-- The hook for the end of a run is given its answer. -/
theorem releaseShutdown (hlater : h.Later past k) (mode : HookMode) :
    (h.releaseShutdown mode).Later past (k.releaseShutdown mode) := by
  rw [Host.releaseShutdown, Host.releaseShutdown, hlater.operation]
  split
  · split
    · exact hlater.turnTo _ _
    · exact hlater
  · exact hlater

end Later

/-! ### Until the first launch -/

/-- A host that has no run, and nothing of one that could still go on, but for producers that do not
work for it. -/
structure Bare (h : Host) : Prop where
  queues : checkQueues h.settings = .ok ()
  running : h.running = false
  done : h.handles.done = false
  started : h.started = false
  reporting : h.reporting.isAlive = false
  phase : ∀ op, h.operation = some op →
    (∃ supply, op.phase = .opening supply) ∨ ∃ ending, op.phase = .returning ending
  finished : h.pipeline.Finished
  handles : h.pipeline.pool.handles = 0
  hosted : ∀ q ∈ h.pipeline.intake.producers, q.hosted = false

namespace Bare

variable {h : Host}

/-- Only producers go on by themselves. -/
theorem exists_of_advance_inside (hbare : h.Bare) {event : Event} {l : Host}
    (hstep : h.advance (.inside event) = some l) :
    ∃ id intake, event = .produce id ∧
      h.pipeline.intake.advance h.pipeline.tokens id = some intake ∧
      l = { h with pipeline := { h.pipeline with intake } } := by
  cases happens_of_advance hstep with
  | inside _ hinside =>
      obtain ⟨id, intake, rfl, hintake, rfl⟩ := hbare.finished.exists_of_advance hinside
      exact ⟨id, intake, rfl, hintake, rfl⟩

/-- There is no reporter that could quit. -/
theorem advance_quitReporter (hbare : h.Bare) : h.advance .quitReporter = none := by
  simp [Host.advance, hbare.reporting]

/-- No worker is among those who are tried. -/
theorem candidates (hbare : h.Bare) :
    h.candidates = [.inside .coordinate, .inside .dropHook] ++
      h.pipeline.intake.names.map (HostEvent.inside ∘ Event.produce) ++ [.quitReporter, .operate] := by
  obtain ⟨hidle, hbusy⟩ := hbare.finished.nobody
  simp [Host.candidates, Pipeline.candidates, hidle, hbusy]

/-- Nothing stands in the way of a start. -/
theorem start (hbare : h.Bare) :
    h.start = .launched { h.beginLife with
      pipeline := h.beginLife.freshPipeline
      running := true
      handles := ⟨true, true, true⟩
      started := h.kind = .runner } := by
  have hqueues : checkQueues h.beginLife.settings = .ok () := hbare.queues
  rw [Host.start, hbare.started, hbare.running]
  simp only [Bool.false_eq_true, and_false, if_false, hqueues]
  rfl

/-- There is nobody who would report. -/
theorem wake (hbare : h.Bare) (now : Nat) (c : Counters) :
    h.reporting.wake now c = ([], h.reporting) := by
  have hreporting := hbare.reporting
  cases hr : h.reporting with
  | waiting | active =>
      rw [hr] at hreporting
      cases hreporting
  | _ => rfl

/-- To wake the reporter changes nothing. -/
theorem wakeReporter (hbare : h.Bare) : h.wakeReporter = h := by
  rw [Host.wakeReporter, hbare.wake]
  simp only [List.append_nil, ite_self]

/-- When time passes, nothing changes but the clock. -/
theorem elapse (hbare : h.Bare) (ms : Nat) : h.elapse ms = { h with clock := h.clock + ms } := by
  have helapse : h.reporting.elapse (h.clock + ms) h.pipeline.counters = ([], h.reporting) := by
    have hreporting := hbare.reporting
    cases hr : h.reporting with
    | waiting | active =>
        rw [hr] at hreporting
        cases hreporting
    | _ => rfl
  rw [Host.elapse, helapse]
  simp only [List.append_nil]

/-- No hook waits to be let go. -/
theorem holdsShutdown (hbare : h.Bare) : h.holdsShutdown = false := by
  rw [Host.holdsShutdown]
  split
  · rename_i label watches fault hop
    rcases hbare.phase _ hop with ⟨supply, hphase⟩ | ⟨ending, hphase⟩ <;> cases hphase
  · rfl

/-- There is no stream but that of a run that is to be launched. -/
theorem onSupply (hbare : h.Bare) (label : Nat) (f : Supply → Supply) :
    h.onSupply label f = { h with operation := h.operation.map (Operation.supplied label f) } := by
  have hintake := Intake.onSupply_of_unhosted hbare.hosted label f
  obtain ⟨kind, settings, pipeline, root, running, handles, started, operation, lost, results,
    reporting, clock, reports⟩ := h
  cases operation with
  | none => rfl
  | some op =>
      obtain ⟨name, watches, phase⟩ := op
      cases phase with
      | opening supply =>
          simp only [Host.onSupply, Host.turnTo, Option.map_some, Operation.supplied]
          split <;> rfl
      | _ =>
          simp only [Host.onSupply, Option.map_some, Operation.supplied]
          rw [hintake]

/-- There is no run whose runner could be interrupted. -/
theorem interrupt (hbare : h.Bare) : h.interrupt = h := by
  rw [Host.interrupt]
  split
  · rename_i op hop
    split
    · rename_i hphase
      rcases hbare.phase op hop with ⟨supply, hopening⟩ | ⟨ending, hreturning⟩
      · cases hphase.symm.trans hopening
      · cases hphase.symm.trans hreturning
    · rfl
  · rfl

end Bare

/-- Two hosts without a run, of which one is new and the other has a past. They agree in what goes
on from run to run. -/
structure Poised (past : Past) (h k : Host) : Prop where
  bare : h.Bare
  bare' : k.Bare
  kind : k.kind = h.kind
  settings : k.settings = h.settings
  root : k.root = past.token h.root
  operation : k.operation = h.operation
  lost : k.lost = h.lost
  results : k.results = h.results
  clock : k.clock = h.clock + past.clock
  reports : List.Forall₂ (LogLine.Later past) h.reports k.reports
  lasts : h.pipeline.Lasts past k.pipeline
  era : k.pipeline.intake.era = h.pipeline.intake.era + past.era
  started : k.pipeline.intake.started = h.pipeline.intake.started + past.producers
  producers : h.pipeline.intake.producers = []
  pastProducers : PastProducers past k.pipeline.intake.producers
  closed : k.pipeline.intake.queue.closed = true

namespace Poised

variable {h k : Host}

/-- Whether the host takes on an operation does not depend on the past. -/
theorem isBusy (hpoised : h.Poised past k) : k.isBusy = h.isBusy := by
  rw [Host.isBusy, Host.isBusy, hpoised.operation, hpoised.lost]

/-- Tokens and lock change. -/
theorem withLasting (hpoised : h.Poised past k) {t u : Tokens} (htokens : t.Later past u)
    {lock lock' : Lock Party} (hlock : lock' = lock) :
    { h with pipeline := { h.pipeline with tokens := t, lock := lock } }.Poised past
      { k with pipeline := { k.pipeline with tokens := u, lock := lock' } } :=
  { hpoised with
    bare := { hpoised.bare with finished := ⟨hpoised.bare.finished.ended, hpoised.bare.finished.gone⟩ }
    bare' :=
      { hpoised.bare' with finished := ⟨hpoised.bare'.finished.ended, hpoised.bare'.finished.gone⟩ }
    lasts := { hpoised.lasts with lock := hlock, tokens := htokens } }

/-- A token is cancelled, under its later name. -/
theorem cancel (hpoised : h.Poised past k) (token : Token) :
    (h.cancel token).Poised past (k.cancel (past.token token)) :=
  hpoised.withLasting (hpoised.lasts.tokens.cancel token) hpoised.lasts.lock

/-- A token of the past is cancelled, and nobody notices. -/
theorem cancel_past (hpoised : h.Poised past k) {token : Token} (hmade : token < past.tokens)
    (hroots : token ∉ past.roots) : h.Poised past (k.cancel token) :=
  hpoised.withLasting (hpoised.lasts.tokens.cancel_past hmade hroots) hpoised.lasts.lock

/-- Both hosts take a new root. -/
theorem renewRoot (hpoised : h.Poised past k) : h.renewRoot.Poised past k.renewRoot := by
  have hnext := hpoised.withLasting (hpoised.lasts.tokens.append none) hpoised.lasts.lock
  exact { hnext with
    bare := { hnext.bare with }
    bare' := { hnext.bare' with }
    root := hpoised.lasts.tokens.length }

/-- The operation changes alike, to one that has not launched a run. -/
theorem withOperation (hpoised : h.Poised past k) {operation : Option Operation}
    (hphase : ∀ op, operation = some op →
      (∃ supply, op.phase = .opening supply) ∨ ∃ ending, op.phase = .returning ending) :
    { h with operation }.Poised past { k with operation } :=
  { hpoised with
    bare := { hpoised.bare with phase := hphase }
    bare' := { hpoised.bare' with phase := hphase }
    operation := rfl }

/-- An operation begins that has not launched a run. -/
theorem begun (hpoised : h.Poised past k) {op : Operation}
    (hphase : (∃ supply, op.phase = .opening supply) ∨ ∃ ending, op.phase = .returning ending) :
    { h with operation := some op }.Poised past { k with operation := some op } := by
  refine hpoised.withOperation fun op' heq => ?_
  rwa [← Option.some.inj heq]

/-- An operation comes to the same end. -/
theorem report (hpoised : h.Poised past k) (label : Nat) (ending : Ending) :
    (h.report label ending).Poised past (k.report label ending) :=
  { hpoised with
    bare := { hpoised.bare with phase := fun _ hop => by cases hop }
    bare' := { hpoised.bare' with phase := fun _ hop => by cases hop }
    operation := rfl
    lost := congrArg (· || ending.isPanic) hpoised.lost
    results := congrArg (· ++ [(label, ending)]) hpoised.results }

/-- Where there is no run, a stop returns at once. -/
theorem beginStop (hpoised : h.Poised past k) (label : Nat) :
    (h.beginStop label).Poised past (k.beginStop label) := by
  have hphase : ∃ ending, ({ label, phase := .returning .done } : Operation).phase =
      .returning ending := ⟨_, rfl⟩
  rw [Host.beginStop, Host.beginStop, if_neg (by rw [hpoised.bare.running]; exact Bool.false_ne_true),
    if_neg (by rw [hpoised.bare'.running]; exact Bool.false_ne_true)]
  exact hpoised.begun (.inr hphase)

/-- Where there is no run, a drain returns at once. -/
theorem beginDrain (hpoised : h.Poised past k) (label : Nat) :
    (h.beginDrain label).Poised past (k.beginDrain label) := by
  rw [Host.beginDrain, Host.beginDrain, if_neg (by simp [hpoised.bare.running]),
    if_neg (by simp [hpoised.bare'.running])]
  exact hpoised.beginStop label

/-- No stream is open but that of a run that is to be launched. -/
theorem isFed (hpoised : h.Poised past k) (label : Nat) : k.isFed label = h.isFed label := by
  rw [Host.isFed, Host.isFed, hpoised.operation, Intake.isFed_of_unhosted hpoised.bare.hosted,
    Intake.isFed_of_unhosted hpoised.bare'.hosted]

/-- The stream of a run that is to be launched changes. -/
theorem onSupply (hpoised : h.Poised past k) (label : Nat) (f : Supply → Supply) :
    (h.onSupply label f).Poised past (k.onSupply label f) := by
  rw [hpoised.bare.onSupply, hpoised.bare'.onSupply, hpoised.operation]
  refine hpoised.withOperation fun op' heq => ?_
  obtain ⟨op, hop, rfl⟩ := Option.map_eq_some_iff.mp heq
  rcases hpoised.bare.phase op hop with ⟨supply, hphase⟩ | ⟨ending, hphase⟩
  · rw [Operation.supplied, hphase]
    dsimp only
    split
    · exact .inl ⟨_, rfl⟩
    · exact .inl ⟨supply, hphase⟩
  · rw [Operation.supplied, hphase]
    exact .inr ⟨ending, hphase⟩

/-- Time passes, and nobody reports. -/
theorem elapse (hpoised : h.Poised past k) (ms : Nat) :
    (h.elapse ms).Poised past (k.elapse ms) := by
  rw [hpoised.bare.elapse, hpoised.bare'.elapse]
  exact { hpoised with
    bare := { hpoised.bare with }
    bare' := { hpoised.bare' with }
    clock := by
      dsimp only
      rw [hpoised.clock, Nat.add_right_comm] }

/-- **The first run is launched**, and whatever earlier ones have left gives place to it. -/
theorem launch (hpoised : h.Poised past k) :
    { h.beginLife with
      pipeline := h.beginLife.freshPipeline
      running := true
      handles := ⟨true, true, true⟩
      started := h.kind = HostKind.runner }.Later past
      { k.beginLife with
        pipeline := k.beginLife.freshPipeline
        running := true
        handles := ⟨true, true, true⟩
        started := k.kind = HostKind.runner } := by
  have hsize : k.beginLife.poolSize = h.poolSize := by
    rw [Host.poolSize, Host.poolSize, Host.beginLife, hpoised.settings]
  have hpipeline : h.beginLife.freshPipeline.Later past k.beginLife.freshPipeline :=
    { protocol := hpoised.lasts.protocol
      lock := hpoised.lasts.lock
      tokens := by
        have happended := hpoised.lasts.tokens.append (some h.root)
        rw [Option.map_some, ← hpoised.root] at happended
        exact happended
      counters := by
        have hrecorded :
            (h.pipeline.counters.later past k.pipeline.counters.inFlight).record
              (.poolSize (UInt64.ofNat h.poolSize)) = _ := Counters.record_later _ _ _
        rw [← hpoised.lasts.counters] at hrecorded
        rw [Host.freshPipeline, hsize]
        exact hrecorded
      gauged := hpoised.lasts.gauged
      activity := hpoised.lasts.activity
      journal := hpoised.lasts.journal
      latch := by
        simp only [Host.freshPipeline, Host.beginLife, Tokens.child, hpoised.root,
          hpoised.lasts.tokens.length]
        rfl
      intake := by
        have hintake : k.beginLife.freshPipeline.intake =
            (h.beginLife.freshPipeline.intake.later past).amid k.pipeline.intake.producers := by
          simp only [Host.freshPipeline, Host.beginLife, hpoised.era, hpoised.started,
            hpoised.producers, hpoised.settings, Intake.later, Intake.amid, List.map_nil,
            List.append_nil, Nat.add_right_comm]
          rfl
        rw [hintake]
        exact .mk (Nat.succ_pos _) hpoised.pastProducers
      dispatch := by
        simp only [Host.freshPipeline, Host.beginLife, hpoised.settings]
      completions := by
        simp only [Host.freshPipeline, Host.beginLife, Host.poolSize, hpoised.settings]
      coordinator := rfl
      pool := by
        simp only [Host.freshPipeline, Host.beginLife, Host.poolSize, hpoised.settings] }
  refine .of_parts hpoised.kind hpoised.settings hpipeline hpoised.root rfl rfl ?_ hpoised.operation
    hpoised.lost hpoised.results ?_ hpoised.clock hpoised.reports
  · dsimp only
    rw [hpoised.kind]
  · simp only [Host.beginLife, hpoised.settings]
    rfl

/-- **With the run that is launched, one host becomes the other one later.** -/
theorem openRun (hpoised : h.Poised past k) (op : Operation) (supply : Supply) :
    (h.openRun op supply).Later past (k.openRun op supply) := by
  rw [Host.openRun, Host.openRun, hpoised.bare.start, hpoised.bare'.start]
  exact hpoised.launch.wakeReporter.watched op supply

/-- The same is tried, under later names, and what producers of the past could do besides. -/
theorem candidates (hpoised : h.Poised past k) :
    (k.candidates.filter fun e => !e.isPast past) = h.candidates.map (HostEvent.later past) := by
  have hgone : ((k.pipeline.intake.names.map (HostEvent.inside ∘ Event.produce)).filter
      fun e => !e.isPast past) = [] := by
    rw [List.filter_eq_nil_iff]
    intro e he
    obtain ⟨id, hid, rfl⟩ := List.mem_map.mp he
    obtain ⟨q, hq, rfl⟩ := List.mem_map.mp hid
    simp [HostEvent.isPast, Event.isPast, (hpoised.pastProducers.all q hq).id]
  rw [hpoised.bare.candidates, hpoised.bare'.candidates, List.filter_append, List.filter_append, hgone,
    Intake.names, hpoised.producers]
  rfl

/-- What a producer of the past does is not seen. -/
theorem advance_past {l : Host} (hpoised : h.Poised past k) {event : Event}
    (hstep : k.advance (.inside event) = some l) : h.Poised past l ∧ event.isPast past = true := by
  obtain ⟨id, intake, rfl, hintake, rfl⟩ := hpoised.bare'.exists_of_advance_inside hstep
  obtain ⟨hid, hproducers, hclosed, hera, hstarted⟩ :=
    Intake.advance_of_closed hpoised.pastProducers hpoised.closed hintake
  refine ⟨{ hpoised with
    bare' := { hpoised.bare' with
      finished := ⟨hpoised.bare'.finished.ended, hpoised.bare'.finished.gone⟩
      hosted := fun q hq => (hproducers.all q hq).hosted }
    lasts := { hpoised.lasts with }
    era := hera.trans hpoised.era
    started := hstarted.trans hpoised.started
    pastProducers := hproducers
    closed := hclosed }, ?_⟩
  simpa [Event.isPast] using hid

end Poised

/-! ### Both -/

/-- Two hosts of which one is new and the other has a past, at the same point of what both do. -/
def Follows (past : Past) (h k : Host) : Prop :=
  h.Poised past k ∨ h.Later past k

/-- **What can happen before the first launch can happen after a past as well**, and comes to the
same. -/
theorem Poised.advance {h k : Host} (hpoised : h.Poised past k) (e : HostEvent) :
    Option.Rel (Follows past) (h.advance e) (k.advance (e.later past)) := by
  cases e with
  | inside event =>
      have hnone : h.advance (.inside event) = none := by
        rw [Option.eq_none_iff_forall_not_mem]
        intro l hstep
        obtain ⟨id, intake, -, hintake, -⟩ := hpoised.bare.exists_of_advance_inside hstep
        rw [Intake.advance, hpoised.producers] at hintake
        cases hintake
      have hnone' : k.advance (.inside (event.later past)) = none := by
        rw [Option.eq_none_iff_forall_not_mem]
        intro l hstep
        have hpast := (hpoised.advance_past hstep).2
        cases event with
        | produce id => simp [Event.later, Event.isPast, Past.producer] at hpast
        | _ => cases hpast
      rw [HostEvent.later, hnone, hnone']
      exact .none
  | quitReporter =>
      rw [HostEvent.later, hpoised.bare.advance_quitReporter, hpoised.bare'.advance_quitReporter]
      exact .none
  | operate =>
      rw [HostEvent.later, Host.advance, Host.advance, hpoised.operation]
      cases hop : h.operation with
      | none => exact .none
      | some op =>
          rw [Option.bind_some, Option.bind_some, Host.operateOn?, Host.operateOn?]
          rcases hpoised.bare.phase op hop with ⟨supply, hphase⟩ | ⟨ending, hphase⟩
          · rw [hphase]
            exact .some (.inr (hpoised.openRun op supply))
          · rw [hphase]
            exact .some (.inl (hpoised.report op.label ending))

/-- A host that some course of moves comes to. -/
def Reachable (h : Host) : Prop :=
  ∃ c : Chronicle, c.Reachable ∧ c.bench.host = h

/-- An event is one of the moves. -/
theorem Reachable.advance {h h' : Host} {e : HostEvent} (hreachable : h.Reachable)
    (hstep : h.advance e = some h') : h'.Reachable := by
  obtain ⟨c, hc, rfl⟩ := hreachable
  refine ⟨c.run [.event e], hc.run _, ?_⟩
  rw [Chronicle.run, List.foldl_cons, List.foldl_nil, Chronicle.move, Scenario.HostBench.move, hstep]
  rfl

/-- To wake the reporter is one of the moves. -/
theorem Reachable.wakeReporter {h : Host} (hreachable : h.Reachable) :
    h.wakeReporter.Reachable := by
  obtain ⟨c, hc, rfl⟩ := hreachable
  exact ⟨c.run [.wake], hc.run _, rfl⟩

namespace Follows

variable {h k : Host}

/-- **What can happen in one host can happen in the other**, and keeps them at the same point. -/
theorem advance (hfollows : h.Follows past k) (e : HostEvent) :
    Option.Rel (Follows past) (h.advance e) (k.advance (e.later past)) := by
  rcases hfollows with hpoised | hlater
  · exact hpoised.advance e
  · have hadvance := hlater.advance e
    generalize h.advance e = x, k.advance (e.later past) = y at hadvance ⊢
    cases hadvance with
    | none => exact .none
    | some hnext => exact .some (.inr hnext)

/-- What a producer of the past does is not seen. -/
theorem advance_past {l : Host} (hfollows : h.Follows past k) {e : HostEvent}
    (hpast : e.isPast past = true) (hstep : k.advance e = some l) : h.Follows past l := by
  rcases hfollows with hpoised | hlater
  · cases e with
    | inside event => exact .inl (hpoised.advance_past hstep).1
    | quitReporter | operate => cases hpast
  · exact .inr (hlater.advance_past hpast hstep)

/-- The same is tried, under later names, and what producers of the past could do besides. -/
theorem candidates (hfollows : h.Follows past k) :
    (k.candidates.filter fun e => !e.isPast past) = h.candidates.map (HostEvent.later past) := by
  rcases hfollows with hpoised | hlater
  · exact hpoised.candidates
  · exact hlater.candidates

/-- The reporter wakes up in both hosts. -/
theorem wakeReporter (hfollows : h.Follows past k) :
    h.wakeReporter.Follows past k.wakeReporter := by
  rcases hfollows with hpoised | hlater
  · rw [hpoised.bare.wakeReporter, hpoised.bare'.wakeReporter]
    exact .inl hpoised
  · exact .inr hlater.wakeReporter

/-- Time passes in both hosts. -/
theorem elapse (hfollows : h.Follows past k) (ms : Nat) :
    (h.elapse ms).Follows past (k.elapse ms) :=
  hfollows.imp (·.elapse ms) (·.elapse ms)

/-- No two workers and no two producers have one name. -/
theorem nodup (hfollows : h.Follows past k) (hworkers : h.pipeline.pool.workers.Nodup)
    (hnames : h.pipeline.intake.names.Nodup) :
    k.pipeline.pool.workers.Nodup ∧ k.pipeline.intake.names.Nodup := by
  rcases hfollows with hpoised | hlater
  · obtain ⟨hidle, hbusy⟩ := hpoised.bare'.finished.nobody
    rw [Pool.workers, hidle, hbusy]
    exact ⟨List.nodup_nil, hpoised.pastProducers.nodup⟩
  · rw [hlater.pipeline.pool]
    exact ⟨hworkers, hlater.pipeline.intake.nodup_names hnames⟩

end Follows

/-- **Both settle in the same way**, whichever of the relations holds, although there may be more
left to do in one of them than in the other. -/
theorem rel_settle {R : Host → Host → Prop} {h k : Host}
    (hadvance : ∀ h k, R h k → ∀ e, Option.Rel R (h.advance e) (k.advance (e.later past)))
    (hpast : ∀ h k, R h k → ∀ e l, e.isPast past = true → k.advance e = some l → R h l)
    (hfollows : ∀ h k, R h k → h.Follows past k) (hwoken : R h.wakeReporter k.wakeReporter)
    (hreachable : h.Reachable) : R h.settle k.settle := by
  let S (h k : Host) : Prop := R h k ∧ h.Reachable
  have hadvance : ∀ h k, S h k → ∀ e, Option.Rel S (h.advance e) (k.advance (e.later past)) := by
    rintro h k ⟨hR, hreachable⟩ e
    have hnext := hadvance h k hR e
    generalize hx : h.advance e = x, k.advance (e.later past) = y at hnext ⊢
    cases hnext with
    | none => exact .none
    | some hnext => exact .some ⟨hnext, hreachable.advance hx⟩
  have hnodup : ∀ h k, S h k →
      (h.pipeline.pool.workers.Nodup ∧ h.pipeline.intake.names.Nodup) ∧
        k.pipeline.pool.workers.Nodup ∧ k.pipeline.intake.names.Nodup := by
    rintro h k ⟨hR, c, hc, rfl⟩
    have hworkers := hc.sound.holds.owned.workers
    have hnames := hc.sound.accounted.names
    exact ⟨⟨hworkers, hnames⟩, (hfollows _ _ hR).nodup hworkers hnames⟩
  have hsettled := rel_settleAfter_of_le hadvance
    (fun h k hS e l hold hstep => ⟨hpast h k hS.1 e l hold hstep, hS.2⟩)
    (fun h k hS => (hfollows h k hS.1).candidates)
    (fun h k hS e next => work_lt_of_advance (hnodup h k hS).1.1 (hnodup h k hS).1.2)
    (fun h k hS e next => work_lt_of_advance (hnodup h k hS).2.1 (hnodup h k hS).2.2)
    ⟨hwoken, hreachable.wakeReporter⟩ (.inl (Option.map_none _).symm) (Nat.le_refl _) (Nat.le_refl _)
  exact hsettled.1

/-- Two hosts that are at the same point settle at the same point. -/
theorem Follows.settle {h k : Host} (hfollows : h.Follows past k) (hreachable : h.Reachable) :
    h.settle.Follows past k.settle :=
  rel_settle (fun _ _ hfollows => hfollows.advance) (fun _ _ hfollows _ _ => hfollows.advance_past)
    (fun _ _ => id) hfollows.wakeReporter hreachable

/-- A run that was launched once is not forgotten. -/
theorem Later.settle {h k : Host} (hlater : h.Later past k) (hreachable : h.Reachable) :
    h.settle.Later past k.settle :=
  rel_settle (fun _ _ hlater => hlater.advance) (fun _ _ hlater _ _ => hlater.advance_past)
    (fun _ _ => .inr) hlater.wakeReporter hreachable

end Host

end SharedFetch
