import SharedFetch.Proofs.Host.Moves
import SharedFetch.Proofs.Pipeline.Isolation
import SharedFetch.Proofs.Settling

/-!
# Failures are isolated

Two callers take the same steps with two hosts, except that the fetches of one location are answered
differently: with other contents, with failures in place of contents, or the other way round. The
hosts are then *twins* all the time, in whichever order things happen in them. They have the same
waiters, slot, intake and dispatch queue; the same completions wait, up to the outcomes of that
location; the same workers are busy with the same locations, idle or gone; the same fetches and
hooks are held, and have been called in the same order. What was delivered differs for references
that lead to the location, and the counter of failed fetches may differ. Nothing else does.

What is done to one fetch may depend on the state, as one can ask for the oldest fetch that waits,
whatever its location is. So moves and steps are compared along the first of the two runs
(`HostBench.ParallelMoves`, `HostBench.ParallelSteps`).

## Main results

* `Host.Twins.advance`: whatever can happen in one of two twins can happen in the other, and leaves
  twins.
* `HostBench.ParallelMoves.course`: parallel moves in any order leave twins.
* `Host.Twins.settle`: twins settle as twins.
* `HostBench.Parallel.step`: after parallel steps twins report the same, but for what the fetches of
  the location have brought, and are twins again.
* `HostBench.failures_isolated`: the same for whole runs, whatever the order.
-/

namespace SharedFetch

/-! ### Reports of the counters -/

/-- A line of the log without one of its fields. -/
def LogLine.besides (name : String) (line : LogLine) : LogLine :=
  { line with fields := line.fields.filter fun field => field.1 != name }

/-- Lines of the log that differ at most in the number of failed fetches. -/
def SameReports (lines lines' : List LogLine) : Prop :=
  lines'.map (LogLine.besides "fetch_failures") = lines.map (LogLine.besides "fetch_failures")

/-- More lines that differ in nothing else. -/
theorem SameReports.append {xs xs' ys ys' : List LogLine} (hx : SameReports xs xs')
    (hy : SameReports ys ys') : SameReports (xs ++ ys) (xs' ++ ys') := by
  rw [SameReports, List.map_append, List.map_append, hx, hy]

/-- A reporter counts deliveries. From other counters of failed fetches it makes reports that differ
in nothing else, at the same times. -/
theorem Reporter.ticks_failures (moment : Reporter → Nat) (time : Nat) (c : Counters)
    (failures : UInt64) (n : Nat) (r : Reporter) :
    (ticks moment time { c with fetchFailures := failures } n r).2 = (ticks moment time c n r).2 ∧
      SameReports (ticks moment time c n r).1
        (ticks moment time { c with fetchFailures := failures } n r).1 := by
  induction n generalizing r with
  | zero => exact ⟨rfl, rfl⟩
  | succ n ih =>
      rw [ticks, ticks]
      split
      · obtain ⟨hreporter, hlines⟩ := ih (r.tick (moment r) c).2
        refine ⟨hreporter, ?_⟩
        rw [SameReports, List.map_cons, List.map_cons]
        exact congrArg₂ _ rfl hlines
      · exact ⟨rfl, rfl⟩

namespace Reporting

variable (r : Reporting) (time : Nat) (c : Counters) (failures : UInt64)

/-- What a reporter does when it is woken does not depend on the counter of failed fetches. -/
theorem wake_failures :
    (r.wake time { c with fetchFailures := failures }).2 = (r.wake time c).2 ∧
      SameReports (r.wake time c).1 (r.wake time { c with fetchFailures := failures }).1 := by
  have hticks := fun r => Reporter.ticks_failures (fun _ => time) time c failures
    (Reporter.bound r time) r
  cases r with
  | waiting interval =>
      cases interval with
      | zero => exact ⟨rfl, rfl⟩
      | succ interval =>
          obtain ⟨hreporter, hlines⟩ := hticks (.begin (interval + 1) time c)
          exact ⟨congrArg Reporting.active hreporter, hlines⟩
  | active r =>
      obtain ⟨hreporter, hlines⟩ := hticks r
      exact ⟨congrArg Reporting.active hreporter, hlines⟩
  | _ => exact ⟨rfl, rfl⟩

/-- What a reporter does while time passes does not depend on the counter of failed fetches. -/
theorem elapse_failures :
    (r.elapse time { c with fetchFailures := failures }).2 = (r.elapse time c).2 ∧
      SameReports (r.elapse time c).1 (r.elapse time { c with fetchFailures := failures }).1 := by
  cases r with
  | active r =>
      obtain ⟨hreporter, hlines⟩ := Reporter.ticks_failures Reporter.due time c failures
        (r.bound time) r
      exact ⟨congrArg Reporting.active hreporter, hlines⟩
  | _ => exact ⟨rfl, rfl⟩

end Reporting

/-! ### Hosts -/

namespace Host

/-- Two hosts that differ in nothing but in what the fetches of one location bring, and in how often
they have reported a fetch as failed. -/
inductive Twins (a : Location) (h : Host) : Host → Prop where
  | mk {q : Pipeline} {lines : List LogLine} (hpipeline : h.pipeline.Twins a q)
      (hreports : SameReports h.reports lines) : Twins a h { h with pipeline := q, reports := lines }

/-- What two starts come to. -/
inductive Start.Twins (a : Location) : Start → Start → Prop where
  | launched {h k : Host} (htwins : h.Twins a k) : Twins a (.launched h) (.launched k)
  | refused (fault : Fault) : Twins a (.refused fault) (.refused fault)
  | broken {h k : Host} (htwins : h.Twins a k) (cause : Misuse) :
      Twins a (.broken h cause) (.broken k cause)

namespace Twins

variable {a : Location} {h k : Host}

/-- The pipelines of two hosts that are twins. -/
theorem pipeline (htwins : h.Twins a k) : h.pipeline.Twins a k.pipeline := by
  cases htwins with
  | mk hpipeline hreports => exact hpipeline

/-- Both hosts are fetchers, or both are runners. -/
theorem kind (htwins : h.Twins a k) : k.kind = h.kind := by
  cases htwins; rfl

/-- Both hosts have the same root token. -/
theorem root (htwins : h.Twins a k) : k.root = h.root := by
  cases htwins; rfl

/-- Both hosts have the same handles. -/
theorem handles (htwins : h.Twins a k) : k.handles = h.handles := by
  cases htwins; rfl

/-- Both hosts run, or none does. -/
theorem running (htwins : h.Twins a k) : k.running = h.running := by
  cases htwins; rfl

/-- Both hosts are at the same operation. -/
theorem operation (htwins : h.Twins a k) : k.operation = h.operation := by
  cases htwins; rfl

/-- Both hosts are busy, or none is. -/
theorem isBusy (htwins : h.Twins a k) : k.isBusy = h.isBusy := by
  cases htwins; rfl

/-- The pipelines change, and stay twins. -/
theorem withPipeline (htwins : h.Twins a k) {p q : Pipeline} (hpipeline : p.Twins a q) :
    { h with pipeline := p }.Twins a { k with pipeline := q } := by
  cases htwins with
  | mk _ hreports => exact ⟨hpipeline, hreports⟩

/-- The handles change alike. -/
theorem withHandles (htwins : h.Twins a k) (f : Handles → Handles) :
    { h with handles := f h.handles }.Twins a { k with handles := f k.handles } := by
  cases htwins with
  | mk hpipeline hreports => exact ⟨hpipeline, hreports⟩

/-! ### Operations -/

/-- Both operations turn to another phase. -/
theorem turnTo (htwins : h.Twins a k) (op : Operation) (phase : OperationPhase) :
    (h.turnTo op phase).Twins a (k.turnTo op phase) := by
  cases htwins with
  | mk hpipeline hreports => exact ⟨hpipeline, hreports⟩

/-- A token is cancelled in both. -/
theorem cancel (htwins : h.Twins a k) (token : Token) :
    (h.cancel token).Twins a (k.cancel token) := by
  refine htwins.withPipeline { htwins.pipeline with tokens := ?_ }
  dsimp only
  rw [htwins.pipeline.tokens]

/-- Both hosts get a new root token. -/
theorem renewRoot (htwins : h.Twins a k) : h.renewRoot.Twins a k.renewRoot := by
  cases htwins with
  | @mk q lines hpipeline hreports =>
      rw [Host.renewRoot, Host.renewRoot, hpipeline.tokens]
      exact ⟨{ hpipeline with tokens := rfl }, hreports⟩

/-- Both hosts get the same intake. -/
theorem withIntake (htwins : h.Twins a k) (intake : Intake) :
    { h with pipeline := { h.pipeline with intake } }.Twins a
      { k with pipeline := { k.pipeline with intake } } :=
  htwins.withPipeline { htwins.pipeline with intake := rfl }

/-- The producers are dismissed in both. -/
theorem dismissProducers (htwins : h.Twins a k) :
    h.dismissProducers.Twins a k.dismissProducers := by
  rw [Host.dismissProducers, Host.dismissProducers, htwins.pipeline.intake]
  exact htwins.withIntake _

/-- Both hosts report the end of an operation. -/
theorem report (htwins : h.Twins a k) (label : Nat) (ending : Ending) :
    (h.report label ending).Twins a (k.report label ending) := by
  cases htwins with
  | mk hpipeline hreports => exact ⟨hpipeline, hreports⟩

/-- A runner is no longer started. -/
theorem unstarted (htwins : h.Twins a k) :
    { h with started := false }.Twins a { k with started := false } := by
  cases htwins with
  | mk hpipeline hreports => exact ⟨hpipeline, hreports⟩

/-- An operation comes to its end in both. -/
theorem conclude (htwins : h.Twins a k) (label : Nat) (fault : Option Fault) :
    (h.conclude label fault).Twins a (k.conclude label fault) := by
  have hreported := htwins.dismissProducers.report label (.ofFault fault)
  rw [Host.conclude, Host.conclude]
  generalize h.dismissProducers.report label (.ofFault fault) = x,
    k.dismissProducers.report label (.ofFault fault) = y at hreported ⊢
  have hunstarted := hreported.unstarted
  cases hreported with
  | mk hpipeline hreports =>
      dsimp only
      split
      · exact ⟨hpipeline, hreports⟩
      · exact hunstarted.renewRoot

/-- The token of the run is cancelled. -/
theorem cancelRun (htwins : h.Twins a k) :
    (h.cancel h.pipeline.latch.run).Twins a (k.cancel k.pipeline.latch.run) := by
  rw [htwins.pipeline.latch]
  exact htwins.cancel _

/-- Both hosts begin to tear their runs down. -/
theorem tearDown (htwins : h.Twins a k) (op : Operation) :
    (h.tearDown op).Twins a (k.tearDown op) := by
  have hroot : (h.cancel h.root).Twins a (k.cancel k.root) := by
    rw [htwins.root]
    exact htwins.cancel _
  rw [Host.tearDown, Host.tearDown, htwins.kind]
  let forget (handles : Handles) : Handles := { handles with coordinator := false }
  split
  · exact (htwins.withHandles forget).cancelRun.turnTo _ _
  · exact (hroot.withHandles forget).cancelRun.turnTo _ _

/-- An operation begins. -/
theorem begun (htwins : h.Twins a k) (op : Operation) :
    { h with operation := some op }.Twins a { k with operation := some op } :=
  htwins.turnTo op op.phase

/-- Both hosts begin to stop. -/
theorem beginStop (htwins : h.Twins a k) (label : Nat) :
    (h.beginStop label).Twins a (k.beginStop label) := by
  have htorn := htwins.tearDown { label, phase := .joiningCoordinator }
  cases htwins with
  | mk hpipeline hreports =>
      rw [Host.beginStop, Host.beginStop]
      dsimp only
      split
      · exact htorn
      · exact ⟨hpipeline, hreports⟩

/-- Both hosts begin to drain. -/
theorem beginDrain (htwins : h.Twins a k) (label : Nat) :
    (h.beginDrain label).Twins a (k.beginDrain label) := by
  have hstopping := htwins.beginStop label
  cases htwins with
  | mk hpipeline hreports =>
      rw [Host.beginDrain, Host.beginDrain]
      dsimp only
      split
      · exact ⟨hpipeline, hreports⟩
      · exact hstopping

/-- Both reporters make the reports that are due. -/
theorem wakeReporter (htwins : h.Twins a k) : h.wakeReporter.Twins a k.wakeReporter := by
  cases htwins with
  | @mk q lines hpipeline hreports =>
      rw [Host.wakeReporter, Host.wakeReporter, hpipeline.isCancelled]
      split
      · exact ⟨hpipeline, hreports⟩
      · obtain ⟨hreporting, hlines⟩ :=
          h.reporting.wake_failures h.clock h.pipeline.counters q.counters.fetchFailures
        rw [← hpipeline.counters] at hreporting hlines
        dsimp only
        rw [hreporting]
        exact ⟨hpipeline, hreports.append hlines⟩

/-- Time passes for both. -/
theorem elapse (htwins : h.Twins a k) (ms : Nat) : (h.elapse ms).Twins a (k.elapse ms) := by
  cases htwins with
  | @mk q lines hpipeline hreports =>
      obtain ⟨hreporting, hlines⟩ :=
        h.reporting.elapse_failures (h.clock + ms) h.pipeline.counters q.counters.fetchFailures
      rw [← hpipeline.counters] at hreporting hlines
      rw [Host.elapse, Host.elapse]
      dsimp only
      rw [hreporting]
      exact ⟨hpipeline, hreports.append hlines⟩

/-- Both hosts make the tokens of a new run. -/
theorem beginLife (htwins : h.Twins a k) : h.beginLife.Twins a k.beginLife := by
  cases htwins with
  | @mk q lines hpipeline hreports =>
      rw [Host.beginLife, Host.beginLife]
      dsimp only
      rw [hpipeline.tokens]
      exact ⟨{ hpipeline with tokens := rfl, latch := rfl }, hreports⟩

/-- A new run has nothing of what the runs before it have brought but the counters and the
journal. -/
theorem freshPipeline (htwins : h.Twins a k) : h.freshPipeline.Twins a k.freshPipeline := by
  cases htwins with
  | @mk q lines hpipeline hreports =>
      exact { (hpipeline.count (.poolSize (UInt64.ofNat h.poolSize))) with
        intake := by
          dsimp only [Host.freshPipeline]
          rw [hpipeline.intake]
        dispatch := rfl
        completions := ⟨rfl, .nil⟩
        coordinator := rfl
        phase := .choosing
        pool := ⟨rfl, .nil⟩
        sorted := by simp [Host.freshPipeline, Book.Sorted] }

/-- The run that has begun is launched. -/
theorem launch (htwins : h.Twins a k) :
    { h with
      pipeline := h.freshPipeline
      running := true
      handles := ⟨true, true, true⟩
      started := h.kind = HostKind.runner }.Twins a
      { k with
        pipeline := k.freshPipeline
        running := true
        handles := ⟨true, true, true⟩
        started := k.kind = HostKind.runner } := by
  have hfresh := htwins.freshPipeline
  cases htwins with
  | mk hpipeline hreports => exact ⟨hfresh, hreports⟩

/-- Both hosts start, or refuse to for the same reason. -/
theorem start (htwins : h.Twins a k) : h.start.Twins a k.start := by
  have hbegun := htwins.beginLife
  cases htwins with
  | @mk q lines hpipeline hreports =>
      rw [Host.start, Host.start]
      dsimp only
      split
      · exact .refused _
      · split
        · exact .refused _
        · rw [show ({ h with pipeline := q, reports := lines } : Host).beginLife.settings =
            h.beginLife.settings from rfl]
          split
          · exact .broken hbegun _
          · exact .launched hbegun.launch

/-- Both runners open their runs. -/
theorem openRun (htwins : h.Twins a k) (op : Operation) (supply : Supply) :
    (h.openRun op supply).Twins a (k.openRun op supply) := by
  have hstart := htwins.start
  rw [Host.openRun, Host.openRun]
  generalize hx : h.start = x, hy : k.start = y at hstart ⊢
  cases hstart with
  | refused fault => exact htwins.turnTo _ _
  | broken hbroken cause => exact hbroken.wakeReporter.turnTo _ _
  | @launched h' k' hlaunched =>
      have hwoken := hlaunched.wakeReporter
      dsimp only
      generalize h'.wakeReporter = x, k'.wakeReporter = y at hwoken ⊢
      cases hwoken with
      | mk hpipeline hreports =>
          dsimp only
          rw [hpipeline.intake]
          exact (withIntake ⟨hpipeline, hreports⟩ _).turnTo _ _

/-- The shutdown hook answers in both. -/
theorem finishShutdown? (htwins : h.Twins a k) (op : Operation) (fault : Option Fault)
    (mode : HookMode) :
    Option.Rel (Twins a) (h.finishShutdown? op fault mode) (k.finishShutdown? op fault mode) := by
  have hfreed := htwins.withPipeline htwins.pipeline.freeLock
  cases mode with
  | hold => exact .none
  | succeed => exact .some (hfreed.conclude _ _)
  | fail stage cause => exact .some (hfreed.conclude _ _)
  | panic payload => exact .some (hfreed.dismissProducers.report _ _)

/-- The shutdown hook is called in both, with the same answer to come. -/
theorem callShutdown (htwins : h.Twins a k) (op : Operation) (fault : Option Fault) :
    (h.callShutdown op fault).Twins a (k.callShutdown op fault) := by
  have hprotocol := htwins.pipeline.protocol
  have hlogged : (if h.pipeline.protocol.plain then h.pipeline else h.pipeline.log .shutdown).Twins a
      (if k.pipeline.protocol.plain then k.pipeline else k.pipeline.log .shutdown) := by
    rw [hprotocol.plain]
    split
    · exact htwins.pipeline
    · exact htwins.pipeline.log (.refl _)
  have hmode : k.pipeline.protocol.shutdownMode = h.pipeline.protocol.shutdownMode := by
    rw [Protocol.shutdownMode, Protocol.shutdownMode, hprotocol.plain, hprotocol.shutdowns]
  rw [Host.callShutdown, Host.callShutdown, hmode]
  refine (htwins.withPipeline ?_).turnTo _ _
  exact { hlogged with
    protocol :=
      { hlogged.protocol with
        shutdowns := congrArg List.tail hlogged.protocol.shutdowns } }

/-- The host gives its workers up. -/
theorem dropHandles (htwins : h.Twins a k) :
    { h with pipeline :=
        { h.pipeline with pool := { h.pipeline.pool with handles := 0 } }.count (.poolSize 0) }.Twins a
      { k with pipeline :=
        { k.pipeline with pool := { k.pipeline.pool with handles := 0 } }.count (.poolSize 0) } := by
  refine htwins.withPipeline (Pipeline.Twins.count ?_ _)
  refine { htwins.pipeline with pool := ⟨?_, htwins.pipeline.pool.busy⟩ }
  dsimp only
  rw [htwins.pipeline.pool.same]

/-- The next thing that an operation does leaves twins, and it has to wait in one if in the
other. -/
theorem operateOn? (htwins : h.Twins a k) (op : Operation) :
    Option.Rel (Twins a) (h.operateOn? op) (k.operateOn? op) := by
  have hpipeline := htwins.pipeline
  rw [Host.operateOn?, Host.operateOn?]
  dsimp only
  cases op.phase with
  | opening supply => exact .some (htwins.openRun op supply)
  | draining =>
      dsimp only
      rw [hpipeline.isOver]
      split
      · exact .some (htwins.tearDown op)
      · exact .none
  | watching interrupted =>
      dsimp only
      rw [hpipeline.isOver, hpipeline.tokens, htwins.root]
      split
      · exact .some (htwins.tearDown op)
      · exact .none
  | joiningCoordinator =>
      dsimp only
      rw [hpipeline.ending?]
      cases h.pipeline.ending? with
      | none => exact .none
      | some ending => exact .some (htwins.dropHandles.turnTo _ _)
  | joiningWorkers fault =>
      dsimp only
      rw [hpipeline.pool.isGone, hpipeline.latch]
      split
      · exact .some ((htwins.withHandles fun handles => { handles with life := false }).turnTo _ _)
      · exact .none
  | joiningReporter fault =>
      cases htwins with
      | mk _ hreports =>
          dsimp only
          split
          · exact .none
          · refine .some (turnTo ?_ _ _)
            exact ⟨hpipeline.askLock _ _, hreports⟩
  | awaitingLock fault =>
      dsimp only
      rw [Pipeline.withLock?, Pipeline.withLock?, hpipeline.lock]
      cases h.pipeline.lock.grant? .host with
      | none => exact .none
      | some lock =>
          have hgranted : { h.pipeline with lock }.Twins a { k.pipeline with lock } :=
            { hpipeline with lock := rfl }
          exact .some ((htwins.withPipeline hgranted).callShutdown op fault)
  | inShutdown mode fault => exact htwins.finishShutdown? op fault mode
  | returning ending => exact .some (htwins.report _ _)

/-! ### Steps -/

/-- A producer may go on in both, or in none. -/
theorem mayProduce (htwins : h.Twins a k) (id : Nat) : k.mayProduce id = h.mayProduce id := by
  rw [Host.mayProduce, Host.mayProduce, htwins.pipeline.intake, htwins.operation]

/-- **Twins go on as twins.** An event that can happen in one of two hosts can happen in the other,
and leaves twins. -/
theorem advance (htwins : h.Twins a k) (e : HostEvent) :
    Option.Rel (Twins a) (h.advance e) (k.advance e) := by
  cases e with
  | inside event =>
      have hinside : Option.Rel (Twins a)
          ((h.pipeline.advance event).map fun pipeline => { h with pipeline })
          ((k.pipeline.advance event).map fun pipeline => { k with pipeline }) := by
        have hadvance := htwins.pipeline.advance event
        generalize h.pipeline.advance event = x, k.pipeline.advance event = y at hadvance ⊢
        cases hadvance with
        | none => exact .none
        | some hnext => exact .some (htwins.withPipeline hnext)
      cases event with
      | produce id =>
          simp only [Host.advance, htwins.mayProduce]
          split
          · exact hinside
          · exact .none
      | _ => exact hinside
  | quitReporter =>
      cases htwins with
      | mk hpipeline hreports =>
          rw [Host.advance, Host.advance]
          dsimp only
          rw [hpipeline.isCancelled]
          split
          · exact .some ⟨hpipeline, hreports.append rfl⟩
          · exact .none
  | operate =>
      rw [Host.advance, Host.advance, htwins.operation]
      cases h.operation with
      | none => exact .none
      | some op => exact htwins.operateOn? op

/-- Twins try the same. -/
theorem candidates (htwins : h.Twins a k) : k.candidates = h.candidates := by
  rw [Host.candidates, Host.candidates, htwins.pipeline.candidates]

/-- Twins have the same work left. -/
theorem work (htwins : h.Twins a k) : k.work = h.work := by
  have hwork := htwins.pipeline.work
  cases htwins with
  | mk hpipeline hreports =>
      rw [Host.work, Host.work, hwork]
      rfl

/-- Twins settle as twins. -/
theorem settle (htwins : h.Twins a k) : h.settle.Twins a k.settle := by
  have hwoken := htwins.wakeReporter
  rw [Host.settle, Host.settle, hwoken.work]
  exact rel_settleAfter (f := id) (fun _ _ htwins => htwins.advance)
    (fun _ _ htwins => by rw [htwins.candidates, List.map_id]) _ none hwoken

/-! ### From outside -/

/-- An operation takes in references in both, or in none. -/
theorem isFed (htwins : h.Twins a k) (label : Nat) : k.isFed label = h.isFed label := by
  rw [Host.isFed, Host.isFed, htwins.operation, htwins.pipeline.intake]

/-- The supply of an operation changes alike. -/
theorem onSupply (htwins : h.Twins a k) (label : Nat) (f : Supply → Supply) :
    (h.onSupply label f).Twins a (k.onSupply label f) := by
  have hintake := htwins.withIntake (h.pipeline.intake.onSupply label f)
  cases htwins with
  | mk hpipeline hreports =>
      rw [Host.onSupply, Host.onSupply]
      dsimp only
      rw [hpipeline.intake]
      split
      · split
        · split
          · exact ⟨hpipeline, hreports⟩
          · exact ⟨hpipeline, hreports⟩
        · exact hintake
      · exact ⟨hpipeline, hreports⟩

/-- Both operations are interrupted. -/
theorem interrupt (htwins : h.Twins a k) : h.interrupt.Twins a k.interrupt := by
  rw [Host.interrupt, Host.interrupt, htwins.operation]
  split
  · split
    · exact htwins.turnTo _ _
    · exact htwins
  · exact htwins

/-- The shutdown hook is held in both, or in none. -/
theorem holdsShutdown (htwins : h.Twins a k) : k.holdsShutdown = h.holdsShutdown := by
  rw [Host.holdsShutdown, Host.holdsShutdown, htwins.operation]

/-- The shutdown hook is let go in both. -/
theorem releaseShutdown (htwins : h.Twins a k) (mode : HookMode) :
    (h.releaseShutdown mode).Twins a (k.releaseShutdown mode) := by
  rw [Host.releaseShutdown, Host.releaseShutdown, htwins.operation]
  split
  · split
    · exact htwins.turnTo _ _
    · exact htwins
  · exact htwins

end Twins

end Host

/-! ### Callers -/

namespace Scenario

open Scenario (Answer)

/-- A fetch that waits is let go, by callers that may differ in the answer if it is one of the
location. -/
theorem releaseFetch_twins {a : Location} {p q : Pipeline} (h : p.Twins a q) {m n : FetchMode}
    (location : Option String)
    (hmode : ∀ j, p.heldFetch? location = some j → m.Twins (j.location.core = a.core) n) :
    (releaseFetch q location n).1 = (releaseFetch p location m).1 ∧
      (releaseFetch p location m).2.Twins a (releaseFetch q location n).2 := by
  have hheld := h.heldFetch? location
  rw [releaseFetch, releaseFetch]
  generalize p.heldFetch? location = x, q.heldFetch? location = y at hheld hmode ⊢
  cases hheld with
  | none => exact ⟨rfl, h⟩
  | @some j k hjob =>
      refine ⟨?_, h.releaseFetch hjob (hmode j rfl)⟩
      dsimp only
      rw [hjob.location]

/-- The hook that is held has the same key in both. -/
theorem heldKey?_twins {a : Location} {p q : Pipeline} (h : p.Twins a q) :
    heldKey? q = heldKey? p := by
  rw [heldKey?, heldKey?, h.heldHook?]

/-- A hook that is held is let go in both. -/
theorem releaseHook_twins {a : Location} {p q : Pipeline} (h : p.Twins a q) (key : Option String)
    (mode : HookMode) :
    (releaseHook q key mode).1 = (releaseHook p key mode).1 ∧
      (releaseHook p key mode).2.Twins a (releaseHook q key mode).2 := by
  rw [releaseHook, releaseHook, heldKey?_twins h]
  split
  · exact ⟨rfl, h⟩
  · split
    · exact ⟨rfl, h.releaseHook mode⟩
    · exact ⟨rfl, h⟩

namespace HostBench

/-- Two callers that keep the same, and whose hosts are twins. -/
inductive Twins (a : Location) (b : HostBench) : HostBench → Prop where
  | mk {host : Host} (hhost : b.host.Twins a host) : Twins a b { b with host }

/-- Two actions agree, unless both answer a fetch that waits. Then they answer in good order, and
the fetch is one of the location. -/
inductive Action.Twins (a : Location) (p : Pipeline) : Action → Action → Prop where
  | refl (action : Action) : Twins a p action action
  | release {location : Option String} {m n : FetchMode} (hm : m.isAnswer = true)
      (hn : n.isAnswer = true)
      (hlocation : ∀ j, p.heldFetch? location = some j → j.location.core = a.core) :
      Twins a p (.release location m) (.release location n)

/-- Two reports that differ in the deliveries to references that lead to the location, in the
counter of failed fetches and in reports of that counter. -/
inductive Report.Twins (a : Location) (r : Report) : Report → Prop where
  | mk {entries : List Entry} {failures : UInt64} {metrics : List LogLine}
      (hentries : List.Forall₂ (Entry.Twins a) r.entries entries)
      (hmetrics : SameReports r.metrics metrics) :
      Twins a r
        { r with entries, counters := { r.counters with fetchFailures := failures }, metrics }

namespace Twins

variable {a : Location} {b c : HostBench} {number : Nat}

/-- The hosts of two callers whose hosts are twins. -/
theorem host (htwins : b.Twins a c) : b.host.Twins a c.host := by
  cases htwins with
  | mk hhost => exact hhost

/-- Both hosts are busy, or none is. -/
theorem isBusy (htwins : b.Twins a c) : c.isBusy = b.isBusy :=
  htwins.host.isBusy

/-- Both callers have gone wrong in the same way, or none has. -/
theorem misuse (htwins : b.Twins a c) : c.misuse = b.misuse := by
  cases htwins; rfl

/-- The hosts change, and stay twins. -/
theorem withHost (htwins : b.Twins a c) {h k : Host} (hhost : h.Twins a k) :
    { b with host := h }.Twins a { c with host := k } := by
  cases htwins with
  | mk _ => exact ⟨hhost⟩

/-- Both callers keep the same sending ends. -/
theorem withSenders (htwins : b.Twins a c) (senders : List Nat) :
    { b with senders }.Twins a { c with senders } := by
  cases htwins with
  | mk hhost => exact ⟨hhost⟩

/-- The pipelines change, and stay twins. -/
theorem withPipeline (htwins : b.Twins a c) {p q : Pipeline} (hpipeline : p.Twins a q) :
    (b.onPipeline fun _ => p).Twins a (c.onPipeline fun _ => q) :=
  htwins.withHost (htwins.host.withPipeline hpipeline)

/-- The intakes change alike. -/
theorem onIntake (htwins : b.Twins a c) (f : Intake → Intake) :
    (b.onIntake f).Twins a (c.onIntake f) := by
  rw [HostBench.onIntake, HostBench.onIntake, HostBench.onPipeline, HostBench.onPipeline,
    htwins.host.pipeline.intake]
  exact htwins.withHost (htwins.host.withIntake _)

/-- The queue of a run changes alike. -/
theorem onQueue (htwins : b.Twins a c) (era : Nat) (f : Queue Reference → Queue Reference) :
    (b.onQueue era f).Twins a (c.onQueue era f) :=
  htwins.onIntake _

/-- All sending ends are dropped. -/
theorem dropSenders (htwins : b.Twins a c) (senders : List Nat) :
    (senders.foldl (fun b era => b.onQueue era Queue.dropSender) b).Twins a
      (senders.foldl (fun b era => b.onQueue era Queue.dropSender) c) := by
  induction senders generalizing b c with
  | nil => exact htwins
  | cons era rest ih => exact ih (htwins.onQueue era _)

/-- Of twins the same is asked, with the same answer. -/
theorem perform_same (htwins : b.Twins a c) (action : Action) :
    (perform number c action).1 = (perform number b action).1 ∧
      (perform number b action).2.Twins a (perform number c action).2 := by
  have hsame := htwins
  obtain @⟨host, hhost⟩ := htwins
  have hpipeline := hhost.pipeline
  cases action with
  | start =>
      have hstart := hhost.start
      rw [perform, perform, hsame.isBusy]
      dsimp only
      split
      · exact ⟨rfl, hsame⟩
      · generalize b.host.start = x, host.start = y at hstart ⊢
        cases hstart with
        | refused fault => exact ⟨rfl, hsame⟩
        | broken hbroken cause => exact ⟨rfl, ⟨hbroken⟩⟩
        | launched hlaunched =>
            dsimp only
            rw [hlaunched.pipeline.intake]
            exact ⟨rfl, ⟨hlaunched⟩⟩
  | trySubmit refs =>
      rw [perform, perform]
      dsimp only
      split
      · exact ⟨rfl, hsame⟩
      · rw [hpipeline.intake]
        refine ⟨rfl, ?_⟩
        dsimp only
        exact hsame.onIntake _
  | submit r =>
      rw [perform, perform]
      dsimp only
      split
      · exact ⟨rfl, hsame⟩
      · refine ⟨rfl, ?_⟩
        dsimp only
        exact (hsame.onQueue _ _).onIntake _
  | forward supply =>
      rw [perform, perform]
      dsimp only
      split
      · exact ⟨rfl, hsame⟩
      · refine ⟨rfl, ?_⟩
        dsimp only
        exact (hsame.withSenders _).onIntake _
  | clone =>
      rw [perform, perform]
      dsimp only
      split
      · exact ⟨rfl, hsame⟩
      · exact ⟨rfl, (hsame.onQueue _ _).withSenders _⟩
  | drop =>
      rw [perform, perform]
      dsimp only
      split
      · exact ⟨rfl, hsame⟩
      · exact ⟨rfl, (hsame.onQueue _ _).withSenders _⟩
  | dropAll => exact ⟨rfl, (hsame.dropSenders _).withSenders []⟩
  | stop =>
      rw [perform, perform, hsame.isBusy]
      split
      · exact ⟨rfl, hsame⟩
      · exact ⟨rfl, ⟨hhost.beginStop _⟩⟩
  | drain =>
      rw [perform, perform, hsame.isBusy]
      split
      · exact ⟨rfl, hsame⟩
      · exact ⟨rfl, ⟨hhost.beginDrain _⟩⟩
  | run supply =>
      rw [perform, perform, hsame.isBusy]
      dsimp only
      rw [hhost.kind]
      split
      · exact ⟨rfl, hsame⟩
      · split
        · exact ⟨rfl, hsame⟩
        · exact ⟨rfl, ⟨hhost.begun _⟩⟩
  | push refs =>
      rw [perform, perform]
      dsimp only
      split
      · exact ⟨rfl, hsame⟩
      · rw [hhost.isFed]
        split
        · exact ⟨rfl, ⟨hhost.onSupply _ _⟩⟩
        · exact ⟨rfl, hsame⟩
  | endFeed =>
      rw [perform, perform]
      dsimp only
      split
      · exact ⟨rfl, hsame⟩
      · exact ⟨rfl, ⟨hhost.onSupply _ _⟩⟩
  | interrupt =>
      rw [perform, perform]
      dsimp only
      rw [hhost.operation]
      split
      · split
        · exact ⟨rfl, ⟨hhost.interrupt⟩⟩
        · exact ⟨rfl, hsame⟩
      · exact ⟨rfl, hsame⟩
  | cancel => exact ⟨rfl, ⟨hhost.cancel _⟩⟩
  | replaceRoot =>
      have hrenewed := hhost.renewRoot
      rw [perform, perform, hsame.isBusy]
      dsimp only
      rw [hhost.running, hhost.kind]
      split
      · exact ⟨rfl, hsame⟩
      · dsimp only
        rw [hrenewed.root]
        exact ⟨rfl, ⟨hrenewed⟩⟩
  | finished =>
      have hsettled := hhost.settle
      rw [perform, perform, hsame.isBusy]
      split
      · exact ⟨rfl, hsame⟩
      · dsimp only
        rw [hsettled.handles, hsettled.pipeline.isOver]
        split
        · exact ⟨rfl, ⟨hsettled⟩⟩
        · exact ⟨rfl, ⟨hsettled.elapse 1⟩⟩
  | release location mode =>
      obtain ⟨hanswer, hreleased⟩ := releaseFetch_twins hpipeline (m := mode) (n := mode) location
        fun _ _ => .inl rfl
      exact ⟨hanswer, hsame.withPipeline hreleased⟩
  | releaseHook key mode =>
      obtain ⟨hanswer, hreleased⟩ := releaseHook_twins hpipeline key mode
      rw [perform, perform]
      dsimp only
      rw [hhost.holdsShutdown]
      split
      · split
        · exact ⟨rfl, ⟨hhost.releaseShutdown mode⟩⟩
        · exact ⟨rfl, hsame⟩
      · exact ⟨hanswer, hsame.withPipeline hreleased⟩
  | guard access =>
      rw [perform, perform]
      dsimp only
      rw [hpipeline.lock]
      exact ⟨rfl, hsame.withPipeline { hpipeline with lock := rfl }⟩
  | unguard =>
      rw [perform, perform]
      dsimp only
      rw [hpipeline.lock]
      exact ⟨rfl, hsame.withPipeline { hpipeline with lock := rfl }⟩
  | sleep _ | look => exact ⟨rfl, hsame⟩

/-- Of twins the same is asked up to the answer of a fetch of the location, with the same answer. -/
theorem perform (htwins : b.Twins a c) {x y : Action} (haction : x.Twins a b.host.pipeline y) :
    (HostBench.perform number c y).1 = (HostBench.perform number b x).1 ∧
      (HostBench.perform number b x).2.Twins a (HostBench.perform number c y).2 := by
  cases haction with
  | refl => exact htwins.perform_same x
  | @release location m n hm hn hlocation =>
      obtain ⟨hanswer, hreleased⟩ := releaseFetch_twins htwins.host.pipeline (m := m) (n := n) location
        fun j hj => .inr ⟨hlocation j hj, hm, hn⟩
      exact ⟨hanswer, htwins.withPipeline hreleased⟩

/-- Twins put the same away. -/
theorem putAway (htwins : b.Twins a c) : b.putAway.Twins a c.putAway := by
  obtain @⟨host, hhost⟩ := htwins
  cases hhost with
  | @mk q lines hpipeline hreports =>
      rw [HostBench.putAway, HostBench.putAway]
      dsimp only
      rw [hpipeline.intake, ← hpipeline.journal.length_eq]
      exact ⟨.mk { hpipeline with intake := rfl } rfl⟩

end Twins

/-! ### Courses -/

/-- Two moves agree, unless both callers answer a fetch of the location that waits. -/
inductive Move.Twins (a : Location) (p : Pipeline) : Move → Move → Prop where
  | refl (m : Move) : Twins a p m m
  | act (number : Nat) {x y : Action} (haction : x.Twins a p y) :
      Twins a p (.act number x) (.act number y)

/-- Two lists of moves that agree, move by move, along the course that the first one takes. -/
inductive ParallelMoves (a : Location) : HostBench → List Move → List Move → Prop where
  | nil (b : HostBench) : ParallelMoves a b [] []
  | cons {b : HostBench} {m n : Move} {ms ns : List Move} (hfirst : m.Twins a b.host.pipeline n)
      (hrest : ParallelMoves a (b.move m) ms ns) : ParallelMoves a b (m :: ms) (n :: ns)

namespace Twins

variable {a : Location} {b c : HostBench}

/-- Twins stay twins when their callers act. -/
theorem act (htwins : b.Twins a c) (number : Nat) {x y : Action}
    (haction : x.Twins a b.host.pipeline y) :
    (b.move (.act number x)).Twins a (c.move (.act number y)) := by
  have hperformed : (HostBench.perform number b x).2.Twins a (HostBench.perform number c y).2 :=
    (htwins.perform haction).2
  cases haction with
  | refl =>
      -- Looking whether a run has finished is no move.
      cases x with
      | finished => exact htwins
      | _ => exact hperformed
  | release => exact hperformed

/-- **One move.** Twins stay twins, whatever happens. -/
theorem move (htwins : b.Twins a c) {m n : Move} (hmove : m.Twins a b.host.pipeline n) :
    (b.move m).Twins a (c.move n) := by
  cases hmove with
  | act number haction => exact htwins.act number haction
  | refl =>
      cases m with
      | act number action => exact htwins.act number (.refl action)
      | event e =>
          have hadvance := htwins.host.advance e
          rw [HostBench.move, HostBench.move]
          generalize b.host.advance e = x, c.host.advance e = y at hadvance ⊢
          cases hadvance with
          | none => exact htwins
          | some hnext => exact htwins.withHost hnext
      | wake => exact htwins.withHost htwins.host.wakeReporter
      | elapse ms => exact htwins.withHost (htwins.host.elapse ms)
      | report => exact htwins.putAway

end Twins

/-- Twins are twins after parallel moves. -/
theorem ParallelMoves.course {a : Location} {b c : HostBench} {moves moves' : List Move}
    (h : ParallelMoves a b moves moves') (htwins : b.Twins a c) :
    (b.course moves).Twins a (c.course moves') := by
  induction h generalizing c with
  | nil b => exact htwins
  | cons hfirst hrest ih => exact ih (htwins.move hfirst)

/-! ### Runs -/

/-- Two lists of actions that agree, action by action, along what the first caller does in the step
with the given number. -/
inductive Parallel (a : Location) (number : Nat) :
    HostBench → List Action → List Action → Prop where
  | nil (b : HostBench) : Parallel a number b [] []
  | cons {b : HostBench} {x y : Action} {xs ys : List Action}
      (hfirst : x.Twins a b.host.pipeline y)
      (hrest : Parallel a number (perform number b x).2 xs ys) :
      Parallel a number b (x :: xs) (y :: ys)

/-- Two lists of steps that agree along the first run, where the first step has the given number. -/
inductive ParallelSteps (a : Location) :
    Nat → HostBench → List (List Action) → List (List Action) → Prop where
  | nil (number : Nat) (b : HostBench) : ParallelSteps a number b [] []
  | cons {number : Nat} {b : HostBench} {xs ys : List Action} {rest rest' : List (List Action)}
      (hfirst : Parallel a number b xs ys)
      (hrest : ParallelSteps a (number + 1) (step number b xs).2 rest rest') :
      ParallelSteps a number b (xs :: rest) (ys :: rest')

/-- What is reported after each step of a run and what the caller has then, where the first step has
the given number. -/
def trace (number : Nat) (b : HostBench) : List (List Action) → List (Report × HostBench)
  | [] => []
  | actions :: rest => step number b actions :: trace (number + 1) (step number b actions).2 rest

/-- The hook that is held is the same in both. -/
theorem heldHook?_twins {a : Location} {h k : Host} (htwins : h.Twins a k) :
    heldHook? k = heldHook? h := by
  rw [HostBench.heldHook?, HostBench.heldHook?, htwins.holdsShutdown,
    heldKey?_twins htwins.pipeline]

namespace Parallel

variable {a : Location} {number : Nat} {b c : HostBench} {xs ys : List Action}

/-- Parallel actions have the same answers and leave twins. -/
theorem performAll (h : Parallel a number b xs ys) (htwins : b.Twins a c) :
    (performAll (perform number) c ys).1 = (performAll (perform number) b xs).1 ∧
      (performAll (perform number) b xs).2.Twins a (performAll (perform number) c ys).2 := by
  induction h generalizing c with
  | nil b => exact ⟨rfl, htwins⟩
  | cons hfirst hrest ih =>
      obtain ⟨hanswer, hnext⟩ := htwins.perform hfirst
      obtain ⟨hanswers, hlast⟩ := ih hnext
      exact ⟨congrArg₂ List.cons hanswer hanswers, hlast⟩

/-- Parallel steps take the same time. -/
theorem duration (h : Parallel a number b xs ys) : duration ys = duration xs := by
  have hsleeps : ys.filterMap Action.sleep? = xs.filterMap Action.sleep? := by
    induction h with
    | nil b => rfl
    | cons hfirst hrest ih =>
        rw [List.filterMap_cons, List.filterMap_cons, ih]
        cases hfirst <;> rfl
  rw [HostBench.duration, HostBench.duration, hsleeps]

/-- **One step.** Twins that take parallel steps report the same, except for what the fetches of the
location have brought, and stay twins. -/
theorem step (h : Parallel a number b xs ys) (htwins : b.Twins a c) :
    (step number b xs).1.Twins a (step number c ys).1 ∧
      (step number b xs).2.Twins a (step number c ys).2 := by
  obtain ⟨hanswers, hperformed⟩ := h.performAll htwins
  have hsettled := hperformed.host.settle.elapse (HostBench.duration xs)
  -- From here on only the hosts after the step matter, not how they came about.
  rw [HostBench.step, HostBench.step, h.duration]
  generalize Scenario.performAll (perform number) b xs = x,
    Scenario.performAll (perform number) c ys = y at hanswers hperformed hsettled ⊢
  obtain ⟨answers, b⟩ := x
  obtain ⟨answers', c⟩ := y
  dsimp only at hanswers hperformed hsettled ⊢
  generalize b.host.settle.elapse (HostBench.duration xs) = settled,
    c.host.settle.elapse (HostBench.duration xs) = settled' at hsettled ⊢
  subst hanswers
  cases hperformed with
  | mk _ =>
      cases hsettled with
      | @mk q lines hpipeline hreports =>
          dsimp only
          have hentries : List.Forall₂ (Entry.Twins a) (settled.pipeline.history.drop b.seen)
              (q.history.drop b.seen) :=
            List.forall₂_drop _ (List.rel_reverse hpipeline.journal)
          have hhook := heldHook?_twins (.mk hpipeline hreports)
          rw [hpipeline.intake, ← hpipeline.journal.length_eq]
          refine ⟨?_, ⟨.mk { hpipeline with intake := rfl } rfl⟩⟩
          rw [hpipeline.pool.held, hpipeline.activity, hpipeline.tokens, hpipeline.pool.handles, hhook,
            hpipeline.counters]
          exact ⟨hentries, hreports⟩

end Parallel

/-- What two runs come to: both end with their callers, for the same reason, or neither does, and
their reports go together. -/
inductive Outcome.Twins (a : Location) :
    Except Misuse (List Report) → Except Misuse (List Report) → Prop where
  | ok {reports reports' : List Report}
      (hreports : List.Forall₂ (Report.Twins a) reports reports') :
      Twins a (.ok reports) (.ok reports')
  | error (cause : Misuse) : Twins a (.error cause) (.error cause)

namespace ParallelSteps

variable {a : Location} {number : Nat} {b c : HostBench} {steps steps' : List (List Action)}

/-- After each of several parallel steps there are twins. -/
theorem trace (h : ParallelSteps a number b steps steps') (htwins : b.Twins a c) :
    List.Forall₂ (fun x y => x.1.Twins a y.1 ∧ x.2.Twins a y.2) (trace number b steps)
      (trace number c steps') := by
  induction h generalizing c with
  | nil number b => exact .nil
  | cons hfirst hrest ih =>
      obtain ⟨hreport, hnext⟩ := hfirst.step htwins
      exact .cons ⟨hreport, hnext⟩ (ih hnext)

/-- What parallel steps come to. -/
theorem runFrom (h : ParallelSteps a number b steps steps') (htwins : b.Twins a c) :
    Outcome.Twins a (runFrom number b steps) (runFrom number c steps') := by
  induction h generalizing c with
  | nil number b => exact .ok .nil
  | @cons number b xs ys rest rest' hfirst hrest ih =>
      obtain ⟨hreport, hnext⟩ := hfirst.step htwins
      have hlater := ih hnext
      rw [HostBench.runFrom, HostBench.runFrom]
      dsimp only
      rw [hnext.misuse]
      split
      · exact .error _
      · generalize HostBench.runFrom (number + 1) (step number b xs).2 rest = x,
          HostBench.runFrom (number + 1) (step number c ys).2 rest' = y at hlater ⊢
        cases hlater with
        | ok hreports => exact .ok (.cons hreport hreports)
        | error cause => exact .error cause

end ParallelSteps

/-- Hosts that have never run are twins if their protocols are. -/
theorem Twins.make {a : Location} {protocol protocol' : Protocol}
    (hprotocol : protocol.Twins a protocol') (kind : HostKind) (settings : Settings)
    (ownToken : Bool) :
    (make kind settings protocol ownToken).Twins a (make kind settings protocol' ownToken) := by
  have hpipeline : (Host.make kind settings protocol).pipeline.Twins a
      (Host.make kind settings protocol').pipeline :=
    { protocol := hprotocol
      lock := rfl
      tokens := rfl
      latch := rfl
      intake := rfl
      dispatch := rfl
      completions := ⟨rfl, .nil⟩
      coordinator := rfl
      phase := .ended _
      pool := ⟨rfl, .nil⟩
      counters := rfl
      activity := rfl
      journal := .nil
      sorted := by simp [Host.make, Book.Sorted] }
  have hhost : (Host.make kind settings protocol).Twins a (Host.make kind settings protocol') :=
    .mk hpipeline rfl
  rw [HostBench.make, HostBench.make]
  dsimp only
  split
  · exact ⟨.mk { hpipeline with tokens := rfl } rfl⟩
  · exact ⟨hhost⟩

/-- **Failures are isolated.** Two callers take a host each, whose protocols agree but for the
answers of fetches of one location.

Whatever they do and whatever happens, in any order: as long as the moves are parallel the hosts are
twins, and the same events can happen in both, which leave twins again.

If the hosts settle after every step of their callers, they are twins after every step too, and what
is reported of them differs in the deliveries to references that lead to the location and in the
number of failed fetches at most. -/
theorem failures_isolated {a : Location} {protocol protocol' : Protocol}
    (hprotocol : protocol.Twins a protocol') (kind : HostKind) (settings : Settings)
    (ownToken : Bool) :
    let b := make kind settings protocol ownToken
    let c := make kind settings protocol' ownToken
    (∀ moves moves', ParallelMoves a b moves moves' →
      (b.course moves).Twins a (c.course moves') ∧
        ∀ e, Option.Rel (Host.Twins a) ((b.course moves).host.advance e)
          ((c.course moves').host.advance e)) ∧
    ∀ steps steps', ParallelSteps a 0 b steps steps' →
      List.Forall₂ (fun x y => x.1.Twins a y.1 ∧ x.2.Twins a y.2) (trace 0 b steps)
          (trace 0 c steps') ∧
        Outcome.Twins a (run b steps) (run c steps') := by
  have htwins : (make kind settings protocol ownToken).Twins a
      (make kind settings protocol' ownToken) := .make hprotocol kind settings ownToken
  refine ⟨fun moves moves' hmoves => ?_, fun steps steps' hsteps => ?_⟩
  · have hcourse := hmoves.course htwins
    exact ⟨hcourse, fun e => hcourse.host.advance e⟩
  · exact ⟨hsteps.trace htwins, hsteps.runFrom htwins⟩

/-- A fetcher with two workers, whose fetches wait until they are let go. -/
def patient : HostBench :=
  make .fetcher ⟨2, 8, 2, 2, ⟨5, 0⟩⟩ {} false

/-- Three references of which two lead to one location. -/
def threeReferences : List Reference :=
  [{ id := 1, target := .location (.number 7) }, { id := 2, target := .location (.number 7) },
    { id := 3, target := .location (.number 8) }]

/-- Three references are submitted of which two lead to one location, and the fetch of that location
is let go with the given answer before the other one is. -/
def answering (mode : FetchMode) : List (List Action) :=
  [[.start], [.trySubmit threeReferences], [.release none mode],
    [.release none (.content (some "eight"))]]

/-- The same with a coordinator that takes nothing up but the first reference before its fetch is
let go, and the second one before the worker has handed the outcome in. -/
def answeringEarly (mode : FetchMode) : List Move :=
  [.act 0 .start, .act 1 (.trySubmit threeReferences), .event (.inside .coordinate),
    .event (.inside .coordinate), .event (.inside .coordinate), .event (.inside (.work 0)),
    .event (.inside (.work 0)), .act 2 (.release none mode), .event (.inside .coordinate),
    .event (.inside .coordinate), .event (.inside (.work 0)), .event (.inside (.work 0)),
    .event (.inside .coordinate)]

set_option maxRecDepth 2048 in
/-- Whether the first of two fetches brings its content or fails shows in the deliveries to its two
references and in the counter of failures, also in an order in which a host does not settle. -/
theorem failures_isolated_answering :
    let steps := answering (.content (some "seven"))
    let steps' := answering (.fail ⟨"gone", []⟩)
    let moves := answeringEarly (.content (some "seven"))
    let moves' := answeringEarly (.fail ⟨"gone", []⟩)
    ParallelMoves (.number 7) patient moves moves' ∧
    (patient.course moves).Twins (.number 7) (patient.course moves') ∧
    (patient.course moves).host.pipeline.counters.fetchFailures = 0 ∧
    (patient.course moves').host.pipeline.counters.fetchFailures = 1 ∧
    (patient.course moves').host.pipeline.coordinator.phase =
      .fanningOut (.failure (.failed (.number 7) ⟨"gone", []⟩)) (threeReferences.take 2) ∧
    ParallelSteps (.number 7) 0 patient steps steps' ∧
    List.Forall₂ (fun x y => x.1.Twins (.number 7) y.1 ∧ x.2.Twins (.number 7) y.2)
      (trace 0 patient steps) (trace 0 patient steps') ∧
    Outcome.Twins (.number 7) (run patient steps) (run patient steps') ∧
    (trace 0 patient steps).map (fun x => x.1.counters.fetchFailures) = [0, 0, 0, 0] ∧
    (trace 0 patient steps').map (fun x => x.1.counters.fetchFailures) = [0, 0, 1, 1] := by
  intro steps steps' moves moves'
  have hmoves : ParallelMoves (.number 7) patient moves moves' := by
    iterate 7 refine .cons (.refl _) ?_
    refine .cons (.act 2 (.release rfl rfl fun j hj => ?_)) ?_
    · have hlocation : some j.location = some (Location.number 7) := by
        rw [← Option.map_some, ← hj]
        rfl
      exact congrArg Location.core (Option.some.inj hlocation)
    · iterate 5 refine .cons (.refl _) ?_
      exact .nil _
  have hsteps : ParallelSteps (.number 7) 0 patient steps steps' := by
    refine .cons (.cons (.refl _) (.nil _)) (.cons (.cons (.refl _) (.nil _)) ?_)
    refine .cons (.cons (.release rfl rfl fun j hj => ?_) (.nil _))
      (.cons (.cons (.refl _) (.nil _)) (.nil _ _))
    have hlocation : some j.location = some (Location.number 7) := by
      rw [← Option.map_some, ← hj]
      rfl
    exact congrArg Location.core (Option.some.inj hlocation)
  have hprotocol : ({} : Protocol).Twins (.number 7) {} := ⟨fun _ => .inl rfl, rfl, rfl, rfl⟩
  obtain ⟨hcourses, hruns⟩ := failures_isolated hprotocol .fetcher ⟨2, 8, 2, 2, ⟨5, 0⟩⟩ false
  obtain ⟨htrace, hrun⟩ := hruns steps steps' hsteps
  exact ⟨hmoves, (hcourses moves moves' hmoves).1, by rfl, by rfl, by rfl, hsteps, htrace, hrun,
    by rfl, by rfl⟩

end HostBench

end Scenario

end SharedFetch
