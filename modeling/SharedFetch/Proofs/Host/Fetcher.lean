import SharedFetch.Proofs.Host.Progress
import SharedFetch.Proofs.Marks

/-!
# What a fetcher has of a run, and what it writes down

A fetcher that takes a run down gives back one part after the other: the task of the coordinator,
the workers, the token and the signal of the end. So what it has of the run goes with the phase of
its operation (`Host.Fetcher`), and so does the stretch of its life that it is in.

The marks of a step are read off from the host before and after (`Host.marks`); nothing in the host
looks at them. Each step writes what can be read in the stretch that the host is in, and leads to
the stretch that it is then in.

## Main results

* `Host.Fetcher.step`: what a fetcher has of a run, through every step.
* `Host.Fetcher.read?_marks`: what a step writes can be read.
* `Host.Fetcher.filter_history`: the calls that a step writes down are those in the journal.
* `Host.Fetcher.waits_of_settled`: what an operation waits for once nobody can go on.
-/

namespace SharedFetch

open Pipeline

/-- What a host has of a run: whether it counts as running, the handles that it keeps, and whether
it answers for the workers. -/
structure Charge where
  running : Bool := false
  handles : Handles := {}
  crew : Bool := false

namespace OperationPhase

/-- The stretch in the life of a fetcher that a phase of its operation belongs to. -/
@[simp] def stretch : OperationPhase → Stretch
  | .opening _ | .watching _ => .running
  | .draining | .joiningCoordinator | .joiningWorkers _ | .joiningReporter _ | .awaitingLock _ =>
    .ending
  | .inShutdown .. => .told
  | .returning _ => .passing

/-- What a fetcher has of a run in a phase of its operation. -/
@[simp] def charge : OperationPhase → Charge
  | .draining => ⟨true, ⟨true, true, true⟩, true⟩
  | .joiningCoordinator => ⟨true, ⟨false, true, true⟩, true⟩
  | .joiningWorkers _ => ⟨true, ⟨false, true, true⟩, false⟩
  | .joiningReporter _ => ⟨true, ⟨false, true, false⟩, false⟩
  | .opening _ | .watching _ | .awaitingLock _ | .inShutdown .. | .returning _ => {}

/-- Whether only a runner has an operation in this phase. -/
@[simp] def isRunners : OperationPhase → Bool
  | .opening _ | .watching _ => true
  | _ => false

/-- Whether the operation waits for a part of the run that it has cancelled. -/
@[simp] def isJoining : OperationPhase → Bool
  | .joiningCoordinator | .joiningWorkers _ | .joiningReporter _ => true
  | _ => false

end OperationPhase

/-- Of what is called the marks tell as the entries do, apart from the end of a run. -/
theorem Mark.entries_of_not_isShutdown {entries : List Entry}
    (h : ∀ e ∈ entries, e.isShutdown = false) :
    (entries.filterMap Mark.ofEntry?).filterMap Mark.entry? = entries.filter fun e => !e.isNote := by
  induction entries with
  | nil => rfl
  | cons e entries ih =>
      have ih := ih fun e he => h e (List.mem_cons_of_mem _ he)
      have he := h e List.mem_cons_self
      cases e with
      | shutdown => cases he
      | note n => exact ih
      | _ => exact congrArg (_ :: ·) ih

/-- The calls of the protocol from one pipeline to another. -/
def Pipeline.calls (p q : Pipeline) : List Mark :=
  (q.entriesFrom p.journal.length).filterMap Mark.ofEntry?

namespace Pipeline

variable {p q : Pipeline}

theorem isCall_of_mem_calls {m : Mark} (h : m ∈ p.calls q) : m.isCall = true := by
  obtain ⟨e, -, he⟩ := List.mem_filterMap.mp h
  exact Mark.isCall_of_ofEntry? he

/-- What is new in the journal is what is called. -/
theorem calls_eq {new : List Entry} (hjournal : q.journal = new ++ p.journal) :
    p.calls q = new.reverse.filterMap Mark.ofEntry? := by
  rw [calls, entriesFrom_append (Nat.le_refl _) hjournal, entriesFrom_length, List.nil_append]

/-- The end of a run is no call. -/
theorem calls_eq_nil {new : List Entry} (hjournal : q.journal = new ++ p.journal)
    (hnew : ∀ e ∈ new, e = .shutdown) : p.calls q = [] := by
  rw [calls_eq hjournal, List.filterMap_eq_nil_iff]
  intro e he
  rw [hnew e (List.mem_reverse.mp he)]
  rfl

theorem calls_of_journal_eq (hjournal : q.journal = p.journal) : p.calls q = [] := by
  have hnew : q.journal = [] ++ p.journal := hjournal
  exact calls_eq_nil hnew fun _ he => absurd he List.not_mem_nil

/-- Within a run nothing is taken out of the journal. -/
theorem Change.exists_journal (h : p.Change q) : ∃ new, q.journal = new ++ p.journal := by
  rcases h.cases with hstep | ⟨mode, rfl⟩ | hspares
  · obtain ⟨new, hwrites⟩ := hstep.exists_writes
    exact ⟨new, hwrites.journal⟩
  · exact ⟨[], by rw [releaseHook_eq]; rfl⟩
  · obtain ⟨new, hjournal, -⟩ := hspares.journal
    exact ⟨new, hjournal⟩

/-- Whether the protocol has hooks is the same throughout. -/
theorem Change.plain (h : p.Change q) : q.protocol.plain = p.protocol.plain := by
  cases h with
  | coordinated hstep => rw [hstep.protocol]
  | worked hstep => exact hstep.plain
  | hookReleased mode => rw [releaseHook_eq]
  | fetchReleased hj mode => rw [releaseFetch_eq]
  | tasksSpared hspares | renewed hspares => exact hspares.plain

/-- A run that is through calls nothing any more. -/
theorem Change.calls_of_finished (h : p.Change q) (hfinished : p.Finished) : p.calls q = [] := by
  cases h with
  | coordinated hstep =>
      cases hstep.running.symm.trans hfinished.ended
  | worked hstep =>
      cases hstep.isGone_eq_false.symm.trans hfinished.gone
  | hookReleased mode =>
      exact calls_of_journal_eq (by rw [releaseHook_eq])
  | fetchReleased hj mode =>
      exact calls_of_journal_eq (by rw [releaseFetch_eq])
  | tasksSpared hspares | renewed hspares =>
      obtain ⟨new, hjournal, hshutdown⟩ := hspares.journal
      exact calls_eq_nil hjournal hshutdown

end Pipeline

namespace Host

variable {h h' : Host} {op : Operation}

/-- The stretch in its life that a fetcher is in. -/
def stretch (h : Host) : Stretch :=
  match h.operation with
  | none => if h.running then .running else .idle
  | some op => op.phase.stretch

/-- What a fetcher should have of a run. -/
def charge (h : Host) : Charge :=
  match h.operation with
  | none => ⟨h.running, ⟨h.running, h.running, h.running⟩, h.running⟩
  | some op => op.phase.charge

/-- What is written down when a host changes. -/
def marks (h h' : Host) : List Mark :=
  (if !h.running && h'.running then [.started] else []) ++
  (if h.operation.isNone && h'.operation.isSome then [.begun h.running] else []) ++
  h.pipeline.calls h'.pipeline ++
  (if !h.writes && h'.writes then [.shutdown] else []) ++
  (if h.operation.isSome && h'.operation.isNone then [.returned] else [])

/-- A fetcher has of a run what it should have. Its operations are those of a fetcher, and one that
waits for a part of the run has cancelled it. -/
structure Fetcher (h : Host) : Prop where
  kind : h.kind = .fetcher
  phase : ∀ op, h.operation = some op → op.phase.isRunners = false
  running : h.running = h.charge.running
  handles : h.handles = h.charge.handles
  crew : h.pipeline.pool.handles = if h.charge.crew then h.poolSize else 0
  gauge : h.pipeline.counters.poolSize = UInt64.ofNat h.pipeline.pool.handles
  cancelled : ∀ op, h.operation = some op → op.phase.isJoining = true →
    h.pipeline.isCancelled = true

theorem stretch_of_phase {phase : OperationPhase} (hop : h.operation = some op)
    (hphase : op.phase = phase) : h.stretch = phase.stretch := by
  rw [stretch, hop, ← hphase]

theorem charge_of_phase {phase : OperationPhase} (hop : h.operation = some op)
    (hphase : op.phase = phase) : h.charge = phase.charge := by
  rw [charge, hop, ← hphase]

theorem charge_of_free (hfree : h.operation = none) :
    h.charge = ⟨h.running, ⟨h.running, h.running, h.running⟩, h.running⟩ := by
  rw [charge, hfree]

/-- The hook for the end of a run has answered. A fetcher keeps its root. -/
theorem exists_of_finishShutdown? {mode : HookMode} {fault : Option Fault}
    (hkind : h.kind = .fetcher) (hstep : h.finishShutdown? op fault mode = some h') :
    ∃ intake lost results, h' = { h with
      pipeline := { h.pipeline.freeLock with intake }, operation := none, lost, results } := by
  obtain ⟨lost, results, -, ⟨-, rfl⟩ | ⟨hrunner, -⟩⟩ := exists_eq_of_finishShutdown? hstep
  · exact ⟨_, lost, results, rfl⟩
  · rw [hkind] at hrunner
    cases hrunner

/-- The hook for the end of a run is called, and a protocol with hooks writes that down. -/
theorem exists_journal_callShutdown (h : Host) (op : Operation) (fault : Option Fault) :
    ∃ new, (h.callShutdown op fault).pipeline.journal = new ++ h.pipeline.journal ∧
      ∀ e ∈ new, e = .shutdown := by
  rw [callShutdown]
  cases hplain : h.pipeline.protocol.plain with
  | true => exact ⟨[], by simp [turnTo], by simp⟩
  | false => exact ⟨[.shutdown], by simp [turnTo, log], by simp⟩

/-! ### What is written down -/

/-- An operation goes on. -/
theorem read?_of_turn {op' : Operation} (hop : h.operation = some op)
    (hop' : h'.operation = some op') (hrunning : h'.running = true → h.running = true)
    (hcalls : h.pipeline.calls h'.pipeline = [])
    (hread : op.phase.stretch.read?
      (if !op.phase.writes && op'.phase.writes then [.shutdown] else []) =
        some op'.phase.stretch) : h.stretch.read? (h.marks h') = some h'.stretch := by
  have hstarted : (!h.running && h'.running) = false := by
    cases hnow : h'.running with
    | false => rw [Bool.and_false]
    | true => rw [hrunning hnow]; rfl
  have hmarks : h.marks h' = if !op.phase.writes && op'.phase.writes then [.shutdown] else [] := by
    simp [marks, hstarted, hop, hop', writes_eq hop, writes_eq hop', hcalls]
  rw [hmarks, stretch_of_phase hop rfl, stretch_of_phase hop' rfl, hread]

/-- An operation begins. -/
theorem marks_of_begin {op' : Operation} (hfree : h.operation = none)
    (hop' : h'.operation = some op') (hwrites : op'.phase.writes = false)
    (hrunning : h'.running = h.running) (hjournal : h'.pipeline.journal = h.pipeline.journal) :
    h.marks h' = [.begun h.running] := by
  rw [← writes_eq hop'] at hwrites
  simp [marks, hfree, hop', hwrites, hrunning, calls_of_journal_eq hjournal]

theorem read?_of_begin {op' : Operation} (hfree : h.operation = none)
    (hop' : h'.operation = some op') (hwrites : op'.phase.writes = false)
    (hrunning : h'.running = h.running) (hjournal : h'.pipeline.journal = h.pipeline.journal)
    (hread : (if h.running then Stretch.running else .idle).next? (.begun h.running) =
      some op'.phase.stretch) : h.stretch.read? (h.marks h') = some h'.stretch := by
  rw [marks_of_begin hfree hop' hwrites hrunning hjournal, stretch_of_phase hop' rfl, stretch, hfree]
  simp [hread]

/-- A host that is stopped or drained has an operation, which knows whether there is a run. -/
theorem marks_beginStop (hfree : h.operation = none) (label : Nat) :
    h.marks (h.beginStop label) = [.begun h.running] := by
  rw [beginStop]
  split
  · obtain ⟨tokens, -, -, heq⟩ := exists_tearDown_eq h ⟨label, false, .joiningCoordinator⟩
    rw [heq]
    exact marks_of_begin hfree rfl rfl rfl rfl
  · exact marks_of_begin hfree rfl rfl rfl rfl

theorem marks_beginDrain (hfree : h.operation = none) (label : Nat) :
    h.marks (h.beginDrain label) = [.begun h.running] := by
  rw [beginDrain]
  split
  · exact marks_of_begin hfree rfl rfl rfl rfl
  · exact marks_beginStop hfree label

/-- An operation returns, and there is no run. -/
theorem read?_of_return (hop : h.operation = some op) (hfree : h'.operation = none)
    (hidle : h.running = false) (hidle' : h'.running = false)
    (hjournal : h'.pipeline.journal = h.pipeline.journal)
    (hread : op.phase.stretch.next? .returned = some .idle) :
    h.stretch.read? (h.marks h') = some h'.stretch := by
  have hmarks : h.marks h' = [.returned] := by
    have hwrites : h'.writes = false := by rw [writes, hfree, Option.elim]
    simp [marks, hop, hfree, hwrites, hidle, hidle', calls_of_journal_eq hjournal]
  rw [hmarks, stretch_of_phase hop rfl, stretch, hfree, hidle', Stretch.read?_cons, hread]
  rfl

/-- Without an operation, all that can be written of a host that has no run is that one is
launched. -/
theorem read?_of_free (hfree : h.operation = none) (hfree' : h'.operation = none)
    (hidle : h.running = false) (hjournal : h'.pipeline.journal = h.pipeline.journal) :
    h.stretch.read? (h.marks h') = some h'.stretch := by
  have hmarks : h.marks h' = if h'.running then [.started] else [] := by
    have hwrites : h'.writes = false := by rw [writes, hfree', Option.elim]
    simp [marks, hfree, hfree', hwrites, hidle, calls_of_journal_eq hjournal]
  rw [hmarks, stretch, stretch, hfree, hfree', hidle]
  cases h'.running <;> rfl

/-- Run and operation are as they were. -/
theorem marks_of_keeps (hkeeps : h.Keeps h') : h.marks h' = h.pipeline.calls h'.pipeline := by
  have hwrites : h'.writes = h.writes := by rw [writes, writes, hkeeps.operation]
  rw [marks, hkeeps.running, hkeeps.operation, hwrites]
  cases h.operation <;> simp

/-- What is written down of calls. -/
theorem entries_marks (h h' : Host) : (h.marks h').filterMap Mark.entry? =
    (h.pipeline.calls h'.pipeline).filterMap Mark.entry? ++
      if !h.writes && h'.writes then [.shutdown] else [] := by
  have hnone : ∀ (b : Bool) (m : Mark), m.entry? = none →
      (if b then [m] else []).filterMap Mark.entry? = [] := by
    intro b m hm
    cases b <;> simp [hm]
  have htold : ∀ b : Bool, (if b then [Mark.shutdown] else []).filterMap Mark.entry? =
      if b then [.shutdown] else [] := by
    intro b
    cases b <;> rfl
  simp only [marks, List.filterMap_append]
  rw [hnone _ .started rfl, hnone _ (.begun h.running) rfl, hnone _ .returned rfl, htold]
  simp

/-- A host keeps its settings. -/
theorem Step.settings (hstep : h.Step h') : h'.settings = h.settings := by
  cases hstep with
  | within hkeeps => exact hkeeps.settings
  | launched hfree hstart =>
      obtain ⟨-, rfl⟩ := eq_of_start_launched hstart
      rfl
  | broken hfree hstart =>
      obtain ⟨-, rfl⟩ := eq_of_start_broken hstart
      rfl
  | stopped | tornDown =>
      obtain ⟨tokens, -, -, heq⟩ := exists_tearDown_eq h _
      rw [heq]
      rfl
  | openBroken hop hphase hstart =>
      obtain ⟨-, rfl⟩ := eq_of_start_broken hstart
      exact (keeps_wakeReporter h.beginLife).settings
  | openLaunched hop hphase hstart =>
      rw [openRun, hstart]
      obtain ⟨-, rfl⟩ := eq_of_start_launched hstart
      exact (keeps_wakeReporter _).settings
  | concluded hop hphase hstep => exact (intake_of_finishShutdown? hstep).2.1
  | idled | drained | opening | openRefused | coordinatorJoined | workersJoined | reporterJoined
  | shutdownCalled | returned | supplied | interrupted | shutdownAnswered => rfl

namespace Fetcher

/-- There is no operation. -/
theorem of_free (hkind : h.kind = .fetcher) (hfree : h.operation = none)
    (hhandles : h.handles = ⟨h.running, h.running, h.running⟩)
    (hcrew : h.pipeline.pool.handles = if h.running then h.poolSize else 0)
    (hgauge : h.pipeline.counters.poolSize = UInt64.ofNat h.pipeline.pool.handles) :
    h.Fetcher := by
  have hcharge := charge_of_free hfree
  refine ⟨hkind, fun op hop => ?_, by rw [hcharge], by rw [hcharge, hhandles],
    by rw [hcharge, hcrew], hgauge, fun op hop => ?_⟩
  · cases hfree.symm.trans hop
  · cases hfree.symm.trans hop

/-- There is neither an operation nor a run. -/
theorem of_idle (hkind : h.kind = .fetcher) (hfree : h.operation = none)
    (hidle : h.running = false) (hhandles : h.handles = {}) (hcrew : h.pipeline.pool.handles = 0)
    (hgauge : h.pipeline.counters.poolSize = UInt64.ofNat h.pipeline.pool.handles) :
    h.Fetcher := by
  refine .of_free hkind hfree ?_ ?_ hgauge
  · rw [hidle, hhandles]
  · rw [hidle, hcrew]
    rfl

/-- There is an operation. -/
theorem of_phase (hkind : h.kind = .fetcher) (hop : h.operation = some op)
    (hphase : op.phase.isRunners = false) (hrunning : h.running = op.phase.charge.running)
    (hhandles : h.handles = op.phase.charge.handles)
    (hcrew : h.pipeline.pool.handles = if op.phase.charge.crew then h.poolSize else 0)
    (hgauge : h.pipeline.counters.poolSize = UInt64.ofNat h.pipeline.pool.handles)
    (hcancelled : op.phase.isJoining = true → h.pipeline.isCancelled = true) : h.Fetcher := by
  have hcharge : h.charge = op.phase.charge := charge_of_phase hop rfl
  refine ⟨hkind, fun op' hop' => ?_, by rw [hcharge, hrunning], by rw [hcharge, hhandles],
    by rw [hcharge, hcrew], hgauge, fun op' hop' => ?_⟩
  · obtain rfl := Option.some.inj (hop.symm.trans hop')
    exact hphase
  · obtain rfl := Option.some.inj (hop.symm.trans hop')
    exact hcancelled

/-- No operation of a fetcher opens a run or watches over one. -/
theorem not_isRunners (hfetcher : h.Fetcher) (hop : h.operation = some op)
    (hrunners : op.phase.isRunners = true) : False := by
  cases (hfetcher.phase op hop).symm.trans hrunners

/-- **Every step of a fetcher keeps to what it has of a run.** -/
theorem step (hfetcher : h.Fetcher)
    (hchange : h.pipeline.Change h'.pipeline ∨ h.pipeline.Launched h'.pipeline)
    (hstep : h.Step h') : h'.Fetcher := by
  have hkind := hfetcher.kind
  have hgauge := hfetcher.gauge
  have hrunning := hfetcher.running
  have hhandles := hfetcher.handles
  have hcrew := hfetcher.crew
  cases hstep with
  | within hkeeps hlatch hintake hsame =>
      have hcharge : h'.charge = h.charge := by
        rw [charge, charge, hkeeps.operation, hkeeps.running]
      have hsize : h'.poolSize = h.poolSize := by rw [poolSize, poolSize, hkeeps.settings]
      refine ⟨hkeeps.kind.trans hkind, hkeeps.operation ▸ hfetcher.phase, ?_, ?_, ?_, ?_, ?_⟩
      · rw [hkeeps.running, hcharge, hrunning]
      · rw [hkeeps.handles, hcharge, hhandles]
      · rw [hsame.handles, hcharge, hsize, hcrew]
      · rw [hsame.poolSize, hsame.handles, hgauge]
      · rw [hkeeps.operation]
        exact fun op hop hjoining => ((change_of_turn hintake hchange).signals hlatch).isCancelled
          (hfetcher.cancelled op hop hjoining)
  | launched hfree hstart =>
      obtain ⟨-, rfl⟩ := eq_of_start_launched hstart
      exact .of_free hkind hfree rfl rfl rfl
  | broken hfree hstart =>
      obtain ⟨-, rfl⟩ := eq_of_start_broken hstart
      rw [charge_of_free hfree] at hhandles hcrew
      exact .of_free hkind hfree hhandles hcrew hgauge
  | idled hfree hidle label =>
      rw [charge_of_free hfree, hidle] at hhandles hcrew
      exact .of_phase hkind rfl rfl hidle hhandles hcrew hgauge (by simp)
  | drained hfree hrun label =>
      rw [charge_of_free hfree, hrun] at hhandles hcrew
      exact .of_phase hkind rfl rfl hrun hhandles hcrew hgauge (by simp)
  | opening hfree label supply hrunner => cases hkind.symm.trans hrunner
  | stopped hfree hrun label =>
      obtain ⟨tokens, -, hcancelled, heq⟩ := exists_tearDown_eq h _
      rw [charge_of_free hfree, hrun] at hhandles hcrew
      rw [heq]
      exact .of_phase hkind rfl rfl hrun (by simp [turnTo, hhandles]) hcrew hgauge fun _ => hcancelled
  | @tornDown op hop hphase =>
      obtain ⟨tokens, -, hcancelled, heq⟩ := exists_tearDown_eq h op
      rcases hphase with hphase | ⟨interrupted, hphase⟩
      · rw [charge_of_phase hop hphase] at hrunning hhandles hcrew
        rw [heq]
        exact .of_phase hkind rfl rfl hrunning (by simp [turnTo, hhandles]) hcrew hgauge
          fun _ => hcancelled
      · exact (hfetcher.not_isRunners hop (by rw [hphase]; rfl)).elim
  | openRefused hop hphase | openBroken hop hphase | openLaunched hop hphase | supplied hop hphase
  | interrupted hop hphase => exact (hfetcher.not_isRunners hop (by rw [hphase]; rfl)).elim
  | coordinatorJoined hop hphase hending =>
      rw [charge_of_phase hop hphase] at hrunning hhandles
      exact .of_phase hkind rfl rfl hrunning hhandles rfl rfl
        fun _ => hfetcher.cancelled _ hop (by rw [hphase]; rfl)
  | workersJoined hop hphase hgone =>
      rw [charge_of_phase hop hphase] at hrunning hhandles hcrew
      exact .of_phase hkind rfl rfl hrunning (by simp [turnTo, hhandles]) hcrew hgauge
        fun _ => hfetcher.cancelled _ hop (by rw [hphase]; rfl)
  | reporterJoined hop hphase hgone =>
      rw [charge_of_phase hop hphase] at hhandles hcrew
      exact .of_phase hkind rfl rfl rfl (by simp [turnTo, hhandles]) hcrew hgauge (by simp)
  | shutdownCalled hop hphase hlock =>
      rw [charge_of_phase hop hphase] at hrunning hhandles hcrew
      rw [callShutdown]
      refine .of_phase hkind rfl rfl hrunning hhandles ?_ ?_ (by simp)
      · dsimp only [turnTo]
        split <;> exact hcrew
      · dsimp only [turnTo]
        split <;> exact hgauge
  | concluded hop hphase hstep =>
      rw [charge_of_phase hop hphase] at hrunning hhandles hcrew
      obtain ⟨intake, lost, results, rfl⟩ := exists_of_finishShutdown? hkind hstep
      exact .of_idle hkind rfl hrunning hhandles hcrew hgauge
  | returned hop hphase =>
      rw [charge_of_phase hop hphase] at hrunning hhandles hcrew
      exact .of_idle hkind rfl hrunning hhandles hcrew hgauge
  | shutdownAnswered hop hphase mode =>
      rw [charge_of_phase hop hphase] at hrunning hhandles hcrew
      exact .of_phase hkind rfl rfl hrunning hhandles hcrew hgauge (by simp)

/-- In a quiet stretch the run is through. -/
theorem finished (hfetcher : h.Fetcher) (horder : h.Orderly) (hquiet : h.stretch.isQuiet = true) :
    h.pipeline.Finished := by
  refine horder.rests ?_
  cases hop : h.operation with
  | none =>
      rw [stretch, hop] at hquiet
      cases hrunning : h.running with
      | false => rfl
      | true => simp [hrunning] at hquiet
  | some op =>
      rw [stretch_of_phase hop rfl] at hquiet
      rw [hfetcher.running, charge_of_phase hop rfl]
      cases hphase : op.phase with
      | inShutdown | returning => rfl
      | _ => simp [hphase] at hquiet

/-- **What one step of a fetcher writes can be read**, and leads to the stretch that it is then
in. -/
theorem read?_marks (hfetcher : h.Fetcher) (horder : h.Orderly)
    (hchange : h.pipeline.Change h'.pipeline ∨ h.pipeline.Launched h'.pipeline)
    (hstep : h.Step h') : h.stretch.read? (h.marks h') = some h'.stretch := by
  have hrunning := hfetcher.running
  cases hstep with
  | within hkeeps hlatch hintake hsame =>
      have hstretch : h'.stretch = h.stretch := by
        rw [stretch, stretch, hkeeps.operation, hkeeps.running]
      rw [marks_of_keeps hkeeps, hstretch]
      cases hquiet : h.stretch.isQuiet with
      | false => exact Stretch.read?_of_calls hquiet fun m => isCall_of_mem_calls
      | true =>
          rw [(change_of_turn hintake hchange).calls_of_finished (hfetcher.finished horder hquiet)]
          rfl
  | launched hfree hstart =>
      obtain ⟨hidle, rfl⟩ := eq_of_start_launched hstart
      exact read?_of_free hfree hfree hidle rfl
  | broken hfree hstart =>
      obtain ⟨hidle, rfl⟩ := eq_of_start_broken hstart
      exact read?_of_free hfree hfree hidle rfl
  | idled hfree hidle label => exact read?_of_begin hfree rfl rfl rfl rfl (by rw [hidle]; rfl)
  | drained hfree hrun label => exact read?_of_begin hfree rfl rfl rfl rfl (by rw [hrun]; rfl)
  | opening hfree label supply hrunner => cases hfetcher.kind.symm.trans hrunner
  | stopped hfree hrun label =>
      obtain ⟨tokens, -, -, heq⟩ := exists_tearDown_eq h ⟨label, false, .joiningCoordinator⟩
      rw [heq]
      exact read?_of_begin hfree rfl rfl rfl rfl (by rw [hrun]; rfl)
  | @tornDown op hop hphase =>
      obtain ⟨tokens, -, -, heq⟩ := exists_tearDown_eq h op
      rcases hphase with hphase | ⟨interrupted, hphase⟩
      · rw [heq]
        exact read?_of_turn hop rfl id (calls_of_journal_eq rfl) (by rw [hphase]; rfl)
      · exact (hfetcher.not_isRunners hop (by rw [hphase]; rfl)).elim
  | openRefused hop hphase | openBroken hop hphase | openLaunched hop hphase | supplied hop hphase
  | interrupted hop hphase => exact (hfetcher.not_isRunners hop (by rw [hphase]; rfl)).elim
  | coordinatorJoined hop hphase | workersJoined hop hphase | shutdownAnswered hop hphase =>
      exact read?_of_turn hop rfl id (calls_of_journal_eq rfl) (by rw [hphase]; rfl)
  | reporterJoined hop hphase hgone =>
      exact read?_of_turn hop rfl nofun (calls_of_journal_eq rfl) (by rw [hphase]; rfl)
  | @shutdownCalled op fault lock hop hphase hlock =>
      refine read?_of_turn hop rfl id ?_ (by rw [hphase]; rfl)
      obtain ⟨new, hjournal, hnew⟩ := exists_journal_callShutdown
        { h with pipeline := { h.pipeline with lock } } op fault
      exact calls_eq_nil hjournal hnew
  | concluded hop hphase hstep =>
      rw [charge_of_phase hop hphase] at hrunning
      obtain ⟨intake, lost, results, rfl⟩ := exists_of_finishShutdown? hfetcher.kind hstep
      exact read?_of_return hop rfl hrunning hrunning rfl (by rw [hphase]; rfl)
  | returned hop hphase =>
      rw [charge_of_phase hop hphase] at hrunning
      exact read?_of_return hop rfl hrunning hrunning rfl (by rw [hphase]; rfl)

/-! ### What the journal has of it -/

/-- What is new in the journal after a step: the end of a run if the hook for it is called, and
otherwise nothing of that kind. -/
theorem exists_journal (hfetcher : h.Fetcher)
    (hchange : h.pipeline.Change h'.pipeline ∨ h.pipeline.Launched h'.pipeline)
    (hstep : h.Step h') :
    h'.pipeline.protocol.plain = h.pipeline.protocol.plain ∧
      ∃ new, h'.pipeline.journal = new ++ h.pipeline.journal ∧
        ((!h.writes && h'.writes) = true ∧
            new = (if h.pipeline.protocol.plain then [] else [.shutdown]) ∨
          (!h.writes && h'.writes) = false ∧ ∀ e ∈ new, e.isShutdown = false) := by
  have hquiet : ∀ {h' : Host}, h'.pipeline.protocol = h.pipeline.protocol →
      h'.pipeline.journal = h.pipeline.journal → h'.writes = false ∨ h.writes = true →
      h'.pipeline.protocol.plain = h.pipeline.protocol.plain ∧
        ∃ new, h'.pipeline.journal = new ++ h.pipeline.journal ∧
          ((!h.writes && h'.writes) = true ∧
              new = (if h.pipeline.protocol.plain then [] else [.shutdown]) ∨
            (!h.writes && h'.writes) = false ∧ ∀ e ∈ new, e.isShutdown = false) := by
    intro h' hprotocol hjournal hwrites
    refine ⟨by rw [hprotocol], [], hjournal, .inr ⟨?_, by simp⟩⟩
    rcases hwrites with hwrites | hwrites <;> simp [hwrites]
  have hfreed : ∀ {h' : Host}, h'.operation = none → h'.writes = false := by
    intro h' hfree
    rw [writes, hfree, Option.elim]
  cases hstep with
  | within hkeeps hlatch hintake hsame =>
      have hchange := change_of_turn hintake hchange
      obtain ⟨new, hjournal⟩ := hchange.exists_journal
      refine ⟨hchange.plain, new, hjournal, .inr ⟨?_, ?_⟩⟩
      · rw [writes, writes, hkeeps.operation, Bool.not_and_self]
      · have hnone := hsame.shutdowns
        rw [hjournal, List.filter_append, List.append_left_eq_self] at hnone
        exact fun e he => by simpa using List.filter_eq_nil_iff.mp hnone e he
  | launched hfree hstart =>
      obtain ⟨-, rfl⟩ := eq_of_start_launched hstart
      exact hquiet rfl rfl (.inl (hfreed hfree))
  | broken hfree hstart =>
      obtain ⟨-, rfl⟩ := eq_of_start_broken hstart
      exact hquiet rfl rfl (.inl (hfreed hfree))
  | opening hfree label supply hrunner => cases hfetcher.kind.symm.trans hrunner
  | stopped | tornDown =>
      obtain ⟨tokens, -, -, heq⟩ := exists_tearDown_eq h _
      rw [heq]
      exact hquiet rfl rfl (.inl rfl)
  | openRefused hop hphase | openBroken hop hphase | openLaunched hop hphase | supplied hop hphase
  | interrupted hop hphase => exact (hfetcher.not_isRunners hop (by rw [hphase]; rfl)).elim
  | idled | drained | coordinatorJoined | workersJoined | reporterJoined =>
      exact hquiet rfl rfl (.inl rfl)
  | shutdownAnswered hop hphase =>
      exact hquiet rfl rfl (.inr (by rw [writes_eq hop, hphase]; rfl))
  | @shutdownCalled op fault lock hop hphase hlock =>
      have hturn : (!h.writes && ({ h with pipeline :=
          { h.pipeline with lock } }.callShutdown op fault).writes) = true := by
        rw [writes_eq hop, hphase]
        rfl
      rw [callShutdown] at hturn ⊢
      cases hplain : h.pipeline.protocol.plain with
      | true => exact ⟨by simp [turnTo, hplain, Protocol.noteShutdown], [], by simp [turnTo],
          .inl ⟨hturn, rfl⟩⟩
      | false => exact ⟨by simp [turnTo, hplain, Protocol.noteShutdown, log], [.shutdown],
          by simp [turnTo, log], .inl ⟨hturn, rfl⟩⟩
  | concluded hop hphase hstep =>
      obtain ⟨intake, lost, results, rfl⟩ := exists_of_finishShutdown? hfetcher.kind hstep
      exact hquiet rfl rfl (.inl rfl)
  | returned hop hphase => exact hquiet rfl rfl (.inl rfl)

/-- What a step writes down of the calls is what is new in the journal of a protocol with hooks, but
for what is only logged. -/
theorem filter_history (hfetcher : h.Fetcher)
    (hchange : h.pipeline.Change h'.pipeline ∨ h.pipeline.Launched h'.pipeline)
    (hstep : h.Step h') (hplain : h.pipeline.protocol.plain = false) :
    h'.pipeline.history.filter (fun e => !e.isNote) =
      h.pipeline.history.filter (fun e => !e.isNote) ++ (h.marks h').filterMap Mark.entry? := by
  obtain ⟨-, new, hjournal, hnew⟩ := hfetcher.exists_journal hchange hstep
  have hhistory : h'.pipeline.history = h.pipeline.history ++ new.reverse := by
    rw [history, history, hjournal, List.reverse_append]
  rw [hhistory, List.filter_append, entries_marks, calls_eq hjournal]
  rcases hnew with ⟨hturn, rfl⟩ | ⟨hturn, hnew⟩
  · rw [hturn, hplain]
    rfl
  · rw [hturn, if_neg Bool.false_ne_true, List.append_nil,
      Mark.entries_of_not_isShutdown fun e he => hnew e (List.mem_reverse.mp he)]

/-- **No operation is stuck**, unless somebody outside has the lock: in a host that has settled it
is one that drains, and waits for a coordinator that is not through, or it waits for the hook for
the end of the run. -/
theorem waits_of_settled (hfetcher : h.Fetcher) (horder : h.Orderly)
    (hsettled : Settled advance h) (hworkers : h.pipeline.pool.workers.Nodup)
    (htidy : h.pipeline.Tidy) (houtsider : h.pipeline.lock.outsider = none)
    (hop : h.operation = some op) :
    op.phase = .draining ∧ h.pipeline.isOver = false ∨ h.holdsShutdown = true := by
  have hoperate : h.operateOn? op = none := by
    have hnone := hsettled .operate
    rwa [advance, hop, Option.bind_some] at hnone
  -- a run that is cancelled and cannot go on is through
  have hfinished : op.phase.isJoining = true → h.pipeline.Finished := by
    intro hjoining
    by_contra hbusy
    have hquiescent := quiescent_of_settled hsettled
    have hline := horder.inLine hbusy
    have hpaused := hquiescent.isPaused (hquiescent.wants_eq_nil hline hworkers houtsider)
    refine hbusy (hquiescent.finished (hfetcher.cancelled op hop hjoining) hpaused hline hworkers ?_
      htidy.completions)
    simp [houtsider]
  cases hphase : op.phase with
  | opening | watching => exact (hfetcher.not_isRunners hop (by rw [hphase]; rfl)).elim
  | draining =>
      refine .inl ⟨rfl, ?_⟩
      simpa [operateOn?, hphase] using hoperate
  | joiningCoordinator =>
      obtain ⟨ending, hended⟩ := exists_of_isOver (hfinished (by rw [hphase]; rfl)).ended
      simp [operateOn?, hphase, ending?, hended] at hoperate
  | joiningWorkers fault =>
      simp [operateOn?, hphase, (hfinished (by rw [hphase]; rfl)).gone] at hoperate
  | joiningReporter fault =>
      have hcancelled := hfetcher.cancelled op hop (by rw [hphase]; rfl)
      have hquit := hsettled .quitReporter
      cases halive : h.reporting.isAlive with
      | true => simp [advance, halive, hcancelled] at hquit
      | false => simp [operateOn?, hphase, halive] at hoperate
  | awaitingLock fault =>
      have hidle := horder.fits op hop
      rw [hphase] at hidle
      obtain ⟨hturns, hcalm⟩ := turns_of_finished (horder.rests hidle)
      have hline := horder.line.line
      have hwriting := horder.line.writing
      rw [turn_eq hop, hphase, hturns] at hline
      rw [writes_eq hop, hphase, hcalm] at hwriting
      have hgrant := Lock.isSome_grant? (List.perm_singleton.mp hline)
        (by simp [Lock.allows, hwriting, houtsider])
      simp [operateOn?, hphase, withLock?, Option.isSome_iff_ne_none.mp hgrant] at hoperate
  | inShutdown mode fault =>
      obtain ⟨label, watches, phase⟩ := op
      obtain rfl : phase = .inShutdown mode fault := hphase
      cases mode with
      | hold =>
          right
          rw [holdsShutdown, hop]
      | _ => simp [operateOn?, finishShutdown?] at hoperate
  | returning ending => simp [operateOn?, hphase] at hoperate

end Fetcher

end Host

end SharedFetch
