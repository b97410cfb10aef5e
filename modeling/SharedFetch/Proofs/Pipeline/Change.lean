import SharedFetch.Proofs.Intake
import SharedFetch.Proofs.Pipeline.Ledger
import SharedFetch.Proofs.Pipeline.Ownership
import SharedFetch.Proofs.Provenance
import SharedFetch.Proofs.Tokens

/-!
# How a pipeline changes

Seen from outside, a pipeline changes in one of six ways (`Change`): the coordinator takes a
step, a worker does, a hook or a fetch that was held is given its answer, something happens apart
from coordinator and workers (`SparesTasks`), or a new run should have been launched and could not.
Or else a new run does take its place (`Launched`). This module says what each of the first two does
to the intake and writes into the journal; what it does to the locations and to the ledger is said
where these are treated.

## Main results

* `CoordinatorStep.exists_intake`: the coordinator takes from the intake what it counts, until it
  ends and drops the rest.
* `CoordinatorStep.exists_writes`: the journal shows the hooks called and the end of a run
  that was drained.
* `WorkerStep.exists_journal`: workers write of neither.
* `Change.era`: changes other than a launch stay within the run.
-/

namespace SharedFetch

namespace Entry

/-- The reference that is given its delivery. -/
def processed? : Entry → Option Reference
  | .process r _ => some r
  | _ => none

/-- The reference that is given its delivery, and the delivery. -/
def delivery? : Entry → Option (Reference × Delivery)
  | .process r delivery => some (r, delivery)
  | _ => none

/-- The reference that is reported as unresolvable. -/
def unresolved? : Entry → Option Reference
  | .unresolved r _ => some r
  | _ => none

/-- Whether the entry says nothing of deliveries, of reports and of the end of a drained run. -/
def isQuiet : Entry → Bool
  | .process .. | .unresolved .. | .note .drained => false
  | _ => true

/-- Whether the entry may be written by somebody other than the coordinator. -/
def isForeign : Entry → Bool
  | .fetch _ | .shutdown | .note (.alarm _) => true
  | _ => false

/-- What others write is about no delivery. -/
theorem isQuiet_of_isForeign {e : Entry} (h : e.isForeign = true) : e.isQuiet = true := by
  cases e with
  | fetch | shutdown => rfl
  | note n => cases n <;> first | rfl | cases h
  | resolve | process | unresolved => cases h

end Entry

/-- The counters that the coordinator writes. -/
def Counters.coordinators (c : Counters) : Counters :=
  { c with fetchFailures := 0, cancelledFetches := 0, poolSize := 0 }

/-- The references given their delivery in some entries of a journal, in order. -/
def processedIn (entries : List Entry) : List Reference :=
  entries.filterMap Entry.processed?

/-- The deliveries in some entries of a journal, in order. -/
def deliveriesIn (entries : List Entry) : List (Reference × Delivery) :=
  entries.filterMap Entry.delivery?

/-- The locations fetched in some entries of a journal, in order. -/
def fetchedIn (entries : List Entry) : List Location :=
  entries.filterMap Entry.fetched?

/-- The references reported as unresolvable in some entries of a journal, in order. -/
def unresolvedIn (entries : List Entry) : List Reference :=
  entries.filterMap Entry.unresolved?

/-- The references given their delivery are those of the deliveries. -/
theorem processedIn_eq (entries : List Entry) :
    processedIn entries = (deliveriesIn entries).map Prod.fst := by
  rw [processedIn, deliveriesIn, List.map_filterMap]
  refine List.filterMap_congr fun e _ => ?_
  cases e <;> rfl

@[simp] theorem deliveriesIn_append (a b : List Entry) :
    deliveriesIn (a ++ b) = deliveriesIn a ++ deliveriesIn b :=
  List.filterMap_append

@[simp] theorem unresolvedIn_append (a b : List Entry) :
    unresolvedIn (a ++ b) = unresolvedIn a ++ unresolvedIn b :=
  List.filterMap_append

/-- Quiet entries deliver nothing. -/
theorem deliveriesIn_eq_nil {entries : List Entry} (h : ∀ e ∈ entries, e.isQuiet = true) :
    deliveriesIn entries = [] := by
  refine List.filterMap_eq_nil_iff.mpr fun e he => ?_
  have := h e he
  cases e <;> simp_all [Entry.isQuiet, Entry.delivery?]

/-- Quiet entries report nothing unresolved. -/
theorem unresolvedIn_eq_nil {entries : List Entry} (h : ∀ e ∈ entries, e.isQuiet = true) :
    unresolvedIn entries = [] := by
  refine List.filterMap_eq_nil_iff.mpr fun e he => ?_
  have := h e he
  cases e <;> simp_all [Entry.isQuiet, Entry.unresolved?]

namespace Pipeline

variable {p q : Pipeline}

/-- What was written into the journal after its first `n` entries, in order. -/
def entriesFrom (p : Pipeline) (n : Nat) : List Entry :=
  p.history.drop n

@[simp] theorem entriesFrom_length (p : Pipeline) : p.entriesFrom p.journal.length = [] := by
  simp [entriesFrom, history]

/-- What is new in the journal comes to the end. -/
theorem entriesFrom_append {n : Nat} {new : List Entry} (hn : n ≤ p.journal.length)
    (hjournal : q.journal = new ++ p.journal) :
    q.entriesFrom n = p.entriesFrom n ++ new.reverse := by
  rw [entriesFrom, entriesFrom, history, history, hjournal, List.reverse_append,
    List.drop_append_of_le_length (by rwa [List.length_reverse])]

/-! ### The coordinator -/

@[simp] theorem intake_finish (p : Pipeline) (e : Ending) :
    (p.finish e).intake = { p.intake with queue := p.intake.queue.dropReceiver } := rfl

@[simp] theorem intake_abort (p : Pipeline) (alarm : Alarm) :
    (p.abort alarm).intake = { p.intake with queue := p.intake.queue.dropReceiver } := by
  rw [abort_eq]
  rfl

/-- What a step of the coordinator does to the queue of the intake. -/
inductive IntakeStep (p q : Pipeline) (queue : Queue Reference) : Prop where
  /-- What it counts it takes from the front. -/
  | goesOn (hrunning : q.isOver = false)
      (hitems : p.intake.queue.items =
        Ledger.counted p.counters.references q.counters.references p.intake.queue.items ++
          queue.items)
  /-- It takes nothing, and drops what is there. -/
  | ends (hover : q.isOver = true) (hcounted : q.counters.references = p.counters.references)
      (hqueue : queue = p.intake.queue.dropReceiver)

/-- The coordinator changes nothing of the intake but the queue, and it neither makes nor drops a
sending end. -/
theorem CoordinatorStep.exists_intake (h : p.CoordinatorStep q) :
    ∃ queue, q.intake = { p.intake with queue } ∧
      queue.senders = p.intake.queue.senders ∧ IntakeStep p q queue := by
  cases h with
  | took hlooks hnone hslot hopen hitems =>
      refine ⟨_, rfl, rfl, .goesOn rfl ?_⟩
      rw [hitems, Counters.record, Ledger.counted_succ]
      rfl
  | drained | interrupted | resolvePanicked | unresolvedPanicked | processPanicked
  | unresolvedDropped | processDropped =>
      exact ⟨p.intake.queue.dropReceiver, by simp, by simp, .ends rfl rfl rfl⟩
  | stray | stranded | undispatchable | unresolvedFailed | processFailed =>
      refine ⟨p.intake.queue.dropReceiver, by simp, by simp, ?_⟩
      rw [abort_eq]
      exact .ends rfl rfl rfl
  | completionsEnded hlooks | dispatched hlooks | intakeEnded hlooks =>
      refine ⟨p.intake.queue, rfl, rfl, .goesOn ?_ (by simp [Counters.record])⟩
      rw [isOver, hlooks.phase]
  | completed | admitted | coalesced | unresolvable | calledUnresolved | unresolvedSucceeded
  | fanOutBegun | fanOutEnded | calledProcess | processSucceeded =>
      exact ⟨p.intake.queue, rfl, rfl, .goesOn rfl (by simp [Counters.record])⟩

/-- A step writes `new` into the journal, the latest entry in front. That shows the hooks called
in the step, and a drained end if there is one. -/
structure Writes (p q : Pipeline) (new : List Entry) : Prop where
  journal : q.journal = new ++ p.journal
  delivered : deliveriesIn new.reverse =
    deliveries (p.coordinator.phase.called q.coordinator.phase)
  unresolved : p.protocol.plain = false → unresolvedIn new.reverse =
    unresolved (p.coordinator.phase.called q.coordinator.phase)
  drained : .note .drained ∈ new → p.coordinator.phase = .choosing ∧ p.isDrained = true

/-- A step that calls no hook writes of none. -/
theorem Writes.of_quiet {new : List Entry} (hjournal : q.journal = new ++ p.journal)
    (hquiet : ∀ e ∈ new, e.isQuiet = true)
    (hcalled : p.coordinator.phase.called q.coordinator.phase = []) : Writes p q new := by
  have hreverse : ∀ e ∈ new.reverse, e.isQuiet = true :=
    fun e he => hquiet e (List.mem_reverse.mp he)
  refine ⟨hjournal, ?_, fun _ => ?_, fun hmem => ?_⟩
  · rw [hcalled, deliveriesIn_eq_nil hreverse]
    rfl
  · rw [hcalled, unresolvedIn_eq_nil hreverse]
    rfl
  · exact absurd (hquiet _ hmem) Bool.false_ne_true

/-- A coordinator that ends calls no hook. -/
theorem Writes.finish {new : List Entry} {e : Ending} (hjournal : q.journal = new ++ p.journal)
    (hquiet : ∀ e ∈ new, e.isQuiet = true) : Writes p (q.finish e) new :=
  .of_quiet hjournal hquiet (Ledger.called_ended _ e)

/-- A coordinator that ends with an alarm calls no hook either. -/
theorem Writes.abort {alarm : Alarm} (hjournal : q.journal = p.journal) :
    Writes p (q.abort alarm) (q.alarmEntries alarm) := by
  rw [abort_eq]
  refine .finish (by rw [hjournal]) fun e he => ?_
  obtain ⟨a, rfl⟩ := eq_of_mem_alarmEntries he
  rfl

/-- Every step of the coordinator writes what it does into the journal. -/
theorem CoordinatorStep.exists_writes (h : p.CoordinatorStep q) : ∃ new, Writes p q new := by
  cases h with
  | drained hphase hdrained =>
      refine ⟨[.note .stopped, .note .drained], rfl, ?_, fun _ => ?_, fun _ => ⟨hphase, hdrained⟩⟩
      · rw [Pipeline.finish, Ledger.called_ended]
        rfl
      · rw [Pipeline.finish, Ledger.called_ended]
        rfl
  | interrupted hphase hbusy hcancelled =>
      exact ⟨[.note .stopped, .note (.interrupted _ _)], .finish rfl (by simp [Entry.isQuiet])⟩
  | completed hlooks hopen hitems hfound =>
      exact ⟨[.note (.fanningOut _ _ _)], .of_quiet rfl (by simp [Entry.isQuiet])
        (by rw [hlooks.phase]; rfl)⟩
  | completionsEnded hlooks hopen hexhausted hempty =>
      exact ⟨[.note .completionsClosed], .of_quiet rfl (by simp [Entry.isQuiet])
        (by rw [hlooks.phase]; rfl)⟩
  | intakeEnded hlooks hnone hslot hopen hexhausted =>
      exact ⟨[.note (.intakeClosed _)], .of_quiet rfl (by simp [Entry.isQuiet])
        (by rw [hlooks.phase]; rfl)⟩
  | dispatched hlooks | took hlooks =>
      exact ⟨[], .of_quiet rfl (by simp) (by rw [hlooks.phase]; rfl)⟩
  | admitted hphase hlock htarget henroll =>
      exact ⟨[.note (.dispatching _), .resolve _], .of_quiet rfl (by simp [Entry.isQuiet])
        (by rw [hphase]; rfl)⟩
  | coalesced hphase hlock htarget henroll =>
      exact ⟨[.note (.coalesced _), .resolve _], .of_quiet rfl (by simp [Entry.isQuiet])
        (by rw [hphase]; rfl)⟩
  | unresolvable hphase hlock htarget =>
      exact ⟨[.note (.unresolvable _), .resolve _], .of_quiet rfl (by simp [Entry.isQuiet])
        (by rw [hphase]; rfl)⟩
  | resolvePanicked hphase hlock htarget =>
      exact ⟨[.resolve _], .finish rfl (by simp [Entry.isQuiet])⟩
  | @calledUnresolved r cause lock hphase hlock =>
      cases hplain : p.protocol.plain with
      | true =>
          exact ⟨[], by simp, by rw [hphase]; rfl, fun h => absurd h (by simp [hplain]), by simp⟩
      | false =>
          exact ⟨[.unresolved r (unresolvedText r cause)], by simp, by rw [hphase]; rfl,
            fun _ => by rw [hphase]; rfl, by simp⟩
  | calledProcess hphase =>
      exact ⟨[.process _ _], rfl, by rw [hphase]; rfl, fun _ => by rw [hphase]; rfl, by simp⟩
  | unresolvedSucceeded hphase | fanOutBegun hphase | fanOutEnded hphase
  | processSucceeded hphase =>
      exact ⟨[], .of_quiet rfl (by simp) (by rw [hphase]; rfl)⟩
  | unresolvedPanicked hphase | processPanicked hphase =>
      exact ⟨[], .finish rfl (by simp)⟩
  | unresolvedDropped hphase | processDropped hphase =>
      exact ⟨[.note .stopped], .finish rfl (by simp [Entry.isQuiet])⟩
  | stray | stranded | undispatchable | unresolvedFailed | processFailed => exact ⟨_, .abort rfl⟩

/-! ### The workers -/

/-- A worker that leaves writes nothing that only the coordinator writes. -/
theorem exists_journal_leave {front : List Entry} {id : Nat} {ending : Ending}
    (hjournal : q.journal = front ++ p.journal) (hforeign : ∀ e ∈ front, e.isForeign = true) :
    ∃ new, (q.leave id ending).journal = new ++ p.journal ∧ ∀ e ∈ new, e.isForeign = true := by
  refine ⟨q.leaveEntries id ending ++ front, ?_, List.forall_mem_append.mpr ⟨?_, hforeign⟩⟩
  · rw [journal_leave, hjournal, List.append_assoc]
  · intro e he
    obtain ⟨a, rfl⟩ := eq_of_mem_leaveEntries he
    rfl

/-- A worker writes nothing that only the coordinator writes. -/
theorem WorkerStep.exists_journal (h : p.WorkerStep q) :
    ∃ new, q.journal = new ++ p.journal ∧ ∀ e ∈ new, e.isForeign = true := by
  cases h with
  | quit | dismissed | fetchPanicked | handedInLast | undelivered =>
      exact exists_journal_leave (List.nil_append _).symm (by simp)
  | @callPanicked j lock payload hworks hlock hmode =>
      exact exists_journal_leave (List.singleton_append (x := Entry.fetch j.location)).symm
        (by simp [Entry.isForeign])
  | called hworks hlock hmode => exact ⟨[.fetch _], rfl, by simp [Entry.isForeign]⟩
  | took | fetched | fetchFailed | fetchDropped | handedIn => exact ⟨[], rfl, by simp⟩

/-- A worker has nothing to do with the intake. -/
theorem WorkerStep.intake (h : p.WorkerStep q) : q.intake = p.intake := by
  cases h with
  | quit | dismissed | callPanicked | fetchPanicked | handedInLast | undelivered => simp
  | took | called | fetched | fetchFailed | fetchDropped | handedIn => rfl

/-- A worker does not touch the coordinator. -/
theorem WorkerStep.coordinator (h : p.WorkerStep q) : q.coordinator = p.coordinator := by
  cases h with
  | quit | dismissed | callPanicked | fetchPanicked | handedInLast | undelivered => simp
  | took | called | fetched | fetchFailed | fetchDropped | handedIn => rfl

/-- With a worker nothing is added to the dispatch queue. -/
theorem exists_items_leave (hdispatch : q.dispatch = p.dispatch) (id : Nat) (ending : Ending) :
    ∃ taken, p.dispatch.items = taken ++ (q.leave id ending).dispatch.items := by
  rw [items_dispatch_leave, hdispatch]
  split
  · exact ⟨p.dispatch.items, (List.append_nil _).symm⟩
  · exact ⟨[], rfl⟩

/-- A worker takes locations out of the dispatch queue, or drops it when it is the last to leave,
and puts completions in. -/
theorem WorkerStep.exists_items (h : p.WorkerStep q) :
    (∃ taken, p.dispatch.items = taken ++ q.dispatch.items) ∧
      ∃ new, q.completions.items = p.completions.items ++ new := by
  cases h with
  | quit | dismissed | callPanicked | fetchPanicked | undelivered =>
      exact ⟨exists_items_leave (by rfl) _ _, ⟨[], by simp⟩⟩
  | @handedInLast j outcome =>
      exact ⟨exists_items_leave (by rfl) _ _, ⟨[⟨j.location, outcome⟩], by simp⟩⟩
  | took hlive hidle hitems => exact ⟨⟨[_], hitems⟩, ⟨[], (List.append_nil _).symm⟩⟩
  | called | fetched | fetchFailed | fetchDropped =>
      exact ⟨⟨[], rfl⟩, ⟨[], (List.append_nil _).symm⟩⟩
  | handedIn => exact ⟨⟨[], rfl⟩, ⟨[_], rfl⟩⟩

/-- The hooks are the same for every step. -/
theorem WorkerStep.plain (h : p.WorkerStep q) : q.protocol.plain = p.protocol.plain := by
  cases h with
  | quit | dismissed | callPanicked | fetchPanicked | handedInLast | undelivered =>
      simp [Protocol.noteFetch]
  | took | called | fetched | fetchFailed | fetchDropped | handedIn => rfl

/-- The coordinator does not change the protocol. -/
theorem CoordinatorStep.protocol (h : p.CoordinatorStep q) : q.protocol = p.protocol := by
  cases h with
  | stray | stranded | undispatchable | unresolvedFailed | processFailed => rw [abort_eq]; rfl
  | _ => rfl

/-! ### Everything that can change -/

/-- The run is through: coordinator and workers are gone. -/
structure Finished (p : Pipeline) : Prop where
  ended : p.isOver = true
  gone : p.pool.isGone = true

/-- In a run that is through there is no worker. -/
theorem Finished.nobody (h : p.Finished) : p.pool.idle = [] ∧ p.pool.busy = [] := by
  simpa [Pool.isGone] using h.gone

/-- Something happens apart from coordinator and workers. Of the counters it can only change the
size of the pool, it writes of nothing but the end of a run, and an outsider gets to write only
past an empty line. -/
structure SparesTasks (p q : Pipeline) : Prop extends SameTasks p q where
  intake : p.intake.Grows q.intake
  plain : q.protocol.plain = p.protocol.plain
  journal : ∃ new, q.journal = new ++ p.journal ∧ ∀ e ∈ new, e = .shutdown
  counters : q.counters = { p.counters with poolSize := q.counters.poolSize }
  activity : q.activity = p.activity
  outsider : q.lock.outsider = some .write → p.lock.outsider = some .write ∨ p.lock.line = []

/-- Nothing happens. -/
theorem SparesTasks.refl (p : Pipeline) : SparesTasks p p :=
  ⟨by constructor <;> rfl, .refl _, rfl, ⟨[], rfl, by simp⟩, rfl, rfl, .inl⟩

/-- A new run takes the place of one that is through, with workers and queues of its own. -/
structure Launched (p q : Pipeline) : Prop where
  finished : p.Finished
  era : q.intake.era = p.intake.era + 1
  intake : ∃ capacity, q.intake.queue = { capacity }
  coordinator : q.coordinator = {}
  dispatch : ∃ capacity, q.dispatch = { capacity }
  pool : ∃ size capacity, 0 < size ∧ q.pool = .launch size true ∧
    q.completions = { capacity, senders := size }
  latch : q.latch.Unset
  counters : q.counters = { p.counters with poolSize := q.counters.poolSize }
  activity : q.activity = p.activity

/-- The ways in which a pipeline can change within a run. -/
inductive Change (p : Pipeline) : Pipeline → Prop where
  | coordinated {q : Pipeline} (h : p.CoordinatorStep q) : Change p q
  | worked {q : Pipeline} (h : p.WorkerStep q) : Change p q
  | hookReleased (mode : HookMode) : Change p (p.releaseHook mode)
  | fetchReleased {j : Job} (hj : j ∈ p.pool.busy) (mode : FetchMode) :
      Change p (p.releaseFetch j mode)
  | tasksSpared {q : Pipeline} (h : p.SparesTasks q) (hlatch : q.latch = p.latch)
      (htokens : p.tokens.Extends q.tokens) : Change p q
  /-- A run that could not be launched leaves a latch of its own. -/
  | renewed {q : Pipeline} (h : p.SparesTasks q) (hfinished : p.Finished)
      (hunset : q.latch.Unset) : Change p q

/-- The ways in which a pipeline can change within a run while nobody outside answers a hook or a
fetch. -/
inductive UnansweredChange (p : Pipeline) : Pipeline → Prop where
  | coordinated {q : Pipeline} (h : p.coordinate? = some q ∨ p.dropHook? = some q) :
      UnansweredChange p q
  | worked {q : Pipeline} {id : Nat} (h : p.workOn? id = some q ∨ p.dropFetch? id = some q) :
      UnansweredChange p q
  | tasksSpared {q : Pipeline} (h : p.SparesTasks q) (hlatch : q.latch = p.latch)
      (htokens : p.tokens.Extends q.tokens) : UnansweredChange p q
  | renewed {q : Pipeline} (h : p.SparesTasks q) (hfinished : p.Finished)
      (hunset : q.latch.Unset) : UnansweredChange p q

/-- It is one of the changes. -/
theorem UnansweredChange.change (h : p.UnansweredChange q) : p.Change q := by
  cases h with
  | coordinated h =>
      rcases h with h | h
      · exact .coordinated (coordinatorStep_of_coordinate? h)
      · exact .coordinated (coordinatorStep_of_dropHook? h)
  | worked h =>
      rcases h with h | h
      · exact .worked (workerStep_of_workOn? h)
      · exact .worked (workerStep_of_dropFetch? h)
  | tasksSpared hspares hlatch htokens => exact .tasksSpared hspares hlatch htokens
  | renewed hspares hfinished hunset => exact .renewed hspares hfinished hunset

/-! ### What the coordinator has no part in -/

/-- A worker does not write the counters of the coordinator. -/
theorem WorkerStep.counters (h : p.WorkerStep q) :
    q.counters.coordinators = p.counters.coordinators := by
  cases h with
  | quit | dismissed | callPanicked | fetchPanicked | handedInLast | undelivered => simp
  | took | called | fetched | fetchFailed | fetchDropped | handedIn => rfl

/-- The coordinator has no part in what happens: it stays where it is, nobody takes anything from
the completions or puts anything into the dispatch queue, and what only the coordinator counts or
writes is not counted or written. -/
structure SparesCoordinator (p q : Pipeline) : Prop where
  coordinator : q.coordinator = p.coordinator
  dispatch : ∃ taken, p.dispatch.items = taken ++ q.dispatch.items
  completions : ∃ new, q.completions.items = p.completions.items ++ new
  intake : p.intake.Grows q.intake
  journal : ∃ new, q.journal = new ++ p.journal ∧ ∀ e ∈ new, e.isForeign = true
  counters : q.counters.coordinators = p.counters.coordinators

/-- The coordinator has no part in what a worker does. -/
theorem WorkerStep.sparesCoordinator (h : p.WorkerStep q) : SparesCoordinator p q :=
  ⟨h.coordinator, h.exists_items.1, h.exists_items.2, h.intake ▸ .refl _, h.exists_journal,
    h.counters⟩

/-- The coordinator has no part in what happens apart from it. -/
theorem SparesTasks.sparesCoordinator (h : p.SparesTasks q) : SparesCoordinator p q := by
  obtain ⟨new, hnew, hshutdown⟩ := h.journal
  refine ⟨h.coordinator, ⟨[], by rw [h.dispatch]; rfl⟩, ⟨[], by rw [h.completions]; simp⟩, h.intake,
    ⟨new, hnew, fun e he => hshutdown e he ▸ rfl⟩, ?_⟩
  rw [h.counters]
  rfl

/-- The coordinator has no part in the answer to a fetch. -/
theorem sparesCoordinator_releaseFetch (p : Pipeline) (j : Job) (mode : FetchMode) :
    SparesCoordinator p (p.releaseFetch j mode) := by
  rw [releaseFetch]
  split
  · exact ⟨rfl, ⟨[], rfl⟩, ⟨[], by simp⟩, .refl _, ⟨[], rfl, by simp⟩, rfl⟩
  · exact (SparesTasks.refl p).sparesCoordinator

/-- Either the coordinator takes a step, or it is given the answer of a hook, or it has no part in
what happens. -/
theorem Change.cases (h : p.Change q) :
    p.CoordinatorStep q ∨ (∃ mode, q = p.releaseHook mode) ∨ SparesCoordinator p q := by
  cases h with
  | coordinated hstep => exact .inl hstep
  | hookReleased mode => exact .inr (.inl ⟨mode, rfl⟩)
  | worked hstep => exact .inr (.inr hstep.sparesCoordinator)
  | fetchReleased hj mode => exact .inr (.inr (sparesCoordinator_releaseFetch p _ mode))
  | tasksSpared hspares | renewed hspares => exact .inr (.inr hspares.sparesCoordinator)

namespace SparesCoordinator

/-- The coordinator is as far as it was. -/
theorem isOver (h : SparesCoordinator p q) : q.isOver = p.isOver := by
  rw [Pipeline.isOver, Pipeline.isOver, h.coordinator]

/-- Nothing is done that the ledger is about. -/
theorem follow (h : SparesCoordinator p q) (g : Ledger) : g.follow p q = g := by
  obtain ⟨taken, htaken⟩ := h.dispatch
  obtain ⟨hcompletions, hreferences⟩ : q.counters.completions = p.counters.completions ∧
      q.counters.references = p.counters.references :=
    ⟨congrArg (fun c => c.completions) h.counters, congrArg (fun c => c.references) h.counters⟩
  simp [Ledger.follow, h.coordinator, htaken, hcompletions, hreferences]

/-- What only the coordinator writes was there before. -/
theorem mem_entriesFrom (h : SparesCoordinator p q) {n : Nat} {e : Entry}
    (hn : n ≤ p.journal.length) (he : e.isForeign = false) (hmem : e ∈ q.entriesFrom n) :
    e ∈ p.entriesFrom n := by
  obtain ⟨new, hnew, hforeign⟩ := h.journal
  rw [entriesFrom_append hn hnew, List.mem_append, List.mem_reverse] at hmem
  rcases hmem with hold | hmem
  · exact hold
  · rw [hforeign e hmem] at he
    cases he

end SparesCoordinator

/-- A coordinator that waits for a hook goes on waiting, for the answer that is given. -/
theorem exists_releaseHook (p : Pipeline) (mode : HookMode) :
    p.releaseHook mode = p ∨ ∃ phase, p.isOver = false ∧ p.releaseHook mode = p.turnTo phase ∧
      ((∃ r, p.coordinator.phase = .inUnresolved r .hold ∧ phase = .inUnresolved r mode) ∨
        ∃ r outcome rest delivered,
          p.coordinator.phase = .inProcess r .hold outcome rest delivered ∧
          phase = .inProcess r mode outcome rest delivered) := by
  rw [releaseHook]
  split
  · rename_i r hphase
    exact .inr ⟨_, by rw [isOver, hphase], rfl, .inl ⟨r, hphase, rfl⟩⟩
  · rename_i r outcome rest delivered hphase
    exact .inr ⟨_, by rw [isOver, hphase], rfl, .inr ⟨r, outcome, rest, delivered, hphase, rfl⟩⟩
  · exact .inl rfl

/-- A run has one intake. -/
theorem Change.era (h : p.Change q) : q.intake.era = p.intake.era := by
  cases h with
  | coordinated hstep =>
      obtain ⟨queue, hintake, -⟩ := hstep.exists_intake
      rw [hintake]
  | worked hstep => rw [hstep.intake]
  | hookReleased mode => rw [releaseHook_eq]
  | fetchReleased hj mode => rw [releaseFetch_eq]
  | tasksSpared hspares | renewed hspares => exact hspares.intake.era

end Pipeline

end SharedFetch
