import SharedFetch.Proofs.Host.Order

/-!
# The chronicle of a host

A chronicle follows a host through its moves and keeps a *record* of the present run: the ledger of
its coordinator, the references that its intake has accepted, the locations that were dropped with
its dispatch queue, and the place in the journal where it began. The record is written by comparing
the pipeline before and after each move, and begins anew with each run. Nothing in the host looks at
it.

`Record.Holds` is what ties record and pipeline together, and every move keeps it. What is said
of whole runs elsewhere is read off it.

## Main results

* `Record.Holds.change`: every change of a pipeline keeps the record true.
* `Chronicle.Reachable.sound`: along every course of moves, record and pipeline belong together.
-/

namespace SharedFetch

open Pipeline

/-- Ledger and coordinator of a run that was drained: nothing waits, every hook has returned,
and all was done that the book asks for. -/
structure Ledger.Drained (g : Ledger) (c : Coordinator) : Prop where
  phase : c.phase = .ended .done
  intake : c.intakeDone = true
  waiters : c.waiters.isEmpty = true
  returned : g.returned = g.calls
  calls : g.calls = (Book.ofTaken g.taken).calls
  calm : ∀ r ∈ g.references, r.panics = false

/-- What is recorded of the present run. -/
structure Record where
  ledger : Ledger := {}
  /-- The references that the intake has accepted, in order. -/
  accepted : List Reference := []
  /-- The locations that stood in the dispatch queue when the last worker left. -/
  dropped : List Location := []
  /-- The length of the journal when the run began. -/
  since : Nat := 0

namespace Record

/-- The record after a change from one pipeline to another. -/
def follow (r : Record) (p q : Pipeline) : Record :=
  if q.intake.era = p.intake.era then
    { r with
      ledger := r.ledger.follow p q
      accepted := r.accepted ++ Ledger.pushed p.intake.queue.items q.intake.queue.items
      dropped := r.dropped ++ p.dropped q }
  else { since := q.journal.length }

/-- Record and pipeline belong together. -/
structure Holds (r : Record) (p : Pipeline) : Prop where
  faithful : Faithful r.ledger p.coordinator
  owned : p.Owned r.dropped
  /-- Only what the coordinator has left in the intake when it ended was accepted and is gone. -/
  accepted : ∃ left, r.ledger.references ++ p.intake.queue.items ++ left = r.accepted ∧
    (p.isOver = false ∨ p.coordinator.intakeDone = true → left = [])
  closed : p.coordinator.intakeDone = true →
    p.intake.queue.items = [] ∧ p.intake.queue.senders = 0
  shut : p.isOver = true → p.intake.queue.closed = true
  since : r.since ≤ p.journal.length
  delivered : deliveriesIn (p.entriesFrom r.since) = deliveries r.ledger.calls
  unresolved : p.protocol.plain = false → unresolvedIn (p.entriesFrom r.since) = r.ledger.unresolved
  drained : .note .drained ∈ p.entriesFrom r.since → r.ledger.Drained p.coordinator
  lawful : (∀ x ∈ r.accepted, x.IsWhole) → ∀ ending fault,
    p.coordinator.phase = .ended ending → ending.fault? = some fault → fault.kind ≠ .violation

variable {r : Record} {p q : Pipeline}

/-- Within an era the record goes on. -/
theorem follow_of_era_eq (hera : q.intake.era = p.intake.era) :
    r.follow p q =
      { r with
        ledger := r.ledger.follow p q
        accepted := r.accepted ++ Ledger.pushed p.intake.queue.items q.intake.queue.items
        dropped := r.dropped ++ p.dropped q } := by
  rw [follow, if_pos hera]

/-- With a new run the record begins anew. -/
theorem follow_of_launched (hlaunched : p.Launched q) :
    r.follow p q = { since := q.journal.length } := by
  rw [follow, if_neg (by rw [hlaunched.era]; exact Nat.succ_ne_self _)]

namespace Holds

/-- The journal shows the references given their delivery. -/
theorem processed (h : r.Holds p) :
    processedIn (p.entriesFrom r.since) = r.ledger.processed := by
  rw [processedIn_eq, h.delivered, Ledger.processed, processed_eq]

/-- What was taken up, and then what stands in the intake, was accepted in this order. -/
theorem accepted_of_references (h : r.Holds p) :
    r.ledger.references ++ p.intake.queue.items <+: r.accepted := by
  obtain ⟨left, haccepted, -⟩ := h.accepted
  exact haccepted ▸ List.prefix_append _ _

/-- While the coordinator goes on, and after it has seen the end of the intake, that is all that was
accepted. -/
theorem references_eq (h : r.Holds p)
    (hcase : p.isOver = false ∨ p.coordinator.intakeDone = true) :
    r.ledger.references ++ p.intake.queue.items = r.accepted := by
  obtain ⟨left, haccepted, hleft⟩ := h.accepted
  rw [← haccepted, hleft hcase, List.append_nil]

/-- If all that was accepted is whole, then so is every location in flight. -/
theorem whole_of_mem_locations (h : r.Holds p) (hwhole : ∀ x ∈ r.accepted, x.IsWhole)
    {l : Location} (hl : l ∈ p.coordinator.waiters.locations) : (l == l) = true := by
  obtain ⟨x, hx, htarget⟩ := h.faithful.exists_of_mem_locations hl
  exact hwhole x (h.accepted_of_references.subset (List.mem_append_left _ hx)) l htarget

/-- If all that was accepted is whole, something waits for every completion. -/
theorem isSome_complete? (h : r.Holds p) (hwhole : ∀ x ∈ r.accepted, x.IsWhole) :
    ∀ c ∈ p.completions.items,
      (p.coordinator.waiters.complete? c.location).isSome = true := by
  intro c hc
  have hunderway : c.location ∈ p.underway := List.mem_append_right _ (List.mem_map_of_mem hc)
  have hmem := h.owned.subperm_underway.subset hunderway
  exact Waiters.complete?_isSome_of_mem hmem (h.whole_of_mem_locations hwhole hmem)

/-- The coordinator takes a step. -/
theorem coordinated (h : r.Holds p) (hstep : p.CoordinatorStep q) : (r.follow p q).Holds q := by
  obtain ⟨queue, hintake, hsenders, hqueue⟩ := hstep.exists_intake
  obtain ⟨new, hjournal, hdelivered, hunresolved, hdrained⟩ := hstep.exists_writes
  have hentries := entriesFrom_append h.since hjournal
  -- a coordinator that has seen the end of the intake has left nothing there
  have hdone : q.coordinator.intakeDone = true →
      p.intake.queue.items = [] ∧ p.intake.queue.senders = 0 := by
    intro hdone
    rcases hstep.intakeDone hdone with hdone | hexhausted
    · exact h.closed hdone
    · simpa [Queue.isExhausted] using hexhausted
  rw [follow_of_era_eq (by rw [hintake]), dropped_of_isGone_eq (by rw [hstep.pool]),
    List.append_nil]
  constructor
  · exact h.faithful.step hstep
  · exact h.owned.coordinatorStep h.faithful.distinct (fun _ => h.faithful.slot_eq_none) hstep
  · rw [← h.references_eq (.inl hstep.running), Ledger.references_follow, hintake]
    cases hqueue with
    | goesOn hrunning hitems =>
        refine ⟨[], ?_, fun _ => rfl⟩
        generalize Ledger.counted _ _ p.intake.queue.items = taken at hitems ⊢
        rw [hitems]
        simp
    | ends hover hcounted hdropped =>
        refine ⟨p.intake.queue.items, ?_, ?_⟩
        · simp [hcounted, hdropped, Ledger.pushed]
        · rintro (hrunning | hq)
          · cases hover.symm.trans hrunning
          · exact (hdone hq).1
  · intro hq
    obtain ⟨hnil, hzero⟩ := hdone hq
    rw [hintake]
    refine ⟨?_, hsenders.trans hzero⟩
    cases hqueue with
    | goesOn hrunning hitems =>
        rw [hnil] at hitems
        exact (List.append_eq_nil_iff.mp hitems.symm).2
    | ends hover hcounted hdropped => rw [hdropped, Queue.items_dropReceiver]
  · intro hover
    rw [hintake]
    cases hqueue with
    | goesOn hrunning => cases hover.symm.trans hrunning
    | ends _ hcounted hdropped => rw [hdropped, Queue.closed_dropReceiver]
  · rw [hjournal, List.length_append]
    exact Nat.le_add_left_of_le h.since
  · rw [hentries, deliveriesIn_append, h.delivered, hdelivered, Ledger.follow, deliveries_append]
  · intro hplain
    rw [hstep.protocol] at hplain
    rw [hentries, unresolvedIn_append, h.unresolved hplain, hunresolved hplain,
      Ledger.unresolved_follow]
  · rw [hentries, List.mem_append, List.mem_reverse]
    rintro (hold | hnew)
    · -- whoever has left does not take another step
      have hrunning := hstep.running
      rw [isOver, (h.drained hold).phase] at hrunning
      exact absurd hrunning (by simp)
    · obtain ⟨hphase, hempty⟩ := hdrained hnew
      obtain ⟨-, -, hcalls⟩ := h.faithful.level hphase
      obtain ⟨hreturned, hcalm⟩ := h.faithful.calm hphase
      rw [hstep.eq_of_isDrained hphase hempty, Ledger.follow_finish (by constructor <;> rfl)]
      simp only [isDrained, Bool.and_eq_true] at hempty
      exact ⟨rfl, hempty.1.1, hempty.1.2, hreturned, hcalls, hcalm⟩
  · intro hwhole ending fault hended hfault
    have hfound := h.isSome_complete? fun x hx => hwhole x (List.mem_append_left _ hx)
    exact hstep.kind_ne_violation hfound hended hfault

/-- Something happens that the coordinator has no part in: it goes on from where it was, and the
ledger stays as it is. -/
theorem undisturbed (h : r.Holds p) (hfaithful : Faithful r.ledger q.coordinator)
    (howned : q.Owned (r.dropped ++ p.dropped q)) (hfollow : r.ledger.follow p q = r.ledger)
    (hgrows : p.intake.Grows q.intake)
    (hdone : q.coordinator.intakeDone = p.coordinator.intakeDone)
    (hover : q.isOver = p.isOver) (hstays : p.isOver = true → q.coordinator = p.coordinator)
    (hplain : q.protocol.plain = p.protocol.plain)
    (hjournal : ∃ new, q.journal = new ++ p.journal ∧ ∀ e ∈ new, e.isForeign = true) :
    (r.follow p q).Holds q := by
  obtain ⟨new, hjournal, hforeign⟩ := hjournal
  obtain ⟨hera, ⟨pushed, hitems, hpushed⟩, hsenders, hclosed⟩ := hgrows
  have hentries := entriesFrom_append h.since hjournal
  have hreverse : ∀ e ∈ new.reverse, e.isQuiet = true :=
    fun e he => Entry.isQuiet_of_isForeign (hforeign e (List.mem_reverse.mp he))
  rw [follow_of_era_eq hera, hfollow]
  constructor
  · exact hfaithful
  · exact howned
  · rw [hitems, Ledger.pushed_append, hover, hdone]
    cases hrunning : p.isOver with
    | false =>
        refine ⟨[], ?_, fun _ => rfl⟩
        rw [← h.references_eq (.inl hrunning)]
        simp
    | true =>
        -- nothing comes to an intake that the coordinator has dropped
        obtain ⟨left, haccepted, hleft⟩ := h.accepted
        rw [hpushed (.inr (h.shut hrunning)), List.append_nil, List.append_nil]
        exact ⟨left, haccepted, hrunning ▸ hleft⟩
  · intro hq
    obtain ⟨hnil, hzero⟩ := h.closed (hdone ▸ hq)
    rw [hitems, hnil, hpushed (.inl hzero)]
    exact ⟨rfl, hsenders hzero⟩
  · rw [hover, hclosed]
    exact h.shut
  · rw [hjournal, List.length_append]
    exact Nat.le_add_left_of_le h.since
  · rw [hentries, deliveriesIn_append, deliveriesIn_eq_nil hreverse, List.append_nil, h.delivered]
  · intro hq
    rw [hentries, unresolvedIn_append, unresolvedIn_eq_nil hreverse, List.append_nil,
      h.unresolved (hplain ▸ hq)]
  · rw [hentries, List.mem_append]
    rintro (hold | hnew)
    · have hdrained := h.drained hold
      rw [hstays (by rw [isOver, hdrained.phase])]
      exact hdrained
    · exact absurd (hreverse _ hnew) Bool.false_ne_true
  · intro hwhole ending fault hended
    rw [hstays (hover ▸ by rw [isOver, hended])] at hended
    exact h.lawful (fun x hx => hwhole x (List.mem_append_left _ hx)) ending fault hended

/-- Something happens that the coordinator has no part in at all. -/
theorem sparesCoordinator (h : r.Holds p) (hspares : SparesCoordinator p q)
    (howned : q.Owned (r.dropped ++ p.dropped q))
    (hplain : q.protocol.plain = p.protocol.plain) : (r.follow p q).Holds q :=
  h.undisturbed (hspares.coordinator ▸ h.faithful) howned (hspares.follow _) hspares.intake
    (by rw [hspares.coordinator]) hspares.isOver (fun _ => hspares.coordinator) hplain
    hspares.journal

/-- A worker takes a step. -/
theorem worked (h : r.Holds p) (hstep : p.WorkerStep q) : (r.follow p q).Holds q :=
  h.sparesCoordinator hstep.sparesCoordinator (h.owned.workerStep hstep) hstep.plain

/-- Something happens apart from coordinator and workers. -/
theorem sparesTasks (h : r.Holds p) (hspares : p.SparesTasks q) : (r.follow p q).Holds q :=
  h.sparesCoordinator hspares.sparesCoordinator
    (by
      rw [hspares.toSameTasks.dropped, List.append_nil]
      exact h.owned.sameTasks hspares.toSameTasks)
    hspares.plain

/-- A fetch that was held is given its answer. -/
theorem fetchReleased {j : Job} (h : r.Holds p) (hj : j ∈ p.pool.busy) (mode : FetchMode) :
    (r.follow p (p.releaseFetch j mode)).Holds (p.releaseFetch j mode) := by
  refine h.sparesCoordinator (sparesCoordinator_releaseFetch p j mode)
    (h.owned.releaseFetch hj mode) ?_
  rw [releaseFetch_eq]

/-- A coordinator that waits for a hook goes on waiting, for the answer that is given. -/
theorem answered {phase : Phase} (h : r.Holds p)
    (hfaithful : Faithful r.ledger (p.turnTo phase).coordinator)
    (howned : (p.turnTo phase).Owned r.dropped) (hrunning : p.isOver = false)
    (hphase : (p.turnTo phase).isOver = false) (hcalled : p.coordinator.phase.called phase = [])
    (hreturned : p.coordinator.phase.returned phase = []) :
    (r.follow p (p.turnTo phase)).Holds (p.turnTo phase) := by
  refine h.undisturbed hfaithful ?_ ?_ (.refl _) rfl
    (hphase.trans hrunning.symm) ?_ rfl ⟨[], rfl, by simp⟩
  · rwa [dropped_of_isGone_eq (by rfl), List.append_nil]
  · simp [Ledger.follow, turnTo, hcalled, hreturned]
  · rw [hrunning]
    exact fun hover => absurd hover Bool.false_ne_true

/-- A hook that was held is given its answer. -/
theorem hookReleased (h : r.Holds p) (mode : HookMode) :
    (r.follow p (p.releaseHook mode)).Holds (p.releaseHook mode) := by
  have hfaithful := h.faithful.releaseHook mode
  have howned := h.owned.releaseHook mode
  rw [releaseHook] at hfaithful howned ⊢
  split at howned
  · rename_i hphase
    rw [hphase] at hfaithful
    exact h.answered hfaithful howned (by rw [isOver, hphase]) rfl (by rw [hphase]; rfl)
      (by rw [hphase]; rfl)
  · rename_i hphase
    rw [hphase] at hfaithful
    exact h.answered hfaithful howned (by rw [isOver, hphase]) rfl (by rw [hphase]; rfl)
      (by rw [hphase]; rfl)
  · exact h.sparesTasks (.refl p)

/-- A new run begins, with nothing on record. -/
theorem launched (hlaunched : p.Launched q) : Holds { since := q.journal.length } q := by
  have hcoordinator := hlaunched.coordinator
  obtain ⟨intakeCapacity, hintake⟩ := hlaunched.intake
  obtain ⟨dispatchCapacity, hdispatch⟩ := hlaunched.dispatch
  obtain ⟨size, completionCapacity, -, hpool, hcompletions⟩ := hlaunched.pool
  have hnil := q.entriesFrom_length
  constructor
  · rw [hcoordinator]
    exact faithful_start
  · exact .of_idle ⟨size, true, hpool⟩ (by rw [hcoordinator]) (by rw [hcoordinator])
      (by rw [hdispatch]) (by rw [hcompletions]) fun _ => by rw [hcompletions]
  · rw [hintake]
    exact ⟨[], rfl, fun _ => rfl⟩
  · rw [hcoordinator]
    exact fun hdone => absurd hdone Bool.false_ne_true
  · rw [isOver, hcoordinator]
    exact fun hover => absurd hover Bool.false_ne_true
  · exact Nat.le_refl _
  · rw [hnil]
    rfl
  · rw [hnil]
    exact fun _ => rfl
  · rw [hnil]
    exact fun hmem => absurd hmem List.not_mem_nil
  · rw [hcoordinator]
    intro _ ending fault hended
    cases hended

/-- **Every change of a pipeline keeps the record true.** -/
theorem change (h : r.Holds p) (hchange : p.Change q) : (r.follow p q).Holds q := by
  cases hchange with
  | coordinated hstep => exact h.coordinated hstep
  | worked hstep => exact h.worked hstep
  | hookReleased mode => exact h.hookReleased mode
  | fetchReleased hj mode => exact h.fetchReleased hj mode
  | tasksSpared hspares | renewed hspares => exact h.sparesTasks hspares

end Holds

end Record

/-- A host with its caller, and the record of its present run. -/
structure Chronicle where
  bench : Scenario.HostBench
  record : Record := {}

namespace Chronicle

open Scenario (HostBench)

/-- A host that has never run. -/
def start (kind : HostKind) (settings : Settings) (protocol : Protocol) (ownToken : Bool) :
    Chronicle where
  bench := .make kind settings protocol ownToken

/-- The chronicle after a move. -/
def move (c : Chronicle) (m : HostBench.Move) : Chronicle where
  bench := c.bench.move m
  record := c.record.follow c.bench.pipeline (c.bench.move m).pipeline

/-- The chronicle after a list of moves. -/
def run (c : Chronicle) (moves : List HostBench.Move) : Chronicle :=
  moves.foldl move c

/-- The pipeline of the host. -/
def pipeline (c : Chronicle) : Pipeline :=
  c.bench.pipeline

/-- The ledger of the present run. -/
def ledger (c : Chronicle) : Ledger :=
  c.record.ledger

/-- The references accepted in the present run. -/
def accepted (c : Chronicle) : List Reference :=
  c.record.accepted

/-- What the journal shows of the present run. -/
def entries (c : Chronicle) : List Entry :=
  c.pipeline.entriesFrom c.record.since

/-- A chronicle that some host can come to by some course of moves. -/
def Reachable (c : Chronicle) : Prop :=
  ∃ kind settings protocol ownToken moves, c = (start kind settings protocol ownToken).run moves

/-- Record, sending ends and pipeline belong together, and the host is in order. -/
structure Sound (c : Chronicle) : Prop where
  accounted : c.bench.Accounted
  holds : c.record.Holds c.pipeline
  orderly : c.bench.host.Orderly

/-- The pipeline of a host that has never run, but for the tokens. -/
theorem exists_pipeline_start (kind : HostKind) (settings : Settings) (protocol : Protocol)
    (ownToken : Bool) : ∃ tokens, (start kind settings protocol ownToken).pipeline =
      { (Host.make kind settings protocol).pipeline with tokens } := by
  rw [pipeline, start, HostBench.make]
  split
  · exact ⟨_, rfl⟩
  · exact ⟨_, rfl⟩

theorem sound_start (kind : HostKind) (settings : Settings) (protocol : Protocol)
    (ownToken : Bool) : (start kind settings protocol ownToken).Sound := by
  -- a host that has never run is like one whose coordinator has ended with nothing on record
  have hfaithful : Faithful {} { phase := .ended .done } :=
    faithful_start.ended (by simp) (by simp) rfl rfl rfl
  have hsenders : (start kind settings protocol ownToken).bench.senders = [] := by
    rw [start, HostBench.make]
    split <;> rfl
  obtain ⟨tokens, hpipeline⟩ := exists_pipeline_start kind settings protocol ownToken
  refine ⟨?_, ?_, HostBench.orderly_make kind settings protocol ownToken⟩
  · rw [HostBench.Accounted, hsenders, ← Chronicle.pipeline, hpipeline]
    exact ⟨by simp, by simp [Host.make], by simp [Intake.names, Host.make],
      by simp [Intake.holders, Host.make]⟩
  · rw [hpipeline]
    refine ⟨hfaithful, .of_idle ⟨0, true, rfl⟩ rfl rfl rfl rfl ?_, ⟨[], rfl, fun _ => rfl⟩, ?_,
      fun _ => rfl, Nat.le_refl _, rfl, fun _ => rfl, fun hmem => absurd hmem List.not_mem_nil, ?_⟩
    · exact fun hrunning => absurd hrunning (by simp [isOver, Host.make])
    · exact fun hdone => absurd hdone Bool.false_ne_true
    · intro _ ending fault hended hfault
      obtain rfl := Phase.ended.inj hended
      cases hfault

/-- What a move does to the pipeline. -/
theorem Sound.effect {c : Chronicle} (h : c.Sound) (m : HostBench.Move) :
    Effect m.reply? c.pipeline (c.move m).pipeline :=
  (HostBench.moved_move h.orderly.rests h.accounted m).effect

/-- A move is a change of the pipeline or launches a run. -/
theorem Sound.change {c : Chronicle} (h : c.Sound) (m : HostBench.Move) :
    c.pipeline.Change (c.move m).pipeline ∨ c.pipeline.Launched (c.move m).pipeline :=
  (h.effect m).change

/-- Every move keeps them together. -/
theorem Sound.move {c : Chronicle} (h : c.Sound) (m : HostBench.Move) : (c.move m).Sound := by
  refine ⟨h.accounted.move h.orderly.rests m, ?_,
    HostBench.orderly_move h.orderly h.holds.owned.workers m⟩
  rcases h.change m with hchange | hlaunched
  · exact h.holds.change hchange
  · have := Record.Holds.launched hlaunched
    rwa [← Record.follow_of_launched hlaunched] at this

theorem Sound.run {c : Chronicle} (h : c.Sound) (moves : List HostBench.Move) :
    (c.run moves).Sound := by
  induction moves generalizing c with
  | nil => exact h
  | cons m moves ih => exact ih (h.move m)

/-- **Along every course of moves, record and pipeline belong together.** -/
theorem Reachable.sound {c : Chronicle} (h : c.Reachable) : c.Sound := by
  obtain ⟨kind, settings, protocol, ownToken, moves, rfl⟩ := h
  exact (sound_start kind settings protocol ownToken).run moves

end Chronicle

end SharedFetch
