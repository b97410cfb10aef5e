import SharedFetch.Proofs.Host.Observer
import SharedFetch.Proofs.Pipeline.Staff

/-!
# No fault of the pipeline's own

There are five ways in which coordinator and workers find that something is wrong which they have
not been told of by a hook or a fetch: a completion that nothing waits for, locations in flight
with no worker left, a location to be dispatched with no worker left, a completion that cannot be
handed in, and a worker that panics. The first takes locations that are not equal to themselves,
the last takes a fetch that panics, and the others take a queue that is closed to somebody who
needs it (`Staffed`). So where locations are whole and nothing panics (`Calm`), the only faults are
failures that a hook has answered with (`Blameless`), and the first of them is the one captured.

## Main results

* `Chronicle.Reachable.staffed`: the queues are open to those who need them, along every course of
  moves.
* `Observed.blames_hooks_only`: workers end in good order, and so does the coordinator, except for a
  failure answered by one of its hooks.
-/

namespace SharedFetch

open Pipeline

/-- The failure that the hook answers with. -/
def Phase.failure? : Phase → Option HookFailure
  | .inUnresolved _ (.fail stage cause) => some ⟨stage.getD .unresolved, cause⟩
  | .inProcess _ (.fail stage cause) _ _ _ => some ⟨stage.getD .process, cause⟩
  | _ => none

/-- The failure that the coordinator is told by a hook, and ends with. -/
def Phase.failed (before after : Phase) : List HookFailure :=
  match after with
  | .ended (.failed _) => before.failure?.toList
  | _ => []

/-- The alarm that is logged. -/
def Entry.alarm? : Entry → Option Alarm
  | .note (.alarm a) => some a
  | _ => none

/-- The alarms logged in some entries of a journal, in order. -/
def alarmsIn (entries : List Entry) : List Alarm :=
  entries.filterMap Entry.alarm?

@[simp] theorem alarmsIn_append (a b : List Entry) :
    alarmsIn (a ++ b) = alarmsIn a ++ alarmsIn b :=
  List.filterMap_append

@[simp] theorem alarmsIn_reverse (entries : List Entry) :
    alarmsIn entries.reverse = (alarmsIn entries).reverse :=
  List.filterMap_reverse

/-- The failures that hooks have answered with in the run. -/
def Observer.failures : Observer (List HookFailure) where
  blank _ := []
  note failures p q := failures ++ p.coordinator.phase.failed q.coordinator.phase

namespace Pipeline

variable {p q : Pipeline} {failures : List HookFailure} {n : Nat} {dropped : List Location}

/-- Nobody has panicked so far. -/
structure Calm (p : Pipeline) : Prop where
  coordinator : ∀ payload, p.coordinator.phase ≠ .ended (.panicked payload)
  workers : ∀ e ∈ p.pool.gone, e.2.isPanic = false

/-- Workers have ended in good order and the coordinator has, unless a hook has failed. Nothing but
the failures of hooks is captured or logged. -/
structure Blameless (failures : List HookFailure) (entries : List Entry) (p : Pipeline) : Prop where
  workers : ∀ e ∈ p.pool.gone, e.2 = .done
  coordinator : ∀ ending, p.coordinator.phase = .ended ending →
    ending = .done ∨ ∃ f ∈ failures, ending = .failed (.captured (.hook f))
  alarms : ∀ a ∈ alarmsIn entries, ∃ f ∈ failures, a = .hook f
  caught : ∀ fault, p.latch.caught = some fault → ∃ f ∈ failures, fault = .hook f
  quiet : p.isOver = false → p.latch.caught = none

/-! ### Calm -/

/-- Workers that are gone stay so. -/
theorem WorkerStep.gone (h : p.WorkerStep q) : p.pool.gone <+: q.pool.gone := by
  cases h with
  | quit | dismissed | callPanicked | fetchPanicked | handedInLast | undelivered =>
      rw [pool_leave, Pool.without]
      exact List.prefix_append _ _
  | took | called | fetched | fetchFailed | fetchDropped | handedIn => exact List.prefix_refl _

/-- Whoever is calm was so before. -/
theorem Change.calm (h : p.Change q) (hcalm : q.Calm) : p.Calm := by
  have hrunning : p.isOver = false → ∀ payload, p.coordinator.phase ≠ .ended (.panicked payload) :=
    fun hp payload hphase => by simp [isOver, hphase] at hp
  cases h with
  | coordinated hstep => exact ⟨hrunning hstep.running, hstep.pool ▸ hcalm.workers⟩
  | worked hstep =>
      exact ⟨hstep.coordinator ▸ hcalm.coordinator, fun e he =>
        hcalm.workers e (hstep.gone.subset he)⟩
  | hookReleased mode =>
      rcases exists_releaseHook p mode with heq | ⟨phase, hp, heq, -⟩
      · rwa [heq] at hcalm
      · rw [heq] at hcalm
        exact ⟨hrunning hp, hcalm.workers⟩
  | fetchReleased hj mode =>
      rw [releaseFetch] at hcalm
      split at hcalm
      · exact ⟨hcalm.coordinator, hcalm.workers⟩
      · exact hcalm
  | tasksSpared hspares | renewed hspares =>
      exact ⟨hspares.coordinator ▸ hcalm.coordinator, hspares.gone ▸ hcalm.workers⟩

/-! ### What goes on quietly -/

/-- No fault is captured or logged, and no worker ends with one. -/
structure Quietly (p q : Pipeline) : Prop where
  caught : ∀ fault, q.latch.caught = some fault → p.latch.caught = some fault
  journal : ∃ new, q.journal = new ++ p.journal ∧ alarmsIn new = []
  gone : ∀ e ∈ q.pool.gone, e ∈ p.pool.gone ∨ e.2 = .done

theorem Quietly.of_eq {new : List Entry} (hlatch : q.latch = p.latch) (hpool : q.pool = p.pool)
    (hjournal : q.journal = new ++ p.journal) (halarms : alarmsIn q.journal = alarmsIn p.journal) :
    Quietly p q := by
  refine ⟨fun _ => hlatch ▸ id, ⟨new, hjournal, ?_⟩, fun _ he => .inl (hpool ▸ he)⟩
  simpa [hjournal] using halarms

theorem quietly_releaseFetch (p : Pipeline) (j : Job) (mode : FetchMode) :
    Quietly p (p.releaseFetch j mode) := by
  rw [releaseFetch]
  split <;> exact ⟨fun _ => id, ⟨[], rfl, rfl⟩, fun _ => .inl⟩

theorem SparesTasks.quietly (h : p.SparesTasks q)
    (hcaught : ∀ fault, q.latch.caught = some fault → p.latch.caught = some fault) :
    Quietly p q := by
  obtain ⟨new, hnew, hshutdown⟩ := h.journal
  refine ⟨hcaught, ⟨new, hnew, List.filterMap_eq_nil_iff.mpr fun e he => ?_⟩, fun e he =>
    .inl (h.gone ▸ he)⟩
  rw [hshutdown e he]
  rfl

/-- A worker that leaves in good order does so quietly. -/
theorem quietly_leave {id : Nat} (hlatch : q.latch = p.latch) (hpool : q.pool = p.pool)
    (hjournal : q.journal = p.journal) : Quietly p (q.leave id .done) := by
  refine ⟨fun fault hfault => hlatch ▸ hfault, ⟨[], hjournal, rfl⟩, fun e he => ?_⟩
  rw [pool_leave, Pool.without, hpool, List.mem_append, List.mem_singleton] at he
  rcases he with he | rfl
  · exact .inl he
  · exact .inr rfl

/-- A worker that does not panic goes on quietly: a completion that it has can be handed in,
unless the run is cancelled. -/
theorem WorkerStep.quietly (h : p.WorkerStep q) (hstaffed : p.Staffed) (howned : p.Owned dropped)
    (hcalm : q.Calm) : Quietly p q := by
  have hpanicked : ∀ {r : Pipeline} {id : Nat} {payload : Payload},
      ¬ (r.leave id (.panicked payload)).Calm := fun {r id payload} hcalm => by
    have := hcalm.workers (id, .panicked payload) (by simp [Pool.without])
    cases this
  cases h with
  | quit | dismissed | handedInLast =>
      exact quietly_leave rfl rfl rfl
  | callPanicked | fetchPanicked => exact absurd hcalm hpanicked
  | took | fetched | fetchFailed | fetchDropped | handedIn =>
      exact ⟨fun _ => id, ⟨[], rfl, rfl⟩, fun _ => .inl⟩
  | called => exact ⟨fun _ => id, ⟨[.fetch _], rfl, rfl⟩, fun _ => .inl⟩
  | undelivered hworks hclosed =>
      cases hcancelled : p.isCancelled with
      | true =>
          rw [if_pos rfl]
          exact quietly_leave rfl rfl rfl
      | false =>
          -- the coordinator has ended by itself, and then nobody has a location
          have hover : p.isOver = true := by
            rw [← Bool.not_eq_false]
            exact fun hrunning => by rw [howned.live hrunning] at hclosed; cases hclosed
          rcases hstaffed.left hover with hp | ⟨payload, hpanic⟩ | ⟨hbusy, -⟩
          · rw [hcancelled] at hp
            cases hp
          · exact absurd hpanic (by simpa using hcalm.coordinator payload)
          · exact absurd hbusy (List.ne_nil_of_mem hworks.mem)

/-- A coordinator that does not panic goes on quietly, or has been told of a failure by a hook:
something waits for every completion, and the workers are there. -/
theorem CoordinatorStep.quietly_or_failed (h : p.CoordinatorStep q) (hstaffed : p.Staffed)
    (hfound : ∀ c ∈ p.completions.items,
      (p.coordinator.waiters.complete? c.location).isSome = true) (hcalm : q.Calm) :
    (Quietly p q ∧ ∀ ending, q.coordinator.phase = .ended ending → ending = .done) ∨
      ∃ (r : Pipeline) (f : HookFailure), q = r.abort (.hook f) ∧ r.latch = p.latch ∧
        r.journal = p.journal ∧ r.pool = p.pool ∧ p.coordinator.phase.failure? = some f := by
  have hpresent := hstaffed.present h.running
  obtain ⟨new, hjournal, -⟩ := h.exists_writes
  have hended : ∀ {ending : Ending}, Phase.ended .done = .ended ending → ending = .done :=
    fun heq => (Phase.ended.inj heq).symm
  cases h with
  | stray hlooks hopen hitems hlost =>
      have := hfound _ (hitems ▸ List.mem_cons_self)
      rw [hlost] at this
      cases this
  | stranded hlooks hopen hexhausted hwaiting =>
      simp only [Queue.isExhausted, Bool.and_eq_true, beq_iff_eq] at hexhausted
      have hgone := (Pool.isGone_iff_alive_eq_zero _).mpr (hstaffed.senders.symm.trans hexhausted.2)
      rw [hpresent hlooks.live] at hgone
      cases hgone
  | undispatchable hlooks hnone hslot hclosed =>
      have hgone := hstaffed.closed hclosed
      rw [hpresent hlooks.live] at hgone
      cases hgone
  | unresolvedFailed hphase =>
      exact .inr ⟨_, _, rfl, rfl, rfl, rfl, by rw [hphase]; rfl⟩
  | processFailed hphase =>
      exact .inr ⟨_, _, rfl, rfl, rfl, rfl, by rw [hphase]; rfl⟩
  | resolvePanicked | unresolvedPanicked | processPanicked =>
      exact absurd rfl (hcalm.coordinator _)
  | drained | interrupted | unresolvedDropped | processDropped =>
      exact .inl ⟨.of_eq rfl rfl hjournal rfl, fun _ => hended⟩
  | completionsEnded hlooks | dispatched hlooks | intakeEnded hlooks =>
      refine .inl ⟨.of_eq rfl rfl hjournal rfl, fun _ hphase => ?_⟩
      cases hlooks.phase.symm.trans hphase
  | calledUnresolved =>
      refine .inl ⟨.of_eq rfl rfl hjournal ?_, fun _ hphase => ?_⟩
      · dsimp only
        split <;> rfl
      · cases hphase
  | completed | took | admitted | coalesced | unresolvable | unresolvedSucceeded | fanOutBegun
  | fanOutEnded | calledProcess | processSucceeded =>
      refine .inl ⟨.of_eq rfl rfl hjournal rfl, fun _ hphase => ?_⟩
      cases hphase

namespace Blameless

theorem mono {failures' : List HookFailure} {entries : List Entry}
    (h : Blameless failures entries p) (hsub : failures ⊆ failures') :
    Blameless failures' entries p := by
  refine ⟨h.workers, fun ending hended => (h.coordinator ending hended).imp_right ?_,
    fun a ha => ?_, fun fault hfault => ?_, h.quiet⟩
  · exact fun ⟨f, hf, heq⟩ => ⟨f, hsub hf, heq⟩
  · obtain ⟨f, hf, heq⟩ := h.alarms a ha
    exact ⟨f, hsub hf, heq⟩
  · obtain ⟨f, hf, heq⟩ := h.caught fault hfault
    exact ⟨f, hsub hf, heq⟩

/-- What goes on quietly is nobody's fault. -/
theorem quietly (h : Blameless failures (p.entriesFrom n) p) (hn : n ≤ p.journal.length)
    (hquiet : Quietly p q)
    (hended : ∀ ending, q.coordinator.phase = .ended ending →
      p.coordinator.phase = .ended ending ∨ ending = .done)
    (hrunning : q.isOver = false → p.isOver = false) :
    Blameless failures (q.entriesFrom n) q := by
  obtain ⟨hcaught, ⟨new, hjournal, hnew⟩, hgone⟩ := hquiet
  refine ⟨fun e he => (hgone e he).elim (h.workers e) id, fun ending hphase => ?_, ?_,
    fun fault hfault => h.caught fault (hcaught fault hfault), fun hq => ?_⟩
  · exact (hended ending hphase).elim (h.coordinator ending) .inl
  · rw [entriesFrom_append hn hjournal, alarmsIn_append, alarmsIn_reverse, hnew]
    simpa using h.alarms
  · rw [Option.eq_none_iff_forall_ne_some]
    intro fault hfault
    have := hcaught fault hfault
    rw [h.quiet (hrunning hq)] at this
    cases this

/-- The coordinator is told of a failure by a hook, and ends with it. -/
theorem failed {r : Pipeline} {f : HookFailure} (h : Blameless failures (p.entriesFrom n) p)
    (hn : n ≤ p.journal.length) (hrunning : p.isOver = false) (hcoherent : p.latch.Coherent)
    (hf : f ∈ failures) (hlatch : r.latch = p.latch) (hjournal : r.journal = p.journal)
    (hpool : r.pool = p.pool) :
    Blameless failures ((r.abort (.hook f)).entriesFrom n) (r.abort (.hook f)) := by
  have hunset : r.latch.Unset := hlatch ▸ hcoherent.unset_of_caught (h.quiet hrunning)
  have hnew : (r.abort (.hook f)).journal = [.note (.alarm (.hook f))] ++ p.journal := by
    rw [abort_eq]
    simp [Pipeline.finish, alarmEntries, hunset.trigger, hjournal]
  have halarms := h.alarms
  rw [entriesFrom_append hn hnew]
  rw [abort_eq]
  refine ⟨hpool ▸ h.workers, fun ending hended => .inr ⟨f, hf, ?_⟩, ?_,
    fun fault hfault => ⟨f, hf, ?_⟩, fun hgoing => ?_⟩
  · rw [← Phase.ended.inj hended, hunset.trigger]
    rfl
  · rw [alarmsIn_append]
    intro a ha
    rcases List.mem_append.mp ha with ha | ha
    · exact halarms a ha
    · exact ⟨f, hf, List.mem_singleton.mp ha⟩
  · simp only [Pipeline.finish, hunset.trigger, Option.some.injEq] at hfault
    exact hfault.symm
  · cases hgoing

/-- Every change after which nobody has panicked is nobody's fault but that of a hook. -/
theorem change (h : Blameless failures (p.entriesFrom n) p) (hn : n ≤ p.journal.length)
    (hstaffed : p.Staffed) (howned : p.Owned dropped)
    (hfound : ∀ c ∈ p.completions.items,
      (p.coordinator.waiters.complete? c.location).isSome = true)
    (hchange : p.Change q) (hcalm : q.Calm) :
    Blameless (failures ++ p.coordinator.phase.failed q.coordinator.phase) (q.entriesFrom n) q := by
  have hquietly : Quietly p q → q.coordinator = p.coordinator →
      Blameless (failures ++ p.coordinator.phase.failed q.coordinator.phase) (q.entriesFrom n) q :=
    fun hquiet hcoordinator => by
      refine (h.quietly hn hquiet (fun _ hended => .inl (hcoordinator ▸ hended)) ?_).mono
        (List.subset_append_left _ _)
      rw [isOver, isOver, hcoordinator]
      exact id
  cases hchange with
  | coordinated hstep =>
      have hrunning := hstep.running
      rcases hstep.quietly_or_failed hstaffed hfound hcalm with
        ⟨hquiet, hended⟩ | ⟨r, f, rfl, hlatch, hjournal, hpool, hfailure⟩
      · exact (h.quietly hn hquiet (fun ending hphase => .inr (hended ending hphase))
          fun _ => hrunning).mono (List.subset_append_left _ _)
      · refine (h.mono (List.subset_append_left _ _)).failed hn hrunning
          hstaffed.alert.coherent ?_ hlatch hjournal hpool
        have hphase : (r.abort (.hook f)).coordinator.phase =
            .ended (.failed (r.latch.trigger r.tokens (.hook f)).returned) := by
          rw [abort_eq]
          rfl
        rw [hphase, Phase.failed, hfailure]
        simp
  | worked hstep =>
      exact hquietly (hstep.quietly hstaffed howned hcalm) hstep.coordinator
  | hookReleased mode =>
      rcases exists_releaseHook p mode with heq | ⟨phase, hrunning, heq, hphase⟩
      · rw [heq]
        exact h.mono (List.subset_append_left _ _)
      · rw [heq]
        have hquiet : Quietly p (p.turnTo phase) := .of_eq rfl rfl (List.nil_append _).symm rfl
        refine (h.quietly hn hquiet (fun ending hended => ?_) fun _ => hrunning).mono
          (List.subset_append_left _ _)
        rcases hphase with ⟨r, -, rfl⟩ | ⟨r, outcome, rest, delivered, -, rfl⟩ <;> cases hended
  | fetchReleased hj mode =>
      exact hquietly (quietly_releaseFetch p _ mode)
        (sparesCoordinator_releaseFetch p _ mode).coordinator
  | tasksSpared hspares hlatch htokens =>
      exact hquietly (hspares.quietly fun _ => hlatch ▸ id) hspares.coordinator
  | renewed hspares hfinished hunset =>
      refine hquietly (hspares.quietly fun fault hfault => ?_) hspares.coordinator
      rw [hunset.caught] at hfault
      cases hfault

end Blameless

end Pipeline

/-- A host that has never run has nobody who could be missed. -/
theorem Pipeline.Unused.staffed {p : Pipeline} (h : p.Unused) : p.Staffed := by
  obtain ⟨kind, settings, protocol, tokens, rfl⟩ := h
  exact ⟨rfl, .of_unset ⟨rfl, rfl⟩, rfl, fun _ => rfl, nofun, nofun, nofun, nofun,
    fun _ => .inr (.inr ⟨rfl, .inr rfl⟩)⟩

/-- Along every course of moves the queues are open to those who need them. -/
theorem Chronicle.Reachable.staffed {c : Chronicle} (h : c.Reachable) : c.pipeline.Staffed :=
  h.invariant (J := fun _ p => p.Staffed) (fun _ hunused => hunused.staffed)
    (fun _ _ _ hlaunched _ => .launched hlaunched)
    fun _ _ _ hholds hchange hstaffed => hstaffed.change hholds.owned hchange

namespace Observed

open Scenario (HostBench)

/-- Along every course of moves it is nobody's fault but that of a hook. -/
theorem Reachable.blameless {o : Observed (List HookFailure)} (h : o.Reachable Observer.failures)
    (hwhole : ∀ r ∈ o.chronicle.accepted, r.IsWhole) (hcalm : o.chronicle.pipeline.Calm) :
    o.chronicle.pipeline.Blameless o.notes o.chronicle.entries := by
  have hinvariant := h.invariant
    (J := fun failures r p => p.Staffed ∧ ((∀ x ∈ r.accepted, x.IsWhole) → p.Calm →
      p.Blameless failures (p.entriesFrom r.since))) ?_ ?_ ?_
  · exact hinvariant.2 hwhole hcalm
  · refine fun p hunused => ⟨hunused.staffed, fun _ _ => ?_⟩
    obtain ⟨kind, settings, protocol, tokens, rfl⟩ := hunused
    refine ⟨nofun, fun ending hended => .inl (Phase.ended.inj hended).symm, nofun, nofun, nofun⟩
  · intro _ _ p q hlaunched _
    refine ⟨.launched hlaunched, fun _ _ => ?_⟩
    obtain ⟨size, capacity, -, hpool, -⟩ := hlaunched.pool
    refine ⟨by rw [hpool]; exact nofun, by rw [hlaunched.coordinator]; exact nofun, ?_,
      by rw [hlaunched.latch.caught]; exact nofun, fun _ => hlaunched.latch.caught⟩
    rw [entriesFrom_length]
    exact nofun
  · intro failures r p q hholds hchange ⟨hstaffed, hblameless⟩
    refine ⟨hstaffed.change hholds.owned hchange, fun hwhole hcalm => ?_⟩
    rw [Record.follow_of_era_eq hchange.era] at hwhole ⊢
    have hbefore : ∀ x ∈ r.accepted, x.IsWhole := fun x hx =>
      hwhole x (List.mem_append_left _ hx)
    exact (hblameless hbefore (hchange.calm hcalm)).change hholds.since hstaffed hholds.owned
      (hholds.isSome_complete? hbefore) hchange hcalm

/-- **The pipeline never blames itself.** As long as nobody has panicked, and if the references
accepted lead to locations that are equal to themselves, every worker that is gone has ended in
good order, and the coordinator ends in good order or with a failure that a hook of the run has
answered with. Only such failures are logged as alarms, and the fault captured is one of them. -/
theorem blames_hooks_only {o : Observed (List HookFailure)} (h : o.Reachable Observer.failures)
    (hwhole : ∀ r ∈ o.chronicle.accepted, r.IsWhole) (hcalm : o.chronicle.pipeline.Calm) :
    let p := o.chronicle.pipeline
    (∀ e ∈ p.pool.gone, e.2 = .done) ∧
    (∀ ending, p.coordinator.phase = .ended ending →
      ending = .done ∨ ∃ f ∈ o.notes, ending = .failed (.captured (.hook f))) ∧
    (∀ a ∈ alarmsIn o.chronicle.entries, ∃ f ∈ o.notes, a = .hook f) ∧
    ∀ fault, p.latch.caught = some fault → ∃ f ∈ o.notes, fault = .hook f := by
  intro p
  have hblameless := h.blameless hwhole hcalm
  exact ⟨hblameless.workers, hblameless.coordinator, hblameless.alarms, hblameless.caught⟩

/-- Two locations are fetched, and the hook that takes the first delivery fails. The second fetch is
dropped then, and its worker finds nobody to hand the outcome to. -/
def refused : Observed (List HookFailure) :=
  let references : List Reference :=
    [{ id := 1, target := .location (.number 7), process := .fail none ⟨"no room", []⟩ },
      { id := 2, target := .location (.number 8) }]
  let coordinate : HostBench.Move := .event (.inside .coordinate)
  let work (id : Nat) : HostBench.Move := .event (.inside (.work id))
  let protocol : Protocol := { fetches := [("8", .hold)], otherwise := .content none }
  (start .failures .fetcher ⟨2, 8, 2, 2, ⟨5, 0⟩⟩ protocol false).run .failures
    ([.act 0 .start, .act 1 (.trySubmit references)] ++ List.replicate 6 coordinate ++
      [work 0, work 0, work 1, work 1, work 0, work 0] ++ List.replicate 4 coordinate ++
      [.event (.inside (.dropFetch 1)), work 1, work 0])

/-- In that run both workers end in good order, and the failure of the hook is captured. -/
theorem blames_hooks_only_refused :
    let p := refused.chronicle.pipeline
    (refused.Reachable .failures ∧ (∀ r ∈ refused.chronicle.accepted, r.IsWhole) ∧ p.Calm) ∧
    p.pool.gone.map Prod.fst = [1, 0] ∧
    (∀ e ∈ p.pool.gone, e.2 = .done) ∧
    p.latch.caught = some (.hook ⟨.process, ⟨"no room", []⟩⟩) ∧
    ∀ fault, p.latch.caught = some fault → ∃ f ∈ refused.notes, fault = .hook f := by
  have hreachable : refused.Reachable .failures := ⟨_, _, _, _, _, rfl⟩
  have haccepted : refused.chronicle.accepted.map Reference.target =
      [.location (.number 7), .location (.number 8)] := by rfl
  have hwhole : ∀ r ∈ refused.chronicle.accepted, r.IsWhole := by
    intro r hr l htarget
    have := haccepted ▸ List.mem_map_of_mem (f := Reference.target) hr
    rw [htarget] at this
    simp only [List.mem_cons, List.not_mem_nil, or_false] at this
    rcases this with heq | heq <;> (cases heq; rfl)
  have hphase : refused.chronicle.pipeline.coordinator.phase =
      .ended (.failed (.captured (.hook ⟨.process, ⟨"no room", []⟩⟩))) := by rfl
  have hgone : refused.chronicle.pipeline.pool.gone = [(1, .done), (0, .done)] := by rfl
  have hcalm : refused.chronicle.pipeline.Calm :=
    ⟨by rw [hphase]; exact nofun, by rw [hgone]; decide⟩
  obtain ⟨hworkers, -, -, hcaught⟩ := blames_hooks_only hreachable hwhole hcalm
  exact ⟨⟨hreachable, hwhole, hcalm⟩, by rfl, hworkers, by rfl, hcaught⟩

end Observed

end SharedFetch
