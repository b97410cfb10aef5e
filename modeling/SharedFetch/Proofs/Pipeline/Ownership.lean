import SharedFetch.Proofs.Pipeline.WorkerStep

/-!
# Who has a location

Between its admission and its completion a location is *underway*: it stands in the slot or in the
dispatch queue, a worker has it, or its completion waits to be taken up. Each hand-over takes it
from one of these places and puts it into another, so that the locations in flight, which the
coordinator keeps by the references that wait for them, are at every moment those underway. Three
things can make a location disappear on its way: a worker that panics with it, the last worker that
leaves, with which the dispatch queue is dropped (`dropped`), and the end of the coordinator, after
which completions are no longer taken.

`Owned` is what every step of coordinator and workers keeps. It also says that no two workers
have the same name, that the completions are not closed before the coordinator has ended, and
that a worker fails only if the coordinator has left it with a location.

## Main results

* `Owned.coordinatorStep`, `Owned.workerStep`: every step keeps the locations in hand.
-/

namespace SharedFetch

namespace Pool

/-- The workers that are not gone. -/
def workers (p : Pool) : List Nat :=
  p.idle ++ p.busy.map Job.worker

/-- The number of workers that are gone with a panic. -/
def panics (p : Pool) : Nat :=
  p.gone.countP fun e => e.2.isPanic

variable {p : Pool} {j : Job} {id : Nat}

/-- Putting a job in place of another leaves its worker busy. -/
theorem map_worker_update (p : Pool) (j : Job) :
    (p.update j).busy.map Job.worker = p.busy.map Job.worker := by
  simp only [update, List.map_map]
  refine List.map_congr_left fun k _ => ?_
  simp only [Function.comp_apply]
  split
  · rename_i h
    exact h.symm
  · rfl

/-- The job of a worker is the only one of that worker. -/
theorem eq_of_worker_eq (h : p.workers.Nodup) (hj : j ∈ p.busy) {k : Job} (hk : k ∈ p.busy)
    (hworker : k.worker = j.worker) : k = j :=
  List.inj_on_of_nodup_map (List.nodup_append.mp h).2.1 hk hj hworker

/-- A busy worker has its job. -/
theorem job?_of_mem (h : p.workers.Nodup) (hj : j ∈ p.busy) : p.job? j.worker = some j := by
  have hfound : (p.job? j.worker).isSome = true :=
    List.find?_isSome.mpr ⟨j, hj, by simp⟩
  obtain ⟨k, hk⟩ := Option.isSome_iff_exists.mp hfound
  obtain ⟨hmem, hworker⟩ := job?_eq_some hk
  rw [hk, eq_of_worker_eq h hj hmem hworker]

/-- An idle worker has none. -/
theorem job?_of_idle (h : p.workers.Nodup) (hid : id ∈ p.idle) : p.job? id = none := by
  rw [job?, List.find?_eq_none]
  intro k hk
  have := (List.nodup_append.mp h).2.2 id hid k.worker (List.mem_map_of_mem hk)
  simpa using this.symm

/-- A job that goes on to another stage keeps its location. -/
theorem map_location_update (h : p.workers.Nodup) (hj : j ∈ p.busy) (stage : JobStage) :
    (p.update { j with stage }).busy.map Job.location = p.busy.map Job.location := by
  simp only [update, List.map_map]
  refine List.map_congr_left fun k hk => ?_
  simp only [Function.comp_apply]
  split
  · rename_i hworker
    rw [eq_of_worker_eq h hj hk hworker]
  · rfl

/-- A worker that is idle has no job. -/
theorem busy_without_of_mem_idle (h : p.workers.Nodup) (hid : id ∈ p.idle) (ending : Ending) :
    (p.without id ending).busy = p.busy := by
  refine List.filter_eq_self.mpr fun k hk => ?_
  have := (List.nodup_append.mp h).2.2 id hid k.worker (List.mem_map_of_mem hk)
  simpa using this.symm

/-- The jobs before and after that of a worker stay as they are when it leaves or goes on. -/
theorem exists_busy_eq (h : p.workers.Nodup) (hj : j ∈ p.busy) :
    ∃ before after, p.busy = before ++ j :: after ∧
      (∀ ending, (p.without j.worker ending).busy = before ++ after) ∧
      ∀ stage, (p.update { j with stage }).busy = before ++ { j with stage } :: after := by
  obtain ⟨before, after, hbusy⟩ := List.append_of_mem hj
  have hnodup := (List.nodup_append.mp h).2.1
  rw [hbusy, List.map_append, List.map_cons, List.nodup_middle, List.nodup_cons] at hnodup
  have hothers : ∀ k ∈ before ++ after, k.worker ≠ j.worker := fun k hk hworker =>
    hnodup.1 (List.map_append ▸ List.mem_map.mpr ⟨k, hk, hworker⟩)
  refine ⟨before, after, hbusy, fun ending => ?_, fun stage => ?_⟩
  · rw [without, hbusy, List.filter_append, List.filter_cons_of_neg (by simp),
      ← List.filter_append]
    exact List.filter_eq_self.mpr fun k hk => bne_iff_ne.mpr (hothers k hk)
  · have hkept : ∀ ks : List Job, (∀ k ∈ ks, k.worker ≠ j.worker) →
        (ks.map fun k => if k.worker = j.worker then { j with stage } else k) = ks := by
      intro ks hks
      exact (List.map_congr_left fun k hk => if_neg (hks k hk)).trans (List.map_id _)
    rw [update, hbusy, List.map_append, List.map_cons, if_pos rfl,
      hkept before fun k hk => hothers k (List.mem_append_left _ hk),
      hkept after fun k hk => hothers k (List.mem_append_right _ hk)]

/-- A busy worker that leaves takes its job out and no other. -/
theorem busy_perm_without (h : p.workers.Nodup) (hj : j ∈ p.busy) (ending : Ending) :
    p.busy.Perm (j :: (p.without j.worker ending).busy) := by
  obtain ⟨before, after, hbusy, hwithout, -⟩ := exists_busy_eq h hj
  rw [hwithout, hbusy]
  exact List.perm_middle

/-- The workers left when one leaves are still different from each other. -/
theorem nodup_workers_without (h : p.workers.Nodup) (id : Nat) (ending : Ending) :
    (p.without id ending).workers.Nodup := by
  refine h.sublist ?_
  exact (List.erase_sublist).append (List.filter_sublist.map _)

end Pool

namespace Pipeline

/-- The locations on their way, from the slot to the completions. -/
def underway (p : Pipeline) : List Location :=
  p.coordinator.slot.toList ++ p.dispatch.items ++ p.pool.busy.map Job.location ++
    p.completions.items.map Completion.location

/-- The location of the first completion stands apart from the others underway. -/
theorem underway_perm_of_completion {p : Pipeline} {c : Completion} {rest : List Completion}
    (hitems : p.completions.items = c :: rest) :
    p.underway.Perm (c.location ::
      (p.coordinator.slot.toList ++ p.dispatch.items ++ p.pool.busy.map Job.location ++
        rest.map Completion.location)) := by
  rw [underway, hitems]
  exact List.perm_middle

/-- The location in the slot may as well stand at the end of the dispatch queue. -/
theorem underway_perm_of_slot {p : Pipeline} {l : Location} (hslot : p.coordinator.slot = some l) :
    p.underway.Perm
      ([] ++ (p.dispatch.items ++ [l]) ++ p.pool.busy.map Job.location ++
        p.completions.items.map Completion.location) := by
  rw [underway, hslot]
  exact (List.perm_append_comm.append_right _).append_right _

/-- The location of a job may as well stand at the end of the completions. -/
theorem underway_perm_of_job {p : Pipeline} {j : Job} (hworkers : p.pool.workers.Nodup)
    (hj : j ∈ p.pool.busy) (ending : Ending) :
    p.underway.Perm
      (p.coordinator.slot.toList ++ p.dispatch.items ++
        (p.pool.without j.worker ending).busy.map Job.location ++
        p.completions.items.map Completion.location ++ [j.location]) := by
  have hbusy := (Pool.busy_perm_without hworkers hj ending).map Job.location
  have hfront := (hbusy.append_left (p.coordinator.slot.toList ++ p.dispatch.items)).trans
    List.perm_middle
  exact (hfront.append_right _).trans (List.perm_append_singleton j.location _).symm

/-- A coordinator that ends drops the completions. -/
theorem underway_finish (p : Pipeline) (e : Ending) :
    p.underway = (p.finish e).underway ++ p.completions.items.map Completion.location := by
  simp [underway, Pipeline.finish]

/-- What is dropped with the dispatch queue from one state to the next: all that stands in it, if
the last worker leaves. -/
def dropped (p q : Pipeline) : List Location :=
  if q.pool.isGone && !p.pool.isGone then p.dispatch.items else []

/-- While a worker is left, nothing is dropped. -/
theorem dropped_eq_nil {p q : Pipeline} (h : q.pool.isGone = false) : p.dropped q = [] := by
  simp [dropped, h]

/-- Nothing is dropped unless a worker leaves. -/
theorem dropped_of_isGone_eq {p q : Pipeline} (h : q.pool.isGone = p.pool.isGone) :
    p.dropped q = [] := by
  simp [dropped, h]

/-- With the last worker the dispatch queue is dropped, and with any other it stays. -/
theorem underway_perm_leave {p : Pipeline} (id : Nat) (ending : Ending)
    (hstaffed : p.pool.isGone = false) :
    (p.coordinator.slot.toList ++ p.dispatch.items ++
        (p.pool.without id ending).busy.map Job.location ++
        p.completions.items.map Completion.location).Perm
      ((p.leave id ending).underway ++ p.dropped (p.leave id ending)) := by
  rw [underway, dropped, items_dispatch_leave, pool_leave, coordinator_leave, completions_leave,
    hstaffed]
  cases hgone : (p.pool.without id ending).isGone with
  | false => simp
  | true =>
      simp only [List.append_assoc, if_true, Bool.not_false, Bool.and_true, List.nil_append,
        Queue.items_dropSender, Queue.items_stepOut]
      refine List.Perm.append_left _ (List.perm_append_comm.trans ?_)
      rw [List.append_assoc]

/-- Every location is where it was. -/
structure Stays (p q : Pipeline) : Prop where
  pool : q.pool = p.pool
  waiters : q.coordinator.waiters = p.coordinator.waiters
  slot : q.coordinator.slot = p.coordinator.slot
  dispatch : q.dispatch.items = p.dispatch.items
  completions : q.completions = p.completions

theorem Stays.underway {p q : Pipeline} (h : Stays p q) : q.underway = p.underway := by
  rw [Pipeline.underway, h.slot, h.dispatch, h.pool, h.completions]
  rfl

/-- Coordinator and workers, and the queues between them, are as they were. -/
structure SameTasks (p q : Pipeline) : Prop where
  coordinator : q.coordinator = p.coordinator
  dispatch : q.dispatch = p.dispatch
  completions : q.completions = p.completions
  idle : q.pool.idle = p.pool.idle
  busy : q.pool.busy = p.pool.busy
  gone : q.pool.gone = p.pool.gone
  guarded : q.pool.guarded = p.pool.guarded

theorem SameTasks.dropped {p q : Pipeline} (h : SameTasks p q) : p.dropped q = [] :=
  dropped_of_isGone_eq (by rw [Pool.isGone, Pool.isGone, h.idle, h.busy])

/-- The locations in flight are those underway, those dropped with the dispatch queue, and some that
were lost on their way. While the coordinator goes on, only workers that panicked have lost one
each; while a worker is left, none is dropped. -/
structure Owned (dropped : List Location) (p : Pipeline) : Prop where
  workers : p.pool.workers.Nodup
  live : p.isOver = false → p.completions.closed = false
  locations : ∃ lost, p.coordinator.waiters.locations.Perm (p.underway ++ dropped ++ lost) ∧
    (p.isOver = false → lost.length ≤ p.pool.panics)
  kept : p.pool.isGone = false → dropped = []
  failures : p.isOver = false ∨ p.coordinator.waiters.isEmpty = true →
    ∀ e ∈ p.pool.gone, ∀ fault, e.2 ≠ .failed fault

namespace Owned

variable {p q : Pipeline} {dropped : List Location}

/-- If nothing waits, nothing is underway. -/
theorem underway_eq_nil (h : p.Owned dropped) (hempty : p.coordinator.waiters.isEmpty = true) :
    p.underway = [] := by
  obtain ⟨lost, hperm, -⟩ := h.locations
  have hnil : p.coordinator.waiters.locations = [] := by
    simpa [Waiters.locations, Waiters.isEmpty] using hempty
  rw [hnil, List.nil_perm, List.append_eq_nil_iff, List.append_eq_nil_iff] at hperm
  exact hperm.1.1

/-- Every location underway is in flight. -/
theorem subperm_underway (h : p.Owned dropped) :
    p.underway.Subperm p.coordinator.waiters.locations := by
  obtain ⟨lost, hperm, -⟩ := h.locations
  rw [List.append_assoc] at hperm
  exact (List.sublist_append_left _ _).subperm.trans hperm.symm.subperm

/-- What happens apart from coordinator and workers changes nothing. -/
theorem sameTasks (h : p.Owned dropped) (htasks : SameTasks p q) : q.Owned dropped := by
  obtain ⟨hworkers, hlive, hlocations, hkept, hfailures⟩ := h
  obtain ⟨hcoordinator, hdispatch, hcompletions, hidle, hbusy, hgone, -⟩ := htasks
  have hover : q.isOver = p.isOver := by rw [isOver, isOver, hcoordinator]
  constructor
  · rwa [Pool.workers, hidle, hbusy]
  · rwa [hover, hcompletions]
  · rwa [hover, underway, Pool.panics, hcoordinator, hdispatch, hbusy, hcompletions, hgone]
  · rwa [Pool.isGone, hidle, hbusy]
  · rwa [hover, hcoordinator, hgone]

/-! ### The coordinator -/

/-- The coordinator hands locations on, or loses some when it ends. -/
theorem moved (h : p.Owned dropped) (hrunning : p.isOver = false) (hpool : q.pool = p.pool)
    (hclosed : q.isOver = false → q.completions.closed = p.completions.closed)
    (hmoved : ∀ lost, p.coordinator.waiters.locations.Perm (p.underway ++ lost) →
      ∃ lost', q.coordinator.waiters.locations.Perm (q.underway ++ (lost' ++ lost)) ∧
        (q.isOver = false → lost' = [])) : q.Owned dropped := by
  obtain ⟨lost, hperm, hlost⟩ := h.locations
  rw [List.append_assoc] at hperm
  obtain ⟨lost', hperm', hlost'⟩ := hmoved (dropped ++ lost) hperm
  refine ⟨hpool ▸ h.workers, fun hq => (hclosed hq).trans (h.live hrunning),
    ⟨lost' ++ lost, ?_, fun hq => ?_⟩, hpool ▸ h.kept, fun _ => hpool ▸ h.failures (.inl hrunning)⟩
  · rw [List.append_assoc]
    refine hperm'.trans (.append_left _ ?_)
    rw [← List.append_assoc, ← List.append_assoc]
    exact List.perm_append_comm.append_right lost
  · rw [hlost' hq, hpool]
    exact hlost hrunning

/-- The coordinator turns to something else. -/
theorem turned (h : p.Owned dropped) (hrunning : p.isOver = false) (hstays : Stays p q) :
    q.Owned dropped := by
  refine h.moved hrunning hstays.pool (fun _ => by rw [hstays.completions]) fun lost hperm =>
    ⟨[], ?_, fun _ => rfl⟩
  rw [hstays.underway, hstays.waiters]
  exact hperm

/-- The coordinator ends, and drops the completions. -/
theorem finish (h : p.Owned dropped) (hrunning : p.isOver = false) {e : Ending}
    (hstays : Stays p q) : (q.finish e).Owned dropped := by
  refine h.moved hrunning hstays.pool (by simp [Pipeline.finish, isOver]) fun lost hperm =>
    ⟨q.completions.items.map Completion.location, ?_, by simp [Pipeline.finish, isOver]⟩
  rw [← List.append_assoc, ← underway_finish, hstays.underway]
  exact hstays.waiters ▸ hperm

/-- The coordinator ends with an alarm. -/
theorem abort (h : p.Owned dropped) (hrunning : p.isOver = false) {alarm : Alarm}
    (hstays : Stays p q) : (q.abort alarm).Owned dropped := by
  rw [abort_eq]
  exact h.finish hrunning
    ⟨hstays.pool, hstays.waiters, hstays.slot, hstays.dispatch, hstays.completions⟩

/-- The location of a completion is the one that is in flight, and not only the same. -/
theorem location_eq (h : p.Owned dropped) (hdistinct : p.coordinator.waiters.Distinct)
    {c : Completion} (hc : c ∈ p.completions.items) {k : Location}
    (hk : k ∈ p.coordinator.waiters.locations) (hsame : (k == c.location) = true) :
    k = c.location := by
  have hmem : c.location ∈ p.underway := List.mem_append_right _ (List.mem_map_of_mem hc)
  exact hdistinct.eq_of_beq hk (h.subperm_underway.subset hmem) hsame

/-- A step of the coordinator keeps the locations in hand, provided that no two in flight are the
same and that the slot is free when a location fills it. -/
theorem coordinatorStep (h : p.Owned dropped) (hdistinct : p.coordinator.waiters.Distinct)
    (hslot : ∀ r, p.coordinator.phase = .resolving r → p.coordinator.slot = none)
    (hstep : p.CoordinatorStep q) : q.Owned dropped := by
  have hrunning := hstep.running
  cases hstep with
  | drained hphase hdrained => exact h.finish hrunning (by constructor <;> rfl)
  | interrupted hphase hbusy hcancelled => exact h.finish hrunning (by constructor <;> rfl)
  | @completed c rest references waiters hlooks hopen hitems hfound =>
      refine h.moved hrunning rfl (fun _ => rfl) fun lost hperm => ⟨[], ?_, fun _ => rfl⟩
      have htaken := hperm.trans ((underway_perm_of_completion hitems).append_right lost)
      obtain ⟨before, k, after, hentries, -, hk, rfl⟩ := Waiters.complete?_eq_some_iff.mp hfound
      obtain rfl := h.location_eq hdistinct (hitems ▸ List.mem_cons_self)
        (by simp [Waiters.locations, hentries]) hk
      simp only [Waiters.locations, hentries, List.map_append, List.map_cons] at htaken ⊢
      exact (List.perm_middle.symm.trans htaken).cons_inv
  | @stray c rest hlooks hopen hitems hlost =>
      rw [abort_eq]
      refine h.moved hrunning rfl (by simp [Pipeline.finish, isOver]) fun lost hperm =>
        ⟨p.completions.items.map Completion.location, ?_, by simp [Pipeline.finish, isOver]⟩
      simpa [underway, Pipeline.finish] using hperm
  | completionsEnded hlooks hopen hexhausted hempty =>
      exact h.turned hrunning (by constructor <;> rfl)
  | stranded hlooks hopen hexhausted hwaiting =>
      exact h.abort hrunning (by constructor <;> rfl)
  | dispatched hlooks hnone hfull hopen hroom =>
      refine h.moved hrunning rfl (fun _ => rfl) fun lost hperm => ⟨[], ?_, fun _ => rfl⟩
      exact hperm.trans ((underway_perm_of_slot hfull).append_right lost)
  | undispatchable hlooks hnone hfull hclosed =>
      exact h.abort hrunning (by constructor <;> rfl)
  | took hlooks hnone hfree hopen hitems => exact h.turned hrunning (by constructor <;> rfl)
  | intakeEnded hlooks hnone hfree hopen hexhausted =>
      exact h.turned hrunning (by constructor <;> rfl)
  | @admitted r l lock waiters hphase hlock htarget henroll =>
      refine h.moved hrunning rfl (fun _ => rfl) fun lost hperm => ⟨[], ?_, fun _ => rfl⟩
      obtain ⟨-, -, rfl⟩ := Waiters.enroll_eq_dispatch henroll
      rw [underway, hslot r hphase] at hperm
      simp only [Waiters.locations, List.map_append, List.map_cons, List.map_nil, underway]
      exact List.perm_append_comm.trans (hperm.cons l)
  | @coalesced r l n lock waiters hphase hlock htarget henroll =>
      refine h.moved hrunning rfl (fun _ => rfl) fun lost hperm => ⟨[], ?_, fun _ => rfl⟩
      obtain ⟨before, k, rs, after, hentries, -, -, -, rfl⟩ := Waiters.enroll_eq_coalesced henroll
      simpa [Waiters.locations, hentries, underway] using hperm
  | unresolvable hphase hlock htarget => exact h.turned hrunning (by constructor <;> rfl)
  | resolvePanicked hphase hlock htarget => exact h.finish hrunning (by constructor <;> rfl)
  | calledUnresolved hphase hlock => exact h.turned hrunning (by constructor <;> rfl)
  | unresolvedSucceeded hphase => exact h.turned hrunning (by constructor <;> rfl)
  | unresolvedFailed hphase => exact h.abort hrunning (by constructor <;> rfl)
  | unresolvedPanicked hphase => exact h.finish hrunning (by constructor <;> rfl)
  | fanOutBegun hphase hlock => exact h.turned hrunning (by constructor <;> rfl)
  | fanOutEnded hphase => exact h.turned hrunning (by constructor <;> rfl)
  | calledProcess hphase => exact h.turned hrunning (by constructor <;> rfl)
  | processSucceeded hphase => exact h.turned hrunning (by constructor <;> rfl)
  | processFailed hphase => exact h.abort hrunning (by constructor <;> rfl)
  | processPanicked hphase => exact h.finish hrunning (by constructor <;> rfl)
  | unresolvedDropped hphase hcancelled => exact h.finish hrunning (by constructor <;> rfl)
  | processDropped hphase hcancelled => exact h.finish hrunning (by constructor <;> rfl)

/-! ### The workers -/

/-- A worker hands a location on, or loses it and is gone. -/
theorem worked (lost : List Location) (left : List (Nat × Ending)) (h : p.Owned dropped)
    (hstaffed : p.pool.isGone = false) (hcoordinator : q.coordinator = p.coordinator)
    (hclosed : q.completions.closed = p.completions.closed) (hworkers : q.pool.workers.Nodup)
    (hgone : q.pool.gone = p.pool.gone ++ left)
    (hmoved : p.underway.Perm (q.underway ++ p.dropped q ++ lost))
    (hlost : p.completions.closed = false → lost.length ≤ left.countP fun e => e.2.isPanic)
    (hfailed : ∀ e ∈ left, ∀ fault, e.2 = .failed fault →
      p.completions.closed = true ∧ p.pool.busy ≠ []) : q.Owned (dropped ++ p.dropped q) := by
  have hover : q.isOver = p.isOver := by rw [isOver, isOver, hcoordinator]
  have hnone : dropped = [] := h.kept hstaffed
  obtain ⟨lost', hperm, hlost'⟩ := h.locations
  rw [hnone, List.append_nil] at hperm
  refine ⟨hworkers, ?_, ⟨lost ++ lost', ?_, ?_⟩, fun hq => ?_, ?_⟩
  · rw [hover, hclosed]
    exact h.live
  · rw [hcoordinator, hnone, List.nil_append, ← List.append_assoc]
    exact hperm.trans (hmoved.append_right lost')
  · intro hrunning
    rw [hover] at hrunning
    have h₁ := hlost (h.live hrunning)
    have h₂ := hlost' hrunning
    rw [Pool.panics] at h₂
    rw [Pool.panics, hgone, List.countP_append, List.length_append]
    omega
  · rw [hnone, dropped_eq_nil hq, List.append_nil]
  · rw [hover, hcoordinator, hgone]
    intro hcase e he fault heq
    rcases List.mem_append.mp he with he | he
    · exact h.failures hcase e he fault heq
    · -- whoever fails has a location, and the coordinator has ended with something waiting
      obtain ⟨hended, hbusy⟩ := hfailed e he fault heq
      rcases hcase with hrunning | hempty
      · rw [h.live hrunning] at hended
        exact Bool.false_ne_true hended
      · have hnil := h.underway_eq_nil hempty
        simp only [underway, List.append_eq_nil_iff, List.map_eq_nil_iff] at hnil
        exact hbusy hnil.1.2

/-- A worker goes on without leaving, and no location is lost. -/
theorem handedOn (h : p.Owned dropped) (hstaffed : q.pool.isGone = false)
    (hpool : p.pool.isGone = false) (hcoordinator : q.coordinator = p.coordinator)
    (hclosed : q.completions.closed = p.completions.closed) (hworkers : q.pool.workers.Nodup)
    (hgone : q.pool.gone = p.pool.gone) (hmoved : p.underway.Perm q.underway) :
    q.Owned (dropped ++ p.dropped q) := by
  refine h.worked [] [] hpool hcoordinator hclosed hworkers (by rw [hgone, List.append_nil]) ?_
    (fun _ => Nat.zero_le _) (by simp)
  rw [dropped_eq_nil hstaffed, List.append_nil, List.append_nil]
  exact hmoved

/-- An idle worker leaves. -/
theorem leave_idle {id : Nat} (h : p.Owned dropped) (hidle : id ∈ p.pool.idle) :
    (p.leave id .done).Owned (dropped ++ p.dropped (p.leave id .done)) := by
  have hstaffed : p.pool.isGone = false := by simp [Pool.isGone, List.ne_nil_of_mem hidle]
  refine h.worked [] [(id, .done)] hstaffed (by simp) (by simp)
    (by simpa using Pool.nodup_workers_without h.workers id .done)
    (by rw [pool_leave, Pool.without]) ?_ (fun _ => Nat.zero_le _) (by simp)
  have hperm := underway_perm_leave id .done hstaffed
  rw [Pool.busy_without_of_mem_idle h.workers hidle .done] at hperm
  rw [List.append_nil]
  exact hperm

/-- A busy worker leaves with its location. -/
theorem leave_busy {j : Job} {ending : Ending} (h : p.Owned dropped) (hj : j ∈ p.pool.busy)
    (hending : ending.isPanic = true ∨ p.completions.closed = true) :
    (p.leave j.worker ending).Owned (dropped ++ p.dropped (p.leave j.worker ending)) := by
  have hstaffed : p.pool.isGone = false := by simp [Pool.isGone, List.ne_nil_of_mem hj]
  refine h.worked [j.location] [(j.worker, ending)] hstaffed (by simp) (by simp)
    (by simpa using Pool.nodup_workers_without h.workers j.worker ending)
    (by rw [pool_leave, Pool.without]) ?_ ?_ ?_
  · exact (underway_perm_of_job h.workers hj ending).trans
      ((underway_perm_leave j.worker ending hstaffed).append_right _)
  · intro hopen
    rcases hending with hpanic | hclosed
    · simp [hpanic]
    · rw [hclosed] at hopen
      exact absurd hopen (by simp)
  · intro e he fault heq
    obtain rfl := List.mem_singleton.mp he
    rcases hending with hpanic | hclosed
    · rw [show ending = .failed fault from heq] at hpanic
      exact absurd hpanic Bool.false_ne_true
    · exact ⟨hclosed, List.ne_nil_of_mem hj⟩

/-- A worker goes on to another stage of its job. -/
theorem updated {j : Job} {stage : JobStage} (h : p.Owned dropped) (hj : j ∈ p.pool.busy)
    (hcoordinator : q.coordinator = p.coordinator) (hdispatch : q.dispatch = p.dispatch)
    (hitems : q.completions.items = p.completions.items)
    (hclosed : q.completions.closed = p.completions.closed)
    (hpool : q.pool = p.pool.update { j with stage }) : q.Owned (dropped ++ p.dropped q) := by
  have hbusy : p.pool.busy ≠ [] := List.ne_nil_of_mem hj
  refine h.handedOn ?_ ?_ hcoordinator hclosed ?_ (by rw [hpool, Pool.update]) ?_
  · simp [hpool, Pool.isGone, Pool.update, hbusy]
  · simp [Pool.isGone, hbusy]
  · rw [hpool, Pool.workers, Pool.map_worker_update]
    exact h.workers
  · rw [underway, underway, hcoordinator, hdispatch, hitems, hpool,
      Pool.map_location_update h.workers hj]

/-- A step of a worker keeps the locations in hand. -/
theorem workerStep (h : p.Owned dropped) (hstep : p.WorkerStep q) :
    q.Owned (dropped ++ p.dropped q) := by
  have hstaffed := hstep.isGone_eq_false
  cases hstep with
  | quit hidle hcancelled => exact h.leave_idle hidle
  | dismissed hidle hlive hexhausted => exact h.leave_idle hidle
  | @took id idle l items hlive hidle hitems =>
      refine h.handedOn (by simp [Pool.isGone]) hstaffed rfl rfl ?_ rfl ?_
      · have := h.workers
        rw [Pool.workers, hidle] at this
        rw [Pool.workers, List.map_append, ← List.append_assoc]
        exact (List.perm_append_singleton id _).nodup_iff.mpr this
      · have hback := (List.perm_append_singleton l (items ++ p.pool.busy.map Job.location)).symm
        have hperm := (hback.append_left p.coordinator.slot.toList).append_right
          (p.completions.items.map Completion.location)
        simpa [underway, hitems] using hperm
  | called hworks hlock hmode => exact h.updated hworks.mem rfl rfl rfl rfl rfl
  | callPanicked hworks hlock hmode =>
      exact (h.sameTasks (by constructor <;> rfl)).leave_busy hworks.mem (.inl rfl)
  | fetched hworks => exact h.updated hworks.mem rfl rfl rfl rfl rfl
  | fetchFailed hworks => exact h.updated hworks.mem rfl rfl rfl rfl rfl
  | fetchPanicked hworks hmode =>
      exact (h.sameTasks (by constructor <;> rfl)).leave_busy hworks.mem (.inl rfl)
  | fetchDropped hworks hcancelled => exact h.updated hworks.mem rfl rfl rfl rfl rfl
  | @handedIn j outcome hworks hopen hline hroom houtcome =>
      have hperm := underway_perm_of_job h.workers hworks.mem .done
      refine h.handedOn (by simp [Pool.isGone]) hstaffed rfl rfl ?_ rfl ?_
      · have hworkers := (Pool.busy_perm_without h.workers hworks.mem .done).map Job.worker
        have := (hworkers.append_left p.pool.idle).nodup h.workers
        rw [Pool.workers, List.append_assoc]
        exact this
      · simpa [underway, Pool.without] using hperm
  | @handedInLast j outcome hworks hopen hline hroom houtcome =>
      have hperm := underway_perm_of_job h.workers hworks.mem .done
      refine h.worked [] [(j.worker, .done)] hstaffed (by simp) (by simp)
        (by simpa using Pool.nodup_workers_without h.workers j.worker .done)
        (by rw [pool_leave, Pool.without]) ?_ (fun _ => Nat.zero_le _) (by simp)
      have hleft := underway_perm_leave (p := { p with
        completions := { p.completions with
          line := p.completions.line.tail
          items := p.completions.items ++ [Completion.mk j.location outcome] } })
        j.worker .done hstaffed
      rw [List.append_nil]
      refine hperm.trans (.trans ?_ hleft)
      simp
  | undelivered hworks hclosed => exact h.leave_busy hworks.mem (.inr hclosed)

/-! ### Answers and beginnings -/

/-- A fetch that was held is given its answer. -/
theorem releaseFetch {j : Job} (h : p.Owned dropped) (hj : j ∈ p.pool.busy) (mode : FetchMode) :
    (p.releaseFetch j mode).Owned (dropped ++ p.dropped (p.releaseFetch j mode)) := by
  rw [Pipeline.releaseFetch]
  split
  · exact h.updated hj rfl rfl rfl rfl rfl
  · rw [dropped_of_isGone_eq rfl, List.append_nil]
    exact h

/-- A hook that was held is given its answer. -/
theorem releaseHook (h : p.Owned dropped) (mode : HookMode) :
    (p.releaseHook mode).Owned dropped := by
  rw [Pipeline.releaseHook]
  split
  · rename_i r hphase
    exact h.turned (by rw [isOver, hphase]) (by constructor <;> rfl)
  · rename_i r outcome rest delivered hphase
    exact h.turned (by rw [isOver, hphase]) (by constructor <;> rfl)
  · exact h

/-- In a pipeline without locations, and with workers that are all idle, nothing is lost. -/
theorem of_idle (hpool : ∃ size guarded, p.pool = .launch size guarded)
    (hwaiters : p.coordinator.waiters = {}) (hslot : p.coordinator.slot = none)
    (hdispatch : p.dispatch.items = []) (hcompletions : p.completions.items = [])
    (hlive : p.isOver = false → p.completions.closed = false) : p.Owned [] := by
  obtain ⟨size, guarded, hpool⟩ := hpool
  refine ⟨?_, hlive, ⟨[], ?_, fun _ => Nat.zero_le _⟩, fun _ => rfl, ?_⟩
  · simp [hpool, Pool.workers, Pool.launch, List.nodup_range]
  · simp [underway, hpool, hwaiters, hslot, hdispatch, hcompletions, Pool.launch,
      Waiters.locations]
  · simp [hpool, Pool.launch]

end Owned

end Pipeline

end SharedFetch
