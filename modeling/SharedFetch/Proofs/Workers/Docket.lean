import SharedFetch.Proofs.Pipeline.Alarms
import SharedFetch.Proofs.Pipeline.Register

/-!
# The docket of a pool

A docket says what became of every location that left the dispatch queue. It is kept beside the
workers, by comparing them before and after each step, and nothing in them looks at it. A worker
that has no location before and one after has taken it; the *take* has its number among all takes,
so that a location taken twice is two takes. While the worker has it the take is *held*, and says
which fetch was called for it and how that fetch ended. When the worker has it no more, the take is
*handed in* if the completions have grown by that step, and *lost* otherwise, in which case the
docket shows how far the worker was and how it ended.

Two more ways out lead nowhere. Locations that nobody has taken are *dropped* with the dispatch
queue when the last worker leaves, and completions that nobody has received are *discarded* with
their queue when its receiving end is.

`Docketed` ties docket and pipeline together: with what was put into the dispatch queue, with the
completions, and with what the latch has captured. `WrittenOff` says when something is dropped or
discarded, and that nothing is left behind in a queue without its receiving end.

## Main results

* `WrittenOff.workerStep`, `Docketed.workerStep`: every step of a worker keeps docket and pipeline
  together.
-/

namespace SharedFetch

open Pipeline

/-- Whether a worker that is so far has called its fetch. -/
def JobStage.hasCalled : JobStage → Bool
  | .awaitingLock => false
  | _ => true

/-- A location that a worker has taken, with its place among all that were taken, the number of the
fetch that was called for it and how that fetch has ended. -/
structure Take where
  number : Nat
  worker : Nat
  location : Location
  call : Option Nat := none
  ended : Option FetchEnd := none

namespace Take

/-- What tells a take from all others. -/
def ticket (t : Take) : Location × Nat :=
  (t.location, t.number)

/-- The completion that comes of a take once its fetch has ended. -/
def completion? (t : Take) : Option Completion :=
  t.ended.map fun e => ⟨t.location, e.outcome⟩

/-- The location of a take for which a fetch was called. -/
def called? (t : Take) : Option Location :=
  if t.call.isSome then some t.location else none

/-- What is noted on a take when its worker goes from one stage to another: the fetch that it calls,
and how its fetch ends. -/
def attend (t : Take) : JobStage → JobStage → Take
  | .awaitingLock, .fetching number _ => { t with call := some number }
  | .fetching number answer, .handingIn outcome => { t with ended := some ⟨number, answer, outcome⟩ }
  | _, _ => t

@[simp] theorem attend_self (t : Take) (stage : JobStage) : t.attend stage stage = t := by
  cases stage <;> rfl

/-- A take keeps its location. -/
theorem location_attend (t : Take) (before after : JobStage) :
    (t.attend before after).location = t.location := by
  cases before <;> cases after <;> rfl

/-- A take keeps its worker. -/
theorem worker_attend (t : Take) (before after : JobStage) :
    (t.attend before after).worker = t.worker := by
  cases before <;> cases after <;> rfl

@[simp] theorem ticket_attend (t : Take) (before after : JobStage) :
    (t.attend before after).ticket = t.ticket := by
  cases before <;> cases after <;> rfl

/-- The take after a step, if its worker still has it. -/
def carry (p q : Pool) (t : Take) : Option Take :=
  match p.stage? t.worker, q.stage? t.worker with
  | some before, some after => some (t.attend before after)
  | _, _ => none

/-- The take with the stage that its worker was in, if its worker has it no more after a step. -/
def part (p q : Pool) (t : Take) : Option (Take × JobStage) :=
  match p.stage? t.worker, q.stage? t.worker with
  | some before, none => some (t, before)
  | _, _ => none

/-- The fetch called for a take has ended with what it answered, or it was dropped after the token
had fired. -/
def Answered (fired : Bool) (t : Take) : Prop :=
  ∃ e, t.ended = some e ∧ t.call = some e.number ∧
    (e.answer.outcome? t.location e.number = some e.outcome ∨
      e.outcome = .failure (.cancelled t.location) ∧ fired = true)

/-- What was answered stays so when the run is cancelled. -/
theorem Answered.mono {fired fired' : Bool} {t : Take} (h : t.Answered fired)
    (hfired : fired = true → fired' = true) : t.Answered fired' := by
  obtain ⟨e, hended, hcall, houtcome⟩ := h
  exact ⟨e, hended, hcall, houtcome.imp_right fun hdropped => ⟨hdropped.1, hfired hdropped.2⟩⟩

/-- What a take shows when its worker is at the given stage. -/
def Shows (fired : Bool) (t : Take) : JobStage → Prop
  | .awaitingLock => t.call = none ∧ t.ended = none
  | .fetching number _ => t.call = some number ∧ t.ended = none
  | .handingIn outcome => t.Answered fired ∧ t.completion? = some ⟨t.location, outcome⟩

/-- A stage shows the same when the run is cancelled. -/
theorem Shows.mono {fired fired' : Bool} {t : Take} {stage : JobStage} (h : t.Shows fired stage)
    (hfired : fired = true → fired' = true) : t.Shows fired' stage := by
  cases stage with
  | awaitingLock | fetching => exact h
  | handingIn outcome => exact ⟨h.1.mono hfired, h.2⟩

/-- A take shows whether its fetch was called. -/
theorem Shows.called?_eq {fired : Bool} {t : Take} {stage : JobStage} (h : t.Shows fired stage) :
    t.called? = if stage.hasCalled then some t.location else none := by
  cases stage with
  | awaitingLock | fetching => rw [called?, h.1]; rfl
  | handingIn outcome =>
      obtain ⟨e, -, hcall, -⟩ := h.1
      rw [called?, hcall]
      rfl

/-- A take is that of a job. -/
structure Fits (fired : Bool) (t : Take) (j : Job) : Prop where
  worker : t.worker = j.worker
  location : t.location = j.location
  shows : t.Shows fired j.stage

/-- A take fits its job also when the run is cancelled. -/
theorem Fits.mono {fired fired' : Bool} {t : Take} {j : Job} (h : t.Fits fired j)
    (hfired : fired = true → fired' = true) : t.Fits fired' j :=
  ⟨h.worker, h.location, h.shows.mono hfired⟩

section Carry

variable {p q : Pool} {t : Take}

/-- A worker that stays at its stage still has its location. -/
theorem carry_of_same (hsame : q.stage? t.worker = p.stage? t.worker)
    (hbusy : (p.stage? t.worker).isSome = true) : t.carry p q = some t := by
  obtain ⟨stage, hstage⟩ := Option.isSome_iff_exists.mp hbusy
  rw [carry, hsame, hstage]
  exact congrArg some (t.attend_self stage)

/-- A worker that stays at its stage parts with nothing. -/
theorem part_of_same (hsame : q.stage? t.worker = p.stage? t.worker) : t.part p q = none := by
  rw [part, hsame]
  cases p.stage? t.worker <;> rfl

end Carry

end Take

/-- A take whose worker has left with it, with the stage that the worker was in and how it ended. -/
structure Loss where
  take : Take
  stage : JobStage
  ending : Ending

namespace Loss

/-- The fault that goes with a loss: the worker has panicked, or it has failed. -/
def fault? (x : Loss) : Option Fault :=
  match x.ending with
  | .done => none
  | .failed fault => some (.within (.worker x.take.worker) fault)
  | .panicked payload => some (.workerPanic x.take.worker payload)

/-- It is the one that the worker gives to the latch. -/
theorem fault?_eq (x : Loss) : x.fault? = raisedBy (x.take.worker, x.ending) := by
  rw [fault?, raisedBy]
  cases x.ending <;> rfl

/-- Why a location may be lost: the call of its fetch has panicked, or the fetch itself, or the
completion could not be sent since nobody receives any more. In the last case the worker fails,
unless the run is cancelled. -/
inductive Excused (p : Pipeline) : Loss → Prop where
  | callPanicked {t : Take} {payload : Payload}
      (hmode : p.protocol.fetchMode t.location = .panicCall payload) :
      Excused p ⟨t, .awaitingLock, .panicked payload⟩
  | fetchPanicked {t : Take} {number : Nat} {answer : FetchMode} {payload : Payload}
      (hcall : t.call = some number) (hmode : answer = .panic payload ∨ answer = .panicCall payload) :
      Excused p ⟨t, .fetching number answer, .panicked payload⟩
  | undelivered {t : Take} {outcome : Delivery}
      (hcompletion : t.completion? = some ⟨t.location, outcome⟩)
      (hclosed : p.completions.closed = true) :
      Excused p ⟨t, .handingIn outcome, .failed (.undelivered (render t.location))⟩
  | cancelled {t : Take} {outcome : Delivery}
      (hcompletion : t.completion? = some ⟨t.location, outcome⟩)
      (hclosed : p.completions.closed = true) (hcancelled : p.isCancelled = true) :
      Excused p ⟨t, .handingIn outcome, .done⟩

end Loss

/-- The completions that go with their queue from one state to the next: all that stand in it, if
its receiving end is dropped. -/
def Pipeline.discarded (p q : Pipeline) : List Completion :=
  if q.completions.closed && !p.completions.closed then p.completions.items else []

/-- Nothing is discarded unless the receiving end is dropped. -/
theorem Pipeline.discarded_of_closed_eq {p q : Pipeline}
    (h : q.completions.closed = p.completions.closed) : p.discarded q = [] := by
  simp [discarded, h]

/-- What became of the locations that left the dispatch queue: those that were taken, and those that
were dropped with it; of the takes those that are held, in the order in which their workers are
busy, those that were handed in, in that order, and those that were lost; and the completions that
were discarded. -/
structure Docket where
  taken : List Location := []
  dropped : List Location := []
  held : List Take := []
  handedIn : List Take := []
  lost : List Loss := []
  discarded : List Completion := []

namespace Docket

/-- The locations for which a fetch was called. Nobody has handed in or lost one without that. -/
def called (d : Docket) : List Location :=
  d.held.filterMap Take.called? ++ (d.handedIn ++ d.lost.map Loss.take).map Take.location

/-- The jobs of workers that had none before. -/
def fresh (p q : Pool) : List Job :=
  q.busy.filter fun j => (p.stage? j.worker).isNone

/-- The takes that their workers have no more after a step. -/
def parted (d : Docket) (p q : Pool) : List (Take × JobStage) :=
  d.held.filterMap (Take.part p q)

/-- Whether the completions have grown. -/
def grown (p q : Pipeline) : Bool :=
  p.completions.items.length < q.completions.items.length

/-- What goes with a queue in a step is written off. -/
def writeOff (d : Docket) (p q : Pipeline) : Docket :=
  { d with
    dropped := d.dropped ++ p.dropped q
    discarded := d.discarded ++ p.discarded q }

/-- The docket after a step. -/
def follow (d : Docket) (p q : Pipeline) : Docket :=
  { d.writeOff p q with
    taken := d.taken ++ (fresh p.pool q.pool).map Job.location
    held :=
      d.held.filterMap (Take.carry p.pool q.pool) ++
        (fresh p.pool q.pool).map fun j => ⟨d.taken.length, j.worker, j.location, none, none⟩
    handedIn :=
      d.handedIn ++ if grown p q then (d.parted p.pool q.pool).map Prod.fst else []
    lost :=
      d.lost ++
        if grown p q then []
        else (d.parted p.pool q.pool).flatMap fun x =>
          (q.pool.gone.drop p.pool.gone.length).map fun e => ⟨x.1, x.2, e.2⟩ }

@[simp] theorem dropped_follow (d : Docket) (p q : Pipeline) :
    (d.follow p q).dropped = d.dropped ++ p.dropped q := rfl

@[simp] theorem discarded_follow (d : Docket) (p q : Pipeline) :
    (d.follow p q).discarded = d.discarded ++ p.discarded q := rfl

end Docket

/-! ### Steps and the docket -/

namespace Pool

variable {p q : Pool}

/-- A busy worker is at some stage. -/
theorem isSome_stage?_of_mem {j : Job} (hj : j ∈ p.busy) : (p.stage? j.worker).isSome = true := by
  rw [stage?, Option.isSome_map]
  exact List.find?_isSome.mpr ⟨j, hj, by simp⟩

/-- The stages are those of the jobs. -/
theorem stage?_congr (hbusy : q.busy = p.busy) (w : Nat) : q.stage? w = p.stage? w := by
  rw [stage?, stage?, job?, job?, hbusy]

end Pool

namespace Docket

variable {d : Docket} {p q : Pipeline} {j : Job} {fired : Bool}

/-- Whoever has a location is at some stage. -/
theorem isSome_stage?_of_held {pool : Pool} {held : List Take} {jobs : List Job}
    (hheld : List.Forall₂ (Take.Fits fired) held jobs) (hjobs : jobs ⊆ pool.busy) {t : Take}
    (ht : t ∈ held) : ∃ j ∈ jobs, t.worker = j.worker ∧ (pool.stage? t.worker).isSome = true := by
  induction hheld with
  | nil => cases ht
  | @cons s k held jobs hfits hrest ih =>
      obtain ⟨hk, hjobs⟩ := List.cons_subset.mp hjobs
      rcases List.mem_cons.mp ht with rfl | ht
      · exact ⟨k, List.mem_cons_self, hfits.worker, hfits.worker ▸ Pool.isSome_stage?_of_mem hk⟩
      · obtain ⟨i, hi, hworker⟩ := ih hjobs ht
        exact ⟨i, List.mem_cons_of_mem _ hi, hworker⟩

/-- Takes whose workers stand still stay as they are. -/
theorem filterMap_carry_of_same {held : List Take}
    (h : ∀ t ∈ held, q.pool.stage? t.worker = p.pool.stage? t.worker ∧
      (p.pool.stage? t.worker).isSome = true) :
    held.filterMap (Take.carry p.pool q.pool) = held := by
  have hself : held.filterMap (Take.carry p.pool q.pool) = held.filterMap some :=
    List.filterMap_congr fun t ht => Take.carry_of_same (h t ht).1 (h t ht).2
  rw [hself, List.filterMap_some]

/-- Where everybody stays, nobody parts with anything. -/
theorem filterMap_part_of_same {held : List Take}
    (h : ∀ t ∈ held, q.pool.stage? t.worker = p.pool.stage? t.worker) :
    held.filterMap (Take.part p.pool q.pool) = [] :=
  List.filterMap_eq_nil_iff.mpr fun t ht => Take.part_of_same (h t ht)

/-- Where everybody who is busy was busy before, no location was taken. -/
theorem fresh_eq_nil {p q : Pool} (h : ∀ k ∈ q.busy, (p.stage? k.worker).isSome = true) :
    fresh p q = [] := by
  refine List.filter_eq_nil_iff.mpr fun k hk => ?_
  rw [← Option.not_isSome, h k hk]
  exact Bool.false_ne_true

/-- **Nobody's location goes on.** -/
theorem follow_of_busy_eq (hheld : List.Forall₂ (Take.Fits fired) d.held p.pool.busy)
    (hbusy : q.pool.busy = p.pool.busy) : d.follow p q = d.writeOff p q := by
  have hsame := Pool.stage?_congr hbusy
  have hcarry : d.held.filterMap (Take.carry p.pool q.pool) = d.held := by
    refine filterMap_carry_of_same fun t ht => ⟨hsame _, ?_⟩
    obtain ⟨k, -, -, hsome⟩ := isSome_stage?_of_held hheld (List.Subset.refl _) ht
    exact hsome
  have hparted : d.parted p.pool q.pool = [] := filterMap_part_of_same fun t _ => hsame _
  have hfresh : fresh p.pool q.pool = [] :=
    fresh_eq_nil fun k hk => Pool.isSome_stage?_of_mem (hbusy ▸ hk)
  rw [follow, hcarry, hparted, hfresh]
  simp [writeOff]

/-- Where nothing happens, nothing is noted. -/
theorem follow_self (hheld : List.Forall₂ (Take.Fits fired) d.held p.pool.busy) :
    d.follow p p = d := by
  rw [follow_of_busy_eq hheld rfl, writeOff, dropped_of_isGone_eq rfl, discarded_of_closed_eq rfl,
    List.append_nil, List.append_nil]

/-- **A location is taken.** -/
theorem follow_of_taken (hheld : List.Forall₂ (Take.Fits fired) d.held p.pool.busy)
    (hbusy : q.pool.busy = p.pool.busy ++ [j]) (hnew : p.pool.stage? j.worker = none)
    (hcompletions : q.completions.items = p.completions.items) :
    d.follow p q =
      { d.writeOff p q with
        taken := d.taken ++ [j.location]
        held := d.held ++ [⟨d.taken.length, j.worker, j.location, none, none⟩] } := by
  have hothers : ∀ t ∈ d.held, q.pool.stage? t.worker = p.pool.stage? t.worker ∧
      (p.pool.stage? t.worker).isSome = true := by
    intro t ht
    obtain ⟨k, -, -, hsome⟩ := isSome_stage?_of_held hheld (List.Subset.refl _) ht
    refine ⟨Pool.stage?_append hbusy fun heq => ?_, hsome⟩
    rw [heq, hnew] at hsome
    cases hsome
  have hparted : d.parted p.pool q.pool = [] := filterMap_part_of_same fun t ht => (hothers t ht).1
  have hfresh : fresh p.pool q.pool = [j] := by
    have hold : p.pool.busy.filter (fun k => (p.pool.stage? k.worker).isNone) = [] := by
      refine List.filter_eq_nil_iff.mpr fun k hk => ?_
      rw [← Option.not_isSome, Pool.isSome_stage?_of_mem hk]
      exact Bool.false_ne_true
    rw [fresh, hbusy, List.filter_append, hold, List.nil_append,
      List.filter_cons_of_pos (by rw [hnew]; rfl), List.filter_nil]
  rw [follow, filterMap_carry_of_same hothers, hparted, hfresh, grown, hcompletions]
  simp [writeOff]

/-- The take of a job, with the takes before and after it. -/
theorem exists_split (hheld : List.Forall₂ (Take.Fits fired) d.held p.pool.busy)
    (hworkers : p.pool.workers.Nodup) (hj : j ∈ p.pool.busy) :
    ∃ front t rear before after, d.held = front ++ t :: rear ∧ t.Fits fired j ∧
      List.Forall₂ (Take.Fits fired) front before ∧ List.Forall₂ (Take.Fits fired) rear after ∧
      (∀ ending, (p.pool.without j.worker ending).busy = before ++ after) ∧
      (∀ stage, (p.pool.update { j with stage }).busy = before ++ { j with stage } :: after) ∧
      ∀ s ∈ front ++ rear, s.worker ≠ j.worker ∧ (p.pool.stage? s.worker).isSome = true := by
  obtain ⟨before, after, hbusy, hwithout, hupdate⟩ := Pool.exists_busy_eq hworkers hj
  rw [hbusy] at hheld
  have hfront := List.forall₂_take_append _ _ _ hheld
  have hback := List.forall₂_drop_append _ _ _ hheld
  obtain ⟨t, rear, hfits, hrear, hdrop⟩ := List.forall₂_cons_right_iff.mp hback
  refine ⟨d.held.take before.length, t, rear, before, after, ?_, hfits, hfront, hrear, hwithout,
    hupdate, ?_⟩
  · rw [← hdrop, List.take_append_drop]
  · intro s hs
    have hsub : before ++ after ⊆ p.pool.busy := by
      rw [hbusy]
      exact fun k hk => (List.mem_append.mp hk).elim (List.mem_append_left _)
        fun hafter => List.mem_append_right _ (List.mem_cons_of_mem _ hafter)
    have hothers : List.Forall₂ (Take.Fits fired) (d.held.take before.length ++ rear)
        (before ++ after) := List.rel_append hfront hrear
    obtain ⟨k, hk, hworker, hsome⟩ := isSome_stage?_of_held hothers hsub hs
    refine ⟨fun heq => ?_, hsome⟩
    -- the job of `s` is among the others, and its worker has left with none of them
    rw [← hwithout .done, Pool.without, List.mem_filter] at hk
    exact absurd (hworker ▸ heq) (by simpa using hk.2)

section Turn

variable (hheld : List.Forall₂ (Take.Fits fired) d.held p.pool.busy)
  (hworkers : p.pool.workers.Nodup) (hj : j ∈ p.pool.busy)

include hheld hworkers hj

/-- **The worker of a job goes on to another stage of it.** -/
theorem follow_of_staged {stage : JobStage} (hpool : q.pool = p.pool.update { j with stage }) :
    ∃ front t rear before after, d.held = front ++ t :: rear ∧ t.Fits fired j ∧
      List.Forall₂ (Take.Fits fired) front before ∧ List.Forall₂ (Take.Fits fired) rear after ∧
      q.pool.busy = before ++ { j with stage } :: after ∧
      d.follow p q = { d.writeOff p q with held := front ++ t.attend j.stage stage :: rear } := by
  obtain ⟨front, t, rear, before, after, hsplit, hfits, hfront, hrear, -, hupdate, hothers⟩ :=
    exists_split hheld hworkers hj
  have hsame : ∀ s ∈ front ++ rear, q.pool.stage? s.worker = p.pool.stage? s.worker ∧
      (p.pool.stage? s.worker).isSome = true := fun s hs =>
    ⟨by rw [hpool]; exact Pool.stage?_update _ (hothers s hs).1, (hothers s hs).2⟩
  rw [List.forall_mem_append] at hsame
  have hbefore : p.pool.stage? t.worker = some j.stage := by
    rw [hfits.worker, Pool.stage?_of_mem hworkers hj]
  have hafter : q.pool.stage? t.worker = some stage := by
    have hmem : ⟨j.worker, j.location, stage⟩ ∈ q.pool.busy := by
      rw [hpool]
      exact Pool.mem_busy_update hj stage
    have hnodup : q.pool.workers.Nodup := by rwa [hpool, Pool.workers_update]
    rw [hfits.worker]
    exact Pool.stage?_of_mem hnodup hmem
  have hcarry : d.held.filterMap (Take.carry p.pool q.pool) =
      front ++ t.attend j.stage stage :: rear := by
    rw [hsplit, List.filterMap_append, filterMap_carry_of_same hsame.1, List.filterMap_cons,
      filterMap_carry_of_same hsame.2, Take.carry, hbefore, hafter]
  have hparted : d.parted p.pool q.pool = [] := by
    rw [parted, hsplit, List.filterMap_append, filterMap_part_of_same fun s hs => (hsame.1 s hs).1,
      List.filterMap_cons, filterMap_part_of_same fun s hs => (hsame.2 s hs).1, Take.part, hbefore,
      hafter]
    rfl
  have hfresh : fresh p.pool q.pool = [] := by
    refine fresh_eq_nil fun k hk => ?_
    rw [hpool] at hk
    rcases Pool.of_mem_busy_update hk with rfl | ⟨hmem, -⟩
    · simpa using Pool.isSome_stage?_of_mem hj
    · exact Pool.isSome_stage?_of_mem hmem
  refine ⟨front, t, rear, before, after, hsplit, hfits, hfront, hrear, hpool ▸ hupdate stage, ?_⟩
  rw [follow, hcarry, hparted, hfresh]
  simp [writeOff]

/-- **The worker of a job has it no more.** -/
theorem follow_of_parted (hbusy : q.pool.busy = p.pool.busy.filter fun k => k.worker != j.worker) :
    ∃ front t rear, d.held = front ++ t :: rear ∧ t.Fits fired j ∧
      List.Forall₂ (Take.Fits fired) (front ++ rear) q.pool.busy ∧
      d.follow p q =
        { d.writeOff p q with
          held := front ++ rear
          handedIn := d.handedIn ++ if grown p q then [t] else []
          lost :=
            d.lost ++
              if grown p q then []
              else (q.pool.gone.drop p.pool.gone.length).map fun e => ⟨t, j.stage, e.2⟩ } := by
  obtain ⟨front, t, rear, before, after, hsplit, hfits, hfront, hrear, hwithout, -, hothers⟩ :=
    exists_split hheld hworkers hj
  have hsame : ∀ s ∈ front ++ rear, q.pool.stage? s.worker = p.pool.stage? s.worker ∧
      (p.pool.stage? s.worker).isSome = true := fun s hs =>
    ⟨Pool.stage?_filter hbusy (hothers s hs).1, (hothers s hs).2⟩
  rw [List.forall_mem_append] at hsame
  have hbefore : p.pool.stage? t.worker = some j.stage := by
    rw [hfits.worker, Pool.stage?_of_mem hworkers hj]
  have hafter : q.pool.stage? t.worker = none := by
    rw [hfits.worker, Pool.stage?_filter_self hbusy]
  have hcarry : d.held.filterMap (Take.carry p.pool q.pool) = front ++ rear := by
    rw [hsplit, List.filterMap_append, filterMap_carry_of_same hsame.1, List.filterMap_cons,
      filterMap_carry_of_same hsame.2, Take.carry, hbefore, hafter]
  have hparted : d.parted p.pool q.pool = [(t, j.stage)] := by
    rw [parted, hsplit, List.filterMap_append, filterMap_part_of_same fun s hs => (hsame.1 s hs).1,
      List.filterMap_cons, filterMap_part_of_same fun s hs => (hsame.2 s hs).1, Take.part, hbefore,
      hafter]
    rfl
  have hfresh : fresh p.pool q.pool = [] :=
    fresh_eq_nil fun k hk => Pool.isSome_stage?_of_mem (List.mem_filter.mp (hbusy ▸ hk)).1
  refine ⟨front, t, rear, hsplit, hfits, ?_, ?_⟩
  · have hleft : q.pool.busy = before ++ after := hbusy.trans (hwithout .done)
    rw [hleft]
    exact List.rel_append hfront hrear
  · rw [follow, hcarry, hparted, hfresh]
    simp [writeOff]

end Turn

end Docket

/-! ### Docket and pipeline -/

/-- Docket and pipeline belong together, where `put` was put into the dispatch queue and `received`
was received from the completions. -/
structure Docketed (put : List Location) (received : List Completion) (d : Docket) (p : Pipeline) :
    Prop where
  workers : p.pool.workers.Nodup
  guarded : p.pool.guarded = true
  held : List.Forall₂ (Take.Fits p.isCancelled) d.held p.pool.busy
  order : put = d.taken ++ d.dropped ++ p.dispatch.items
  tickets : ((d.held ++ d.handedIn ++ d.lost.map Loss.take).map Take.ticket).Perm d.taken.zipIdx
  delivered : (received ++ d.discarded ++ p.completions.items).map some =
    d.handedIn.map Take.completion?
  answered : ∀ t ∈ d.handedIn, t.Answered p.isCancelled
  excused : ∀ x ∈ d.lost, x.Excused p
  fetches : (fetchedIn p.journal).Perm d.called
  caught : p.latch.caught = (d.lost.filterMap Loss.fault?).head?

/-- What excuses a loss in one pipeline does so in another. -/
structure Onward (p q : Pipeline) : Prop where
  cancelled : p.isCancelled = true → q.isCancelled = true
  closed : p.completions.closed = true → q.completions.closed = true
  fetchMode : ∀ l, q.protocol.fetchMode l = p.protocol.fetchMode l

/-- What excuses a loss is not taken back. -/
theorem Loss.Excused.mono {p q : Pipeline} {x : Loss} (h : x.Excused p) (honward : Onward p q) :
    x.Excused q := by
  cases h with
  | callPanicked hmode => exact .callPanicked ((honward.fetchMode _).trans hmode)
  | fetchPanicked hcall hmode => exact .fetchPanicked hcall hmode
  | undelivered hcompletion hclosed => exact .undelivered hcompletion (honward.closed hclosed)
  | cancelled hcompletion hclosed hcancelled =>
      exact .cancelled hcompletion (honward.closed hclosed) (honward.cancelled hcancelled)

/-- No worker drops the receiving end of the completions, and none can send without it. -/
theorem Pipeline.WorkerStep.completions_closed {p q : Pipeline} (h : p.WorkerStep q) :
    q.completions.closed = p.completions.closed ∧
      (p.completions.closed = true → q.completions.items = p.completions.items) := by
  cases h with
  | took | called | fetched | fetchFailed | fetchDropped => exact ⟨rfl, fun _ => rfl⟩
  | handedIn hworks hopen => exact ⟨rfl, fun hclosed => by rw [hopen] at hclosed; cases hclosed⟩
  | handedInLast hworks hopen =>
      exact ⟨by simp, fun hclosed => by rw [hopen] at hclosed; cases hclosed⟩
  | quit | dismissed | undelivered | callPanicked | fetchPanicked => exact ⟨by simp, by simp⟩

/-- The last worker takes the dispatch queue with it. -/
theorem Pipeline.WorkerStep.dispatch_of_isGone {p q : Pipeline} (h : p.WorkerStep q)
    (hgone : q.pool.isGone = true) : q.dispatch.closed = true ∧ q.dispatch.items = [] := by
  cases h with
  | quit | dismissed | undelivered | callPanicked | fetchPanicked | handedInLast =>
      rw [pool_leave] at hgone
      rw [dispatch_leave, if_pos hgone]
      exact ⟨Queue.closed_dropReceiver _, rfl⟩
  | took | handedIn => simp [Pool.isGone] at hgone
  | called hworks | fetched hworks | fetchFailed hworks | fetchDropped hworks =>
      simp [Pool.isGone, Pool.update, Pipeline.handIn, List.ne_nil_of_mem hworks.mem] at hgone

/-- A worker takes nothing back. -/
theorem Pipeline.WorkerStep.onward {p q : Pipeline} (h : p.WorkerStep q) : Onward p q := by
  refine ⟨h.signals.isCancelled, fun hclosed => h.completions_closed.1.trans hclosed, fun l => ?_⟩
  cases h with
  | took | called | fetched | fetchFailed | fetchDropped | handedIn => rfl
  | callPanicked => rw [protocol_leave]; rfl
  | _ => rw [protocol_leave]

/-- Locations are dropped once all workers are gone, and completions are discarded once nobody can
receive them. From then on the queue is empty. -/
structure WrittenOff (d : Docket) (p : Pipeline) : Prop where
  dropped : p.pool.isGone = false → d.dropped = []
  dispatch : p.pool.isGone = true → p.dispatch.closed = true ∧ p.dispatch.items = []
  discarded : p.completions.closed = false → d.discarded = []
  completions : p.completions.closed = true → p.completions.items = []

/-- **Every step of a worker writes off what it has to.** -/
theorem WrittenOff.workerStep {d : Docket} {p q : Pipeline} (h : WrittenOff d p)
    (hstep : p.WorkerStep q) : WrittenOff (d.follow p q) q := by
  obtain ⟨hclosed, hitems⟩ := hstep.completions_closed
  refine ⟨fun hleft => ?_, hstep.dispatch_of_isGone, fun hopen => ?_, fun hq => ?_⟩
  · rw [Docket.dropped_follow, dropped_eq_nil hleft, h.dropped hstep.isGone_eq_false, List.append_nil]
  · rw [Docket.discarded_follow, discarded_of_closed_eq hclosed,
      h.discarded (hclosed.symm.trans hopen), List.append_nil]
  · have hp := hclosed.symm.trans hq
    rw [hitems hp, h.completions hp]

/-- What a caller does to the queues of a pool: it puts in `more` locations, none if the workers
have dropped their end, and takes `out` completions, or drops its own. -/
structure Exchanges (p q : Pipeline) (more : List Location) (out : List Completion) : Prop where
  put : q.dispatch.items = p.dispatch.items ++ more
  shut : p.dispatch.closed = true → q.dispatch.closed = true ∧ more = []
  closed : p.completions.closed = true → q.completions.closed = true
  received : out ++ p.discarded q ++ q.completions.items = p.completions.items

/-- The queues are as they were. -/
theorem Exchanges.nothing {p q : Pipeline} (hdispatch : q.dispatch = p.dispatch)
    (hcompletions : q.completions = p.completions) : Exchanges p q [] [] where
  put := by rw [hdispatch, List.append_nil]
  shut := fun hclosed => ⟨by rw [hdispatch, hclosed], rfl⟩
  closed := fun hclosed => by rw [hcompletions, hclosed]
  received := by
    rw [discarded_of_closed_eq (by rw [hcompletions]), hcompletions]
    rfl

namespace WrittenOff

variable {d : Docket} {p q : Pipeline} {more : List Location} {out : List Completion}

/-- What a caller does to the queues writes off what it has to. -/
theorem exchanges (h : WrittenOff d p) (hgone : q.pool.isGone = p.pool.isGone)
    (hqueues : Exchanges p q more out) : WrittenOff (d.follow p q) q := by
  refine ⟨fun hleft => ?_, fun hall => ?_, fun hopen => ?_, fun hq => ?_⟩
  · rw [Docket.dropped_follow, dropped_of_isGone_eq hgone, List.append_nil]
    exact h.dropped (hgone.symm.trans hleft)
  · obtain ⟨hclosed, hnil⟩ := h.dispatch (hgone.symm.trans hall)
    obtain ⟨hcloses, hmore⟩ := hqueues.shut hclosed
    exact ⟨hcloses, by rw [hqueues.put, hnil, hmore, List.append_nil]⟩
  · have hp : p.completions.closed = false := by
      rw [← Bool.not_eq_true]
      exact fun hp => absurd (hqueues.closed hp) (by rw [hopen]; exact Bool.false_ne_true)
    rw [Docket.discarded_follow, discarded_of_closed_eq (hopen.trans hp.symm), List.append_nil]
    exact h.discarded hp
  · have hreceived := hqueues.received
    cases hp : p.completions.closed with
    | true =>
        rw [h.completions hp] at hreceived
        exact (List.append_eq_nil_iff.mp hreceived).2
    | false =>
        -- all were discarded
        have hall : p.discarded q = p.completions.items := by simp [Pipeline.discarded, hq, hp]
        have hlength := congrArg List.length hreceived
        simp only [hall, List.length_append] at hlength
        exact List.eq_nil_of_length_eq_zero (by omega)

/-- What is received and what is discarded keep their order, for nothing comes out any more once
something was discarded. -/
theorem delivered_exchanges (h : WrittenOff d p) (hqueues : Exchanges p q more out)
    (received : List Completion) :
    received ++ out ++ (d.discarded ++ p.discarded q) ++ q.completions.items =
      received ++ d.discarded ++ p.completions.items := by
  have hreceived := hqueues.received
  cases hp : p.completions.closed with
  | false =>
      rw [h.discarded hp, ← hreceived]
      simp only [List.nil_append, List.append_nil, List.append_assoc]
  | true =>
      rw [h.completions hp] at hreceived ⊢
      simp only [List.append_eq_nil_iff] at hreceived
      rw [hreceived.1.1, hreceived.1.2, hreceived.2]
      simp only [List.append_nil]

end WrittenOff

namespace Docketed

variable {put : List Location} {received : List Completion} {d : Docket} {p q : Pipeline} {j : Job}

/-- What one pipeline has recorded of takes holds in the next. -/
theorem carried (h : Docketed put received d p) (honward : Onward p q) :
    List.Forall₂ (Take.Fits q.isCancelled) d.held p.pool.busy ∧
      (∀ t ∈ d.handedIn, t.Answered q.isCancelled) ∧ ∀ x ∈ d.lost, x.Excused q :=
  ⟨h.held.imp fun _ _ hfits => hfits.mono honward.cancelled,
    fun t ht => (h.answered t ht).mono honward.cancelled, fun x hx => (h.excused x hx).mono honward⟩

/-- Nobody's location goes on. -/
theorem of_busy_eq {put' : List Location} {received' : List Completion}
    (h : Docketed put received d p) (honward : Onward p q) (hworkers : q.pool.workers.Nodup)
    (hguarded : q.pool.guarded = true) (hbusy : q.pool.busy = p.pool.busy)
    (horder : put' = d.taken ++ (d.dropped ++ p.dropped q) ++ q.dispatch.items)
    (hdelivered : received' ++ (d.discarded ++ p.discarded q) ++ q.completions.items =
      received ++ d.discarded ++ p.completions.items)
    (hfetched : fetchedIn q.journal = fetchedIn p.journal)
    (hcaught : q.latch.caught = p.latch.caught) : Docketed put' received' (d.follow p q) q := by
  obtain ⟨hheld, hanswered, hexcused⟩ := h.carried honward
  rw [Docket.follow_of_busy_eq h.held hbusy]
  exact ⟨hworkers, hguarded, hbusy ▸ hheld, horder, h.tickets, hdelivered ▸ h.delivered, hanswered,
    hexcused, hfetched ▸ h.fetches, hcaught.trans h.caught⟩

/-- A worker takes a location. There is a worker, so none was dropped. -/
theorem taken {items : List Location} (h : Docketed put received d p) (honward : Onward p q)
    (hnone : d.dropped = []) (hworkers : q.pool.workers.Nodup) (hguarded : q.pool.guarded = true)
    (hbusy : q.pool.busy = p.pool.busy ++ [j]) (hnew : p.pool.stage? j.worker = none)
    (hstage : j.stage = .awaitingLock) (hitems : p.dispatch.items = j.location :: items)
    (hleft : q.dispatch.items = items) (hcompletions : q.completions = p.completions)
    (hjournal : q.journal = p.journal) (hcaught : q.latch.caught = p.latch.caught) :
    Docketed put received (d.follow p q) q := by
  obtain ⟨hheld, hanswered, hexcused⟩ := h.carried honward
  have hdropped : p.dropped q = [] := dropped_eq_nil (by simp [Pool.isGone, hbusy])
  have hdiscarded : p.discarded q = [] := discarded_of_closed_eq (by rw [hcompletions])
  rw [Docket.follow_of_taken h.held hbusy hnew (by rw [hcompletions]), Docket.writeOff, hdropped,
    hdiscarded, List.append_nil, List.append_nil]
  refine ⟨hworkers, hguarded, ?_, ?_, ?_, ?_, hanswered, hexcused, ?_, hcaught.trans h.caught⟩
  · rw [hbusy]
    refine List.rel_append hheld (.cons ⟨rfl, rfl, ?_⟩ .nil)
    rw [hstage]
    exact ⟨rfl, rfl⟩
  · rw [h.order, hitems, hleft, hnone]
    simp
  · -- the new take is the last of those held, and the last of all
    have hlast : ∀ t : Take, (d.held ++ [t] ++ d.handedIn ++ d.lost.map Loss.take).Perm
        (d.held ++ d.handedIn ++ d.lost.map Loss.take ++ [t]) := by
      intro t
      simp only [List.append_assoc]
      refine List.Perm.append_left _ ?_
      rw [← List.append_assoc d.handedIn]
      exact List.perm_append_comm
    rw [List.zipIdx_append, Nat.zero_add]
    refine ((hlast _).map Take.ticket).trans ?_
    rw [List.map_append]
    exact h.tickets.append_right _
  · rw [hcompletions]
    exact h.delivered
  · have hfetches := h.fetches
    rw [hjournal]
    simpa [Docket.called, Take.called?] using hfetches

/-- The fetches called for the takes held, with that of one of them in front. -/
theorem perm_called_split (front rear : List Take) (t : Take) :
    ((front ++ t :: rear).filterMap Take.called?).Perm
      (t.called?.toList ++ (front ++ rear).filterMap Take.called?) := by
  refine (List.perm_middle.filterMap Take.called?).trans ?_
  rw [List.filterMap_cons]
  cases t.called? <;> exact .refl _

/-- A worker goes on to another stage of its job. -/
theorem staged {stage : JobStage} (h : Docketed put received d p) (honward : Onward p q)
    (hj : j ∈ p.pool.busy) (hpool : q.pool = p.pool.update { j with stage })
    (hstage : stage.hasCalled = true)
    (hshows : ∀ t : Take, t.Fits p.isCancelled j → t.location = j.location →
      (t.attend j.stage stage).Shows q.isCancelled stage)
    (hitems : q.dispatch.items = p.dispatch.items)
    (hcompletions : q.completions.items = p.completions.items)
    (hclosed : q.completions.closed = p.completions.closed)
    (hfetched : fetchedIn q.journal =
      (if j.stage.calls (some stage) then [j.location] else []) ++ fetchedIn p.journal)
    (hcaught : q.latch.caught = p.latch.caught) : Docketed put received (d.follow p q) q := by
  obtain ⟨-, hanswered, hexcused⟩ := h.carried honward
  obtain ⟨front, t, rear, before, after, hsplit, hfits, hfront, hrear, hbusy, hfollow⟩ :=
    Docket.follow_of_staged h.held h.workers hj hpool
  have hdropped : p.dropped q = [] := dropped_of_isGone_eq (by simp [hpool, Pool.isGone, Pool.update])
  rw [hfollow, Docket.writeOff, hdropped, discarded_of_closed_eq hclosed, List.append_nil,
    List.append_nil]
  refine ⟨by rw [hpool, Pool.workers_update]; exact h.workers, by rw [hpool]; exact h.guarded, ?_,
    hitems ▸ h.order, ?_, hcompletions ▸ h.delivered, hanswered, hexcused, ?_,
    hcaught.trans h.caught⟩
  · rw [hbusy]
    have hkept : ∀ {held : List Take} {jobs : List Job},
        List.Forall₂ (Take.Fits p.isCancelled) held jobs →
          List.Forall₂ (Take.Fits q.isCancelled) held jobs :=
      fun hheld => hheld.imp fun _ _ hfits => hfits.mono honward.cancelled
    refine List.rel_append (hkept hfront) (.cons ⟨?_, ?_, hshows t hfits hfits.location⟩ (hkept hrear))
    · exact (t.worker_attend _ _).trans hfits.worker
    · exact (t.location_attend _ _).trans hfits.location
  · have htickets := h.tickets
    rw [hsplit] at htickets
    simpa using htickets
  · have hcalled : (if j.stage.calls (some stage) then [j.location] else []) ++ t.called?.toList =
        (t.attend j.stage stage).called?.toList := by
      rw [hfits.shows.called?_eq, (hshows t hfits hfits.location).called?_eq, t.location_attend,
        ← hfits.location, if_pos hstage]
      cases j.stage with
      | awaitingLock => cases stage <;> first | rfl | cases hstage
      | fetching | handingIn => rfl
    have hfetches := h.fetches
    rw [Docket.called, hsplit] at hfetches
    rw [Docket.called, hfetched]
    refine ((hfetches.trans ((perm_called_split front rear t).append_right _)).append_left _).trans ?_
    rw [← List.append_assoc, ← List.append_assoc, hcalled]
    exact (perm_called_split front rear _).symm.append_right _

/-- The takes held, without one of them, and that one elsewhere. -/
theorem perm_of_parted {front rear handedIn lost : List Take} {t : Take} :
    (front ++ rear ++ (handedIn ++ [t]) ++ lost).Perm
      (front ++ t :: rear ++ handedIn ++ lost) := by
  have hmiddle : (front ++ t :: rear).Perm (t :: (front ++ rear)) := List.perm_middle
  have hlast : (handedIn ++ [t]).Perm (t :: handedIn) := List.perm_append_singleton t handedIn
  refine List.Perm.append_right _ ?_
  refine (hlast.append_left _).trans (List.perm_middle.trans ?_)
  exact (hmiddle.append_right handedIn).symm

/-- The fetches called, when a take is held no more and is `others'` with the others. -/
theorem perm_called_parted {front rear others others' : List Take} {t : Take}
    {fetched new : List Location} (hnew : new ++ t.called?.toList = [t.location])
    (hothers : others'.Perm (t :: others))
    (h : fetched.Perm
      ((front ++ t :: rear).filterMap Take.called? ++ others.map Take.location)) :
    (new ++ fetched).Perm
      ((front ++ rear).filterMap Take.called? ++ others'.map Take.location) := by
  refine ((h.trans ((perm_called_split front rear t).append_right _)).append_left _).trans ?_
  rw [← List.append_assoc, ← List.append_assoc, hnew]
  refine List.perm_middle.symm.trans (List.Perm.append_left _ ?_)
  exact (hothers.map Take.location).symm

/-- The order in which locations were put in, when the rest of them is dropped or stays. -/
theorem order_dropped (h : Docketed put received d p)
    (hitems : p.dropped q ++ q.dispatch.items = p.dispatch.items) :
    put = d.taken ++ (d.dropped ++ p.dropped q) ++ q.dispatch.items := by
  rw [h.order, ← hitems]
  simp only [List.append_assoc]

/-- A worker hands its completion in. -/
theorem handedIn {outcome : Delivery} (h : Docketed put received d p) (honward : Onward p q)
    (hj : j ∈ p.pool.busy) (hstage : j.stage = .handingIn outcome)
    (hworkers : q.pool.workers.Nodup) (hguarded : q.pool.guarded = true)
    (hbusy : q.pool.busy = p.pool.busy.filter fun k => k.worker != j.worker)
    (hitems : p.dropped q ++ q.dispatch.items = p.dispatch.items)
    (hcompletions : q.completions.items = p.completions.items ++ [⟨j.location, outcome⟩])
    (hclosed : q.completions.closed = p.completions.closed)
    (hfetched : fetchedIn q.journal = fetchedIn p.journal)
    (hcaught : q.latch.caught = p.latch.caught) : Docketed put received (d.follow p q) q := by
  obtain ⟨-, hanswered, hexcused⟩ := h.carried honward
  obtain ⟨front, t, rear, hsplit, hfits, hheld, hfollow⟩ :=
    Docket.follow_of_parted h.held h.workers hj hbusy
  have hgrown : Docket.grown p q = true := by simp [Docket.grown, hcompletions]
  obtain ⟨hended, hcompletion⟩ : t.Answered p.isCancelled ∧
      t.completion? = some ⟨t.location, outcome⟩ := by
    have hshows := hfits.shows
    rwa [hstage] at hshows
  rw [hfollow, hgrown, if_pos rfl, if_pos rfl, List.append_nil, Docket.writeOff,
    discarded_of_closed_eq hclosed, List.append_nil]
  refine ⟨hworkers, hguarded, hheld.imp fun _ _ hfits => hfits.mono honward.cancelled,
    h.order_dropped hitems, ?_, ?_, ?_, hexcused, ?_, hcaught.trans h.caught⟩
  · have htickets := h.tickets
    rw [hsplit] at htickets
    exact (perm_of_parted.map Take.ticket).trans htickets
  · rw [hcompletions, ← List.append_assoc, List.map_append, h.delivered, List.map_append,
      List.map_singleton, List.map_singleton, hcompletion, hfits.location]
  · rw [List.forall_mem_append]
    refine ⟨hanswered, fun s hs => ?_⟩
    obtain rfl := List.mem_singleton.mp hs
    exact hended.mono honward.cancelled
  · have hfetches := h.fetches
    rw [Docket.called, hsplit] at hfetches
    have hcalled : [] ++ t.called?.toList = [t.location] := by
      rw [hfits.shows.called?_eq, hstage]
      rfl
    rw [hfetched]
    refine perm_called_parted hcalled ?_ hfetches
    rw [List.append_assoc]
    exact List.perm_middle

/-- A worker leaves with its location. -/
theorem lost {ending : Ending} (h : Docketed put received d p) (honward : Onward p q)
    (hj : j ∈ p.pool.busy) (hpool : q.pool = p.pool.without j.worker ending)
    (hitems : p.dropped q ++ q.dispatch.items = p.dispatch.items)
    (hcompletions : q.completions.items = p.completions.items)
    (hclosed : q.completions.closed = p.completions.closed)
    (hexcused : ∀ t : Take, t.Fits p.isCancelled j → Loss.Excused q ⟨t, j.stage, ending⟩)
    (hfetched : fetchedIn q.journal =
      (if j.stage.calls none then [j.location] else []) ++ fetchedIn p.journal)
    (hcaught : q.latch.caught = p.latch.caught.or (raisedBy (j.worker, ending))) :
    Docketed put received (d.follow p q) q := by
  obtain ⟨-, hanswered, hkept⟩ := h.carried honward
  obtain ⟨front, t, rear, hsplit, hfits, hheld, hfollow⟩ :=
    Docket.follow_of_parted h.held h.workers hj (by rw [hpool]; rfl)
  have hgrown : Docket.grown p q = false := by simp [Docket.grown, hcompletions]
  have hgone : q.pool.gone.drop p.pool.gone.length = [(j.worker, ending)] := by
    rw [hpool, Pool.without, List.drop_left]
  rw [hfollow, hgrown, if_neg Bool.false_ne_true, if_neg Bool.false_ne_true, List.append_nil, hgone,
    Docket.writeOff, discarded_of_closed_eq hclosed, List.append_nil]
  refine ⟨hpool ▸ Pool.nodup_workers_without h.workers _ _, by rw [hpool]; exact h.guarded,
    hheld.imp fun _ _ hfits => hfits.mono honward.cancelled, h.order_dropped hitems, ?_,
    hcompletions ▸ h.delivered, hanswered, ?_, ?_, ?_⟩
  · have htickets := h.tickets
    rw [hsplit] at htickets
    refine List.Perm.trans (List.Perm.map _ ?_) htickets
    rw [List.map_append, List.map_singleton, List.map_singleton]
    have hlast : (front ++ rear ++ (d.handedIn ++ d.lost.map Loss.take ++ [t]) ++ []).Perm
        (front ++ t :: rear ++ (d.handedIn ++ d.lost.map Loss.take) ++ []) := perm_of_parted
    simpa using hlast
  · rw [List.forall_mem_append]
    refine ⟨hkept, fun x hx => ?_⟩
    obtain rfl := List.mem_singleton.mp hx
    exact hexcused t hfits
  · have hfetches := h.fetches
    rw [Docket.called, hsplit] at hfetches
    have hcalled : (if j.stage.calls none then [j.location] else []) ++ t.called?.toList =
        [t.location] := by
      rw [hfits.shows.called?_eq, ← hfits.location]
      cases j.stage <;> rfl
    rw [hfetched]
    refine perm_called_parted hcalled ?_ hfetches
    rw [List.map_append, List.map_singleton, List.map_singleton, ← List.append_assoc]
    exact List.perm_append_singleton _ _
  · rw [hcaught, h.caught, List.filterMap_append, List.head?_append, List.map_singleton]
    congr 1
    rw [← hfits.worker, ← Loss.fault?_eq ⟨t, j.stage, ending⟩]
    cases hfault : Loss.fault? ⟨t, j.stage, ending⟩ <;> simp [hfault]

/-- What is captured when a worker leaves. -/
theorem caught_leave {r : Pipeline} {id : Nat} {ending : Ending} (h : Docketed put received d p)
    (hcoherent : p.latch.Coherent) (hcoordinator : r.coordinator = p.coordinator)
    (hpool : r.pool = p.pool) (hlatch : r.latch = p.latch) :
    (r.leave id ending).latch.caught = p.latch.caught.or (raisedBy (id, ending)) := by
  have hcaptures : Captures p (r.leave id ending) :=
    .leave h.guarded hcoordinator hpool hlatch hcoherent
  rw [hcaptures, raised_leave hcoordinator hpool, Option.head?_toList]

/-- A worker that leaves of its own accord causes no fault. -/
theorem caught_leave_done {r : Pipeline} {id : Nat} (h : Docketed put received d p)
    (hcoherent : p.latch.Coherent) (hcoordinator : r.coordinator = p.coordinator)
    (hpool : r.pool = p.pool) (hlatch : r.latch = p.latch) :
    (r.leave id .done).latch.caught = p.latch.caught := by
  rw [h.caught_leave hcoherent hcoordinator hpool hlatch]
  exact Option.or_none

/-- The locations in the dispatch queue are dropped with the last worker, and with any other they
stay. -/
theorem dropped_append_leave {r : Pipeline} {id : Nat} {ending : Ending}
    (hstaffed : p.pool.isGone = false) (hpool : r.pool = p.pool)
    (hdispatch : r.dispatch = p.dispatch) :
    p.dropped (r.leave id ending) ++ (r.leave id ending).dispatch.items = p.dispatch.items := by
  rw [dropped, items_dispatch_leave, pool_leave, hpool, hdispatch, hstaffed]
  cases (p.pool.without id ending).isGone <;> simp

/-- A worker that leaves calls no fetch. -/
theorem fetchedIn_leave (r : Pipeline) (id : Nat) (ending : Ending) :
    fetchedIn (r.leave id ending).journal = fetchedIn r.journal := by
  have hnone : fetchedIn (r.leaveEntries id ending) = [] := by
    refine List.filterMap_eq_nil_iff.mpr fun e he => ?_
    obtain ⟨alarm, rfl⟩ := eq_of_mem_leaveEntries he
    rfl
  rw [journal_leave, fetchedIn, List.filterMap_append]
  exact congrArg (· ++ fetchedIn r.journal) hnone

/-- An idle worker leaves. -/
theorem leave_idle {id : Nat} (h : Docketed put received d p) (hcoherent : p.latch.Coherent)
    (hstaffed : p.pool.isGone = false) (hidle : id ∈ p.pool.idle)
    (honward : Onward p (p.leave id .done)) :
    Docketed put received (d.follow p (p.leave id .done)) (p.leave id .done) := by
  refine h.of_busy_eq honward ?_ ?_ ?_ ?_ ?_ (fetchedIn_leave _ _ _) ?_
  · rw [pool_leave]
    exact Pool.nodup_workers_without h.workers _ _
  · rw [pool_leave]
    exact h.guarded
  · rw [pool_leave, Pool.busy_without_of_mem_idle h.workers hidle]
  · exact h.order_dropped (dropped_append_leave hstaffed rfl rfl)
  · rw [discarded_of_closed_eq (by simp), List.append_nil, completions_leave]
    rfl
  · exact h.caught_leave_done hcoherent rfl rfl rfl

/-- A worker leaves with its location, where `r` is the pipeline at that moment. -/
theorem leave_busy {r : Pipeline} {ending : Ending} (h : Docketed put received d p)
    (hcoherent : p.latch.Coherent) (hstaffed : p.pool.isGone = false) (hj : j ∈ p.pool.busy)
    (honward : Onward p (r.leave j.worker ending))
    (hpool : r.pool = p.pool) (hcoordinator : r.coordinator = p.coordinator)
    (hlatch : r.latch = p.latch) (hdispatch : r.dispatch = p.dispatch)
    (hcompletions : r.completions = p.completions)
    (hfetched : fetchedIn r.journal =
      (if j.stage.calls none then [j.location] else []) ++ fetchedIn p.journal)
    (hexcused : ∀ t : Take, t.Fits p.isCancelled j →
      Loss.Excused (r.leave j.worker ending) ⟨t, j.stage, ending⟩) :
    Docketed put received (d.follow p (r.leave j.worker ending)) (r.leave j.worker ending) :=
  h.lost honward hj (by rw [pool_leave, hpool]) (dropped_append_leave hstaffed hpool hdispatch)
    (by rw [completions_leave, hcompletions]; rfl) (by rw [completions_leave, hcompletions]; rfl)
    hexcused ((fetchedIn_leave r _ _).trans hfetched)
    (h.caught_leave hcoherent hcoordinator hpool hlatch)

/-- The outcome of a fetch is ready. -/
theorem handIn {r : Pipeline} {number : Nat} {answer : FetchMode} {outcome : Delivery}
    (h : Docketed put received d p) (hworks : p.Works j (.fetching number answer))
    (honward : Onward p (r.handIn j outcome)) (hpool : r.pool = p.pool)
    (hlatch : r.latch = p.latch) (hdispatch : r.dispatch = p.dispatch)
    (hcompletions : r.completions = p.completions) (hjournal : r.journal = p.journal)
    (houtcome : answer.outcome? j.location number = some outcome ∨
      outcome = .failure (.cancelled j.location) ∧ p.isCancelled = true) :
    Docketed put received (d.follow p (r.handIn j outcome)) (r.handIn j outcome) := by
  refine h.staged honward hworks.mem (by rw [Pipeline.handIn, hpool]) rfl ?_
    (by rw [Pipeline.handIn, hdispatch]) (by rw [Pipeline.handIn, hcompletions]; rfl)
    (by rw [Pipeline.handIn, hcompletions]; rfl)
    (by rw [Pipeline.handIn, hjournal, hworks.stage]; rfl) (by rw [Pipeline.handIn, hlatch])
  intro t hfits hlocation
  have hshows := hfits.shows
  rw [hworks.stage] at hshows ⊢
  refine ⟨⟨_, rfl, hshows.1, ?_⟩, rfl⟩
  rw [← hlocation] at houtcome
  exact houtcome.imp_right fun hdropped => ⟨hdropped.1, honward.cancelled hdropped.2⟩

/-- **Every step of a worker keeps docket and pipeline together.** -/
theorem workerStep (h : Docketed put received d p) (hoff : WrittenOff d p)
    (hcoherent : p.latch.Coherent) (hstep : p.WorkerStep q) :
    Docketed put received (d.follow p q) q := by
  have honward := hstep.onward
  have hstaffed := hstep.isGone_eq_false
  cases hstep with
  | quit hidle | dismissed hidle => exact h.leave_idle hcoherent hstaffed hidle honward
  | @took id idle l items hlive hidle hitems =>
      have hmem : id ∈ p.pool.idle := hidle ▸ List.mem_cons_self
      refine h.taken honward (hoff.dropped hstaffed) ?_ h.guarded rfl
        (Pool.stage?_of_idle h.workers hmem) rfl hitems rfl rfl rfl rfl
      -- the worker has only moved from the idle ones to the busy ones
      have hworkers := h.workers
      rw [Pool.workers, hidle] at hworkers
      refine hworkers.perm ?_
      simp only [Pool.workers, List.map_append, List.map_singleton]
      rw [← List.append_assoc]
      exact (List.perm_append_singleton _ _).symm
  | called hworks hlock hmode =>
      refine h.staged honward hworks.mem rfl rfl (fun t hfits _ => ?_) rfl rfl rfl
        (by rw [hworks.stage]; rfl) rfl
      have hshows := hfits.shows
      rw [hworks.stage] at hshows ⊢
      exact ⟨rfl, hshows.2⟩
  | callPanicked hworks hlock hmode =>
      refine h.leave_busy hcoherent hstaffed hworks.mem honward rfl rfl rfl rfl rfl
        (by rw [hworks.stage]; rfl) fun t hfits => ?_
      rw [hworks.stage]
      refine .callPanicked ?_
      rw [honward.fetchMode, hfits.location, hmode]
  | fetched hworks => exact h.handIn hworks honward rfl rfl rfl rfl rfl (.inl rfl)
  | fetchFailed hworks => exact h.handIn hworks honward rfl rfl rfl rfl rfl (.inl rfl)
  | fetchPanicked hworks hmode =>
      refine h.leave_busy hcoherent hstaffed hworks.mem honward rfl rfl rfl rfl rfl
        (by rw [hworks.stage]; rfl) fun t hfits => ?_
      have hshows := hfits.shows
      rw [hworks.stage] at hshows ⊢
      exact .fetchPanicked hshows.1 hmode
  | fetchDropped hworks hcancelled =>
      exact h.handIn hworks honward rfl rfl rfl rfl rfl (.inr ⟨rfl, hcancelled⟩)
  | handedIn hworks =>
      refine h.handedIn honward hworks.mem hworks.stage ?_ h.guarded rfl ?_ rfl rfl rfl rfl
      · -- the worker has only moved from the busy ones to the idle ones
        have hperm := (Pool.busy_perm_without h.workers hworks.mem .done).map Job.worker
        refine h.workers.perm ((hperm.append_left _).trans ?_)
        rw [List.map_cons, Pool.workers, List.append_assoc, List.singleton_append]
        rfl
      · rw [dropped_eq_nil (by simp [Pool.isGone])]
        rfl
  | handedInLast hworks =>
      refine h.handedIn honward hworks.mem hworks.stage ?_ ?_ ?_ ?_ ?_ ?_ (fetchedIn_leave _ _ _) ?_
      · rw [pool_leave]
        exact Pool.nodup_workers_without h.workers _ _
      · rw [pool_leave]
        exact h.guarded
      · rw [pool_leave]
        rfl
      · exact dropped_append_leave hstaffed rfl rfl
      · rw [completions_leave]
        rfl
      · rw [completions_leave]
        rfl
      · exact h.caught_leave_done hcoherent rfl rfl rfl
  | undelivered hworks hclosed =>
      refine h.leave_busy hcoherent hstaffed hworks.mem honward rfl rfl rfl rfl rfl
        (by rw [hworks.stage]; rfl) fun t hfits => ?_
      have hshows := hfits.shows
      rw [hworks.stage] at hshows ⊢
      cases hcancelled : p.isCancelled with
      | true =>
          rw [hcancelled] at honward
          exact .cancelled hshows.2 (honward.closed hclosed) (honward.cancelled hcancelled)
      | false =>
          rw [hcancelled] at honward
          rw [if_neg Bool.false_ne_true] at honward ⊢
          rw [← hfits.location] at honward ⊢
          exact .undelivered hshows.2 (honward.closed hclosed)

end Docketed

end SharedFetch
