import SharedFetch.Proofs.Pipeline.Change
import SharedFetch.Proofs.Provenance

/-!
# The register of fetches

Every fetch that is called in a run is put on a register, with the worker that has called it, and
later with its answer and the outcome that the worker made of it. The register is kept by comparing
the workers before and after: a worker that waited for the lock and no longer does has called its
fetch, and one that goes on from its fetch to handing in has an outcome. A call without an outcome
belongs to a worker that still waits for it, or to one that is gone.

A location underway is on the register once for every completion of it that was taken up, and then
once more, unless its fetch is still to be called. So the outcomes of a location that the
coordinator takes up are, in order, those of the calls on the register.

## Main results

* `Attended.called`, `Attended.ended`: every outcome is what the fetch has answered or says that it
  was dropped, and every call without one is waited for.
-/

namespace SharedFetch

/-- How a fetch has ended: its number, its answer, and what the worker made of it. -/
structure FetchEnd where
  number : Nat
  answer : FetchMode
  outcome : Delivery

/-- A call of a fetch. -/
structure FetchCall where
  worker : Nat
  location : Location
  ended : Option FetchEnd := none

/-- What a fetch of a location has brought about, by its answer. -/
def FetchMode.outcome? (l : Location) (number : Nat) : FetchMode → Option Delivery
  | .content value => some (.content (contentOf l number value))
  | .fail cause => some (.failure (.failed l cause))
  | _ => none

namespace FetchCall

/-- The outcome to which the fetch has come, if it has. -/
def outcome? (c : FetchCall) : Option Delivery :=
  c.ended.map FetchEnd.outcome

/-- The call has ended, if it is one that a worker waits for. -/
def settle (worker : Nat) (e : FetchEnd) (c : FetchCall) : FetchCall :=
  if c.worker = worker ∧ c.ended.isNone then { c with ended := some e } else c

@[simp] theorem location_settle (worker : Nat) (e : FetchEnd) (c : FetchCall) :
    (c.settle worker e).location = c.location := by
  rw [settle]
  split <;> rfl

@[simp] theorem worker_settle (worker : Nat) (e : FetchEnd) (c : FetchCall) :
    (c.settle worker e).worker = c.worker := by
  rw [settle]
  split <;> rfl

/-- A fetch that has ended does not end again. -/
theorem settle_of_ended {worker : Nat} {e : FetchEnd} {c : FetchCall} (h : c.ended ≠ none) :
    c.settle worker e = c :=
  if_neg fun hopen => h (Option.isNone_iff_eq_none.mp hopen.2)

/-- The fetch of another worker goes on. -/
theorem settle_of_worker_ne {worker : Nat} {e : FetchEnd} {c : FetchCall}
    (h : c.worker ≠ worker) : c.settle worker e = c :=
  if_neg fun hopen => h hopen.1

end FetchCall

namespace JobStage

/-- Whether a worker has called its fetch: it waited for the lock and no longer does. -/
def calls : JobStage → Option JobStage → Bool
  | .awaitingLock, some .awaitingLock => false
  | .awaitingLock, _ => true
  | _, _ => false

/-- How the fetch of a worker has ended, if the worker goes on from it to handing in. -/
def ends? : Option JobStage → Option JobStage → Option FetchEnd
  | some (.fetching number mode), some (.handingIn outcome) => some ⟨number, mode, outcome⟩
  | _, _ => none

@[simp] theorem calls_self (s : JobStage) : s.calls (some s) = false := by
  cases s <;> rfl

@[simp] theorem ends?_self (s : Option JobStage) : ends? s s = none := by
  rcases s with _ | (_ | _ | _) <;> rfl

end JobStage

namespace Pool

variable {p q : Pool} {j : Job} {w : Nat} {g : List FetchCall}

/-- How far a worker is with its location. -/
def stage? (p : Pool) (id : Nat) : Option JobStage :=
  (p.job? id).map Job.stage

/-- A busy worker is at the stage of its job. -/
theorem stage?_of_mem (h : p.workers.Nodup) (hj : j ∈ p.busy) :
    p.stage? j.worker = some j.stage := by
  rw [stage?, job?_of_mem h hj]
  rfl

/-- An idle worker is at no stage. -/
theorem stage?_of_idle (h : p.workers.Nodup) {id : Nat} (hid : id ∈ p.idle) :
    p.stage? id = none := by
  rw [stage?, job?_of_idle h hid]
  rfl

/-- The other workers stay at their stages. -/
theorem stage?_update (p : Pool) (hw : w ≠ j.worker) : (p.update j).stage? w = p.stage? w := by
  rw [stage?, stage?, job?_update]
  cases hk : p.job? w with
  | none => rfl
  | some k =>
      rw [Option.map_some, if_neg]
      rw [(job?_eq_some hk).2]
      exact hw

/-- When a worker is no longer busy, the others stay at their stages. -/
theorem stage?_filter {id : Nat} (hbusy : q.busy = p.busy.filter fun k => k.worker != id)
    (hw : w ≠ id) : q.stage? w = p.stage? w := by
  have hpred : (fun k : Job => decide ((k.worker != id) = true ∧ (k.worker == w) = true)) =
      fun k => k.worker == w := by
    funext k
    by_cases hk : k.worker = w
    · simp [hk, hw]
    · simp [hk]
  rw [stage?, stage?, job?, job?, hbusy, List.find?_filter, hpred]

/-- A worker that is no longer busy is at no stage. -/
theorem stage?_filter_self {id : Nat} (hbusy : q.busy = p.busy.filter fun k => k.worker != id) :
    q.stage? id = none := by
  rw [stage?, Option.map_eq_none_iff, job?, hbusy, List.find?_eq_none]
  intro k hk
  simpa using (List.mem_filter.mp hk).2

/-- When a worker takes up a job, the others stay at their stages. -/
theorem stage?_append {new : Job} (hbusy : q.busy = p.busy ++ [new]) (hw : w ≠ new.worker) :
    q.stage? w = p.stage? w := by
  rw [stage?, stage?, job?, job?, hbusy, List.find?_append, List.find?_singleton,
    if_neg (by simpa using hw.symm), Option.or_none]

/-- The fetches called in a step, with nothing on their end. -/
def called (p q : Pool) : List FetchCall :=
  p.busy.filterMap fun j =>
    if j.stage.calls (q.stage? j.worker) then some ⟨j.worker, j.location, none⟩ else none

/-- A call on the register after a step. -/
def attend (p q : Pool) (c : FetchCall) : FetchCall :=
  match JobStage.ends? (p.stage? c.worker) (q.stage? c.worker) with
  | some e => c.settle c.worker e
  | none => c

/-- The register after a step. -/
def register (g : List FetchCall) (p q : Pool) : List FetchCall :=
  g.map (attend p q) ++ p.called q

/-- Where no worker calls or ends a fetch, the register stays. -/
theorem register_of_ends?_eq_none (hends : ∀ w, JobStage.ends? (p.stage? w) (q.stage? w) = none)
    (hcalls : ∀ j ∈ p.busy, j.stage.calls (q.stage? j.worker) = false) :
    register g p q = g := by
  have hattend : g.map (attend p q) = g := by
    refine List.map_id'' (fun c => ?_) g
    rw [attend, hends]
  have hcalled : p.called q = [] :=
    List.filterMap_eq_nil_iff.mpr fun j hj => by rw [hcalls j hj]; rfl
  rw [register, hattend, hcalled, List.append_nil]

/-- If everybody stays where they are, nothing is registered. -/
theorem register_of_stages (h : p.workers.Nodup) (hsame : ∀ w, q.stage? w = p.stage? w) :
    register g p q = g :=
  register_of_ends?_eq_none (fun w => by rw [hsame, JobStage.ends?_self]) fun j hj => by
    rw [hsame, stage?_of_mem h hj, JobStage.calls_self]

section Turn

variable (hworkers : p.workers.Nodup) (hj : j ∈ p.busy)
  (hsame : ∀ w, w ≠ j.worker → q.stage? w = p.stage? w)

include hworkers hj hsame

/-- Where only one worker moves, only that one can have called a fetch. -/
theorem called_of_turn :
    p.called q =
      if j.stage.calls (q.stage? j.worker) then [⟨j.worker, j.location, none⟩] else [] := by
  obtain ⟨before, after, hbusy⟩ := List.append_of_mem hj
  have hothers : ∀ k ∈ before ++ after, k.stage.calls (q.stage? k.worker) = false := by
    intro k hk
    have hmem : k ∈ p.busy := by
      rw [hbusy]
      simp only [List.mem_append, List.mem_cons] at hk ⊢
      exact hk.imp_right .inr
    have hne : k.worker ≠ j.worker := by
      have hnodup := (List.nodup_append.mp hworkers).2.1
      rw [hbusy, List.map_append, List.map_cons, List.nodup_middle, List.nodup_cons] at hnodup
      rw [← List.map_append] at hnodup
      exact fun heq => hnodup.1 (heq ▸ List.mem_map_of_mem hk)
    rw [hsame _ hne, stage?_of_mem hworkers hmem, JobStage.calls_self]
  rw [List.forall_mem_append] at hothers
  rw [called, hbusy, List.filterMap_append, List.filterMap_cons,
    List.filterMap_eq_nil_iff.mpr fun k hk => by rw [hothers.1 k hk]; rfl,
    List.filterMap_eq_nil_iff.mpr fun k hk => by rw [hothers.2 k hk]; rfl]
  cases j.stage.calls (q.stage? j.worker) <;> rfl

/-- Where only one worker moves, only the fetch of that one can have ended. -/
theorem attend_of_turn (c : FetchCall) :
    attend p q c =
      match JobStage.ends? (some j.stage) (q.stage? j.worker) with
      | some e => c.settle j.worker e
      | none => c := by
  rw [attend]
  by_cases hc : c.worker = j.worker
  · rw [hc, stage?_of_mem hworkers hj]
  · rw [hsame _ hc, JobStage.ends?_self]
    cases JobStage.ends? (some j.stage) (q.stage? j.worker) with
    | none => rfl
    | some e => exact (FetchCall.settle_of_worker_ne hc).symm

/-- A worker goes on without a call and without an end. -/
theorem register_of_turn (hends : JobStage.ends? (some j.stage) (q.stage? j.worker) = none)
    (hcalls : j.stage.calls (q.stage? j.worker) = false) : register g p q = g := by
  have hattend : g.map (attend p q) = g := by
    refine List.map_id'' (fun c => ?_) g
    rw [attend_of_turn hworkers hj hsame, hends]
  rw [register, hattend, called_of_turn hworkers hj hsame, hcalls]
  exact List.append_nil g

/-- A worker calls its fetch. -/
theorem register_of_call (hstage : j.stage = .awaitingLock)
    (hleft : q.stage? j.worker ≠ some .awaitingLock) :
    register g p q = g ++ [⟨j.worker, j.location, none⟩] := by
  have hcalls : j.stage.calls (q.stage? j.worker) = true := by
    rw [hstage]
    rcases hq : q.stage? j.worker with _ | (_ | _ | _) <;> first | rfl | exact absurd hq hleft
  have hattend : g.map (attend p q) = g := by
    refine List.map_id'' (fun c => ?_) g
    rw [attend_of_turn hworkers hj hsame, hstage]
    rfl
  rw [register, hattend, called_of_turn hworkers hj hsame, hcalls]
  rfl

/-- The fetch of a worker has ended. -/
theorem register_of_end {number : Nat} {mode : FetchMode} {outcome : Delivery}
    (hstage : j.stage = .fetching number mode)
    (hnext : q.stage? j.worker = some (.handingIn outcome)) :
    register g p q = g.map (FetchCall.settle j.worker ⟨number, mode, outcome⟩) := by
  have hattend : g.map (attend p q) =
      g.map (FetchCall.settle j.worker ⟨number, mode, outcome⟩) := by
    refine List.map_congr_left fun c _ => ?_
    rw [attend_of_turn hworkers hj hsame, hstage, hnext]
    rfl
  rw [register, hattend, called_of_turn hworkers hj hsame, hstage]
  exact List.append_nil _

end Turn

/-! ### Busy workers -/

/-- The job is there, at its new stage. -/
theorem mem_busy_update (hj : j ∈ p.busy) (stage : JobStage) :
    ⟨j.worker, j.location, stage⟩ ∈ (p.update ⟨j.worker, j.location, stage⟩).busy :=
  List.mem_map.mpr ⟨j, hj, if_pos rfl⟩

/-- The other jobs are there. -/
theorem mem_busy_update_of_ne {j' : Job} {k : Job} (hk : k ∈ p.busy) (hne : k.worker ≠ j'.worker) :
    k ∈ (p.update j').busy :=
  List.mem_map.mpr ⟨k, hk, if_neg hne⟩

/-- There are no jobs but these. -/
theorem of_mem_busy_update {j' : Job} {k : Job} (hk : k ∈ (p.update j').busy) :
    k = j' ∨ k ∈ p.busy ∧ k.worker ≠ j'.worker := by
  obtain ⟨i, hi, rfl⟩ := List.mem_map.mp hk
  split
  · exact .inl rfl
  · rename_i hne
    exact .inr ⟨hi, hne⟩

/-- The workers are the same. -/
theorem workers_update (p : Pool) (j : Job) : (p.update j).workers = p.workers := by
  rw [workers, map_worker_update]
  rfl

/-- When a worker leaves, the others are left. -/
theorem mem_workers_without {id : Nat} {ending : Ending} (h : p.workers.Nodup)
    (hw : w ∈ (p.without id ending).workers) : w ∈ p.workers ∧ w ≠ id := by
  rw [workers, without, List.mem_append] at hw
  rw [workers, List.mem_append]
  rcases hw with hw | hw
  · exact ⟨.inl (List.mem_of_mem_erase hw), fun heq =>
      (List.nodup_append.mp h).1.not_mem_erase (heq ▸ hw)⟩
  · obtain ⟨k, hk, rfl⟩ := List.mem_map.mp hw
    obtain ⟨hmem, hne⟩ := List.mem_filter.mp hk
    exact ⟨.inr (List.mem_map_of_mem hmem), by simpa using hne⟩

end Pool

/-! ### Calls that are waited for -/

/-- The outcome on the register is what the fetch has answered, or that the fetch was dropped. A
call without an outcome is waited for by its worker, unless that is gone, and every worker that
waits for a fetch has such a call. -/
structure Attended (g : List FetchCall) (p : Pool) : Prop where
  answers : ∀ c ∈ g, ∀ e, c.ended = some e →
    e.answer.outcome? c.location e.number = some e.outcome ∨ e.outcome.isCancelled = true
  pending : ∀ c ∈ g, c.ended = none → c.worker ∈ p.workers →
    ∃ number mode, ⟨c.worker, c.location, .fetching number mode⟩ ∈ p.busy
  fetching : ∀ j ∈ p.busy, ∀ number mode, j.stage = .fetching number mode →
    ∃ c ∈ g, c.worker = j.worker ∧ c.location = j.location ∧ c.ended = none

namespace Attended

variable {p q : Pool} {g : List FetchCall} {j : Job}

/-- Nobody calls or ends a fetch. -/
theorem kept (h : Attended g p) (hworkers : ∀ w ∈ q.workers, w ∈ p.workers)
    (hbusy : ∀ k ∈ p.busy, ∀ number mode, k.stage = .fetching number mode → k.worker ∈ q.workers →
      ∃ mode', ⟨k.worker, k.location, .fetching number mode'⟩ ∈ q.busy)
    (hback : ∀ k ∈ q.busy, ∀ number mode, k.stage = .fetching number mode →
      ∃ mode', ⟨k.worker, k.location, .fetching number mode'⟩ ∈ p.busy) : Attended g q := by
  refine ⟨h.answers, fun c hc hopen hw => ?_, fun k hk number mode hstage => ?_⟩
  · obtain ⟨number, mode, hmem⟩ := h.pending c hc hopen (hworkers _ hw)
    obtain ⟨mode', hmem'⟩ := hbusy _ hmem number mode rfl hw
    exact ⟨number, mode', hmem'⟩
  · obtain ⟨mode', hmem⟩ := hback k hk number mode hstage
    exact h.fetching ⟨k.worker, k.location, .fetching number mode'⟩ hmem number mode' rfl

/-- A fetch is called by a worker that waits for it then, or is gone. -/
theorem called (h : Attended g p) (hnodup : p.workers.Nodup) (hj : j ∈ p.busy)
    (hstage : j.stage = .awaitingLock) (hworkers : ∀ w ∈ q.workers, w ∈ p.workers)
    (hbusy : ∀ k ∈ p.busy, k.worker ≠ j.worker → k ∈ q.busy)
    (hown : j.worker ∈ q.workers →
      ∃ number mode, ⟨j.worker, j.location, .fetching number mode⟩ ∈ q.busy)
    (hback : ∀ k ∈ q.busy, k ∈ p.busy ∨ k.worker = j.worker ∧ k.location = j.location) :
    Attended (g ++ [⟨j.worker, j.location, none⟩]) q := by
  refine ⟨?_, ?_, fun k hk number mode hk' => ?_⟩
  · rw [List.forall_mem_append]
    exact ⟨h.answers, by simp⟩
  · rw [List.forall_mem_append]
    refine ⟨fun c hc hopen hw => ?_, by simpa using hown⟩
    obtain ⟨number, mode, hmem⟩ := h.pending c hc hopen (hworkers _ hw)
    refine ⟨number, mode, hbusy _ hmem fun heq => ?_⟩
    -- the worker of this call is another one, since it has called its fetch before
    rw [← Pool.eq_of_worker_eq hnodup hj hmem heq] at hstage
    cases hstage
  · rcases hback k hk with hmem | ⟨hworker, hlocation⟩
    · obtain ⟨c, hc, hcall⟩ := h.fetching k hmem number mode hk'
      exact ⟨c, List.mem_append_left _ hc, hcall⟩
    · exact ⟨_, List.mem_append_right _ List.mem_cons_self, hworker.symm, hlocation.symm, rfl⟩

/-- A fetch has ended, and its worker has the outcome. -/
theorem ended {number : Nat} {mode : FetchMode} {outcome : Delivery} (h : Attended g p)
    (hnodup : p.workers.Nodup) (hj : j ∈ p.busy)
    (hbusy : q.busy = (p.update { j with stage := .handingIn outcome }).busy)
    (hidle : q.idle = p.idle)
    (houtcome : mode.outcome? j.location number = some outcome ∨ outcome.isCancelled = true) :
    Attended (g.map (FetchCall.settle j.worker ⟨number, mode, outcome⟩)) q := by
  have hworkers : q.workers = p.workers := by
    rw [Pool.workers, hbusy, hidle, Pool.map_worker_update]
    rfl
  refine ⟨?_, ?_, ?_⟩
  · simp only [List.forall_mem_map]
    intro c hc e he
    rw [FetchCall.settle] at he
    split at he
    · rename_i hopen
      obtain rfl := Option.some.inj he
      obtain ⟨number', mode', hmem⟩ := h.pending c hc (Option.isNone_iff_eq_none.mp hopen.2)
        (hopen.1 ▸ List.mem_append_right _ (List.mem_map_of_mem hj))
      have hlocation := congrArg Job.location (Pool.eq_of_worker_eq hnodup hj hmem hopen.1)
      rw [FetchCall.location_settle]
      exact (show c.location = j.location from hlocation) ▸ houtcome
    · rw [FetchCall.location_settle]
      exact h.answers c hc e he
  · simp only [List.forall_mem_map, FetchCall.worker_settle, FetchCall.location_settle]
    intro c hc hopen hw
    by_cases hself : c.worker = j.worker ∧ c.ended.isNone = true
    · rw [FetchCall.settle, if_pos hself] at hopen
      cases hopen
    · rw [FetchCall.settle, if_neg hself] at hopen
      obtain ⟨number', mode', hmem⟩ := h.pending c hc hopen (hworkers ▸ hw)
      refine ⟨number', mode', hbusy ▸ Pool.mem_busy_update_of_ne hmem fun heq => ?_⟩
      exact hself ⟨heq, Option.isNone_iff_eq_none.mpr hopen⟩
  · intro k hk number' mode' hk'
    rw [hbusy] at hk
    rcases Pool.of_mem_busy_update hk with rfl | ⟨hmem, hne⟩
    · cases hk'
    · obtain ⟨c, hc, hworker, hlocation, hopen⟩ := h.fetching k hmem number' mode' hk'
      have hsame : c.settle j.worker ⟨number, mode, outcome⟩ = c :=
        FetchCall.settle_of_worker_ne fun heq => hne (hworker.symm.trans heq)
      exact ⟨c, List.mem_map.mpr ⟨c, hc, hsame⟩, hworker, hlocation, hopen⟩

end Attended

/-! ### What is on its way -/

/-- What is known of the fetch of a location that a worker has. -/
def JobStage.progress : JobStage → List (Option Delivery)
  | .awaitingLock => []
  | .fetching .. => [none]
  | .handingIn outcome => [some outcome]

/-- The location of a job, with what is known of its fetch. -/
def Job.place (j : Job) : Location × List (Option Delivery) :=
  (j.location, j.stage.progress)

/-- The location of a completion, with its outcome. -/
def Completion.place (c : Completion) : Location × List (Option Delivery) :=
  (c.location, [some c.outcome])

/-- The calls for a location, in order. -/
def fetchesOf (l : Location) (g : List FetchCall) : List FetchCall :=
  g.filter fun c => c.location == l

/-- The outcomes of the calls for a location, in order, as far as there are any. -/
def outcomesOf (l : Location) (g : List FetchCall) : List (Option Delivery) :=
  (fetchesOf l g).map FetchCall.outcome?

/-- The outcomes of the completions of a location that were taken up, in order. -/
def outcomesTaken (l : Location) (taken : List Taking) : List (Option Delivery) :=
  (completionsOf l taken).map fun c => some c.outcome

section Outcomes

variable {l k : Location} {g : List FetchCall} {c : FetchCall} {taken : List Taking}

/-- The calls for a location are those for every location that is the same. -/
theorem fetchesOf_congr (hkl : (k == l) = true) (g : List FetchCall) :
    fetchesOf k g = fetchesOf l g := by
  have hsame : (fun c : FetchCall => c.location == k) = fun c => c.location == l :=
    funext fun c => BEq.congr_right hkl
  rw [fetchesOf, fetchesOf, hsame]

/-- Equal locations have the same outcomes. -/
theorem outcomesOf_congr (hkl : (k == l) = true) (g : List FetchCall) :
    outcomesOf k g = outcomesOf l g := by
  rw [outcomesOf, outcomesOf, fetchesOf_congr hkl]

/-- Of equal locations the same outcomes were taken. -/
theorem outcomesTaken_congr (hkl : (k == l) = true) (taken : List Taking) :
    outcomesTaken k taken = outcomesTaken l taken := by
  have hsame : (fun c : Completion => c.location == k) = fun c => c.location == l :=
    funext fun c => BEq.congr_right hkl
  rw [outcomesTaken, outcomesTaken, completionsOf, completionsOf, hsame]

/-- One more fetch of the location is called. -/
theorem outcomesOf_append (hl : (c.location == l) = true) :
    outcomesOf l (g ++ [c]) = outcomesOf l g ++ [c.outcome?] := by
  simp [outcomesOf, fetchesOf, hl]

/-- A fetch of another location is called. -/
theorem outcomesOf_append_of_beq_eq_false (hl : (c.location == l) = false) :
    outcomesOf l (g ++ [c]) = outcomesOf l g := by
  simp [outcomesOf, fetchesOf, hl]

/-- A completion of the location is taken. -/
theorem outcomesTaken_append {x : Completion} (hl : (x.location == l) = true) :
    outcomesTaken l (taken ++ [.completion x]) = outcomesTaken l taken ++ [some x.outcome] := by
  simp [outcomesTaken, completionsOf, Taking.completion?, hl]

/-- A completion of another location is taken. -/
theorem outcomesTaken_append_of_beq_eq_false {x : Completion} (hl : (x.location == l) = false) :
    outcomesTaken l (taken ++ [.completion x]) = outcomesTaken l taken := by
  simp [outcomesTaken, completionsOf, Taking.completion?, hl]

/-- A reference is taken. -/
theorem outcomesTaken_reference (r : Reference) :
    outcomesTaken l (taken ++ [.reference r]) = outcomesTaken l taken := by
  simp [outcomesTaken]

/-- A fetch that ends stays one of its location. -/
theorem fetchesOf_settle (worker : Nat) (e : FetchEnd) :
    fetchesOf l (g.map (FetchCall.settle worker e)) =
      (fetchesOf l g).map (FetchCall.settle worker e) := by
  simp [fetchesOf, List.filter_map, Function.comp_def]

/-- If the last call for a location is the only one without an outcome, it is the one that is
waited for, and then ends. -/
theorem outcomesOf_settle {worker : Nat} {e : FetchEnd} {front : List (Option Delivery)}
    (houtcomes : outcomesOf l g = front ++ [none]) (hfront : none ∉ front)
    (hopen : ∃ c ∈ fetchesOf l g, c.worker = worker ∧ c.ended = none) :
    outcomesOf l (g.map (FetchCall.settle worker e)) = front ++ [some e.outcome] := by
  obtain ⟨init, rest, hsplit, hinit, hrest⟩ := List.map_eq_append_iff.mp houtcomes
  obtain ⟨last, rfl, hlast⟩ := List.map_eq_singleton_iff.mp hrest
  have hended : ∀ c ∈ init, c.ended ≠ none := fun c hc hnone => by
    refine hfront (hinit ▸ List.mem_map.mpr ⟨c, hc, ?_⟩)
    rw [FetchCall.outcome?, hnone]
    rfl
  obtain ⟨c, hc, hworker, hnone⟩ := hopen
  obtain rfl : c = last := by
    rw [hsplit, List.mem_append, List.mem_singleton] at hc
    exact hc.resolve_left fun hmem => hended c hmem hnone
  have hkept : init.map (FetchCall.settle worker e) = init :=
    (List.map_congr_left fun c hc => FetchCall.settle_of_ended (hended c hc)).trans (List.map_id _)
  have hsettled : c.settle worker e = { c with ended := some e } :=
    if_pos ⟨hworker, by rw [hnone]; rfl⟩
  rw [outcomesOf, fetchesOf_settle, hsplit, List.map_append, List.map_append, hkept, hinit]
  simp [hsettled, FetchCall.outcome?]

/-- A call of another location stays as it is. -/
theorem outcomesOf_settle_of_ne {worker : Nat} {e : FetchEnd}
    (hothers : ∀ c ∈ fetchesOf l g, c.worker = worker → c.ended ≠ none) :
    outcomesOf l (g.map (FetchCall.settle worker e)) = outcomesOf l g := by
  rw [outcomesOf, fetchesOf_settle, List.map_map]
  refine List.map_congr_left fun c hc => ?_
  rw [Function.comp_apply]
  by_cases hworker : c.worker = worker
  · rw [FetchCall.settle_of_ended (hothers c hc hworker)]
  · rw [FetchCall.settle_of_worker_ne hworker]

end Outcomes

end SharedFetch
