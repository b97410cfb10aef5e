import Mathlib.Data.List.Forall2
import Mathlib.Data.List.Nodup
import SharedFetch.Pipeline.Basic
import SharedFetch.Reporter

/-!
# After a past

A host that is started again has a past: tokens have been made and cancelled, eras have gone by,
producers have been started, something was counted and written, and time has passed. `Past` is all
of it that a later run can still meet. Whatever a new host has, a host with a past has *later*:
under other names, with counters that do not begin at zero, and at another time.

Each part of a host has an operation or a relation of that name, and everything that can happen to
the part happens later as well.

## Main results

* `Tokens.Later.isCancelled`: a token is cancelled later if and only if it is.
* `Intake.advance_later`: what a producer does next it does later, too.
* `Reporting.wake_later`, `Reporting.elapse_later`: later, reports are made as often and as late.
-/

namespace SharedFetch

/-- What a host that is started again has behind it. -/
structure Past where
  /-- The tokens that stand for those of a new host. -/
  roots : List Nat
  /-- The number of tokens so far. -/
  tokens : Nat
  nodup : roots.Nodup
  made : ∀ t ∈ roots, t < tokens
  /-- The number of runs so far. -/
  era : Nat
  /-- The number of producers so far. -/
  producers : Nat
  /-- The names under which those of them were started that are still there. -/
  remaining : List Nat
  journal : List Entry
  counters : Counters
  /-- The highest number of fetches that were in progress. -/
  peak : Nat
  clock : Nat

namespace Past

/-- The later name of a token. -/
def token (past : Past) (t : Nat) : Nat :=
  past.roots[t]?.getD (t - past.roots.length + past.tokens)

variable {past : Past} {t u : Nat}

/-- One of the first tokens is one of those of the past. -/
theorem token_of_lt (h : t < past.roots.length) : past.token t ∈ past.roots := by
  rw [token, List.getElem?_eq_getElem h, Option.getD_some]
  exact List.getElem_mem h

/-- Tokens that are made later are counted on from those of the past. -/
theorem token_of_le (h : past.roots.length ≤ t) :
    past.token t = t - past.roots.length + past.tokens := by
  rw [token, List.getElem?_eq_none h, Option.getD_none]

/-- The tokens after the first are made one after the other. -/
theorem token_succ (h : past.roots.length ≤ t) : past.token (t + 1) = past.token t + 1 := by
  rw [token_of_le h, token_of_le (Nat.le_succ_of_le h)]
  omega

/-- No two tokens have one later name. -/
theorem token_injective (past : Past) : Function.Injective past.token := by
  intro t u heq
  rcases Nat.lt_or_ge t past.roots.length with ht | ht <;>
    rcases Nat.lt_or_ge u past.roots.length with hu | hu
  · rw [token, token, List.getElem?_eq_getElem ht, List.getElem?_eq_getElem hu] at heq
    exact (past.nodup.getElem_inj_iff).mp heq
  · have hmade := past.made _ (token_of_lt ht)
    rw [heq, token_of_le hu] at hmade
    omega
  · have hmade := past.made _ (token_of_lt hu)
    rw [← heq, token_of_le ht] at hmade
    omega
  · rw [token_of_le ht, token_of_le hu] at heq
    omega

/-- A token of the past that does not stand for one of a new host is not the later name of any. -/
theorem token_ne (hmade : u < past.tokens) (hroots : u ∉ past.roots) (t : Nat) :
    past.token t ≠ u := by
  rcases Nat.lt_or_ge t past.roots.length with ht | ht
  · exact fun heq => hroots (heq ▸ token_of_lt ht)
  · rw [token_of_le ht]
    omega

end Past

variable {past : Past}

/-! ### Tokens -/

namespace Tokens

variable {t u : Tokens} {token other : Token}

/-- Tokens as they are later. -/
structure Later (past : Past) (t u : Tokens) : Prop where
  roots : past.roots.length ≤ t.parents.length
  length : u.parents.length = past.token t.parents.length
  parent : ∀ x, u.parent? (past.token x) = (t.parent? x).map past.token
  fired : ∀ x, u.fired.contains (past.token x) = t.fired.contains x

/-- What was cancelled, and the token that is. -/
theorem contains_cancel (t : Tokens) (token x : Token) :
    (t.cancel token).fired.contains x = (t.fired.contains x || x == token) := by
  rw [cancel]
  split
  · rename_i hfired
    by_cases heq : x = token
    · rw [heq, hfired, beq_self_eq_true, Bool.or_self]
    · rw [beq_false_of_ne heq, Bool.or_false]
  · rw [List.contains_append, List.contains_cons, List.contains_nil, Bool.or_false]

/-- Cancelling a token leaves its family as it is. -/
theorem parent?_cancel (t : Tokens) (token x : Token) :
    (t.cancel token).parent? x = t.parent? x := by
  rw [cancel]
  split <;> rfl

/-- One more token is made, and the others have the parents they had. -/
theorem parent?_append (t : Tokens) (parent : Option Token) (x : Nat) :
    ({ t with parents := t.parents ++ [parent] } : Tokens).parent? x =
      if x = t.parents.length then parent else t.parent? x := by
  rw [parent?, parent?]
  split
  · rename_i heq
    rw [heq, List.getElem?_concat_length, Option.join_some]
  · rename_i hne
    rcases Nat.lt_or_ge x t.parents.length with hlt | hge
    · rw [List.getElem?_append_left hlt]
    · rw [List.getElem?_eq_none hge, List.getElem?_eq_none]
      rw [List.length_append, List.length_singleton]
      omega

namespace Later

/-- **A token is cancelled later if and only if it is.** -/
theorem isCancelled (h : t.Later past u) (token : Token) :
    u.isCancelled (past.token token) = t.isCancelled token := by
  rw [Tokens.isCancelled, Tokens.isCancelled, h.fired, h.parent]
  cases t.parent? token with
  | none => rfl
  | some parent => exact congrArg _ (h.fired parent)

/-- A token is cancelled. -/
theorem cancel (h : t.Later past u) (token : Token) :
    (t.cancel token).Later past (u.cancel (past.token token)) where
  roots := by
    rw [Tokens.cancel]
    split <;> exact h.roots
  length := by
    rw [Tokens.cancel, Tokens.cancel]
    split <;> split <;> exact h.length
  parent := fun x => by rw [parent?_cancel, parent?_cancel, h.parent]
  fired := fun x => by
    rw [contains_cancel, contains_cancel, h.fired]
    congr 1
    exact past.token_injective.beq_eq

/-- A token of the past is cancelled, and nobody notices. -/
theorem cancel_past (h : t.Later past u) {token : Token} (hmade : token < past.tokens)
    (hroots : token ∉ past.roots) : t.Later past (u.cancel token) where
  roots := h.roots
  length := by
    rw [Tokens.cancel]
    split <;> exact h.length
  parent := fun x => by rw [parent?_cancel, h.parent]
  fired := fun x => by
    rw [contains_cancel, h.fired, beq_false_of_ne (Past.token_ne hmade hroots x), Bool.or_false]

/-- A token is made. -/
theorem append (h : t.Later past u) (parent : Option Token) :
    ({ t with parents := t.parents ++ [parent] } : Tokens).Later past
      { u with parents := u.parents ++ [parent.map past.token] } where
  roots := by
    rw [List.length_append]
    exact Nat.le_add_right_of_le h.roots
  length := by
    simp only [List.length_append, List.length_singleton]
    rw [h.length, Past.token_succ h.roots]
  parent := fun x => by
    rw [parent?_append, parent?_append, h.length, h.parent]
    by_cases heq : x = t.parents.length
    · rw [if_pos (congrArg _ heq), if_pos heq]
    · rw [if_neg fun hsame => heq (past.token_injective hsame), if_neg heq]
  fired := h.fired

end Later

end Tokens

/-! ### The latch -/

namespace Latch

/-- The latch as it is later. -/
def later (past : Past) (l : Latch) : Latch :=
  { l with root := past.token l.root, run := past.token l.run }

/-- A fault is kept later if and only if it is. -/
theorem capture_later (l : Latch) (fault : Fault) :
    (l.later past).capture fault = (l.capture fault).later past := by
  obtain ⟨root, run, triggered, caught⟩ := l
  cases caught <;> rfl

/-- An alarm brings the same about later. -/
theorem trigger_later {t u : Tokens} (h : t.Later past u) (l : Latch) (alarm : Alarm) :
    ((l.later past).trigger u alarm).returned = (l.trigger t alarm).returned ∧
      ((l.later past).trigger u alarm).latch = (l.trigger t alarm).latch.later past ∧
      ((l.later past).trigger u alarm).logged = (l.trigger t alarm).logged ∧
      (l.trigger t alarm).tokens.Later past ((l.later past).trigger u alarm).tokens := by
  have hcancel := (h.cancel l.run).cancel l.root
  have hcapture : (({ l with triggered := true } : Latch).later past).capture alarm.fault =
      (({ l with triggered := true } : Latch).capture alarm.fault).later past :=
    capture_later { l with triggered := true } alarm.fault
  have hsame : (l.later past).triggered = l.triggered := rfl
  rw [trigger, trigger, hsame]
  split
  · exact ⟨rfl, rfl, rfl, h⟩
  · exact ⟨rfl, hcapture, rfl, hcancel⟩

end Latch

/-! ### The intake queue -/

namespace Past

/-- The later name of a producer. -/
def producer (past : Past) (id : Nat) : Nat :=
  id + past.producers

/-- No two producers have one later name. -/
theorem producer_injective (past : Past) : Function.Injective past.producer :=
  fun _ _ heq => Nat.add_right_cancel heq

end Past

namespace Queue

variable {α : Type}

/-- A queue as it is later, with the producers in line under their later names. -/
def later (past : Past) (q : Queue α) : Queue α :=
  { q with line := q.line.map past.producer }

/-- The receiving end is dropped later. -/
theorem dropReceiver_later (q : Queue α) :
    (q.later past).dropReceiver = q.dropReceiver.later past := by
  simp only [dropReceiver, close, later, List.length_map]
  split <;> rfl

/-- Later, there is as much room. -/
theorem free_later (q : Queue α) : (q.later past).free = q.free := by
  simp only [free, later, List.length_map]

/-- Later, an offer has the same answer. -/
theorem offer_later (q : Queue α) (a : α) :
    (q.later past).offer a = ((q.offer a).1, (q.offer a).2.later past) := by
  have hclosed : (q.later past).closed = q.closed := rfl
  rw [offer, offer, free_later, hclosed]
  by_cases hclosed : q.closed = true
  · rw [if_pos hclosed, if_pos hclosed]
  · rw [if_neg hclosed, if_neg hclosed]
    split <;> rfl

/-- Later, several offers have the same answers. -/
theorem offerAll_later (q : Queue α) (items : List α) :
    (q.later past).offerAll items = ((q.offerAll items).1, (q.offerAll items).2.later past) := by
  induction items generalizing q with
  | nil => rfl
  | cons a items ih => simp only [offerAll, offer_later, ih]

/-- A producer joins the line later. -/
theorem queueUp_later (q : Queue α) (id : Nat) :
    (q.later past).queueUp (past.producer id) = (q.queueUp id).later past := by
  simp only [queueUp, later, List.map_append, List.map_cons, List.map_nil]

/-- A producer leaves the line later. -/
theorem stepOut_later (q : Queue α) (id : Nat) :
    (q.later past).stepOut (past.producer id) = (q.stepOut id).later past := by
  have hcontains : ((q.line.map past.producer).take q.reserved).contains (past.producer id) =
      (q.line.take q.reserved).contains id := by
    rw [← List.map_take, Bool.eq_iff_iff, List.contains_iff_mem, List.contains_iff_mem,
      List.mem_map_of_injective past.producer_injective]
  simp only [stepOut, later, hcontains, List.map_erase past.producer_injective]

/-- Later, it is the turn of the same producer. -/
theorem enter?_later (q : Queue α) (id : Nat) (a : α) :
    (q.later past).enter? (past.producer id) a = (q.enter? id a).map (later past) := by
  have hhead : (q.later past).line.head? = some (past.producer id) ↔ q.line.head? = some id := by
    rw [later, List.head?_map]
    exact (Option.map_injective past.producer_injective).eq_iff' rfl
  have hturn : (q.later past).line.head? = some (past.producer id) ∧ (q.later past).hasRoom = true ↔
      q.line.head? = some id ∧ q.hasRoom = true :=
    and_congr_left' hhead
  rw [enter?, enter?]
  by_cases h : q.line.head? = some id ∧ q.hasRoom = true
  · rw [if_pos (hturn.mpr h), if_pos h]
    simp only [later, Option.map_some, List.map_tail]
  · rw [if_neg (mt hturn.mp h), if_neg h]
    rfl

/-- Later, the same item is taken out. -/
theorem pop?_later (q : Queue α) :
    (q.later past).pop? = q.pop?.map fun x => (x.1, x.2.later past) := by
  simp only [pop?, later]
  cases q.items <;> rfl

/-- A queue is exhausted later if and only if it is. -/
theorem isExhausted_later (q : Queue α) : (q.later past).isExhausted = q.isExhausted :=
  rfl

end Queue

/-! ### Producers -/

/-- A task as it is later, with the later name of its token. -/
def Task.later (past : Past) : Task → Task
  | .forward token supply inHand sent => .forward (past.token token) supply inHand sent
  | task => task

/-- A producer as it is later. -/
def Producer.later (past : Past) (p : Producer) : Producer :=
  { p with id := past.producer p.id, era := p.era + past.era, task := p.task.later past }

/-- Later, a producer has the same result. -/
theorem Producer.result?_later (p : Producer) : (p.later past).result? = p.result? := by
  simp only [result?, later]
  cases p.task <;> rfl

namespace Intake

/-- An intake as it is later. -/
def later (past : Past) (i : Intake) : Intake where
  queue := i.queue.later past
  era := i.era + past.era
  producers := i.producers.map (Producer.later past)
  started := i.started + past.producers

variable (i : Intake) {t u : Tokens}

/-- The names of the producers, later. -/
theorem names_later : (i.later past).names = i.names.map past.producer := by
  simp only [names, later, List.map_map]
  rfl

/-- Later, the queue of the same run is open. -/
theorem accepts_later (era : Nat) : (i.later past).accepts (era + past.era) = i.accepts era := by
  have hsame : (era + past.era == i.era + past.era) = (era == i.era) := by
    rw [Bool.eq_iff_iff, beq_iff_eq, beq_iff_eq, Nat.add_right_cancel_iff]
  rw [accepts, accepts, later, hsame]
  rfl

/-- A producer goes on later. -/
theorem update_later (p : Producer) :
    (i.later past).update (p.later past) = (i.update p).later past := by
  simp only [update, later, List.map_map]
  congr 1
  refine List.map_congr_left fun q _ => ?_
  simp only [Function.comp, Producer.later, past.producer_injective.eq_iff]
  split <;> rfl

/-- A producer finishes later. -/
theorem finish_later (p : Producer) (result : Produced) :
    (i.later past).finish (p.later past) result = (i.finish p result).later past := by
  rw [finish, finish, ← update_later]
  simp only [Producer.later, later, Nat.add_right_cancel_iff, Queue.stepOut_later]
  split <;> rfl

/-- What a producer does next it does later, too. -/
theorem step_later (h : t.Later past u) (p : Producer) :
    (i.later past).step u (p.later past) = (i.step t p).map (later past) := by
  have haccepts : (i.later past).accepts (p.later past).era = i.accepts p.era :=
    i.accepts_later p.era
  have hfinish : ∀ result, (i.later past).finish (p.later past) result =
      (i.finish p result).later past :=
    i.finish_later p
  -- the producer goes on, with the queue as it then is
  have hupdate : ∀ (queue : Queue Reference) (task : Task),
      ({ i.later past with queue := queue.later past } : Intake).update
          { p.later past with task := task.later past } =
        (({ i with queue } : Intake).update { p with task }).later past :=
    fun queue task => update_later { i with queue } { p with task }
  have henter : ∀ r, (i.later past).queue.enter? (p.later past).id r =
      (i.queue.enter? p.id r).map (Queue.later past) :=
    fun r => i.queue.enter?_later p.id r
  have hqueueUp : (i.later past).queue.queueUp (p.later past).id = (i.queue.queueUp p.id).later past :=
    i.queue.queueUp_later p.id
  cases htask : p.task with
  | finished result =>
      have hlater : (p.later past).task = .finished result := by rw [Producer.later, htask]; rfl
      rw [step, step, htask, hlater]
      rfl
  | submit r queued =>
      have hlater : (p.later past).task = .submit r queued := by rw [Producer.later, htask]; rfl
      rw [step, step, htask, hlater]
      dsimp only
      rw [haccepts, hfinish, henter, hqueueUp]
      split
      · rfl
      · split
        · rw [Option.map_map, Option.map_map]
          congr 1
          funext queue
          exact finish_later { i with queue } p .accepted
        · exact congrArg some (hupdate _ (.submit r true))
  | forward token supply inHand sent =>
      have hlater : (p.later past).task = .forward (past.token token) supply inHand sent := by
        rw [Producer.later, htask]; rfl
      rw [step, step, htask, hlater]
      dsimp only
      rw [haccepts, h.isCancelled, hqueueUp]
      simp only [hfinish, henter]
      split
      · rfl
      · split
        · split
          · rfl
          · rw [Option.map_map, Option.map_map]
            congr 1
            funext queue
            exact hupdate queue (.forward token supply none (sent + 1))
        · split
          · rfl
          · exact congrArg some (hupdate _ (.forward token _ _ sent))
        · split <;> rfl

/-- What the producer with a given name does next it does later, too. -/
theorem advance_later (h : t.Later past u) (id : Nat) :
    (i.later past).advance u (past.producer id) = (i.advance t id).map (later past) := by
  have hfind : (i.later past).producers.find? (fun p => p.id == past.producer id) =
      (i.producers.find? fun p => p.id == id).map (Producer.later past) := by
    rw [later, List.find?_map]
    congr 2
    funext p
    exact past.producer_injective.beq_eq
  rw [advance, advance, hfind]
  cases i.producers.find? fun p => p.id == id with
  | none => rfl
  | some p => exact i.step_later h p

/-- A producer is started later. -/
theorem start_later (label era : Nat) (task : Task) (hosted : Bool) :
    (i.later past).start label (era + past.era) (task.later past) hosted =
      (i.start label era task hosted).later past := by
  simp only [start, later, List.map_append, List.map_cons, List.map_nil, Nat.add_right_comm]
  rfl

/-- Later, the same producers are fed. -/
theorem isFed_later (label : Nat) : (i.later past).isFed label = i.isFed label := by
  simp only [isFed, later, List.any_map, Function.comp_def, Producer.result?_later]
  rfl

/-- A supply changes later. -/
theorem onSupply_later (label : Nat) (f : Supply → Supply) :
    (i.later past).onSupply label f = (i.onSupply label f).later past := by
  simp only [onSupply, later, List.map_map]
  congr 1
  refine List.map_congr_left fun p _ => ?_
  obtain ⟨id, name, era, task, hosted⟩ := p
  cases task with
  | forward token supply inHand sent =>
      by_cases hfed : name = label ∧ hosted = true
      · simp only [Function.comp, Producer.later, Task.later, if_pos hfed]
        exact if_pos hfed
      · simp only [Function.comp, Producer.later, Task.later, if_neg hfed]
        exact if_neg hfed
  | _ => rfl

/-- What is reported of finished producers is the same. -/
theorem collect_later :
    (i.later past).collect = (i.collect.1, i.collect.2.later past) := by
  simp only [collect, later, List.filterMap_map, List.filter_map, Function.comp_def,
    Producer.result?_later]
  rfl

/-- The producers that worked for the host are dismissed. -/
theorem dismiss_later :
    ({ i.later past with producers := (i.later past).producers.filter fun q => !q.hosted } : Intake) =
      ({ i with producers := i.producers.filter fun q => !q.hosted } : Intake).later past := by
  simp only [later, List.filter_map]
  rfl

end Intake

/-! ### Counters and activity -/

namespace Counters

/-- Counters as they are later: each goes on from where it was. The gauge of locations in flight
shows what it was last set to. -/
def later (past : Past) (inFlight : UInt64) (c : Counters) : Counters where
  references := c.references + past.counters.references
  resolutionFailures := c.resolutionFailures + past.counters.resolutionFailures
  coalesced := c.coalesced + past.counters.coalesced
  dispatched := c.dispatched + past.counters.dispatched
  completions := c.completions + past.counters.completions
  fetchFailures := c.fetchFailures + past.counters.fetchFailures
  cancelledFetches := c.cancelledFetches + past.counters.cancelledFetches
  deliveries := c.deliveries + past.counters.deliveries
  inFlight := inFlight
  poolSize := c.poolSize

/-- A change is recorded later. -/
theorem record_later (c : Counters) (inFlight : UInt64) (change : Change) :
    (c.later past inFlight).record change =
      (c.record change).later past ((c.later past inFlight).record change).inFlight := by
  have hcomm : ∀ a b d : UInt64, a + b + d = a + d + b := by
    intro a b d
    rw [UInt64.add_assoc, UInt64.add_comm b, ← UInt64.add_assoc]
  cases change with
  | inFlight n | poolSize n => rfl
  | _ =>
      simp only [record, later]
      rw [hcomm]

end Counters

namespace Activity

/-- Activity as it is later. -/
def later (past : Past) (a : Activity) : Activity where
  active := a.active
  peak := max past.peak a.peak

/-- A worker begins a fetch later. -/
theorem enter_later (a : Activity) : (a.later past).enter = a.enter.later past := by
  simp only [enter, later, Nat.max_assoc]

/-- A worker ends a fetch later. -/
theorem leave_later (a : Activity) : (a.later past).leave = a.leave.later past :=
  rfl

end Activity

/-! ### The reporter -/

/-- A reporter as it is later. -/
def Reporter.later (past : Past) (r : Reporter) : Reporter :=
  { r with
    due := r.due + past.clock
    last := r.last + past.clock
    deliveries := r.deliveries + past.counters.deliveries }

/-- Lines of the log as they are later. A report is one of the counters as they then are, and of the
deliveries since the report before. -/
inductive LogLine.Later (past : Past) : LogLine → LogLine → Prop where
  | same (line : LogLine) : Later past line line
  | report (r : Reporter) (now : Nat) (c : Counters) (inFlight : UInt64) :
      Later past (r.line now c)
        ((r.later past).line (now + past.clock) (c.later past inFlight))

namespace Reporter

/-- Later, a report leaves the reporter as it does now. -/
theorem tick_later (r : Reporter) (now : Nat) (c : Counters) (inFlight : UInt64) :
    ((r.later past).tick (now + past.clock) (c.later past inFlight)).2 =
      (r.tick now c).2.later past := by
  have hlate : r.due + past.clock + grace < now + past.clock ↔ r.due + grace < now := by omega
  simp only [tick, later, Counters.later, hlate]
  congr 1
  split <;> omega

/-- Reports fall due as often. -/
theorem bound_later (r : Reporter) (time : Nat) :
    (r.later past).bound (time + past.clock) = r.bound time := by
  simp only [bound, later, Nat.add_sub_add_right]

/-- Reports are made at the same moments, but later. -/
theorem ticks_later {moment : Reporter → Nat} (moment' : Reporter → Nat)
    (hmoment : ∀ r, moment' (r.later past) = moment r + past.clock) (time : Nat) (c : Counters)
    (inFlight : UInt64) (n : Nat) (r : Reporter) :
    (ticks moment' (time + past.clock) (c.later past inFlight) n (r.later past)).2 =
        (ticks moment time c n r).2.later past ∧
      List.Forall₂ (LogLine.Later past) (ticks moment time c n r).1
        (ticks moment' (time + past.clock) (c.later past inFlight) n (r.later past)).1 := by
  induction n generalizing r with
  | zero => exact ⟨rfl, .nil⟩
  | succ n ih =>
      have hdue : (r.later past).due ≤ time + past.clock ↔ r.due ≤ time :=
        Nat.add_le_add_iff_right
      rw [ticks, ticks]
      by_cases h : r.due ≤ time
      · rw [if_pos h, if_pos (hdue.mpr h)]
        dsimp only
        rw [hmoment, tick_later]
        obtain ⟨hreporter, hlines⟩ := ih (r.tick (moment r) c).2
        exact ⟨hreporter, .cons (.report r (moment r) c inFlight) hlines⟩
      · rw [if_neg h, if_neg (mt hdue.mp h)]
        exact ⟨rfl, .nil⟩

end Reporter

namespace Reporting

/-- A reporter from its start on, as it is later. -/
def later (past : Past) : Reporting → Reporting
  | .active r => .active (r.later past)
  | r => r

/-- A reporter is there later if and only if it is. -/
theorem isAlive_later (r : Reporting) : (r.later past).isAlive = r.isAlive := by
  cases r <;> rfl

/-- Later, a reporter begins and makes the reports that are due. -/
theorem wake_later (past : Past) (r : Reporting) (now : Nat) (c : Counters) (inFlight : UInt64) :
    ((r.later past).wake (now + past.clock) (c.later past inFlight)).2 =
        (r.wake now c).2.later past ∧
      List.Forall₂ (LogLine.Later past) (r.wake now c).1
        ((r.later past).wake (now + past.clock) (c.later past inFlight)).1 := by
  have hcatchUp : ∀ r : Reporter,
      ((r.later past).catchUp (now + past.clock) (c.later past inFlight)).2 =
          (r.catchUp now c).2.later past ∧
        List.Forall₂ (LogLine.Later past) (r.catchUp now c).1
          ((r.later past).catchUp (now + past.clock) (c.later past inFlight)).1 := by
    intro r
    rw [Reporter.catchUp, Reporter.catchUp, Reporter.bound_later]
    exact Reporter.ticks_later _ (fun _ => rfl) now c inFlight _ r
  cases r with
  | waiting interval =>
      cases interval with
      | zero => exact ⟨rfl, .nil⟩
      | succ interval =>
          obtain ⟨hreporter, hlines⟩ := hcatchUp (.begin (interval + 1) now c)
          exact ⟨congrArg Reporting.active hreporter, hlines⟩
  | active r =>
      obtain ⟨hreporter, hlines⟩ := hcatchUp r
      exact ⟨congrArg Reporting.active hreporter, hlines⟩
  | _ => exact ⟨rfl, .nil⟩

/-- Later, a reporter makes the same reports as time passes. -/
theorem elapse_later (past : Past) (r : Reporting) (time : Nat) (c : Counters) (inFlight : UInt64) :
    ((r.later past).elapse (time + past.clock) (c.later past inFlight)).2 =
        (r.elapse time c).2.later past ∧
      List.Forall₂ (LogLine.Later past) (r.elapse time c).1
        ((r.later past).elapse (time + past.clock) (c.later past inFlight)).1 := by
  cases r with
  | active r =>
      have hmoment : ∀ r : Reporter, (r.later past).due = r.due + past.clock := fun _ => rfl
      obtain ⟨hreporter, hlines⟩ :=
        Reporter.ticks_later Reporter.due hmoment time c inFlight (r.bound time) r
      simp only [elapse, later, Reporter.elapse, Reporter.bound_later]
      exact ⟨congrArg Reporting.active hreporter, hlines⟩
  | _ => exact ⟨rfl, .nil⟩

/-- Later, a reporter quits with the same line. -/
theorem quit_later (r : Reporting) :
    (r.later past).quit = (r.quit.1, r.quit.2.later past) := by
  cases r with
  | waiting interval => cases interval <;> rfl
  | _ => rfl

end Reporting

end SharedFetch
