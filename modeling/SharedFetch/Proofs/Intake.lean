import Mathlib.Data.List.Count
import Mathlib.Data.List.Nodup
import SharedFetch.Intake

/-!
# Sending ends of the intake

The intake of a run ends once every sending end is gone and nothing is left in it. An end
belongs to the caller, who keeps it on a stack, or to a producer that has not finished.
`Accounted` says that the queue knows of all of them. So after the end of an intake nobody is
left who could put a reference into it, and nobody who could make another end (`Grows`).

Ends and producers are told apart by the era of their intake: those of an earlier era have no
say in the present one.

## Main results

* `goesOn_of_step`: what a producer that goes on does.
* `exists_produces`: what that does to the queue and to the producer.
* `Accounted.produced`, `Grows.produced`: such a step keeps the account, and only puts
  references in if there is an end.
-/

namespace SharedFetch

/-- Whether a producer with this task has finished. -/
def Task.isFinished : Task → Bool
  | .finished _ => true
  | .submit .. | .forward .. => false

/-- Whether a producer has a sending end of the given era. -/
def Producer.holds (era : Nat) (p : Producer) : Bool :=
  p.era == era && !p.task.isFinished

/-- An item that enters stands at the end. -/
theorem Queue.eq_of_enter?_eq_some {α : Type} {q q' : Queue α} {sender : Nat} {a : α}
    (h : q.enter? sender a = some q') :
    q' = { q with line := q.line.tail, items := q.items ++ [a] } := by
  rw [enter?, Option.ite_none_right_eq_some] at h
  exact (Option.some.inj h.2).symm

namespace Intake

/-- The number of producers that have a sending end of the present era. -/
def holders (i : Intake) : Nat :=
  i.producers.countP (Producer.holds i.era)

/-- The queue knows of every sending end of the present era, on the caller's stack `ends` and
with the producers. -/
structure Accounted (ends : List Nat) (i : Intake) : Prop where
  eras : ∀ era ∈ ends, era ≤ i.era
  producers : ∀ p ∈ i.producers, p.era ≤ i.era ∧ p.id < i.started
  names : i.names.Nodup
  ends : ends.count i.era + i.holders ≤ i.queue.senders

/-- Between two states of an intake references were only added, and neither references nor
sending ends unless there was an end. Nobody has closed or opened the queue, and nothing was added
if it was closed. -/
structure Grows (i j : Intake) : Prop where
  era : j.era = i.era
  items : ∃ new, j.queue.items = i.queue.items ++ new ∧
    (i.queue.senders = 0 ∨ i.queue.closed = true → new = [])
  senders : i.queue.senders = 0 → j.queue.senders = 0
  closed : j.queue.closed = i.queue.closed

variable {i j : Intake} {ends : List Nat} {p : Producer} {tokens : Tokens} {token : Token}
  {supply : Supply} {inHand : Option Reference} {sent : UInt64}

/-- Nothing was added. -/
theorem Grows.of_eq (hera : j.era = i.era) (hitems : j.queue.items = i.queue.items)
    (hsenders : j.queue.senders ≤ i.queue.senders) (hclosed : j.queue.closed = i.queue.closed) :
    Grows i j :=
  ⟨hera, ⟨[], by rw [hitems, List.append_nil], fun _ => rfl⟩, fun h => by omega, hclosed⟩

theorem Grows.refl (i : Intake) : Grows i i :=
  .of_eq rfl rfl (Nat.le_refl _) rfl

/-- Something was added through an end of the caller. -/
theorem Grows.of_mem (haccounted : Accounted ends i) (hend : i.era ∈ ends)
    (hera : j.era = i.era) {new : List Reference}
    (hitems : j.queue.items = i.queue.items ++ new) (hnew : i.queue.closed = true → new = [])
    (hclosed : j.queue.closed = i.queue.closed) : Grows i j := by
  have hpos := List.count_pos_iff.mpr hend
  have hends := haccounted.ends
  refine ⟨hera, ⟨new, hitems, ?_⟩, fun h => by omega, hclosed⟩
  rintro (hzero | hshut)
  · omega
  · exact hnew hshut

theorem Grows.trans {k : Intake} (h : Grows i j) (h' : Grows j k) : Grows i k := by
  obtain ⟨hera, ⟨new, hitems, hnew⟩, hsenders, hclosed⟩ := h
  obtain ⟨hera', ⟨new', hitems', hnew'⟩, hsenders', hclosed'⟩ := h'
  refine ⟨hera'.trans hera, ⟨new ++ new', ?_, fun hzero => ?_⟩, fun hzero => ?_,
    hclosed'.trans hclosed⟩
  · rw [hitems', hitems, List.append_assoc]
  · rw [hnew hzero, hnew' (hzero.imp hsenders hclosed.trans), List.append_nil]
  · exact hsenders' (hsenders hzero)

/-! ### Producers -/

/-- What a producer that forwards a stream may do next, with the reference that it stands in line
with. -/
inductive Forwards (i : Intake) (tokens : Tokens) (p : Producer) (token : Token) (supply : Supply)
    (sent : UInt64) : Option Reference → Intake → Prop where
  | cancelled {inHand : Option Reference} (hcancelled : tokens.isCancelled token = true) :
      Forwards i tokens p token supply sent inHand (i.finish p (.forwarded sent))
  | turnedAway {inHand : Option Reference} (hlive : tokens.isCancelled token = false)
      (hsends : inHand.isSome = true ∨ supply.items ≠ []) (hclosed : i.accepts p.era = false) :
      Forwards i tokens p token supply sent inHand (i.finish p (.failed (.interrupted sent)))
  | entered {r : Reference} {queue : Queue Reference} (hlive : tokens.isCancelled token = false)
      (haccepts : i.accepts p.era = true) (henter : i.queue.enter? p.id r = some queue) :
      Forwards i tokens p token supply sent (some r)
        ({ i with queue }.update { p with task := .forward token supply none (sent + 1) })
  | pulled {r : Reference} {rest : List Reference} (hlive : tokens.isCancelled token = false)
      (haccepts : i.accepts p.era = true) (hitems : supply.items = r :: rest) :
      Forwards i tokens p token supply sent none
        ({ i with queue := i.queue.queueUp p.id }.update
          { p with task := .forward token { supply with items := rest } (some r) sent })
  | ended (hlive : tokens.isCancelled token = false) (hitems : supply.items = [])
      (hends : supply.endless = false) :
      Forwards i tokens p token supply sent none (i.finish p (.forwarded sent))

/-- What a producer that forwards does in one step. -/
theorem forwards_of_step (htask : p.task = .forward token supply inHand sent)
    (h : i.step tokens p = some j) : Forwards i tokens p token supply sent inHand j := by
  simp only [step, htask] at h
  split at h
  · rename_i hcancelled
    exact Option.some.inj h ▸ .cancelled hcancelled
  · rename_i hlive
    rw [Bool.not_eq_true] at hlive
    split at h
    · split at h
      · rename_i hclosed
        exact Option.some.inj h ▸ .turnedAway hlive (.inl rfl) (by simpa using hclosed)
      · rename_i haccepts
        obtain ⟨queue, henter, rfl⟩ := Option.map_eq_some_iff.mp h
        exact .entered hlive (by simpa using haccepts) henter
    · rename_i r rest hitems
      split at h
      · rename_i hclosed
        exact Option.some.inj h ▸
          .turnedAway hlive (.inr (by simp [hitems])) (by simpa using hclosed)
      · rename_i haccepts
        exact Option.some.inj h ▸ .pulled hlive (by simpa using haccepts) hitems
    · rename_i hitems
      split at h
      · cases h
      · rename_i hends
        exact Option.some.inj h ▸ .ended hlive hitems (by simpa using hends)

/-- What a producer that goes on does, by its task. -/
inductive GoesOn (i : Intake) (tokens : Tokens) (p : Producer) : Intake → Prop where
  | refused {r : Reference} {queued : Bool} (htask : p.task = .submit r queued)
      (hclosed : i.accepts p.era = false) : GoesOn i tokens p (i.finish p (.failed .refused))
  | submitted {r : Reference} {queue : Queue Reference} (htask : p.task = .submit r true)
      (haccepts : i.accepts p.era = true) (henter : i.queue.enter? p.id r = some queue) :
      GoesOn i tokens p ({ i with queue }.finish p .accepted)
  | linedUp {r : Reference} (htask : p.task = .submit r false)
      (haccepts : i.accepts p.era = true) :
      GoesOn i tokens p
        ({ i with queue := i.queue.queueUp p.id }.update { p with task := .submit r true })
  | forwards {token : Token} {supply : Supply} {inHand : Option Reference} {sent : UInt64} {j : Intake}
      (htask : p.task = .forward token supply inHand sent)
      (hforwards : Forwards i tokens p token supply sent inHand j) : GoesOn i tokens p j

/-- **What a producer does in one step.** -/
theorem goesOn_of_step (h : i.step tokens p = some j) : GoesOn i tokens p j := by
  cases htask : p.task with
  | finished result => simp [step, htask] at h
  | submit r queued =>
      simp only [step, htask] at h
      split at h
      · rename_i hclosed
        exact Option.some.inj h ▸ .refused htask (by simpa using hclosed)
      · rename_i haccepts
        simp only [Bool.not_eq_true, Bool.not_eq_false'] at haccepts
        split at h
        · rename_i hqueued
          obtain ⟨queue, henter, rfl⟩ := Option.map_eq_some_iff.mp h
          exact .submitted (hqueued ▸ htask) haccepts henter
        · rename_i hqueued
          rw [Bool.not_eq_true] at hqueued
          exact Option.some.inj h ▸ .linedUp (hqueued ▸ htask) haccepts
  | forward token supply inHand sent => exact .forwards htask (forwards_of_step htask h)

/-- What a step of a producer that has not finished does to the queue, where `task` is what it
is about afterwards. -/
structure Produces (i : Intake) (p : Producer) (queue : Queue Reference) (task : Task) : Prop where
  unfinished : p.task.isFinished = false
  items : ∃ new, queue.items = i.queue.items ++ new ∧ (new ≠ [] → i.accepts p.era = true)
  senders : queue.senders =
    if p.era = i.era ∧ task.isFinished = true then i.queue.senders - 1 else i.queue.senders
  closed : queue.closed = i.queue.closed

/-- A queue that takes references from a producer is that of its era, and not closed. -/
theorem accepts_iff {era : Nat} :
    i.accepts era = true ↔ era = i.era ∧ i.queue.closed = false := by
  rw [accepts, Bool.and_eq_true, beq_iff_eq, Bool.not_eq_true']

/-- A producer ends, perhaps after it has put a reference in. -/
theorem exists_produces_finish (i : Intake) (queue : Queue Reference) (new : List Reference)
    (hopen : p.task.isFinished = false) (hitems : queue.items = i.queue.items ++ new)
    (haccepts : new ≠ [] → i.accepts p.era = true) (hsenders : queue.senders = i.queue.senders)
    (hclosed : queue.closed = i.queue.closed) (result : Produced) :
    ∃ queue' task, Produces i p queue' task ∧
      { i with queue }.finish p result = { i with queue := queue' }.update { p with task } := by
  refine ⟨_, .finished result, ⟨hopen, ⟨new, ?_, haccepts⟩, ?_, ?_⟩, rfl⟩
  · dsimp only
    split <;> simpa using hitems
  · dsimp only
    by_cases h : p.era = i.era
    · simp [h, Task.isFinished, Queue.dropSender, Queue.stepOut, hsenders]
    · simp [h, hsenders]
  · dsimp only
    split <;> simpa using hclosed

/-- A producer goes on, perhaps after it has put a reference in. -/
theorem exists_produces_update (i : Intake) (queue : Queue Reference) (new : List Reference)
    {task : Task} (hopen : p.task.isFinished = false) (hitems : queue.items = i.queue.items ++ new)
    (haccepts : new ≠ [] → i.accepts p.era = true) (hsenders : queue.senders = i.queue.senders)
    (hclosed : queue.closed = i.queue.closed) (htask : task.isFinished = false) :
    ∃ queue' task', Produces i p queue' task' ∧
      { i with queue }.update { p with task } =
        { i with queue := queue' }.update { p with task := task' } :=
  ⟨queue, task, ⟨hopen, ⟨new, hitems, haccepts⟩, by simp [htask, hsenders], hclosed⟩, rfl⟩

/-- **What a producer does in one step**: it changes itself and nobody else, puts in references
only if the queue is that of its era and open, and gives its end up with its last step. -/
theorem exists_produces (h : i.step tokens p = some j) :
    ∃ queue task, Produces i p queue task ∧ j = { i with queue }.update { p with task } := by
  cases goesOn_of_step h with
  | refused htask =>
      exact exists_produces_finish i _ [] (by rw [htask]; rfl) (List.append_nil _).symm (by simp)
        rfl rfl _
  | submitted htask haccepts henter =>
      have hentered := Queue.eq_of_enter?_eq_some henter
      exact exists_produces_finish i _ [_] (by rw [htask]; rfl) (by rw [hentered])
        (fun _ => haccepts) (by rw [hentered]) (by rw [hentered]) _
  | linedUp htask =>
      exact exists_produces_update i _ [] (by rw [htask]; rfl) (List.append_nil _).symm (by simp)
        rfl rfl rfl
  | forwards htask hforwards =>
      have hopen : p.task.isFinished = false := by rw [htask]; rfl
      cases hforwards with
      | cancelled | turnedAway | ended =>
          exact exists_produces_finish i _ [] hopen (List.append_nil _).symm (by simp) rfl rfl _
      | entered hlive haccepts henter =>
          have hentered := Queue.eq_of_enter?_eq_some henter
          exact exists_produces_update i _ [_] hopen (by rw [hentered])
            (fun _ => haccepts) (by rw [hentered]) (by rw [hentered]) rfl
      | pulled =>
          exact exists_produces_update i _ [] hopen (List.append_nil _).symm (by simp) rfl rfl rfl

/-- A producer that changes is the only one that does. -/
theorem exists_producers_update (hnames : i.names.Nodup) (hp : p ∈ i.producers)
    (queue : Queue Reference) (task : Task) :
    ∃ before after, i.producers = before ++ p :: after ∧
      ({ i with queue }.update { p with task }).producers =
        before ++ { p with task } :: after := by
  obtain ⟨before, after, hproducers⟩ := List.append_of_mem hp
  rw [names, hproducers, List.map_append, List.map_cons, List.nodup_middle,
    List.nodup_cons] at hnames
  have hothers : ∀ q ∈ before ++ after, q.id ≠ p.id := by
    intro q hq hid
    exact hnames.1 (List.map_append ▸ List.mem_map.mpr ⟨q, hq, hid⟩)
  have hkept : ∀ others : List Producer, (∀ q ∈ others, q.id ≠ p.id) →
      (others.map fun q => if q.id = p.id then { p with task } else q) = others := by
    intro others hne
    calc (others.map fun q => if q.id = p.id then { p with task } else q)
        = others.map id := List.map_congr_left fun q hq => if_neg (hne q hq)
      _ = others := List.map_id others
  refine ⟨before, after, hproducers, ?_⟩
  rw [List.forall_mem_append] at hothers
  simp [update, hproducers, hkept before hothers.1, hkept after hothers.2]

/-- A producer that has not finished has an end, if it is of the present era. -/
theorem holders_pos (hp : p ∈ i.producers) (hopen : p.task.isFinished = false)
    (hera : p.era = i.era) : 0 < i.holders :=
  List.countP_pos_iff.mpr ⟨p, hp, by simp [Producer.holds, hopen, hera]⟩

theorem names_update (i : Intake) (p : Producer) : (i.update p).names = i.names := by
  simp only [names, update, List.map_map]
  refine List.map_congr_left fun q _ => ?_
  simp only [Function.comp_apply]
  split
  · rename_i hid
    exact hid.symm
  · rfl

/-- With its last step a producer gives up its end. -/
theorem holders_update (hnames : i.names.Nodup) (hp : p ∈ i.producers)
    (hopen : p.task.isFinished = false) (queue : Queue Reference) (task : Task) :
    ({ i with queue }.update { p with task }).holders +
      (if p.era = i.era ∧ task.isFinished = true then 1 else 0) = i.holders := by
  obtain ⟨before, after, hbefore, hafter⟩ := exists_producers_update hnames hp queue task
  rw [holders, hafter, holders, hbefore, List.countP_append, List.countP_cons, List.countP_append,
    List.countP_cons, Producer.holds, Producer.holds, hopen]
  simp only [update]
  by_cases hera : p.era = i.era
  · cases task.isFinished
    · simp [hera]
    · simp only [hera, beq_self_eq_true, Bool.not_true, Bool.not_false, Bool.and_true, Bool.and_false,
        Bool.false_eq_true, and_self, if_true, if_false]
      omega
  · simp [hera]

/-- A step of a producer keeps the account. -/
theorem Accounted.produced {queue : Queue Reference} {task : Task} (h : Accounted ends i)
    (hp : p ∈ i.producers) (hproduces : Produces i p queue task) :
    Accounted ends ({ i with queue }.update { p with task }) := by
  have hholders := holders_update h.names hp hproduces.unfinished queue task
  obtain ⟨before, after, hbefore, hafter⟩ := exists_producers_update h.names hp queue task
  obtain ⟨heras, hproducers, hnames, hends⟩ := h
  have hsenders := hproduces.senders
  constructor
  · exact heras
  · rw [hbefore, List.forall_mem_append, List.forall_mem_cons] at hproducers
    rw [hafter, List.forall_mem_append, List.forall_mem_cons]
    exact hproducers
  · exact (names_update _ _).symm ▸ hnames
  · simp only [update, hsenders] at hholders ⊢
    split at hholders
    · rename_i hlast
      rw [if_pos hlast]
      omega
    · rename_i hlast
      rw [if_neg hlast]
      omega

/-- A step of a producer only puts references in if there is an end. -/
theorem Grows.produced {queue : Queue Reference} {task : Task} (h : Accounted ends i)
    (hp : p ∈ i.producers) (hproduces : Produces i p queue task) :
    Grows i ({ i with queue }.update { p with task }) := by
  have hends := h.ends
  obtain ⟨hopen, ⟨new, hitems, haccepts⟩, hsenders, hclosed⟩ := hproduces
  refine ⟨rfl, ⟨new, hitems, fun hcase => ?_⟩, fun hzero => ?_, hclosed⟩
  · by_contra hnew
    obtain ⟨hera, hlive⟩ := accepts_iff.mp (haccepts hnew)
    rcases hcase with hzero | hshut
    · have := holders_pos hp hopen hera
      omega
    · rw [hlive] at hshut
      cases hshut
  · rw [update, hsenders]
    split <;> omega

/-! ### The caller -/

/-- An end is copied. -/
theorem Accounted.clone {era : Nat} (h : Accounted ends i) (hmem : era ∈ ends) :
    Accounted (era :: ends)
      (if era = i.era then { i with queue := i.queue.addSender } else i) := by
  obtain ⟨heras, hproducers, hnames, hends⟩ := h
  have heras' : ∀ e ∈ era :: ends, e ≤ i.era :=
    List.forall_mem_cons.mpr ⟨heras era hmem, heras⟩
  split
  · rename_i hera
    refine ⟨heras', hproducers, hnames, ?_⟩
    rw [hera, List.count_cons_self]
    simp only [holders, Queue.addSender] at hends ⊢
    omega
  · rename_i hera
    exact ⟨heras', hproducers, hnames, by rwa [List.count_cons_of_ne hera]⟩

theorem Grows.clone {era : Nat} (h : Accounted ends i) (hmem : era ∈ ends) :
    Grows i (if era = i.era then { i with queue := i.queue.addSender } else i) := by
  split
  · rename_i hera
    exact .of_mem h (hera ▸ hmem) rfl (List.append_nil _).symm (fun _ => rfl) rfl
  · exact .refl i

/-- An end is given up. -/
theorem Accounted.drop {era : Nat} (h : Accounted (era :: ends) i) :
    Accounted ends (if era = i.era then { i with queue := i.queue.dropSender } else i) := by
  obtain ⟨heras, hproducers, hnames, hends⟩ := h
  have heras' := (List.forall_mem_cons.mp heras).2
  split
  · rename_i hera
    refine ⟨heras', hproducers, hnames, ?_⟩
    rw [hera, List.count_cons_self] at hends
    simp only [holders, Queue.dropSender] at hends ⊢
    omega
  · rename_i hera
    exact ⟨heras', hproducers, hnames, by rwa [List.count_cons_of_ne hera] at hends⟩

theorem Grows.drop {era : Nat} :
    Grows i (if era = i.era then { i with queue := i.queue.dropSender } else i) := by
  split
  · exact .of_eq rfl rfl (Nat.sub_le _ _) rfl
  · exact .refl i

/-- An end is handed to a new producer. -/
theorem Accounted.start {era label : Nat} {task : Task} {hosted : Bool}
    (h : Accounted (era :: ends) i) (hopen : task.isFinished = false) :
    Accounted ends (i.start label era task hosted) := by
  obtain ⟨heras, hproducers, hnames, hends⟩ := h
  obtain ⟨hera, heras'⟩ := List.forall_mem_cons.mp heras
  constructor
  · exact heras'
  · simp only [Intake.start, List.forall_mem_append, List.forall_mem_singleton]
    exact ⟨fun p hp => ⟨(hproducers p hp).1, by have := (hproducers p hp).2; omega⟩, hera,
      Nat.lt_succ_self _⟩
  · rw [Intake.names, Intake.start, List.map_append, List.map_singleton]
    refine List.nodup_append_comm.mp (List.nodup_cons (l := i.names) |>.mpr ⟨?_, hnames⟩)
    intro hstarted
    obtain ⟨p, hp, hid⟩ := List.mem_map.mp hstarted
    exact Nat.lt_irrefl _ (hid ▸ (hproducers p hp).2)
  · simp only [holders, Intake.start, List.countP_append, List.countP_singleton, Producer.holds,
      hopen, Bool.not_false, Bool.and_true, beq_iff_eq, List.count_cons] at hends ⊢
    omega

/-- Nothing but the items of the queue changes. -/
theorem Accounted.queued {queue : Queue Reference} (h : Accounted ends i)
    (hsenders : queue.senders = i.queue.senders) : Accounted ends { i with queue } :=
  ⟨h.eras, h.producers, h.names, by rw [hsenders]; exact h.ends⟩

/-- A new era begins, with one end. -/
theorem Accounted.launch {queue : Queue Reference} (h : Accounted ends i)
    (hsenders : queue.senders = 1) :
    Accounted ((i.era + 1) :: ends) { i with queue, era := i.era + 1 } := by
  obtain ⟨heras, hproducers, hnames, -⟩ := h
  have hfresh : ends.count (i.era + 1) = 0 := by
    refine List.count_eq_zero.mpr fun hmem => ?_
    have := heras _ hmem
    omega
  have hnobody : i.producers.countP (Producer.holds (i.era + 1)) = 0 := by
    refine List.countP_eq_zero.mpr fun p hp => ?_
    have := (hproducers p hp).1
    simp only [Producer.holds, Bool.and_eq_true, beq_iff_eq]
    omega
  constructor
  · exact List.forall_mem_cons.mpr ⟨Nat.le_refl _, fun e he => Nat.le_succ_of_le (heras e he)⟩
  · exact fun p hp => ⟨Nat.le_succ_of_le (hproducers p hp).1, (hproducers p hp).2⟩
  · exact hnames
  · simp only [List.count_cons_self, hfresh, holders, hnobody, hsenders, Nat.zero_add, Nat.add_zero,
      Nat.le_refl]

/-- Some producers are dismissed. -/
theorem Accounted.dismiss (h : Accounted ends i) (keep : Producer → Bool) :
    Accounted ends { i with producers := i.producers.filter keep } := by
  obtain ⟨heras, hproducers, hnames, hends⟩ := h
  refine ⟨heras, fun p hp => hproducers p (List.mem_of_mem_filter hp),
    hnames.sublist (List.filter_sublist.map _), ?_⟩
  have hfewer : (i.producers.filter keep).countP (Producer.holds i.era) ≤ i.holders :=
    List.filter_sublist.countP_le
  simp only [holders] at hends hfewer ⊢
  omega

/-- Producers change what they are about, but not whether they have finished. -/
theorem Accounted.mapped {f : Producer → Producer} (h : Accounted ends i)
    (hid : ∀ p, (f p).id = p.id) (hera : ∀ p, (f p).era = p.era)
    (htask : ∀ p, (f p).task.isFinished = p.task.isFinished) :
    Accounted ends { i with producers := i.producers.map f } := by
  obtain ⟨heras, hproducers, hnames, hends⟩ := h
  have hholds : Producer.holds i.era ∘ f = Producer.holds i.era := by
    funext p
    simp only [Function.comp_apply, Producer.holds, hera, htask]
  refine ⟨heras, ?_, ?_, ?_⟩
  · intro q hq
    obtain ⟨p, hp, rfl⟩ := List.mem_map.mp hq
    rw [hid, hera]
    exact hproducers p hp
  · have : Producer.id ∘ f = Producer.id := funext hid
    rwa [Intake.names, List.map_map, this]
  · rwa [holders, List.countP_map, hholds]

/-- Streams of producers change. -/
theorem Accounted.onSupply (h : Accounted ends i) (label : Nat) (f : Supply → Supply) :
    Accounted ends (i.onSupply label f) := by
  refine h.mapped ?_ ?_ ?_ <;> intro p <;> cases htask : p.task <;> simp only [htask]
  all_goals split <;> simp_all [Task.isFinished]

end Intake

end SharedFetch
