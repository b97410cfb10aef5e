import Mathlib.Data.List.Induction
import SharedFetch.Proofs.Line
import SharedFetch.Proofs.Tokens
import SharedFetch.Scenario.Intake

/-!
# Forwarding a stream

A producer that forwards a stream takes one reference at a time from it, stands in line with it, and
puts it into the intake, until the stream ends, its token is cancelled or the intake is closed. In
between anything may happen: other producers and senders, the receiver, the token. Such a course is
a list of *moves* in any order, and every step of a scenario is one (`exists_course_step`).

Beside the course, notes are taken of what one producer does: what it has taken from its stream and
what it has put in, whether it was turned away, and its result. They are written by looking at the
intake before and after each of its steps, and not at its own count.

## Main results

* `IntakeBench.kept_move`: the queue knows exactly the sending ends there are.
* `IntakeBench.Forwarding.goesOn`, `IntakeBench.Forwarding.passes`: what the notes say of a
  producer, through its own steps and through everything else.
* `IntakeBench.forward_counts_enqueued`: what a producer has put in is what it counts.
-/

namespace SharedFetch

/-! ### A producer that forwards -/

namespace Task

/-- The reference that a producer with this task takes from its stream when it goes on. -/
def pull? (tokens : Tokens) : Task → Option Reference
  | .forward token supply none _ =>
    if tokens.isCancelled token then none else supply.items.head?
  | _ => none

/-- Whether a producer with this task sends a reference of its stream when it goes on. With a
token that is cancelled it does not. -/
def sends (tokens : Tokens) : Task → Bool
  | .forward token supply inHand _ =>
    !tokens.isCancelled token && (inHand.isSome || !supply.items.isEmpty)
  | _ => false

end Task

theorem Producer.isSome_result? (p : Producer) : p.result?.isSome = p.task.isFinished := by
  rw [result?]
  cases p.task <;> rfl

namespace Intake

variable {i j : Intake} {tokens : Tokens} {p : Producer} {token : Token} {supply : Supply}
  {inHand : Option Reference} {sent : UInt64}

/-- The producer with the given name. -/
def producer? (i : Intake) (id : Nat) : Option Producer :=
  i.producers.find? fun p => p.id == id

/-- A producer that forwards and cannot go on waits for its stream, or for its turn in line. -/
theorem waits_of_step_eq_none (htask : p.task = .forward token supply inHand sent)
    (h : i.step tokens p = none) :
    tokens.isCancelled token = false ∧
      ((inHand = none ∧ supply.items = [] ∧ supply.endless = true) ∨
        ∃ r, inHand = some r ∧ i.accepts p.era = true ∧ i.queue.enter? p.id r = none) := by
  simp only [step, htask] at h
  split at h
  · cases h
  · rename_i hlive
    refine ⟨by simpa using hlive, ?_⟩
    split at h
    · rename_i r
      split at h
      · cases h
      · rename_i haccepts
        exact .inr ⟨r, rfl, by simpa using haccepts, by simpa using h⟩
    · split at h <;> cases h
    · rename_i hitems
      split at h
      · rename_i hends
        exact .inl ⟨rfl, hitems, hends⟩
      · cases h

theorem mem_update (hp : p ∈ i.producers) (queue : Queue Reference) (task : Task) :
    { p with task } ∈ ({ i with queue }.update { p with task }).producers :=
  List.mem_map.mpr ⟨p, hp, if_pos rfl⟩

/-- A producer that changes is found as what it has become. -/
theorem producer?_update (hnames : i.names.Nodup) (hp : p ∈ i.producers) (queue : Queue Reference)
    (task : Task) :
    ({ i with queue }.update { p with task }).producer? p.id = some { p with task } := by
  refine find?_of_mem (p := { p with task }) ?_ (mem_update hp queue task)
  rw [names_update]
  exact hnames

/-- Whoever has the name of a producer that changes is what that has become. -/
theorem eq_of_mem_update {q : Producer} (hq : q ∈ (i.update p).producers) (hid : q.id = p.id) :
    q = p := by
  obtain ⟨q', -, rfl⟩ := List.mem_map.mp hq
  split
  · rfl
  · rename_i hother
    rw [if_neg hother] at hid
    exact absurd hid hother

/-- A producer that changes leaves the others as they are. -/
theorem mem_update_of_ne {q : Producer} (hid : q.id ≠ p.id) :
    q ∈ (i.update p).producers ↔ q ∈ i.producers := by
  constructor
  · intro hq
    obtain ⟨q', hq', rfl⟩ := List.mem_map.mp hq
    split
    · rename_i hother
      rw [if_pos hother] at hid
      exact absurd rfl hid
    · exact hq'
  · exact fun hq => List.mem_map.mpr ⟨q, hq, if_neg hid⟩

/-- A producer that ends puts nothing in. -/
theorem exists_finish_eq (i : Intake) (p : Producer) (result : Produced) :
    ∃ queue, queue.items = i.queue.items ∧
      i.finish p result = { i with queue }.update { p with task := .finished result } := by
  refine ⟨_, ?_, rfl⟩
  split <;> rfl

/-! ### Sending ends -/

/-- The queue knows of the sending ends there are, and of no others: those on a stack of the given
height, and one with every producer that has not finished. -/
structure Kept (stack : Nat) (i : Intake) : Prop extends
    Accounted (List.replicate stack i.era) i where
  present : ∀ p ∈ i.producers, p.era = i.era
  senders_le : i.queue.senders ≤ stack + i.holders

namespace Kept

variable {stack : Nat}

theorem senders (h : Kept stack i) : i.queue.senders = stack + i.holders := by
  have hends := h.ends
  rw [List.count_replicate_self] at hends
  exact Nat.le_antisymm h.senders_le hends

theorem queued {queue : Queue Reference} (h : Kept stack i)
    (hsenders : queue.senders = i.queue.senders) : Kept stack { i with queue } :=
  ⟨h.toAccounted.queued hsenders, h.present, hsenders ▸ h.senders_le⟩

/-- An end is copied. -/
theorem clone (h : Kept (stack + 1) i) :
    Kept (stack + 2) { i with queue := i.queue.addSender } := by
  have haccounted := h.toAccounted.clone (List.mem_replicate.mpr ⟨Nat.succ_ne_zero _, rfl⟩)
  rw [if_pos rfl] at haccounted
  refine ⟨haccounted, h.present, ?_⟩
  have hsenders := h.senders_le
  simp only [holders, Queue.addSender] at hsenders ⊢
  omega

/-- An end is given up. -/
theorem drop (h : Kept (stack + 1) i) : Kept stack { i with queue := i.queue.dropSender } := by
  have haccounted := Accounted.drop (List.replicate_succ ▸ h.toAccounted)
  rw [if_pos rfl] at haccounted
  refine ⟨haccounted, h.present, ?_⟩
  have hsenders := h.senders_le
  simp only [holders, Queue.dropSender] at hsenders ⊢
  omega

/-- An end is handed to a new producer. -/
theorem start {label : Nat} {task : Task} {hosted : Bool} (h : Kept (stack + 1) i)
    (hopen : task.isFinished = false) : Kept stack (i.start label i.era task hosted) := by
  refine ⟨(List.replicate_succ ▸ h.toAccounted).start hopen, ?_, ?_⟩
  · simp only [Intake.start, List.forall_mem_append, List.forall_mem_singleton]
    exact ⟨h.present, trivial⟩
  · have hsenders := h.senders_le
    simp only [holders, Intake.start, List.countP_append, List.countP_singleton, Producer.holds,
      hopen, beq_self_eq_true, Bool.not_false, Bool.and_self, if_true] at hsenders ⊢
    omega

/-- A producer goes on, and gives its end up with its last step. -/
theorem produced (h : Kept stack i) (hp : p ∈ i.producers) (hstep : i.step tokens p = some j) :
    Kept stack j := by
  obtain ⟨queue, task, hproduces, rfl⟩ := exists_produces hstep
  have hholders := holders_update h.names hp hproduces.unfinished queue task
  refine ⟨h.toAccounted.produced hp hproduces, fun q hq => ?_, ?_⟩
  · obtain ⟨q', hq', rfl⟩ := List.mem_map.mp hq
    split
    · exact h.present p hp
    · exact h.present q' hq'
  · have hsenders := h.senders_le
    have hqueue := hproduces.senders
    change queue.senders ≤ _
    by_cases hlast : p.era = i.era ∧ task.isFinished = true
    · rw [if_pos hlast] at hholders hqueue
      omega
    · rw [if_neg hlast] at hholders hqueue
      omega

/-- Producers that have finished are put away, and have no ends. -/
theorem collect (h : Kept stack i) : Kept stack i.collect.2 := by
  have hfinished : ∀ p : Producer, p.result?.isNone = !p.task.isFinished := by
    intro p
    rw [← p.isSome_result?, Option.not_isSome]
  have hholders : i.collect.2.holders = i.holders := by
    simp only [Intake.collect, holders, List.countP_filter]
    refine List.countP_congr fun p _ => ?_
    simp [Producer.holds, hfinished]
  refine ⟨h.toAccounted.dismiss _, fun p hp => h.present p (List.mem_of_mem_filter hp), ?_⟩
  rw [hholders]
  exact h.senders_le

end Kept

end Intake

namespace Queue

variable {α : Type}

theorem senders_offer (q : Queue α) (a : α) : (q.offer a).2.senders = q.senders := by
  rw [offer]
  split
  · rfl
  · split <;> rfl

theorem senders_receive (q : Queue α) : q.receive.2.senders = q.senders := by
  rw [receive, pop?]
  cases q.items <;> rfl

theorem senders_receiveMany (q : Queue α) (n : Nat) : (q.receiveMany n).2.senders = q.senders := by
  induction n generalizing q with
  | zero => rfl
  | succ n ih => exact (ih q.receive.2).trans q.senders_receive

/-- Without a sending end the receiver takes what is left and then finds the end. -/
theorem receiveMany_of_senders_eq_zero {q : Queue α} (h : q.senders = 0) :
    (q.receiveMany (q.items.length + 1)).1 = q.items.map Receipt.item ++ [Receipt.disconnected] := by
  -- the queue changes with every item, so the induction is on a list equal to its items
  obtain ⟨items, hitems⟩ : ∃ items, q.items = items := ⟨_, rfl⟩
  rw [hitems]
  induction items generalizing q with
  | nil => simp [receiveMany, receive, pop?, hitems, h]
  | cons a items ih =>
      have hreceive : q.receive = (.item a, { q with items }) := by simp [receive, pop?, hitems]
      rw [List.length_cons, receiveMany, hreceive]
      simp only [List.map_cons, List.cons_append, List.cons.injEq, true_and]
      exact ih h rfl

end Queue

namespace Scenario.IntakeBench

variable {b b' : IntakeBench} {id : Nat} {supply : Supply}

/-! ### Moves -/

/-- What may happen at an intake, one thing at a time. -/
inductive Move where
  /-- Somebody acts, in the step with the given number. -/
  | act (number : Nat) (action : Action)
  /-- A producer goes on. -/
  | produce (id : Nat)
  /-- Producers that have finished are put away. -/
  | report

/-- The intake after a move; a producer that has to wait changes nothing. -/
def move (b : IntakeBench) : Move → IntakeBench
  | .act number action => (b.perform number action).2
  | .produce id => { b with intake := (b.intake.advance b.tokens id).getD b.intake }
  | .report => { b with intake := b.intake.collect.2 }

/-- The intake after a list of moves. -/
def course (b : IntakeBench) (moves : List Move) : IntakeBench :=
  moves.foldl move b

theorem course_append (b : IntakeBench) (moves others : List Move) :
    b.course (moves ++ others) = (b.course moves).course others :=
  List.foldl_append

theorem performAll_eq_course (number : Nat) (b : IntakeBench) (actions : List Action) :
    (performAll (perform number) b actions).2 = b.course (actions.map (.act number)) := by
  induction actions generalizing b with
  | nil => rfl
  | cons action rest ih => exact ih (b.perform number action).2

theorem exists_course_of_reaches {i j : Intake}
    (h : Reaches (fun i id => i.advance b.tokens id) i j) :
    ∃ ids : List Nat, { b with intake := j } = ({ b with intake := i }).course (ids.map .produce) := by
  induction h with
  | refl i => exact ⟨[], rfl⟩
  | @step i j k id hstep _ ih =>
      obtain ⟨ids, hids⟩ := ih
      refine ⟨id :: ids, hids.trans ?_⟩
      simp only [List.map_cons, course, List.foldl_cons, move]
      rw [show i.advance b.tokens id = some j from hstep, Option.getD_some]

/-- **A step of a scenario is a list of moves.** -/
theorem exists_course_step (number : Nat) (b : IntakeBench) (actions : List Action) :
    ∃ moves, (b.step number actions).2 = b.course moves := by
  obtain ⟨ids, hids⟩ := exists_course_of_reaches (b := (performAll (perform number) b actions).2)
    (reaches_settle _ Intake.names _ (performAll (perform number) b actions).2.intake)
  refine ⟨actions.map (.act number) ++ ids.map .produce ++ [.report], ?_⟩
  rw [course_append, course_append, ← performAll_eq_course]
  exact congrArg (move · .report) hids

/-! ### Sending ends -/

/-- Every move keeps the account of sending ends. -/
theorem kept_move (h : b.intake.Kept b.senders) (m : Move) :
    (b.move m).intake.Kept (b.move m).senders := by
  cases m with
  | report => exact h.collect
  | produce id =>
      simp only [move]
      cases hadvance : b.intake.advance b.tokens id with
      | none => exact h
      | some j =>
          obtain ⟨p, hfind, hstep⟩ := Option.bind_eq_some_iff.mp hadvance
          exact h.produced (List.mem_of_find?_eq_some hfind) hstep
  | act number action =>
      cases action with
      | trySubmit r =>
          simp only [move, perform]
          split
          · exact h
          · exact h.queued (Queue.senders_offer _ _)
      | submit r =>
          simp only [move, perform]
          split
          · exact h
          · rename_i hsender
            obtain ⟨n, hn⟩ := Nat.exists_eq_succ_of_ne_zero hsender
            simp only [onQueue, hn] at h ⊢
            exact h.clone.start rfl
      | forward supply =>
          simp only [move, perform]
          split
          · exact h
          · rename_i hsender
            obtain ⟨n, hn⟩ := Nat.exists_eq_succ_of_ne_zero hsender
            rw [hn] at h ⊢
            exact h.start rfl
      | receive n =>
          simp only [move, perform]
          split
          · exact h.queued (Queue.senders_receiveMany _ _)
          · exact h
      | close =>
          simp only [move, perform]
          split
          · exact h.queued (Queue.senders_close _)
          · exact h
      | dropReceiver => exact h.queued (Queue.senders_dropReceiver _)
      | clone =>
          simp only [move, perform]
          split
          · exact h
          · rename_i hsender
            obtain ⟨n, hn⟩ := Nat.exists_eq_succ_of_ne_zero hsender
            simp only [onQueue, hn] at h ⊢
            exact h.clone
      | drop =>
          simp only [move, perform]
          split
          · exact h
          · rename_i hsender
            obtain ⟨n, hn⟩ := Nat.exists_eq_succ_of_ne_zero hsender
            rw [hn] at h ⊢
            exact h.drop
      | cancel | look => exact h

theorem kept_course (h : b.intake.Kept b.senders) (moves : List Move) :
    (b.course moves).intake.Kept (b.course moves).senders := by
  induction moves generalizing b with
  | nil => exact h
  | cons m moves ih => exact ih (kept_move h m)

theorem kept_make {capacity : Nat} (h : make capacity = .ok b) : b.intake.Kept b.senders := by
  rw [make, Queue.make] at h
  cases hcheck : Queue.check capacity with
  | error cause =>
      rw [hcheck] at h
      cases h
  | ok _ =>
      rw [hcheck] at h
      obtain rfl := Except.ok.inj h
      exact ⟨⟨by simp, by simp, by simp [Intake.names], by simp [Intake.holders]⟩, by simp,
        by simp [Intake.holders]⟩

/-! ### Notes of a producer -/

/-- What is noted of a producer. -/
structure Notes where
  /-- The references that it has taken from its stream, in order. -/
  pulled : List Reference := []
  /-- The references that its steps have added to the intake, in order. -/
  put : List Reference := []
  /-- Whether one of its sends has found the intake closed while its token was not cancelled. -/
  turnedAway : Bool := false
  /-- What it has returned. -/
  result : Option Produced := none

/-- The notes after a move. Only a step of the producer itself adds to them. -/
def Notes.follow (id : Nat) (n : Notes) (b : IntakeBench) : Move → Notes
  | .produce other =>
    if other = id then
      let task? := (b.intake.producer? id).map Producer.task
      let next := (b.move (.produce id)).intake
      { pulled := n.pulled ++ (task?.bind (Task.pull? b.tokens)).toList
        put := n.put ++ next.queue.items.drop b.intake.queue.items.length
        turnedAway := n.turnedAway || (task?.any (Task.sends b.tokens) && b.intake.queue.closed)
        result := n.result.or ((next.producer? id).bind Producer.result?) }
    else n
  | .act .. | .report => n

/-- What is noted of the producer with the given name over a list of moves. -/
def notes (id : Nat) (b : IntakeBench) (moves : List Move) : Notes :=
  (moves.foldl (fun s m => (s.1.move m, s.2.follow id s.1 m)) (b, ({} : Notes))).2

theorem notes_concat (id : Nat) (b : IntakeBench) (moves : List Move) (m : Move) :
    notes id b (moves ++ [m]) = (notes id b moves).follow id (b.course moves) m := by
  have hbench : ∀ (moves : List Move) (s : IntakeBench × Notes),
      (moves.foldl (fun s m => (s.1.move m, s.2.follow id s.1 m)) s).1 = s.1.course moves := by
    intro moves
    induction moves with
    | nil => exact fun _ => rfl
    | cons m moves ih => exact fun s => ih _
  rw [notes, List.foldl_append, List.foldl_cons, List.foldl_nil, hbench]
  rfl

/-- A step that the producer cannot take adds nothing. -/
theorem follow_of_advance_eq_none {n : Notes} (hnone : b.intake.advance b.tokens id = none)
    (htask : ∀ p, b.intake.producer? id = some p → p.task.pull? b.tokens = none ∧
      (p.task.sends b.tokens && b.intake.queue.closed) = false ∧
      n.result.or p.result? = n.result) :
    b.move (.produce id) = b ∧ n.follow id b (.produce id) = n := by
  have hmove : b.move (.produce id) = b := by rw [move, hnone, Option.getD_none]
  refine ⟨hmove, ?_⟩
  simp only [Notes.follow, if_true, hmove, List.drop_length, List.append_nil]
  cases hproducer : b.intake.producer? id with
  | none => simp
  | some p =>
      obtain ⟨hpull, hsends, hresult⟩ := htask p hproducer
      simp [hpull, hsends, hresult]

/-- What a step that the producer takes adds. -/
theorem follow_of_update {p : Producer} {queue : Queue Reference} {task : Task}
    (n : Notes) (new : List Reference) (hkept : b.intake.Kept b.senders)
    (hp : p ∈ b.intake.producers)
    (hstep : b.intake.step b.tokens p = some ({ b.intake with queue }.update { p with task }))
    (hitems : queue.items = b.intake.queue.items ++ new) :
    b.move (.produce p.id) =
        { b with intake := { b.intake with queue }.update { p with task } } ∧
      n.follow p.id b (.produce p.id) =
        { pulled := n.pulled ++ (p.task.pull? b.tokens).toList
          put := n.put ++ new
          turnedAway := n.turnedAway || (p.task.sends b.tokens && b.intake.queue.closed)
          result := n.result.or ({ p with task } : Producer).result? } := by
  have hproducer : b.intake.producer? p.id = some p := Intake.find?_of_mem hkept.names hp
  have hafter := Intake.producer?_update hkept.names hp queue task
  have hmove : b.move (.produce p.id) =
      { b with intake := { b.intake with queue }.update { p with task } } := by
    rw [move, show b.intake.advance b.tokens p.id = _ from
      Option.bind_eq_some_iff.mpr ⟨p, hproducer, hstep⟩, Option.getD_some]
  refine ⟨hmove, ?_⟩
  have hqueue : ({ b.intake with queue }.update { p with task }).queue.items =
      b.intake.queue.items ++ new := hitems
  simp only [Notes.follow, if_true, hmove, hproducer, hafter, hqueue, List.drop_left,
    Option.map_some, Option.bind_some, Option.any_some]

/-! ### What the notes say -/

/-- How a producer that forwards a stream has returned: turned away, or else cancelled or with all
of its stream put in. -/
def Returned (supply : Supply) (b : IntakeBench) (n : Notes) : Prop :=
  (n.turnedAway = true ∧ n.result = some (.failed (.interrupted (.ofNat n.put.length)))) ∨
    (n.turnedAway = false ∧ n.result = some (.forwarded (.ofNat n.put.length)) ∧
      (b.tokens.isCancelled b.token = true ∨ n.put = supply.items ∧ supply.endless = false))

/-- The notes belong to a producer that has not returned: what it has not taken yet is left in its
stream, and it stands in line with what it has not put in. -/
structure Underway (supply : Supply) (b : IntakeBench) (n : Notes) (p : Producer)
    (rest : List Reference) (inHand : Option Reference) : Prop where
  mem : p ∈ b.intake.producers
  task : p.task = .forward b.token { supply with items := rest } inHand (.ofNat n.put.length)
  items : supply.items = n.pulled ++ rest
  pulled : n.pulled = n.put ++ inHand.toList
  turnedAway : n.turnedAway = false
  result : n.result = none

/-- The notes belong to a producer that forwards a stream. -/
inductive Forwarding (supply : Supply) (id : Nat) (b : IntakeBench) (n : Notes) : Prop where
  | underway {p : Producer} (rest : List Reference) (inHand : Option Reference) (hid : p.id = id)
      (h : Underway supply b n p rest inHand)
  /-- It has returned, with at most one reference taken and not put in. -/
  | returned (hfinished : ∀ p ∈ b.intake.producers, p.id = id → p.result? = n.result)
      (hid : id < b.intake.started) (hput : n.put <+: n.pulled) (hpulled : n.pulled <+: supply.items)
      (hlength : n.pulled.length ≤ n.put.length + 1) (hreturned : Returned supply b n)

/-- What a move that is not a step of the producer with the given name does to that one: nothing,
except that it may be put away once it has finished. -/
structure Passes (id : Nat) (b b' : IntakeBench) : Prop where
  token : b'.token = b.token
  tokens : b.tokens.Extends b'.tokens
  started : b.intake.started ≤ b'.intake.started
  stays : ∀ p ∈ b.intake.producers, p.id = id → p.task.isFinished = false → p ∈ b'.intake.producers
  comes : id < b.intake.started → ∀ p ∈ b'.intake.producers, p.id = id → p ∈ b.intake.producers

/-- The producers stay as they are. -/
theorem Passes.of_eq (htoken : b'.token = b.token) (htokens : b.tokens.Extends b'.tokens)
    (hstarted : b'.intake.started = b.intake.started)
    (hproducers : b'.intake.producers = b.intake.producers) : Passes id b b' :=
  ⟨htoken, htokens, Nat.le_of_eq hstarted.symm, fun _ hp _ _ => hproducers ▸ hp,
    fun _ _ hp _ => hproducers ▸ hp⟩

/-- A producer is started. -/
theorem Passes.of_start {i : Intake} {label : Nat} {task : Task} {hosted : Bool}
    (htoken : b'.token = b.token) (htokens : b'.tokens = b.tokens)
    (hintake : b'.intake = i.start label i.era task hosted)
    (hstarted : i.started = b.intake.started) (hproducers : i.producers = b.intake.producers) :
    Passes id b b' := by
  refine ⟨htoken, htokens ▸ .refl _, ?_, fun p hp _ _ => ?_, fun hlt p hp hid => ?_⟩
  · rw [hintake, ← hstarted]
    exact Nat.le_succ _
  · rw [hintake, Intake.start, hproducers]
    exact List.mem_append_left _ hp
  · rw [hintake, Intake.start, hproducers] at hp
    rcases List.mem_append.mp hp with hp | hp
    · exact hp
    · rw [List.mem_singleton.mp hp] at hid
      exact absurd (hstarted.symm.trans hid) (Nat.ne_of_gt hlt)

/-- **Nobody else touches a producer.** -/
theorem passes_move {m : Move} (hm : m ≠ .produce id) : Passes id b (b.move m) := by
  cases m with
  | report =>
      refine ⟨rfl, .refl _, Nat.le_refl _, fun p hp _ hopen => List.mem_filter.mpr ⟨hp, ?_⟩,
        fun _ p hp _ => (List.mem_filter.mp hp).1⟩
      rwa [← p.isSome_result?, Option.isSome_eq_false_iff] at hopen
  | produce other =>
      have hother : id ≠ other := fun heq => hm (heq ▸ rfl)
      simp only [move]
      cases hadvance : b.intake.advance b.tokens other with
      | none => exact .of_eq rfl (.refl _) rfl rfl
      | some j =>
          obtain ⟨p, hfind, hstep⟩ := Option.bind_eq_some_iff.mp hadvance
          obtain ⟨queue, task, -, rfl⟩ := Intake.exists_produces hstep
          have hid : p.id = other := by simpa using List.find?_some hfind
          -- what another producer does to itself does not reach whoever has the name `id`
          have hkept : ∀ q : Producer, q.id = id →
              (q ∈ ({ b.intake with queue }.update { p with task }).producers ↔
                q ∈ b.intake.producers) := by
            intro q hq
            refine Intake.mem_update_of_ne fun heq => hother ?_
            exact hq.symm.trans (heq.trans hid)
          exact ⟨rfl, .refl _, Nat.le_refl _, fun q hq hqid _ => (hkept q hqid).mpr hq,
            fun _ q hq hqid => (hkept q hqid).mp hq⟩
  | act number action =>
      cases action with
      | trySubmit r | receive r | close | clone | drop =>
          simp only [move, perform]
          split <;> exact .of_eq rfl (.refl _) rfl rfl
      | submit r | forward supply =>
          simp only [move, perform]
          split
          · exact .of_eq rfl (.refl _) rfl rfl
          · exact .of_start rfl rfl rfl rfl rfl
      | dropReceiver | look => exact .of_eq rfl (.refl _) rfl rfl
      | cancel => exact .of_eq rfl (b.tokens.extends_cancel b.token) rfl rfl

namespace Underway

variable {n : Notes} {p : Producer} {rest : List Reference} {inHand : Option Reference}

theorem put_pulled (h : Underway supply b n p rest inHand) : n.put <+: n.pulled :=
  h.pulled ▸ List.prefix_append _ _

theorem pulled_items (h : Underway supply b n p rest inHand) : n.pulled <+: supply.items :=
  h.items ▸ List.prefix_append _ _

theorem length_pulled (h : Underway supply b n p rest inHand) :
    n.pulled.length = n.put.length + inHand.toList.length := by
  rw [h.pulled, List.length_append]

theorem accepts_eq (h : Underway supply b n p rest inHand) (hkept : b.intake.Kept b.senders) :
    b.intake.accepts p.era = !b.intake.queue.closed := by
  rw [Intake.accepts, hkept.present p h.mem, beq_self_eq_true, Bool.true_and]

/-- With its last step the producer is found finished, and nobody else has its name. -/
theorem finish {result : Produced} (taken : Option Reference) (turned : Bool)
    (h : Underway supply b n p rest inHand) (hkept : b.intake.Kept b.senders)
    (hstep : b.intake.step b.tokens p = some (b.intake.finish p result))
    (htaken : p.task.pull? b.tokens = taken)
    (hsends : (p.task.sends b.tokens && b.intake.queue.closed) = turned)
    (hpulled : n.pulled ++ taken.toList <+: supply.items)
    (hlength : (n.pulled ++ taken.toList).length ≤ n.put.length + 1)
    (hreturned : Returned supply b ⟨n.pulled ++ taken.toList, n.put, turned, some result⟩) :
    Forwarding supply p.id (b.move (.produce p.id)) (n.follow p.id b (.produce p.id)) := by
  obtain ⟨queue, hitems, hfinish⟩ := b.intake.exists_finish_eq p result
  rw [hfinish] at hstep
  obtain ⟨hmove, hfollow⟩ :=
    follow_of_update n [] hkept h.mem hstep (by simp [hitems])
  rw [hmove, hfollow, htaken, hsends, h.turnedAway, h.result, List.append_nil, Bool.false_or,
    Option.none_or]
  refine .returned (fun q hq hid => ?_) (hkept.producers p h.mem).2
    (h.put_pulled.trans (List.prefix_append _ _)) hpulled hlength hreturned
  rw [Intake.eq_of_mem_update hq hid]

/-- The token is cancelled. -/
theorem cancelled (h : Underway supply b n p rest inHand) (hkept : b.intake.Kept b.senders)
    (hcancelled : b.tokens.isCancelled b.token = true)
    (hstep : b.intake.step b.tokens p =
      some (b.intake.finish p (.forwarded (.ofNat n.put.length)))) :
    Forwarding supply p.id (b.move (.produce p.id)) (n.follow p.id b (.produce p.id)) := by
  refine h.finish none false hkept hstep ?_ ?_ ?_ ?_ ?_
  · rw [h.task]
    cases inHand <;> simp [Task.pull?, hcancelled]
  · simp [h.task, Task.sends, hcancelled]
  · simpa using h.pulled_items
  · rw [Option.toList_none, List.append_nil, h.length_pulled]
    cases inHand <;> simp
  · exact .inr ⟨rfl, rfl, .inl hcancelled⟩

/-- The stream has ended. -/
theorem ended (h : Underway supply b n p [] none) (hkept : b.intake.Kept b.senders)
    (hends : supply.endless = false)
    (hstep : b.intake.step b.tokens p =
      some (b.intake.finish p (.forwarded (.ofNat n.put.length)))) :
    Forwarding supply p.id (b.move (.produce p.id)) (n.follow p.id b (.produce p.id)) := by
  have hall : n.put = supply.items := by simpa [h.pulled] using h.items.symm
  refine h.finish none false hkept hstep ?_ ?_ ?_ ?_ ?_
  · simp [h.task, Task.pull?]
  · simp [h.task, Task.sends]
  · simpa using h.pulled_items
  · simp [h.length_pulled]
  · exact .inr ⟨rfl, rfl, .inr ⟨hall, hends⟩⟩

/-- The intake is closed, and the producer has a reference for it, or has just taken one. -/
theorem refused (h : Underway supply b n p rest inHand) (hkept : b.intake.Kept b.senders)
    (hlive : b.tokens.isCancelled b.token = false) (hsends : inHand.isSome = true ∨ rest ≠ [])
    (hclosed : b.intake.queue.closed = true)
    (hstep : b.intake.step b.tokens p =
      some (b.intake.finish p (.failed (.interrupted (.ofNat n.put.length))))) :
    Forwarding supply p.id (b.move (.produce p.id)) (n.follow p.id b (.produce p.id)) := by
  cases inHand with
  | some r =>
      refine h.finish none true hkept hstep ?_ ?_ ?_ ?_ (.inl ⟨rfl, rfl⟩)
      · simp [h.task, Task.pull?]
      · simp [h.task, Task.sends, hlive, hclosed]
      · simpa using h.pulled_items
      · simp [h.length_pulled]
  | none =>
      -- the reference is taken and refused in one step, so it has to be among those taken
      obtain ⟨r, rest, rfl⟩ := List.exists_cons_of_ne_nil (hsends.resolve_left (by simp))
      refine h.finish (some r) true hkept hstep ?_ ?_ ?_ ?_ (.inl ⟨rfl, rfl⟩)
      · simp [h.task, Task.pull?, hlive]
      · simp [h.task, Task.sends, hlive, hclosed]
      · rw [h.items]
        exact (List.prefix_append_right_inj _).mpr (List.prefix_append [r] rest)
      · simp [h.length_pulled]

/-- The reference in hand enters. -/
theorem entered {r : Reference} {queue : Queue Reference} (h : Underway supply b n p rest (some r))
    (hkept : b.intake.Kept b.senders) (hopen : b.intake.queue.closed = false)
    (henter : b.intake.queue.enter? p.id r = some queue)
    (hstep : b.intake.step b.tokens p = some ({ b.intake with queue }.update
      { p with
        task := .forward b.token { supply with items := rest } none
          (UInt64.ofNat n.put.length + 1) })) :
    Forwarding supply p.id (b.move (.produce p.id)) (n.follow p.id b (.produce p.id)) := by
  obtain ⟨hmove, hfollow⟩ := follow_of_update n [r] hkept h.mem hstep
    (by rw [Queue.eq_of_enter?_eq_some henter])
  rw [hmove, hfollow, h.task, h.turnedAway, h.result, hopen]
  refine .underway rest none ?_ ⟨Intake.mem_update h.mem _ _, ?_, ?_, ?_, ?_, rfl⟩
  · rfl
  · simp
  · simpa [Task.pull?] using h.items
  · simpa [Task.pull?] using h.pulled
  · simp

/-- The next reference is taken from the stream, and the producer gets in line with it. -/
theorem took {r : Reference} (h : Underway supply b n p (r :: rest) none)
    (hkept : b.intake.Kept b.senders) (hlive : b.tokens.isCancelled b.token = false)
    (hopen : b.intake.queue.closed = false)
    (hstep : b.intake.step b.tokens p =
      some ({ b.intake with queue := b.intake.queue.queueUp p.id }.update
        { p with
          task := .forward b.token { supply with items := rest } (some r)
            (.ofNat n.put.length) })) :
    Forwarding supply p.id (b.move (.produce p.id)) (n.follow p.id b (.produce p.id)) := by
  obtain ⟨hmove, hfollow⟩ := follow_of_update n [] hkept h.mem hstep
    (List.append_nil _).symm
  rw [hmove, hfollow, h.task, h.turnedAway, h.result, hopen]
  refine .underway rest (some r) ?_ ⟨Intake.mem_update h.mem _ _, ?_, ?_, ?_, ?_, rfl⟩
  · rfl
  · simp
  · simpa [Task.pull?, hlive] using h.items
  · simpa [Task.pull?, hlive] using h.pulled
  · simp

/-- A producer that cannot go on stays as it is. -/
theorem waits (h : Underway supply b n p rest inHand) (hkept : b.intake.Kept b.senders)
    (hstep : b.intake.step b.tokens p = none) :
    b.move (.produce p.id) = b ∧ n.follow p.id b (.produce p.id) = n := by
  have hproducer : b.intake.producer? p.id = some p := Intake.find?_of_mem hkept.names h.mem
  refine follow_of_advance_eq_none (Option.bind_eq_none_iff.mpr fun q hq => ?_) fun q hq => ?_
  · obtain rfl := Option.some.inj (hproducer.symm.trans hq)
    exact hstep
  · obtain rfl := Option.some.inj (hproducer.symm.trans hq)
    rw [Producer.result?, h.task, Option.or_none]
    obtain ⟨-, ⟨rfl, hempty, -⟩ | ⟨r, rfl, haccepts, -⟩⟩ := Intake.waits_of_step_eq_none h.task hstep
    · obtain rfl : rest = [] := hempty
      simp [Task.pull?, Task.sends]
    · have hopen : b.intake.queue.closed = false := by
        simpa [h.accepts_eq hkept] using haccepts
      simp [Task.pull?, hopen]

end Underway

namespace Forwarding

variable {n : Notes}

/-- Whatever the others do, the notes go on belonging to the producer. -/
theorem passes (h : Forwarding supply id b n) (hpasses : Passes id b b') :
    Forwarding supply id b' n := by
  cases h with
  | @underway p rest inHand hid h =>
      refine .underway rest inHand hid ⟨hpasses.stays p h.mem hid (by rw [h.task]; rfl), ?_,
        h.items, h.pulled, h.turnedAway, h.result⟩
      rw [hpasses.token]
      exact h.task
  | returned hfinished hid hput hpulled hlength hreturned =>
      refine .returned (fun p hp hpid => hfinished p (hpasses.comes hid p hp hpid) hpid)
        (Nat.lt_of_lt_of_le hid hpasses.started) hput hpulled hlength ?_
      rcases hreturned with hfailed | ⟨hturned, hresult, hcancelled | hall⟩
      · exact .inl hfailed
      · refine .inr ⟨hturned, hresult, .inl ?_⟩
        rw [hpasses.token]
        exact hpasses.tokens.isCancelled hcancelled
      · exact .inr ⟨hturned, hresult, .inr hall⟩

/-- **The producer itself goes on**, and the notes follow it. -/
theorem goesOn (h : Forwarding supply id b n) (hkept : b.intake.Kept b.senders) :
    Forwarding supply id (b.move (.produce id)) (n.follow id b (.produce id)) := by
  cases h with
  | returned hfinished hid hput hpulled hlength hreturned =>
      have hresult : ∃ result, n.result = some result := by
        rcases hreturned with ⟨-, hresult⟩ | ⟨-, hresult, -⟩
        · exact ⟨_, hresult⟩
        · exact ⟨_, hresult⟩
      obtain ⟨result, hresult⟩ := hresult
      have hfound : ∀ p, b.intake.producer? id = some p → p.task = .finished result := by
        intro p hp
        have hshown := hfinished p (List.mem_of_find?_eq_some hp) (by simpa using List.find?_some hp)
        rw [hresult, Producer.result?] at hshown
        cases htask : p.task with
        | finished result => simpa [htask] using hshown
        | submit | forward => simp [htask] at hshown
      -- whoever is found under the name has finished, and takes no step any more
      obtain ⟨hmove, hfollow⟩ : b.move (.produce id) = b ∧ n.follow id b (.produce id) = n := by
        refine follow_of_advance_eq_none (Option.bind_eq_none_iff.mpr fun p hp => ?_) fun p hp => ?_
        · rw [Intake.step, hfound p hp]
        · simp [hfound p hp, Task.pull?, Task.sends, hresult]
      rw [hmove, hfollow]
      exact .returned hfinished hid hput hpulled hlength hreturned
  | @underway p rest inHand hid h =>
      subst hid
      cases hstep : b.intake.step b.tokens p with
      | none =>
          obtain ⟨hmove, hfollow⟩ := h.waits hkept hstep
          rw [hmove, hfollow]
          exact .underway rest inHand rfl h
      | some j =>
          have haccepts := h.accepts_eq hkept
          cases Intake.forwards_of_step h.task hstep with
          | cancelled hcancelled => exact h.cancelled hkept hcancelled hstep
          | turnedAway hlive hsends hclosed =>
              exact h.refused hkept hlive hsends (by simpa [haccepts] using hclosed) hstep
          | ended hlive hempty hends =>
              obtain rfl : rest = [] := hempty
              exact h.ended hkept hends hstep
          | entered hlive hopen henter =>
              exact h.entered hkept (by simpa [haccepts] using hopen) henter hstep
          | pulled hlive hopen htaken =>
              obtain rfl : rest = _ := htaken
              exact h.took hkept hlive (by simpa [haccepts] using hopen) hstep

/-- **Whatever happens, the notes belong to the producer.** -/
theorem course (h : Forwarding supply id b {}) (hkept : b.intake.Kept b.senders) (moves : List Move) :
    Forwarding supply id (b.course moves) (notes id b moves) := by
  -- notes are added at the end, so the last move is the one to look at
  induction moves using List.reverseRecOn with
  | nil => exact h
  | append_singleton moves m ih =>
      rw [course_append, notes_concat]
      by_cases hm : m = .produce id
      · subst hm
        exact ih.goesOn (kept_course hkept moves)
      · have hfollow : (notes id b moves).follow id (b.course moves) m = notes id b moves := by
          cases m with
          | produce other =>
              have hne : other ≠ id := fun heq => hm (by rw [heq])
              exact if_neg hne
          | act | report => rfl
        rw [hfollow]
        exact ih.passes (passes_move hm)

/-- What was put in was taken before, in order, and all but one at most of what was taken was put
in. -/
theorem put_pulled (h : Forwarding supply id b n) :
    n.put <+: n.pulled ∧ n.pulled <+: supply.items ∧ n.pulled.length ≤ n.put.length + 1 := by
  cases h with
  | underway rest inHand hid h =>
      refine ⟨h.put_pulled, h.pulled_items, ?_⟩
      rw [h.length_pulled]
      cases inHand <;> simp
  | returned hfinished hid hput hpulled hlength => exact ⟨hput, hpulled, hlength⟩

/-- A producer with a result has returned. -/
theorem returned_of_result (h : Forwarding supply id b n) {result : Produced}
    (hresult : n.result = some result) : Returned supply b n := by
  cases h with
  | underway rest inHand hid h => cases h.result.symm.trans hresult
  | returned hfinished hid hput hpulled hlength hreturned => exact hreturned

/-- A producer fails if and only if it was turned away. -/
theorem failed_iff (h : Forwarding supply id b n) :
    (∃ fault, n.result = some (.failed fault)) ↔ n.turnedAway = true := by
  cases h with
  | underway rest inHand hid h => simp [h.result, h.turnedAway]
  | returned hfinished hid hput hpulled hlength hreturned =>
      rcases hreturned with ⟨hturned, hresult⟩ | ⟨hturned, hresult, -⟩
      · simp [hturned, hresult]
      · simp [hturned, hresult]

/-- A producer that has not returned and cannot go on waits for its stream, or for a place. -/
theorem waits (h : Forwarding supply id b n) (hkept : b.intake.Kept b.senders)
    (hresult : n.result = none) (hadvance : b.intake.advance b.tokens id = none) :
    b.tokens.isCancelled b.token = false ∧
      (n.put = supply.items ∧ supply.endless = true ∨
        n.pulled.length = n.put.length + 1 ∧ b.intake.queue.closed = false ∧
          (b.intake.queue.line.head? = some id → b.intake.queue.hasRoom = false)) := by
  cases h with
  | returned hfinished hid hput hpulled hlength hreturned =>
      rcases hreturned with ⟨-, hsome⟩ | ⟨-, hsome, -⟩
      · cases hresult.symm.trans hsome
      · cases hresult.symm.trans hsome
  | @underway p rest inHand hid h =>
      subst hid
      have hproducer : b.intake.producer? p.id = some p := Intake.find?_of_mem hkept.names h.mem
      have hstep : b.intake.step b.tokens p = none :=
        Option.bind_eq_none_iff.mp hadvance p hproducer
      obtain ⟨hlive, ⟨rfl, hempty, hends⟩ | ⟨r, rfl, haccepts, henter⟩⟩ :=
        Intake.waits_of_step_eq_none h.task hstep
      · obtain rfl : rest = [] := hempty
        exact ⟨hlive, .inl ⟨by simpa [h.pulled] using h.items.symm, hends⟩⟩
      · refine ⟨hlive, .inr ⟨by simp [h.length_pulled], ?_, fun hhead => ?_⟩⟩
        · simpa [h.accepts_eq hkept] using haccepts
        · simpa [Queue.enter?, hhead] using henter

/-- The producer shows the result that is noted, as long as it is not put away. -/
theorem result?_eq (h : Forwarding supply id b n) (hkept : b.intake.Kept b.senders) {p : Producer}
    (hp : p ∈ b.intake.producers) (hid : p.id = id) : p.result? = n.result := by
  cases h with
  | @underway q rest inHand hqid h =>
      have hsame : p = q :=
        List.inj_on_of_nodup_map hkept.names hp h.mem (hid.trans hqid.symm)
      rw [hsame, Producer.result?, h.task, h.result]
  | returned hfinished => exact hfinished p hp hid

/-- A producer has a sending end until it has returned. -/
theorem result_eq_none_iff (h : Forwarding supply id b n) (hkept : b.intake.Kept b.senders) :
    n.result = none ↔ ∃ p ∈ b.intake.producers, p.id = id ∧ p.holds b.intake.era = true := by
  cases h with
  | @underway p rest inHand hid h =>
      refine iff_of_true h.result ⟨p, h.mem, hid, ?_⟩
      rw [Producer.holds, hkept.present p h.mem, h.task, beq_self_eq_true]
      rfl
  | returned hfinished hid hput hpulled hlength hreturned =>
      have hsome : n.result.isSome = true := by
        rcases hreturned with ⟨-, hresult⟩ | ⟨-, hresult, -⟩ <;> simp [hresult]
      refine iff_of_false (by simpa [Option.isSome_iff_ne_none] using hsome) ?_
      rintro ⟨p, hp, hpid, hholds⟩
      rw [Producer.holds, ← p.isSome_result?, hfinished p hp hpid, hsome] at hholds
      simp at hholds

/-- Once a producer has returned and nobody else has a sending end, the queue knows of none. -/
theorem senders_eq_zero (h : Forwarding supply id b n) (hkept : b.intake.Kept b.senders)
    (hreturned : n.result.isSome = true) (hstack : b.senders = 0)
    (hothers : ∀ p ∈ b.intake.producers, p.id ≠ id → p.result?.isSome = true) :
    b.intake.queue.senders = 0 := by
  rw [hkept.senders, hstack, Nat.zero_add, Intake.holders, List.countP_eq_zero]
  intro p hp hholds
  by_cases hid : p.id = id
  · rw [(h.result_eq_none_iff hkept).mpr ⟨p, hp, hid, hholds⟩] at hreturned
    cases hreturned
  · rw [Producer.holds, ← p.isSome_result?, hothers p hp hid] at hholds
    simp at hholds

end Forwarding

/-! ### What is counted -/

/-- A step of a producer only adds to the intake, and what it adds is noted. -/
theorem exists_put (id : Nat) (b : IntakeBench) (moves : List Move) :
    ∃ new, ((b.course moves).move (.produce id)).intake.queue.items =
        (b.course moves).intake.queue.items ++ new ∧
      (notes id b (moves ++ [.produce id])).put = (notes id b moves).put ++ new := by
  have hadds : ∃ new, ((b.course moves).move (.produce id)).intake.queue.items =
      (b.course moves).intake.queue.items ++ new := by
    simp only [move]
    cases hadvance : (b.course moves).intake.advance (b.course moves).tokens id with
    | none => exact ⟨[], (List.append_nil _).symm⟩
    | some j =>
        obtain ⟨p, -, hstep⟩ := Option.bind_eq_some_iff.mp hadvance
        obtain ⟨queue, task, hproduces, rfl⟩ := Intake.exists_produces hstep
        obtain ⟨new, hitems, -⟩ := hproduces.items
        exact ⟨new, hitems⟩
  obtain ⟨new, hnew⟩ := hadds
  refine ⟨new, hnew, ?_⟩
  simp only [notes_concat, Notes.follow, if_true, hnew, List.drop_left]

/-- A stream is forwarded through the sending end on top of the stack. -/
theorem forwarding_forward {number : Nat} (hsender : b.senders ≠ 0) :
    Forwarding supply b.intake.started (b.move (.act number (.forward supply))) {} := by
  rw [move, perform, if_neg hsender]
  refine .underway supply.items none ?_
    ⟨List.mem_append_right _ (List.mem_singleton.mpr rfl), rfl, rfl, rfl, rfl, rfl⟩
  rfl

/-- **Forwarding counts what it has put in.** Somebody forwards a stream through a sending end of an
intake of any capacity, whatever was done there before and whatever happens later, in any order.
What the producer has put in is the beginning of its stream, each reference once and in order, and
it has taken at most one reference more. It returns the number of those put in, as a count of 64
bits, and it fails if and only if it was turned away; if it does not fail, then its token is
cancelled or the whole stream is put in. As long as it has not returned and cannot go on, it waits
for a stream that does not end, or in line for a place.

The queue knows of as many sending ends as there are. One of them is the producer's until it
returns, and when no other is left then, the receiver finds what is still there and after it the
end. -/
theorem forward_counts_enqueued {capacity : Nat} {made : IntakeBench}
    (hmade : make capacity = .ok made) (earlier later : List Move) (number : Nat) (supply : Supply)
    (hsender : (made.course earlier).senders ≠ 0) :
    let begun := (made.course earlier).move (.act number (.forward supply))
    let id := (made.course earlier).intake.started
    let b := begun.course later
    let n := notes id begun later
    (n.put <+: n.pulled ∧ n.pulled <+: supply.items ∧ n.pulled.length ≤ n.put.length + 1) ∧
    (∃ new, (b.move (.produce id)).intake.queue.items = b.intake.queue.items ++ new ∧
      (notes id begun (later ++ [.produce id])).put = n.put ++ new) ∧
    (∀ result, n.result = some result →
      ∃ count : UInt64, (result = .forwarded count ∨ result = .failed (.interrupted count)) ∧
        count = .ofNat n.put.length ∧ (n.put.length < UInt64.size → count.toNat = n.put.length)) ∧
    (∀ count, (Fault.interrupted count).message =
      "coalescing pipeline stopped after " ++ toString count ++ " forwarded references") ∧
    ((∃ fault, n.result = some (.failed fault)) ↔ n.turnedAway = true) ∧
    (∀ p ∈ b.intake.producers, p.id = id → p.result? = n.result) ∧
    (∀ count, n.result = some (.forwarded count) →
      b.tokens.isCancelled b.token = true ∨ n.put = supply.items ∧ supply.endless = false) ∧
    (n.result = none → b.intake.advance b.tokens id = none →
      b.tokens.isCancelled b.token = false ∧
        (n.put = supply.items ∧ supply.endless = true ∨
          n.pulled.length = n.put.length + 1 ∧ b.intake.queue.closed = false ∧
            (b.intake.queue.line.head? = some id → b.intake.queue.hasRoom = false))) ∧
    b.intake.queue.senders = b.senders + b.intake.holders ∧
    (n.result = none ↔ ∃ p ∈ b.intake.producers, p.id = id ∧ p.holds b.intake.era = true) ∧
    (n.result.isSome = true → b.senders = 0 →
      (∀ p ∈ b.intake.producers, p.id ≠ id → p.result?.isSome = true) →
        (b.intake.queue.receiveMany (b.intake.queue.items.length + 1)).1 =
          b.intake.queue.items.map .item ++ [.disconnected]) := by
  intro begun id b n
  have hbegun : begun.intake.Kept begun.senders :=
    kept_move (kept_course (kept_make hmade) earlier) _
  have hkept : b.intake.Kept b.senders := kept_course hbegun later
  have hforwarding : Forwarding supply id b n := (forwarding_forward hsender).course hbegun later
  refine ⟨hforwarding.put_pulled, exists_put id begun later, fun result hresult => ?_, fun _ => rfl,
    hforwarding.failed_iff, fun p => hforwarding.result?_eq hkept, fun count hresult => ?_,
    hforwarding.waits hkept, hkept.senders,
    hforwarding.result_eq_none_iff hkept, fun hreturned hstack hothers => ?_⟩
  · refine ⟨.ofNat n.put.length, ?_, rfl, fun hlt => UInt64.toNat_ofNat_of_lt' hlt⟩
    rcases hforwarding.returned_of_result hresult with ⟨-, hfailed⟩ | ⟨-, hforwarded, -⟩
    · exact .inr (Option.some.inj (hresult.symm.trans hfailed))
    · exact .inl (Option.some.inj (hresult.symm.trans hforwarded))
  · rcases hforwarding.returned_of_result hresult with ⟨-, hfailed⟩ | ⟨-, -, hall⟩
    · cases hresult.symm.trans hfailed
    · exact hall
  · exact Queue.receiveMany_of_senders_eq_zero
      (hforwarding.senders_eq_zero hkept hreturned hstack hothers)

/-- An intake with one place and one sending end. -/
def narrow : IntakeBench where
  intake := { queue := { capacity := 1 } }
  tokens := { parents := [none] }
  token := 0

/-- Three references, after which the stream does not end. -/
def trickle : Supply where
  items := [1, 2, 3].map fun n => { id := n, target := .location (.number n) }
  endless := true

/-- The first reference is put in, and the second waits for a place when the intake is closed. -/
def untilClosed : List Move :=
  [.produce 0, .produce 0, .produce 0, .act 1 .close, .produce 0]

theorem forward_counts_enqueued_narrow :
    let begun := (narrow.course []).move (.act 0 (.forward trickle))
    let n := notes 0 begun untilClosed
    make 1 = .ok narrow ∧ (narrow.course []).senders ≠ 0 ∧
      n.put = trickle.items.take 1 ∧ n.pulled = trickle.items.take 2 ∧ n.turnedAway = true ∧
      (∃ fault, n.result = some (.failed fault)) ∧
      ((begun.course untilClosed).intake.queue.receiveMany 2).1 =
        (trickle.items.take 1).map .item ++ [.disconnected] := by
  have hmade : make 1 = .ok narrow := by rfl
  have hsender : (narrow.course []).senders ≠ 0 := by decide
  obtain ⟨-, -, -, -, hfailed, -, -, -, -, -, hreleased⟩ :=
    forward_counts_enqueued hmade [] untilClosed 0 trickle hsender
  refine ⟨hmade, hsender, by rfl, by rfl, by rfl, hfailed.mpr (by rfl), ?_⟩
  exact hreleased (by rfl) (by rfl) (by decide)

end Scenario.IntakeBench

end SharedFetch
