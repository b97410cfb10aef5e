import SharedFetch.Proofs.Intake

/-!
# The line at the intake

A producer that wants to put a reference in takes a turn in line first, and leaves the line when its
reference has entered or when it ends. So as long as the intake is open, the line holds the names of
the producers that wait, each once (`Lined`), and whoever is at its head is one of them. Once the
intake is closed the line says nothing any more: the producers find out one by one, or are
dismissed.

Within a run an intake changes in one of five ways (`Turn`), and none of them brings a producer that
works for the host.

## Main results

* `Lined.turn`: whatever happens to an intake within a run, the line goes on holding those who wait.
* `Lined.exists_head`: if somebody waits, then somebody who waits is at the head of the line.
* `Lined.hasRoom_eq_false`: where nobody can go on, whoever waits waits for a place.
-/

namespace SharedFetch

/-- Whether a producer with this task stands in line. -/
def Task.isWaiting : Task → Bool
  | .submit _ queued => queued
  | .forward _ _ inHand _ => inHand.isSome
  | .finished _ => false

/-- Whether a producer stands in line for the intake of the given era. -/
def Producer.waits (era : Nat) (p : Producer) : Bool :=
  p.era == era && p.task.isWaiting

/-- The names of those of some producers who stand in line for the intake of the given era. -/
def waitingOf (era : Nat) (producers : List Producer) : List Nat :=
  (producers.filter (Producer.waits era)).map Producer.id

@[simp] theorem waitingOf_append (era : Nat) (first second : List Producer) :
    waitingOf era (first ++ second) = waitingOf era first ++ waitingOf era second := by
  simp [waitingOf]

theorem waitingOf_cons (era : Nat) (p : Producer) (rest : List Producer) :
    waitingOf era (p :: rest) =
      if p.waits era then p.id :: waitingOf era rest else waitingOf era rest := by
  rw [waitingOf, List.filter_cons]
  split <;> rfl

theorem waitingOf_sublist (era : Nat) (producers : List Producer) :
    (waitingOf era producers).Sublist (producers.map Producer.id) :=
  List.filter_sublist.map _

/-- Producers change what they are about, but not whether they wait. -/
theorem waitingOf_map {era : Nat} {f : Producer → Producer} (hid : ∀ p, (f p).id = p.id)
    (hwaits : ∀ p, (f p).waits era = p.waits era) (producers : List Producer) :
    waitingOf era (producers.map f) = waitingOf era producers := by
  have hwaits' : Producer.waits era ∘ f = Producer.waits era := funext hwaits
  have hid' : Producer.id ∘ f = Producer.id := funext hid
  rw [waitingOf, List.filter_map, List.map_map, hwaits', hid', waitingOf]

theorem Queue.line_dropReceiver {α : Type} (q : Queue α) : q.dropReceiver.line = q.line := by
  unfold dropReceiver close
  split <;> rfl

theorem Queue.capacity_dropReceiver {α : Type} (q : Queue α) :
    q.dropReceiver.capacity = q.capacity := by
  unfold dropReceiver close
  split <;> rfl

/-- A closed queue takes nothing. -/
theorem Queue.offerAll_of_closed {α : Type} {q : Queue α} (hclosed : q.closed = true)
    (items : List α) : q.offerAll items = (items.map .closed, q) := by
  induction items with
  | nil => rfl
  | cons a items ih => simp only [offerAll, offer, hclosed, if_true, ih, List.map_cons]

/-- A queue keeps its places, and has no more items than that unless it had before. -/
structure Queue.Confined {α : Type} (q q' : Queue α) : Prop where
  capacity : q'.capacity = q.capacity
  items : q.items.length ≤ q.capacity → q'.items.length ≤ q.capacity

namespace Queue.Confined

variable {α : Type} {q q' : Queue α}

theorem of_eq (hcapacity : q'.capacity = q.capacity) (hitems : q'.items = q.items) :
    q.Confined q' :=
  ⟨hcapacity, fun h => by rwa [hitems]⟩

theorem refl (q : Queue α) : q.Confined q :=
  .of_eq rfl rfl

theorem trans {q'' : Queue α} (h : q.Confined q') (h' : q'.Confined q'') : q.Confined q'' :=
  ⟨h'.capacity.trans h.capacity,
    fun hq => h.capacity ▸ h'.items (h.capacity.symm ▸ h.items hq)⟩

theorem dropReceiver (q : Queue α) : q.Confined q.dropReceiver :=
  ⟨capacity_dropReceiver q, fun _ => Nat.zero_le _⟩

/-- Whoever enters finds a place. -/
theorem of_enter? {sender : Nat} {a : α} (h : q.enter? sender a = some q') : q.Confined q' := by
  rw [enter?, Option.ite_none_right_eq_some] at h
  obtain ⟨⟨-, hroom⟩, heq⟩ := h
  obtain rfl := Option.some.inj heq
  refine ⟨rfl, fun _ => ?_⟩
  simp only [hasRoom, decide_eq_true_eq] at hroom
  rw [List.length_append, List.length_singleton]
  exact hroom

/-- What is offered is accepted only if there is a place. -/
theorem offerAll (q : Queue α) (items : List α) : q.Confined (q.offerAll items).2 := by
  induction items generalizing q with
  | nil => exact .refl q
  | cons a rest ih =>
      refine .trans ?_ (ih (q.offer a).2)
      rw [offer]
      split
      · exact .refl q
      · split
        · rename_i hfree
          refine ⟨rfl, fun _ => ?_⟩
          rw [free] at hfree
          rw [items_push, List.length_append, List.length_singleton]
          omega
        · exact .refl q

end Queue.Confined

/-- Whoever enters was at the head of the line, and leaves it. -/
theorem Queue.line_of_enter? {α : Type} {q q' : Queue α} {sender : Nat} {a : α}
    (h : q.enter? sender a = some q') : q'.line = q.line.erase sender := by
  rw [enter?, Option.ite_none_right_eq_some] at h
  obtain ⟨⟨hhead, -⟩, heq⟩ := h
  obtain ⟨rest, hline⟩ := List.head?_eq_some_iff.mp hhead
  rw [← Option.some.inj heq, hline, List.tail_cons, List.erase_cons_head]

namespace Intake

variable {i j : Intake} {p : Producer} {tokens : Tokens}

/-- As long as the queue is open, those who stand in line are those who wait. -/
def Lined (i : Intake) : Prop :=
  i.queue.closed = false → i.queue.line.Perm (waitingOf i.era i.producers)

/-- What may become of an intake within a run. -/
inductive Turn (i : Intake) : Intake → Prop where
  /-- Something happens to the queue, but not to its line. -/
  | queued {queue : Queue Reference} (hline : queue.line = i.queue.line)
      (hclosed : i.queue.closed = true → queue.closed = true)
      (hplaces : i.queue.Confined queue) : Turn i { i with queue }
  /-- A producer goes on. -/
  | produced {tokens : Tokens} {p : Producer} {j : Intake} (hp : p ∈ i.producers)
      (hstep : i.step tokens p = some j) : Turn i j
  /-- The caller starts a producer. -/
  | started {queue : Queue Reference} (hline : queue.line = i.queue.line)
      (hclosed : i.queue.closed = true → queue.closed = true)
      (hplaces : i.queue.Confined queue) (label era : Nat) {task : Task}
      (htask : task.isWaiting = false) : Turn i ({ i with queue }.start label era task false)
  /-- The stream of a producer changes. -/
  | supplied (label : Nat) (f : Supply → Supply) : Turn i (i.onSupply label f)
  /-- Producers that have finished are put away. -/
  | collected : Turn i i.collect.2

theorem Turn.refl (i : Intake) : Turn i i :=
  .queued rfl id (.refl _)

/-! ### Producers -/

/-- What a step of a producer does to the line, where `task` is what it is about afterwards: it
takes a turn, or it is not in line any more. -/
inductive Lines (i : Intake) (p : Producer) (queue : Queue Reference) (task : Task) : Prop where
  | takesTurn (htask : task.isWaiting = true) (hbefore : p.task.isWaiting = false)
      (hera : p.era = i.era) (hline : queue.line = i.queue.line ++ [p.id])
  | leaves (htask : task.isWaiting = false)
      (hline : queue.line = if p.era = i.era then i.queue.line.erase p.id else i.queue.line)

/-- A producer that ends is not in line any more, also if it has left the line just before. -/
theorem exists_lines_finish (i : Intake) {queue : Queue Reference} (hnodup : i.queue.line.Nodup)
    (hline : queue.line = i.queue.line ∨ queue.line = i.queue.line.erase p.id ∧ p.era = i.era)
    (result : Produced) :
    ∃ queue' task, Lines i p queue' task ∧
      { i with queue }.finish p result = { i with queue := queue' }.update { p with task } := by
  refine ⟨_, .finished result, .leaves rfl ?_, rfl⟩
  by_cases hera : p.era = i.era
  · simp only [hera, if_true]
    rcases hline with hline | ⟨hline, -⟩
    · simp [Queue.dropSender, Queue.stepOut, hline]
    · simpa [Queue.dropSender, Queue.stepOut, hline] using
        List.erase_of_not_mem hnodup.not_mem_erase
  · simp only [hera, if_false]
    rcases hline with hline | ⟨-, heq⟩
    · exact hline
    · exact absurd heq hera

/-- **What a producer does to the line in one step.** -/
theorem exists_lines (hnodup : i.queue.line.Nodup) (h : i.step tokens p = some j) :
    ∃ queue task, Lines i p queue task ∧ j = { i with queue }.update { p with task } := by
  cases goesOn_of_step h with
  | refused => exact exists_lines_finish i hnodup (.inl rfl) _
  | submitted htask haccepts henter =>
      exact exists_lines_finish i hnodup
        (.inr ⟨Queue.line_of_enter? henter, (accepts_iff.mp haccepts).1⟩) _
  | linedUp htask haccepts =>
      exact ⟨_, _, .takesTurn rfl (by rw [htask]; rfl) (accepts_iff.mp haccepts).1 rfl, rfl⟩
  | forwards htask hforwards =>
      cases hforwards with
      | cancelled | turnedAway | ended => exact exists_lines_finish i hnodup (.inl rfl) _
      | entered hlive haccepts henter =>
          refine ⟨_, _, .leaves rfl ?_, rfl⟩
          rw [if_pos (accepts_iff.mp haccepts).1, Queue.line_of_enter? henter]
      | pulled hlive haccepts =>
          exact ⟨_, _, .takesTurn rfl (by rw [htask]; rfl) (accepts_iff.mp haccepts).1 rfl, rfl⟩

/-- A producer is found under its name. -/
theorem find?_of_mem (hnames : i.names.Nodup) (hp : p ∈ i.producers) :
    (i.producers.find? fun q => q.id == p.id) = some p := by
  obtain ⟨q, hfind⟩ := Option.isSome_iff_exists.mp
    (List.find?_isSome.mpr ⟨p, hp, by simp⟩ :
      (i.producers.find? fun q => q.id == p.id).isSome = true)
  have hid : q.id = p.id := by simpa using List.find?_some hfind
  rw [hfind, List.inj_on_of_nodup_map hnames (List.mem_of_find?_eq_some hfind) hp hid]

/-- A producer that stands in line and cannot go on finds the queue open and cannot enter. -/
theorem exists_of_step_eq_none (hwaiting : p.task.isWaiting = true)
    (hnone : i.step tokens p = none) :
    i.accepts p.era = true ∧ ∃ r, i.queue.enter? p.id r = none := by
  rw [step] at hnone
  cases htask : p.task with
  | finished result => simp [htask, Task.isWaiting] at hwaiting
  | submit r queued =>
      rw [htask] at hwaiting
      obtain rfl : queued = true := hwaiting
      simp only [htask] at hnone
      split at hnone
      · cases hnone
      · rename_i haccepts
        exact ⟨by simpa using haccepts, r, by simpa using hnone⟩
  | forward token supply inHand sent =>
      rw [htask] at hwaiting
      obtain ⟨r, rfl⟩ := Option.isSome_iff_exists.mp hwaiting
      simp only [htask] at hnone
      split at hnone
      · cases hnone
      · split at hnone
        · cases hnone
        · rename_i haccepts
          exact ⟨by simpa using haccepts, r, by simpa using hnone⟩

/-- A producer that goes on puts nothing into a queue that is full. -/
theorem confined_of_step (h : i.step tokens p = some j) : i.queue.Confined j.queue := by
  have hfinish : ∀ {queue : Queue Reference} (result : Produced), i.queue.Confined queue →
      i.queue.Confined ({ i with queue }.finish p result).queue := by
    intro queue result hqueue
    refine hqueue.trans ?_
    simp only [finish, update]
    split
    · exact .of_eq rfl rfl
    · exact .refl queue
  cases goesOn_of_step h with
  | refused => exact hfinish _ (.refl _)
  | submitted htask haccepts henter => exact hfinish _ (.of_enter? henter)
  | linedUp => exact .of_eq rfl rfl
  | forwards htask hforwards =>
      cases hforwards with
      | cancelled | turnedAway | ended => exact hfinish _ (.refl _)
      | entered hlive haccepts henter => exact .of_enter? henter
      | pulled => exact .of_eq rfl rfl

namespace Turn

/-- The intake keeps its places. -/
theorem confined (h : Turn i j) : i.queue.Confined j.queue := by
  cases h with
  | queued hline hclosed hplaces | started hline hclosed hplaces => exact hplaces
  | produced hp hstep => exact confined_of_step hstep
  | supplied | collected => exact .refl _

/-- The intake stays that of its run. -/
theorem era (h : Turn i j) : j.era = i.era := by
  cases h with
  | produced hp hstep =>
      obtain ⟨queue, task, -, rfl⟩ := exists_produces hstep
      rfl
  | queued | started | supplied | collected => rfl

/-- Nobody comes to work for the host. -/
theorem exists_hosted (h : Turn i j) (hhosted : ∃ q ∈ j.producers, q.hosted = true) :
    ∃ q ∈ i.producers, q.hosted = true := by
  obtain ⟨q, hq, hhosted⟩ := hhosted
  cases h with
  | queued hline hclosed hplaces => exact ⟨q, hq, hhosted⟩
  | @produced tokens p _ hp hstep =>
      obtain ⟨queue, task, -, rfl⟩ := exists_produces hstep
      obtain ⟨q', hq', rfl⟩ := List.mem_map.mp hq
      split at hhosted
      · exact ⟨p, hp, hhosted⟩
      · exact ⟨q', hq', hhosted⟩
  | started hline hclosed hplaces label era htask =>
      rcases List.mem_append.mp hq with hq | hq
      · exact ⟨q, hq, hhosted⟩
      · rw [List.mem_singleton.mp hq] at hhosted
        cases hhosted
  | supplied label f =>
      obtain ⟨q', hq', rfl⟩ := List.mem_map.mp hq
      refine ⟨q', hq', ?_⟩
      cases htask : q'.task <;> simp only [htask] at hhosted
      · exact hhosted
      · split at hhosted <;> exact hhosted
      · exact hhosted
  | collected => exact ⟨q, List.mem_of_mem_filter hq, hhosted⟩

end Turn

/-! ### The line -/

/-- Nobody who waits has finished. -/
theorem waitingOf_collect (i : Intake) :
    waitingOf i.collect.2.era i.collect.2.producers = waitingOf i.era i.producers := by
  simp only [collect, waitingOf, List.filter_filter]
  refine congrArg _ (List.filter_congr fun p _ => ?_)
  cases htask : p.task <;> simp [Producer.waits, Producer.result?, Task.isWaiting, htask]

namespace Lined

/-- Nobody stands in line twice. -/
theorem nodup (h : i.Lined) (hopen : i.queue.closed = false) (hnames : i.names.Nodup) :
    i.queue.line.Nodup :=
  (h hopen).nodup_iff.mpr (hnames.sublist (waitingOf_sublist _ _))

/-- If somebody waits, then somebody who waits is at the head of the line. -/
theorem exists_head (h : i.Lined) (hopen : i.queue.closed = false) (hp : p ∈ i.producers)
    (hwaits : p.waits i.era = true) :
    ∃ q ∈ i.producers, q.waits i.era = true ∧ i.queue.line.head? = some q.id := by
  have hmem : p.id ∈ i.queue.line :=
    (h hopen).mem_iff.mpr (List.mem_map_of_mem (List.mem_filter.mpr ⟨hp, hwaits⟩))
  obtain ⟨id, rest, hline⟩ := List.exists_cons_of_ne_nil (List.ne_nil_of_mem hmem)
  have hhead : id ∈ waitingOf i.era i.producers :=
    (h hopen).mem_iff.mp (hline ▸ List.mem_cons_self)
  obtain ⟨q, hq, rfl⟩ := List.mem_map.mp hhead
  obtain ⟨hq, hqwaits⟩ := List.mem_filter.mp hq
  exact ⟨q, hq, hqwaits, by rw [hline, List.head?_cons]⟩

/-- The line and the producers who wait are as they were. -/
theorem congr (h : i.Lined) (hclosed : i.queue.closed = true → j.queue.closed = true)
    (hline : j.queue.line = i.queue.line)
    (hwaiting : waitingOf j.era j.producers = waitingOf i.era i.producers) : j.Lined := by
  intro hopen
  have hbefore : i.queue.closed = false := by
    by_contra hbefore
    rw [hclosed (by simpa using hbefore)] at hopen
    cases hopen
  rw [hline, hwaiting]
  exact h hbefore

/-- A new producer does not stand in line yet. -/
theorem start {task : Task} (h : i.Lined) (htask : task.isWaiting = false) (label era : Nat)
    (hosted : Bool) : (i.start label era task hosted).Lined := by
  refine h.congr id rfl ?_
  simp [Intake.start, waitingOf, Producer.waits, htask]

/-- Nobody has come to the queue of a new run yet. -/
theorem launched (capacity : Nat) (heras : ∀ q ∈ i.producers, q.era ≤ i.era) :
    ({ i with queue := { capacity }, era := i.era + 1 } : Intake).Lined := by
  intro _
  have hnobody : waitingOf (i.era + 1) i.producers = [] := by
    rw [waitingOf, List.map_eq_nil_iff, List.filter_eq_nil_iff]
    intro q hq hwaits
    have hera : q.era = i.era + 1 := by simpa using (Bool.and_eq_true_iff.mp hwaits).1
    have := heras q hq
    omega
  rw [hnobody]

/-- A producer takes a turn, or is not in line any more. -/
theorem lines {queue : Queue Reference} {task : Task} (h : i.Lined)
    (hopen : i.queue.closed = false) (hnames : i.names.Nodup) (hp : p ∈ i.producers)
    (hlines : Lines i p queue task) : ({ i with queue }.update { p with task }).Lined := by
  intro _
  obtain ⟨before, after, hbefore, hafter⟩ := exists_producers_update hnames hp queue task
  have hperm := h hopen
  rw [hbefore, waitingOf_append, waitingOf_cons] at hperm
  rw [hafter, waitingOf_append, waitingOf_cons]
  simp only [update, Producer.waits] at hperm ⊢
  cases hlines with
  | takesTurn htask hearlier hera hline =>
      simp only [hearlier, Bool.and_false, Bool.false_eq_true, if_false] at hperm
      simp only [htask, hera, BEq.rfl, Bool.and_true, if_true, hline]
      exact ((hperm.append_right _).trans (List.perm_append_singleton _ _)).trans
        List.perm_middle.symm
  | leaves htask hline =>
      simp only [htask, Bool.and_false, Bool.false_eq_true, if_false]
      rw [hline]
      -- the name of the producer is not among those of the others
      have hothers : p.id ∉ waitingOf i.era before ++ waitingOf i.era after := by
        rw [names, hbefore, List.map_append, List.map_cons, List.nodup_middle,
          List.nodup_cons] at hnames
        exact fun hmem => hnames.1
          (((waitingOf_sublist _ _).append (waitingOf_sublist _ _)).subset hmem)
      by_cases hera : p.era = i.era
      · rw [if_pos hera]
        cases hearlier : p.task.isWaiting with
        | true =>
            simp only [hearlier, hera, BEq.rfl, Bool.and_true, if_true] at hperm
            have herased := (hperm.trans List.perm_middle).erase p.id
            rwa [List.erase_cons_head] at herased
        | false =>
            simp only [hearlier, Bool.and_false, Bool.false_eq_true, if_false] at hperm
            rwa [List.erase_of_not_mem fun hmem => hothers (hperm.subset hmem)]
      · rw [if_neg hera]
        have hother : (p.era == i.era) = false := beq_eq_false_iff_ne.mpr hera
        simpa only [hother, Bool.false_and, Bool.false_eq_true, if_false] using hperm

/-- **Whatever happens to an intake within a run, the line goes on holding those who wait.** -/
theorem turn (h : i.Lined) (hnames : i.names.Nodup) (hturn : Turn i j) : j.Lined := by
  cases hturn with
  | queued hline hclosed hplaces => exact h.congr hclosed hline rfl
  | @produced tokens p _ hp hstep =>
      cases hclosed : i.queue.closed with
      | true =>
          obtain ⟨queue, task, hproduces, rfl⟩ := exists_produces hstep
          intro hopen
          have : queue.closed = false := hopen
          rw [hproduces.closed, hclosed] at this
          cases this
      | false =>
          obtain ⟨queue, task, hlines, rfl⟩ := exists_lines (h.nodup hclosed hnames) hstep
          exact h.lines hclosed hnames hp hlines
  | started hline hclosed hplaces label era htask =>
      refine start ?_ htask label era false
      exact h.congr hclosed hline rfl
  | supplied label f =>
      refine h.congr id rfl ?_
      refine waitingOf_map ?_ ?_ _ <;> intro p <;> cases htask : p.task <;>
        simp only [Producer.waits, htask]
      all_goals split <;> simp_all [Task.isWaiting]
  | collected => exact h.congr id rfl (waitingOf_collect i)

/-- **Where nobody can go on, a producer that waits waits for a place.** -/
theorem hasRoom_eq_false (h : i.Lined) (hidle : ∀ q ∈ i.producers, i.step tokens q = none)
    (hp : p ∈ i.producers) (hwaiting : p.task.isWaiting = true) : i.queue.hasRoom = false := by
  have haccepts := (exists_of_step_eq_none hwaiting (hidle p hp)).1
  have hopen : i.queue.closed = false := by simpa using (Bool.and_eq_true_iff.mp haccepts).2
  have hwaits : p.waits i.era = true := by
    rw [Producer.waits, (accepts_iff.mp haccepts).1, hwaiting]
    simp
  obtain ⟨q, hq, hqwaits, hhead⟩ := h.exists_head hopen hp hwaits
  -- whoever is at the head of the line could enter if there were room
  obtain ⟨-, r, hnone⟩ :=
    exists_of_step_eq_none (Bool.and_eq_true_iff.mp hqwaits).2 (hidle q hq)
  simpa [Queue.enter?, hhead] using hnone

end Lined

end Intake

end SharedFetch
