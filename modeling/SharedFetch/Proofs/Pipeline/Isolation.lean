import Mathlib.Data.List.Forall2
import SharedFetch.Proofs.Book
import SharedFetch.Proofs.Pipeline.WorkerStep

/-!
# Pipelines that differ in the answers for one location

Two pipelines are *twins* with respect to a location if they differ in nothing but what the fetches
of that location bring, under whichever names its aliases have: in the answers of the protocol for
it, in those outcomes on their way back, in the deliveries to references that lead there, in the
note that such an outcome is fanned out, and in the counter of failed fetches. Neither coordinator
nor workers look at an outcome, except whether it only says that its fetch was dropped, and that no
answer does. So whatever can happen in one of two twins can happen in the other, and leaves twins.

## Main results

* `Pipeline.Twins.advance`: twins go on as twins.
* `Pipeline.Twins.candidates`, `Pipeline.Twins.work`: twins have the same to do.
-/

namespace SharedFetch

/-! ### Lists -/

section Lists

variable {α β : Type} {R : α → α → Prop} {first second : List α}

/-- What is found first in one of two lists is found first in the other. -/
theorem rel_find? {f : α → Bool} (hf : ∀ a b, R a b → f b = f a)
    (h : List.Forall₂ R first second) : Option.Rel R (first.find? f) (second.find? f) := by
  induction h with
  | nil => exact .none
  | @cons a b _ _ hab _ ih =>
      rw [List.find?_cons, List.find?_cons, hf a b hab]
      cases f a with
      | true => exact .some hab
      | false => exact ih

/-- Lists that agree in what one looks at. -/
theorem map_eq_of_forall₂ {f : α → β} (hf : ∀ a b, R a b → f b = f a)
    (h : List.Forall₂ R first second) : second.map f = first.map f := by
  induction h with
  | nil => rfl
  | cons hab _ ih => rw [List.map_cons, List.map_cons, hf _ _ hab, ih]

/-- Lists of one length are empty together. -/
theorem isEmpty_eq_of_forall₂ (h : List.Forall₂ R first second) :
    second.isEmpty = first.isEmpty := by
  cases h <;> rfl

end Lists

/-! ### Queues -/

/-- Two queues that differ in their items at most. -/
structure Queue.Twins {α : Type} (R : α → α → Prop) (p q : Queue α) : Prop where
  same : q = { p with items := q.items }
  items : List.Forall₂ R p.items q.items

namespace Queue.Twins

variable {α : Type} {R : α → α → Prop} {p q : Queue α}

/-- Both queues are closed, or none is. -/
theorem closed (h : p.Twins R q) : q.closed = p.closed := by
  rw [h.same]

/-- The same senders wait in line. -/
theorem line (h : p.Twins R q) : q.line = p.line := by
  rw [h.same]

/-- Nothing more will come from both queues, or from none. -/
theorem isExhausted (h : p.Twins R q) : q.isExhausted = p.isExhausted := by
  have hsenders : q.senders = p.senders := by rw [h.same]
  rw [Queue.isExhausted, Queue.isExhausted, isEmpty_eq_of_forall₂ h.items, hsenders]

/-- Both queues have room, or none has. -/
theorem hasRoom (h : p.Twins R q) : q.hasRoom = p.hasRoom := by
  have hcapacity : q.capacity = p.capacity := by rw [h.same]
  rw [Queue.hasRoom, Queue.hasRoom, h.items.length_eq, hcapacity]

/-- A sender joins both lines. -/
theorem queueUp (h : p.Twins R q) (sender : Nat) : (p.queueUp sender).Twins R (q.queueUp sender) := by
  refine ⟨?_, h.items⟩
  rw [Queue.queueUp, h.same]
  rfl

/-- A sender leaves both lines and gives up its end. -/
theorem leave (h : p.Twins R q) (sender : Nat) :
    (p.stepOut sender).dropSender.Twins R (q.stepOut sender).dropSender := by
  refine ⟨?_, h.items⟩
  rw [Queue.stepOut, h.same]
  rfl

/-- The receiver goes, and all items with it. -/
theorem dropReceiver (h : p.Twins R q) : p.dropReceiver.Twins R q.dropReceiver := by
  refine ⟨?_, .nil⟩
  rw [Queue.dropReceiver, Queue.dropReceiver, Queue.close, Queue.close, h.closed,
    ← h.items.length_eq]
  split <;> rw [h.same]

/-- The first items are taken out of both. -/
theorem pop? (h : p.Twins R q) :
    Option.Rel (fun x y => R x.1 y.1 ∧ x.2.Twins R y.2) p.pop? q.pop? := by
  obtain ⟨hsame, hitems⟩ := h
  rw [Queue.pop?, Queue.pop?]
  generalize hfirst : p.items = first, q.items = second at hsame hitems ⊢
  subst hsame
  cases hitems with
  | nil => exact .none
  | cons hab hrest => exact .some ⟨hab, rfl, hrest⟩

/-- An item is put into both, if it is its sender's turn and there is room. -/
theorem enter? (h : p.Twins R q) (sender : Nat) {x y : α} (hxy : R x y) :
    Option.Rel (Twins R) (p.enter? sender x) (q.enter? sender y) := by
  rw [Queue.enter?, Queue.enter?, h.line, h.hasRoom]
  split
  · refine .some ⟨?_, List.rel_append h.items (.cons hxy .nil)⟩
    rw [h.same]
  · exact .none

end Queue.Twins

/-! ### Answers, outcomes and entries -/

/-- Two modes of a fetch agree, unless they are free to differ. Then both are answers. -/
def FetchMode.Twins (free : Prop) (m n : FetchMode) : Prop :=
  m = n ∨ free ∧ m.isAnswer = true ∧ n.isAnswer = true

/-- Two deliveries agree, unless they are free to differ. Then both are what a fetch has
answered. -/
def Delivery.Twins (free : Prop) (d e : Delivery) : Prop :=
  d = e ∨ free ∧ d.isCancelled = false ∧ e.isCancelled = false

namespace Delivery.Twins

variable {free free' : Prop} {d e : Delivery}

/-- A delivery that is free to differ does not become one that only says that a fetch was dropped.
-/
theorem isCancelled (h : d.Twins free e) : e.isCancelled = d.isCancelled := by
  rcases h with rfl | ⟨-, hd, he⟩
  · rfl
  · rw [hd, he]

/-- Deliveries may be free to differ for a weaker reason. -/
theorem mono (h : d.Twins free e) (himp : free → free') : d.Twins free' e :=
  h.imp_right (And.imp_left himp)

end Delivery.Twins

/-- The answers of two protocols agree, except for fetches of one location. -/
structure Protocol.Twins (a : Location) (p q : Protocol) : Prop where
  fetchMode : ∀ l, (p.fetchMode l).Twins (l.core = a.core) (q.fetchMode l)
  shutdowns : q.shutdowns = p.shutdowns
  plain : q.plain = p.plain
  fetched : q.fetched = p.fetched

/-- Two completions of one location. -/
structure Completion.Twins (a : Location) (c d : Completion) : Prop where
  location : d.location = c.location
  outcome : c.outcome.Twins (c.location.core = a.core) d.outcome

/-- Two stages of a job, in which modes and outcomes may be free to differ. -/
inductive JobStage.Twins (free : Prop) : JobStage → JobStage → Prop where
  | awaitingLock : Twins free .awaitingLock .awaitingLock
  | fetching {m n : FetchMode} (number : Nat) (hmode : m.Twins free n) :
      Twins free (.fetching number m) (.fetching number n)
  | handingIn {d e : Delivery} (houtcome : d.Twins free e) :
      Twins free (.handingIn d) (.handingIn e)

/-- Two jobs of one worker with one location. -/
structure Job.Twins (a : Location) (j k : Job) : Prop where
  worker : k.worker = j.worker
  location : k.location = j.location
  stage : j.stage.Twins (j.location.core = a.core) k.stage

/-- Two phases of a coordinator. An outcome is free to differ if all its references lead to the
location. -/
inductive Phase.Twins (a : Location) : Phase → Phase → Prop where
  | choosing : Twins a .choosing .choosing
  | resolving (r : Reference) : Twins a (.resolving r) (.resolving r)
  | reporting (r : Reference) (cause : Chain) : Twins a (.reporting r cause) (.reporting r cause)
  | inUnresolved (r : Reference) (mode : HookMode) :
      Twins a (.inUnresolved r mode) (.inUnresolved r mode)
  | fanningOut {d e : Delivery} {rest : List Reference}
      (houtcome : d.Twins (∀ r ∈ rest, r.leadsTo a = true) e) :
      Twins a (.fanningOut d rest) (.fanningOut e rest)
  | delivering {d e : Delivery} {rest : List Reference} (delivered : Nat)
      (houtcome : d.Twins (∀ r ∈ rest, r.leadsTo a = true) e) :
      Twins a (.delivering d rest delivered) (.delivering e rest delivered)
  | inProcess {d e : Delivery} {rest : List Reference} (r : Reference) (mode : HookMode)
      (delivered : Nat) (houtcome : d.Twins (∀ x ∈ r :: rest, x.leadsTo a = true) e) :
      Twins a (.inProcess r mode d rest delivered) (.inProcess r mode e rest delivered)
  | ended (ending : Ending) : Twins a (.ended ending) (.ended ending)

/-- Two entries of a journal. Only deliveries to references that lead to the location may differ,
and whether an outcome that is fanned out to such references is a success. -/
inductive Entry.Twins (a : Location) : Entry → Entry → Prop where
  | refl (e : Entry) : Twins a e e
  | process {r : Reference} (hleads : r.leadsTo a = true) (d e : Delivery) :
      Twins a (.process r d) (.process r e)
  | fanningOut {l : Location} (hl : l.core = a.core) (references : Nat) (success success' : Bool) :
      Twins a (.note (.fanningOut l references success)) (.note (.fanningOut l references success'))

namespace Job.Twins

variable {a : Location} {j k : Job}

/-- Both jobs wait to be let go, or none does. -/
theorem isHeld (h : j.Twins a k) : k.isHeld = j.isHeld := by
  have hstage := h.stage
  rw [Job.isHeld, Job.isHeld]
  generalize j.stage = s, k.stage = t at hstage ⊢
  cases hstage with
  | awaitingLock | handingIn => rfl
  | @fetching m n number hmode =>
      rcases hmode with rfl | ⟨-, hm, hn⟩
      · rfl
      · cases m <;> cases n <;> simp_all [FetchMode.isAnswer]

/-- Both jobs have the same work left. -/
theorem jobWork (h : j.Twins a k) : Pipeline.jobWork k.stage = Pipeline.jobWork j.stage := by
  have hstage := h.stage
  generalize j.stage = s, k.stage = t at hstage ⊢
  cases hstage <;> rfl

end Job.Twins

/-- Two pools that differ at most in how far the workers are with their jobs. -/
structure Pool.Twins (a : Location) (p q : Pool) : Prop where
  same : q = { p with busy := q.busy }
  busy : List.Forall₂ (Job.Twins a) p.busy q.busy

namespace Pool.Twins

variable {a : Location} {p q : Pool}

/-- The same workers are idle. -/
theorem idle (h : p.Twins a q) : q.idle = p.idle := by
  rw [h.same]

/-- Both pools are watched, or none is. -/
theorem guarded (h : p.Twins a q) : q.guarded = p.guarded := by
  rw [h.same]

/-- The workers that are gone have ended alike. -/
theorem handles (h : p.Twins a q) : q.handles = p.handles := by
  rw [h.same]

/-- The same workers are busy, in the same order. -/
theorem workers (h : p.Twins a q) : q.busy.map Job.worker = p.busy.map Job.worker :=
  map_eq_of_forall₂ (fun _ _ hjob => hjob.worker) h.busy

/-- All workers of both pools are gone, or of none. -/
theorem isGone (h : p.Twins a q) : q.isGone = p.isGone := by
  rw [Pool.isGone, Pool.isGone, h.idle, isEmpty_eq_of_forall₂ h.busy]

/-- The same fetches are held. -/
theorem held (h : p.Twins a q) : q.held = p.held := by
  have hheld := List.rel_filter (p := Job.isHeld) (q := Job.isHeld)
    (fun j k hjob => by dsimp only; rw [Job.Twins.isHeld hjob]) h.busy
  exact map_eq_of_forall₂ (fun _ _ hjob => hjob.location) hheld

/-- A worker is busy in both pools, or in none. -/
theorem job? (h : p.Twins a q) (id : Nat) : Option.Rel (Job.Twins a) (p.job? id) (q.job? id) :=
  rel_find? (fun j k hjob => by rw [hjob.worker]) h.busy

/-- The jobs that are not done for a given worker. -/
theorem others (h : p.Twins a q) (id : Nat) :
    List.Forall₂ (Job.Twins a) (p.busy.filter fun j => j.worker != id)
      (q.busy.filter fun j => j.worker != id) :=
  List.rel_filter (fun j k hjob => by dsimp only; rw [Job.Twins.worker hjob]) h.busy

/-- A worker goes. -/
theorem without (h : p.Twins a q) (id : Nat) (ending : Ending) :
    (p.without id ending).Twins a (q.without id ending) := by
  refine ⟨?_, h.others id⟩
  rw [Pool.without, Pool.without, h.same]

/-- A job goes on. -/
theorem update (h : p.Twins a q) {j k : Job} (hjob : j.Twins a k) :
    (p.update j).Twins a (q.update k) := by
  refine ⟨?_, List.rel_map (fun x y hxy => ?_) h.busy⟩
  · dsimp only [Pool.update]
    rw [h.same]
  · rw [hxy.worker, hjob.worker]
    split
    · exact hjob
    · exact hxy

/-- The work left in a pool does not depend on what its fetches bring. -/
theorem work (h : p.Twins a q) : Pipeline.poolWork q = Pipeline.poolWork p := by
  have hjobs : ∀ busy : List Job, busy.foldr (fun j n => Pipeline.jobWork j.stage + n) 0 =
      (busy.map fun j => Pipeline.jobWork j.stage).foldr (· + ·) 0 := by
    intro busy
    rw [List.foldr_map]
  rw [Pipeline.poolWork, Pipeline.poolWork, hjobs, hjobs,
    map_eq_of_forall₂ (fun _ _ hjob => hjob.jobWork) h.busy, Pool.alive, Pool.alive, h.idle,
    h.busy.length_eq]

end Pool.Twins

/-- Both phases have the same work left. -/
theorem Phase.Twins.phaseWork {a : Location} {x y : Phase} (h : x.Twins a y) :
    Pipeline.phaseWork y = Pipeline.phaseWork x := by
  cases h <;> rfl

namespace Pipeline

/-- **Twins.** Two pipelines that differ in nothing but in what the fetches of one location bring.
Whatever waits for a location leads there. -/
structure Twins (a : Location) (p q : Pipeline) : Prop where
  protocol : p.protocol.Twins a q.protocol
  lock : q.lock = p.lock
  tokens : q.tokens = p.tokens
  latch : q.latch = p.latch
  intake : q.intake = p.intake
  dispatch : q.dispatch = p.dispatch
  completions : p.completions.Twins (Completion.Twins a) q.completions
  /-- The waiters and the slot are the same, and what was seen of the queues. -/
  coordinator : q.coordinator = { p.coordinator with phase := q.coordinator.phase }
  phase : p.coordinator.phase.Twins a q.coordinator.phase
  /-- The same workers are idle, gone, and busy with the same locations. -/
  pool : p.pool.Twins a q.pool
  counters : q.counters = { p.counters with fetchFailures := q.counters.fetchFailures }
  activity : q.activity = p.activity
  journal : List.Forall₂ (Entry.Twins a) p.journal q.journal
  sorted : Book.Sorted p.coordinator.waiters.entries

namespace Twins

variable {a : Location} {p q : Pipeline}

/-! ### What twins have in common -/

/-- Both runs are cancelled, or none is. -/
theorem isCancelled (h : p.Twins a q) : q.isCancelled = p.isCancelled := by
  rw [Pipeline.isCancelled, Pipeline.isCancelled, h.tokens, h.latch]

/-- Both coordinators have ended, or none has. -/
theorem isOver (h : p.Twins a q) : q.isOver = p.isOver := by
  have hphase := h.phase
  rw [Pipeline.isOver, Pipeline.isOver]
  generalize p.coordinator.phase = x, q.coordinator.phase = y at hphase ⊢
  cases hphase <;> rfl

/-- Both coordinators have ended alike. -/
theorem ending? (h : p.Twins a q) : q.ending? = p.ending? := by
  have hphase := h.phase
  rw [Pipeline.ending?, Pipeline.ending?]
  generalize p.coordinator.phase = x, q.coordinator.phase = y at hphase ⊢
  cases hphase <;> rfl

/-- The same hook is held. -/
theorem heldHook? (h : p.Twins a q) : q.heldHook? = p.heldHook? := by
  have hphase := h.phase
  rw [Pipeline.heldHook?, Pipeline.heldHook?]
  generalize p.coordinator.phase = x, q.coordinator.phase = y at hphase ⊢
  cases hphase with
  | inProcess r mode => cases mode <;> rfl
  | _ => rfl

/-- The same references wait for the same locations. -/
theorem waiters (h : p.Twins a q) : q.coordinator.waiters = p.coordinator.waiters := by
  rw [h.coordinator]

/-- The same location waits in the slot. -/
theorem slot (h : p.Twins a q) : q.coordinator.slot = p.coordinator.slot := by
  rw [h.coordinator]

/-- Both coordinators know that the intake has ended, or none does. -/
theorem intakeDone (h : p.Twins a q) : q.coordinator.intakeDone = p.coordinator.intakeDone := by
  rw [h.coordinator]

/-- Both coordinators know that no completion will come, or none does. -/
theorem completionsDone (h : p.Twins a q) :
    q.coordinator.completionsDone = p.coordinator.completionsDone := by
  rw [h.coordinator]

/-- Both coordinators are done with their work, or none is. -/
theorem isDrained (h : p.Twins a q) : q.isDrained = p.isDrained := by
  rw [Pipeline.isDrained, Pipeline.isDrained, h.waiters, h.slot, h.intakeDone]

/-- The fetch that is found to be held is one of the same location. -/
theorem heldFetch? (h : p.Twins a q) (location : Option String) :
    Option.Rel (Job.Twins a) (p.heldFetch? location) (q.heldFetch? location) :=
  rel_find? (fun j k hjob => by rw [hjob.isHeld, hjob.location]) h.pool.busy

/-- Twins try the same. -/
theorem candidates (h : p.Twins a q) : q.candidates = p.candidates := by
  have hbusy : ∀ busy : List Job, (busy.flatMap fun j => [Event.work j.worker, .dropFetch j.worker]) =
      (busy.map Job.worker).flatMap fun id => [.work id, .dropFetch id] := by
    intro busy
    rw [List.flatMap_map]
  rw [Pipeline.candidates, Pipeline.candidates, hbusy, hbusy, h.pool.workers, h.pool.idle,
    h.intake]

/-- Twins have the same work left. -/
theorem work (h : p.Twins a q) : q.work = p.work := by
  have hcoordinator : coordinatorWork q.coordinator = coordinatorWork p.coordinator := by
    rw [coordinatorWork, coordinatorWork, h.phase.phaseWork, h.waiters, h.slot, h.intakeDone,
      h.completionsDone]
  rw [Pipeline.work, Pipeline.work, hcoordinator, h.pool.work, h.intake, h.dispatch,
    h.completions.items.length_eq]

/-! ### What everybody does -/

/-- Both journals get an entry. -/
theorem log (h : p.Twins a q) {e e' : Entry} (hentry : e.Twins a e') :
    (p.log e).Twins a (q.log e') :=
  { h with journal := .cons hentry h.journal }

/-- Both count the same. -/
theorem count (h : p.Twins a q) (change : Counters.Change) :
    (p.count change).Twins a (q.count change) :=
  { h with
    counters := by
      simp only [Pipeline.count]
      rw [h.counters]
      cases change <;> rfl }

/-- A party asks for both locks. -/
theorem askLock (h : p.Twins a q) (party : Party) (access : Access) :
    (p.askLock party access).Twins a (q.askLock party access) :=
  { h with lock := by simp only [Pipeline.askLock, h.lock] }

/-- Both locks are given back. -/
theorem freeLock (h : p.Twins a q) : p.freeLock.Twins a q.freeLock :=
  { h with lock := by simp only [Pipeline.freeLock, h.lock] }

/-- Both coordinators turn to another phase. -/
theorem turnTo (h : p.Twins a q) {x y : Phase} (hphase : x.Twins a y) :
    (p.turnTo x).Twins a (q.turnTo y) :=
  { h with
    coordinator := by
      simp only [Pipeline.turnTo]
      rw [h.coordinator]
    phase := hphase }

/-- An alarm hands the same fault back to both. -/
theorem raise (h : p.Twins a q) (alarm : Alarm) :
    (q.raise alarm).1 = (p.raise alarm).1 ∧ (p.raise alarm).2.Twins a (q.raise alarm).2 := by
  simp only [Pipeline.raise, h.latch, h.tokens]
  refine ⟨trivial, ?_⟩
  have hraised : { p with
        latch := (p.latch.trigger p.tokens alarm).latch
        tokens := (p.latch.trigger p.tokens alarm).tokens }.Twins a { q with
        latch := (p.latch.trigger p.tokens alarm).latch
        tokens := (p.latch.trigger p.tokens alarm).tokens } :=
    { h with latch := rfl, tokens := rfl }
  split
  · exact hraised.log (.refl _)
  · exact hraised

/-! ### The coordinator -/

/-- Both coordinators end. -/
theorem finish (h : p.Twins a q) (ending : Ending) : (p.finish ending).Twins a (q.finish ending) :=
  { h with
    intake := by simp only [Pipeline.finish, h.intake]
    dispatch := by simp only [Pipeline.finish, h.dispatch]
    completions := h.completions.dropReceiver
    coordinator := by
      simp only [Pipeline.finish]
      rw [h.coordinator]
    phase := .ended ending }

/-- Both coordinators stop in order. -/
theorem stop (h : p.Twins a q) : p.stop.Twins a q.stop :=
  (h.log (.refl _)).finish .done

/-- Both coordinators end with the same fault. -/
theorem abort (h : p.Twins a q) (alarm : Alarm) : (p.abort alarm).Twins a (q.abort alarm) := by
  obtain ⟨hfault, hraised⟩ := h.raise alarm
  rw [Pipeline.abort, Pipeline.abort]
  dsimp only
  rw [hfault]
  exact hraised.finish _

/-- Both show the same number of waiting locations. -/
theorem gauge (h : p.Twins a q) : p.gauge.Twins a q.gauge := by
  rw [Pipeline.gauge, Pipeline.gauge, h.waiters]
  exact h.count _

/-- The waiters change, and what waits for a location still leads there. -/
theorem withWaiters (h : p.Twins a q) {waiters : Waiters Location Reference}
    (hsorted : Book.Sorted waiters.entries) :
    { p with coordinator := { p.coordinator with waiters } }.Twins a
      { q with coordinator := { q.coordinator with waiters } } :=
  { h with
    coordinator := by
      dsimp only
      rw [h.coordinator]
    sorted := hsorted }

/-- A completion is fanned out to references that lead to its location. -/
theorem complete (h : p.Twins a q) {c d : Completion} (hcompletion : c.Twins a d) :
    (p.complete c).Twins a (q.complete d) := by
  rw [Pipeline.complete, Pipeline.complete]
  have hcounted := h.count .completion
  rw [hcompletion.location, hcounted.waiters]
  dsimp only
  split
  · exact hcounted.abort _
  · rename_i references waiters hfound
    obtain ⟨before, l, after, hentries, -, hl, rfl⟩ := Waiters.complete?_eq_some_iff.mp hfound
    have hsorted : Book.Sorted (before ++ (l, references) :: after) := hentries ▸ hcounted.sorted
    -- The entry that is found has a key that is the same as the location of the completion, so an
    -- outcome that is free to differ goes to references that lead there.
    have hleads : c.location.core = a.core → ∀ r ∈ references, r.leadsTo a = true := by
      intro hfree r hr
      obtain ⟨hcore, hwhole⟩ := (Location.beq_iff _ _).mp hl
      rw [hsorted (l, references) (by simp) r hr]
      exact (Location.beq_iff _ _).mpr ⟨hcore.trans hfree, hwhole⟩
    have hentry : Entry.Twins a (.note (.fanningOut c.location references.length c.outcome.isSuccess))
        (.note (.fanningOut c.location references.length d.outcome.isSuccess)) := by
      rcases hcompletion.outcome with heq | ⟨hfree, -, -⟩
      · rw [heq]
        exact .refl _
      · exact .fanningOut hfree _ _ _
    exact (((hcounted.withWaiters hsorted.remove).gauge.log hentry).askLock _ _).turnTo
      (.fanningOut (hcompletion.outcome.mono hleads))

/-- Both coordinators see that no completion will come. -/
theorem endCompletions (h : p.Twins a q) : p.endCompletions.Twins a q.endCompletions := by
  have hseen : { p with coordinator := { p.coordinator with completionsDone := true } }.Twins a
      { q with coordinator := { q.coordinator with completionsDone := true } } :=
    { h with
      coordinator := by
        dsimp only
        rw [h.coordinator] }
  rw [Pipeline.endCompletions, Pipeline.endCompletions, hseen.waiters]
  dsimp only
  split
  · exact hseen.log (.refl _)
  · exact hseen.abort _

/-- A completion is taken up in both, if there is one. -/
theorem takeCompletion? (h : p.Twins a q) :
    Option.Rel (Twins a) p.takeCompletion? q.takeCompletion? := by
  rw [Pipeline.takeCompletion?, Pipeline.takeCompletion?, h.completionsDone,
    h.completions.isExhausted]
  split
  · exact .none
  · have hpop := h.completions.pop?
    generalize p.completions.pop? = x, q.completions.pop? = y at hpop ⊢
    cases hpop with
    | none =>
        dsimp only
        split
        · exact .some h.endCompletions
        · exact .none
    | some hfirst =>
        refine .some (complete ?_ hfirst.1)
        exact { h with completions := hfirst.2 }

/-- The location in the slot goes to the workers of both, if there is room. -/
theorem dispatchSlot? (h : p.Twins a q) :
    Option.Rel (Twins a) p.dispatchSlot? q.dispatchSlot? := by
  rw [Pipeline.dispatchSlot?, Pipeline.dispatchSlot?, h.slot, h.dispatch]
  split
  · exact .none
  · split
    · refine .some (count ?_ _)
      exact { h with
        dispatch := rfl
        coordinator := by
          dsimp only
          rw [h.coordinator] }
    · exact .none
    · exact .some (h.abort _)

/-- A reference is taken up in both, if there is one. -/
theorem takeReference? (h : p.Twins a q) :
    Option.Rel (Twins a) p.takeReference? q.takeReference? := by
  rw [Pipeline.takeReference?, Pipeline.takeReference?, h.slot, h.intakeDone, h.intake]
  split
  · exact .none
  · split
    · refine .some (((count ?_ _).askLock _ _).turnTo (.resolving _))
      exact { h with intake := rfl }
    · split
      · have hseen : { p with coordinator := { p.coordinator with intakeDone := true } }.Twins a
            { q with
              intake := p.intake
              coordinator := { q.coordinator with intakeDone := true } } :=
          { h with
            intake := rfl
            coordinator := by
              dsimp only
              rw [h.coordinator] }
        refine .some ?_
        rw [hseen.waiters]
        exact hseen.log (.refl _)
      · exact .none

/-- Both coordinators choose the same. -/
theorem choose? (h : p.Twins a q) : Option.Rel (Twins a) p.choose? q.choose? := by
  rw [Pipeline.choose?, Pipeline.choose?, h.isDrained, h.isCancelled, h.waiters]
  split
  · exact .some (h.log (.refl _)).stop
  · split
    · exact .some (h.log (.refl _)).stop
    · have hcompletion := h.takeCompletion?
      have hslot := h.dispatchSlot?
      generalize p.takeCompletion? = x, q.takeCompletion? = y at hcompletion ⊢
      cases hcompletion with
      | some hnext => exact .some hnext
      | none =>
          generalize p.dispatchSlot? = x, q.dispatchSlot? = y at hslot ⊢
          cases hslot with
          | some hnext => exact .some hnext
          | none => exact h.takeReference?

/-! ### References -/

/-- Whatever waits for a location leads there, also with one more reference that does. -/
theorem sorted_enroll (h : p.Twins a q) {l : Location} {r : Reference}
    (htarget : r.target = .location l) :
    Book.Sorted (p.coordinator.waiters.enroll l r).2.entries := by
  rcases Waiters.enroll_eq p.coordinator.waiters l r with
    ⟨before, k, rs, after, hentries, -, hk, heq⟩ | ⟨-, heq⟩
  · rw [heq]
    exact (hentries ▸ h.sorted).join htarget hk
  · rw [heq]
    exact h.sorted.add htarget

/-- A reference is put down in both. -/
theorem enroll (h : p.Twins a q) {l : Location} {r : Reference} (htarget : r.target = .location l) :
    (p.enroll l r).Twins a (q.enroll l r) := by
  have hsorted := h.sorted_enroll htarget
  rw [Pipeline.enroll, Pipeline.enroll, h.waiters]
  generalize p.coordinator.waiters.enroll l r = admission at hsorted ⊢
  obtain ⟨admission, waiters⟩ := admission
  cases admission with
  | dispatch k =>
      refine gauge ?_
      exact { (h.log (.refl _)) with
        coordinator := by
          dsimp only [Pipeline.log]
          rw [h.coordinator]
        phase := .choosing
        sorted := hsorted }
  | coalesced n =>
      refine count ?_ _
      exact { (h.log (.refl _)) with
        coordinator := by
          dsimp only [Pipeline.log]
          rw [h.coordinator]
        phase := .choosing
        sorted := hsorted }

/-- A reference is resolved in both. -/
theorem resolve (h : p.Twins a q) (r : Reference) : (p.resolve r).Twins a (q.resolve r) := by
  rw [Pipeline.resolve, Pipeline.resolve]
  have hlogged := h.log (.refl (.resolve r))
  dsimp only
  split
  · exact hlogged.enroll ‹_›
  · exact (((hlogged.count _).log (.refl _)).askLock _ _).turnTo (.reporting _ _)
  · exact hlogged.finish _

/-- The hook for references that lead nowhere is called in both. -/
theorem callUnresolved (h : p.Twins a q) (r : Reference) (cause : Chain) :
    (p.callUnresolved r cause).Twins a (q.callUnresolved r cause) := by
  rw [Pipeline.callUnresolved, Pipeline.callUnresolved, Protocol.unresolvedMode,
    Protocol.unresolvedMode, h.protocol.plain]
  split
  · exact h.turnTo (.inUnresolved _ _)
  · exact (h.log (.refl _)).turnTo (.inUnresolved _ _)

/-- The hook for references that lead nowhere answers in both. -/
theorem finishUnresolved? (h : p.Twins a q) (mode : HookMode) :
    Option.Rel (Twins a) (p.finishUnresolved? mode) (q.finishUnresolved? mode) := by
  cases mode with
  | hold => exact .none
  | succeed => exact .some (h.freeLock.turnTo .choosing)
  | fail stage cause => exact .some (h.freeLock.abort _)
  | panic payload => exact .some (h.freeLock.finish _)

/-! ### Deliveries -/

/-- The next reference gets the outcome. Outcomes that differ go to references that lead to the
location. -/
theorem deliver (h : p.Twins a q) {d e : Delivery} {rest : List Reference}
    (houtcome : d.Twins (∀ r ∈ rest, r.leadsTo a = true) e) (delivered : Nat) :
    (p.deliver d rest delivered).Twins a (q.deliver e rest delivered) := by
  cases rest with
  | nil => exact (h.count _).freeLock.turnTo .choosing
  | cons r rest =>
      refine (h.log ?_).turnTo (.inProcess r r.process delivered houtcome)
      rcases houtcome with rfl | ⟨hleads, -, -⟩
      · exact .refl _
      · exact .process (hleads r List.mem_cons_self) _ _

/-- The hook for an outcome answers in both, the same whatever the outcome was. -/
theorem finishProcess? (h : p.Twins a q) {d e : Delivery} {rest : List Reference}
    (houtcome : d.Twins (∀ r ∈ rest, r.leadsTo a = true) e) (delivered : Nat)
    (mode : HookMode) :
    Option.Rel (Twins a) (p.finishProcess? d rest delivered mode)
      (q.finishProcess? e rest delivered mode) := by
  cases mode with
  | hold => exact .none
  | succeed => exact .some (h.turnTo (.delivering _ houtcome))
  | fail stage cause => exact .some ((h.count _).freeLock.abort _)
  | panic payload => exact .some (h.freeLock.finish _)

/-! ### Steps of the coordinator -/

/-- What a party does with the lock leaves twins, once it has it. -/
theorem withLock? (h : p.Twins a q) (party : Party) {f g : Pipeline → Pipeline}
    (hfg : ∀ p q : Pipeline, p.Twins a q → (f p).Twins a (g q)) :
    Option.Rel (Twins a) ((p.withLock? party).map f) ((q.withLock? party).map g) := by
  rw [Pipeline.withLock?, Pipeline.withLock?, h.lock]
  cases p.lock.grant? party with
  | none => exact .none
  | some lock =>
      refine .some (hfg _ _ ?_)
      exact { h with lock := rfl }

/-- Both coordinators do their next step. -/
theorem coordinate? (h : p.Twins a q) : Option.Rel (Twins a) p.coordinate? q.coordinate? := by
  have hphase := h.phase
  rw [Pipeline.coordinate?, Pipeline.coordinate?]
  generalize p.coordinator.phase = x, q.coordinator.phase = y at hphase ⊢
  cases hphase with
  | choosing => exact h.choose?
  | resolving r => exact h.withLock? _ fun _ _ h => h.resolve r
  | reporting r cause => exact h.withLock? _ fun _ _ h => h.callUnresolved r cause
  | inUnresolved r mode => exact h.finishUnresolved? mode
  | fanningOut houtcome => exact h.withLock? _ fun _ _ h => h.turnTo (.delivering 0 houtcome)
  | delivering delivered houtcome => exact .some (h.deliver houtcome delivered)
  | inProcess r mode delivered houtcome =>
      exact h.finishProcess? (houtcome.mono fun hleads x hx => hleads x (List.mem_cons_of_mem _ hx))
        delivered mode
  | ended ending => exact .none

/-- The hook that a coordinator waits for is dropped in both. -/
theorem dropHook? (h : p.Twins a q) : Option.Rel (Twins a) p.dropHook? q.dropHook? := by
  have hphase := h.phase
  rw [Pipeline.dropHook?, Pipeline.dropHook?, h.isCancelled]
  generalize p.coordinator.phase = x, q.coordinator.phase = y at hphase ⊢
  split
  · cases hphase with
    | inUnresolved r mode => exact .some h.freeLock.stop
    | inProcess r mode delivered houtcome => exact .some (h.count _).freeLock.stop
    | _ => exact .none
  · exact .none

/-- The hook that is held is let go in both. -/
theorem releaseHook (h : p.Twins a q) (mode : HookMode) :
    (p.releaseHook mode).Twins a (q.releaseHook mode) := by
  have hphase := h.phase
  rw [Pipeline.releaseHook, Pipeline.releaseHook]
  generalize p.coordinator.phase = x, q.coordinator.phase = y at hphase ⊢
  cases hphase with
  | inUnresolved r held =>
      cases held with
      | hold => exact h.turnTo (.inUnresolved r mode)
      | _ => exact h
  | inProcess r held delivered houtcome =>
      cases held with
      | hold => exact h.turnTo (.inProcess r mode delivered houtcome)
      | _ => exact h
  | _ => exact h

/-! ### The workers -/

/-- A worker leaves both. -/
theorem leave (h : p.Twins a q) (id : Nat) (ending : Ending) :
    (p.leave id ending).Twins a (q.leave id ending) := by
  have hpool := h.pool.without id ending
  have hleft : { p with
        pool := p.pool.without id ending
        completions := (p.completions.stepOut id).dropSender
        dispatch :=
          if (p.pool.without id ending).isGone then p.dispatch.dropReceiver else p.dispatch }.Twins
      a { q with
        pool := q.pool.without id ending
        completions := (q.completions.stepOut id).dropSender
        dispatch :=
          if (q.pool.without id ending).isGone then q.dispatch.dropReceiver else q.dispatch } :=
    { h with
      pool := hpool
      completions := h.completions.leave id
      dispatch := by
        dsimp only
        rw [hpool.isGone, h.dispatch] }
  rw [Pipeline.leave, Pipeline.leave]
  dsimp only
  split
  · by_cases hguarded : p.pool.guarded = true
    · rw [if_pos hguarded, if_pos (h.pool.guarded.trans hguarded)]
      exact (hleft.raise _).2
    · have hguarded' : ¬q.pool.guarded = true := by rwa [h.pool.guarded]
      rw [if_neg hguarded, if_neg hguarded']
      exact hleft
  · exact hleft

/-- An idle worker takes a location up in both, or leaves both. -/
theorem takeLocation? (h : p.Twins a q) (id : Nat) :
    Option.Rel (Twins a) (p.takeLocation? id) (q.takeLocation? id) := by
  rw [Pipeline.takeLocation?, Pipeline.takeLocation?, h.isCancelled, h.pool.idle, h.dispatch]
  split
  · exact .some (h.leave id .done)
  · split
    · split
      · refine .some (askLock ?_ _ _)
        exact { h with
          dispatch := rfl
          activity := by dsimp only; rw [h.activity]
          pool := by
            refine ⟨?_, List.rel_append h.pool.busy (.cons ⟨rfl, rfl, .awaitingLock⟩ .nil)⟩
            rw [h.pool.same] }
      · split
        · exact .some (h.leave id .done)
        · exact .none
    · exact .none

/-- The protocol sees a fetch. -/
theorem noteFetch (h : p.Twins a q) (l : Location) :
    { p with protocol := p.protocol.noteFetch l }.Twins a
      { q with protocol := q.protocol.noteFetch l } :=
  { h with
    protocol :=
      { h.protocol with
        fetched := by simp only [Protocol.noteFetch, h.protocol.fetched] } }

/-- A worker stops being active. -/
theorem rest (h : p.Twins a q) :
    { p with activity := p.activity.leave }.Twins a { q with activity := q.activity.leave } :=
  { h with activity := by dsimp only; rw [h.activity] }

/-- A job is at another stage. -/
theorem update (h : p.Twins a q) (j : Job) {s t : JobStage}
    (hstage : s.Twins (j.location.core = a.core) t) :
    { p with pool := p.pool.update { j with stage := s } }.Twins a
      { q with pool := q.pool.update { j with stage := t } } :=
  { h with pool := h.pool.update ⟨rfl, rfl, hstage⟩ }

/-- The fetch is called in both. Answers that differ do not leave the fetch waiting, and are no
panics. -/
theorem callFetch (h : p.Twins a q) {j k : Job} (hjob : j.Twins a k) :
    (p.callFetch j).Twins a (q.callFetch k) := by
  have hmode := h.protocol.fetchMode j.location
  have hnumber : q.protocol.fetchNumber j.location = p.protocol.fetchNumber j.location := by
    rw [Protocol.fetchNumber, Protocol.fetchNumber, h.protocol.fetched]
  have hlogged := (h.noteFetch j.location).log (.refl (.fetch j.location))
  rw [Pipeline.callFetch, Pipeline.callFetch, hjob.location, hjob.worker, hnumber]
  generalize p.protocol.fetchMode j.location = m, q.protocol.fetchMode j.location = n at hmode ⊢
  have hfetching := hlogged.update j (.fetching (p.protocol.fetchNumber j.location) hmode)
  rcases hmode with rfl | ⟨-, hm, hn⟩
  · cases m with
    | panicCall payload => exact hlogged.rest.leave _ _
    | _ => exact hfetching
  · cases m <;> cases n <;> first | exact hfetching | simp [FetchMode.isAnswer] at hm hn

/-- The counters of failed fetches are not compared. -/
theorem withFailures (h : p.Twins a q) (m n : UInt64) :
    { p with counters := { p.counters with fetchFailures := m } }.Twins a
      { q with counters := { q.counters with fetchFailures := n } } :=
  { h with
    counters := by
      dsimp only
      rw [h.counters] }

/-- A worker turns to handing an outcome in. -/
theorem handIn (h : p.Twins a q) {j k : Job} (hjob : j.Twins a k) {d e : Delivery}
    (houtcome : d.Twins (j.location.core = a.core) e) : (p.handIn j d).Twins a (q.handIn k e) := by
  rw [Pipeline.handIn, Pipeline.handIn, hjob.worker, hjob.location]
  exact { (h.rest.update j (.handingIn houtcome)) with
    completions := h.completions.queueUp j.worker }

/-- A fetch answers in both. -/
theorem finishFetch? (h : p.Twins a q) {j k : Job} (hjob : j.Twins a k) (number : Nat)
    {m n : FetchMode} (hmode : m.Twins (j.location.core = a.core) n) :
    Option.Rel (Twins a) (p.finishFetch? j number m) (q.finishFetch? k number n) := by
  rcases hmode with rfl | ⟨hfree, hm, hn⟩
  · cases m with
    | hold => exact .none
    | content value =>
        rw [Pipeline.finishFetch?, Pipeline.finishFetch?, hjob.location]
        exact .some (h.handIn hjob (.inl rfl))
    | fail cause =>
        rw [Pipeline.finishFetch?, Pipeline.finishFetch?, hjob.location]
        exact .some ((h.count _).handIn hjob (.inl rfl))
    | panic payload | panicCall payload =>
        rw [Pipeline.finishFetch?, Pipeline.finishFetch?, hjob.worker]
        exact .some (h.rest.leave _ _)
  · -- Whichever answers the two are, the outcomes are handed in alike.
    obtain ⟨d, x, hd, heq⟩ := exists_of_isAnswer p j number hm
    obtain ⟨e, y, he, heq'⟩ := exists_of_isAnswer q k number hn
    rw [heq, heq']
    exact .some ((h.withFailures x y).handIn hjob (.inr ⟨hfree, hd, he⟩))

/-- A worker puts its outcome into the completion queue of both. -/
theorem deposit? (h : p.Twins a q) {j k : Job} (hjob : j.Twins a k) {d e : Delivery}
    (houtcome : d.Twins (j.location.core = a.core) e) :
    Option.Rel (Twins a) (p.deposit? j d) (q.deposit? k e) := by
  have henter := h.completions.enter? j.worker (x := ⟨j.location, d⟩) (y := ⟨j.location, e⟩)
    ⟨rfl, houtcome⟩
  rw [Pipeline.deposit?, Pipeline.deposit?, h.completions.closed, h.isCancelled, hjob.worker,
    hjob.location]
  split
  · exact .some (h.leave _ _)
  · generalize p.completions.enter? j.worker ⟨j.location, d⟩ = x,
      q.completions.enter? j.worker ⟨j.location, e⟩ = y at henter ⊢
    cases henter with
    | none => exact .none
    | @some x y hcompletions =>
        have hentered : { p with completions := x }.Twins a { q with completions := y } :=
          { h with completions := hcompletions }
        refine .some ?_
        dsimp only
        -- The only thing about an outcome that a worker looks at.
        rw [houtcome.isCancelled]
        split
        · exact hentered.leave _ _
        · exact { hentered with
            pool := by
              refine ⟨?_, h.pool.others j.worker⟩
              dsimp only
              rw [h.pool.same] }

/-- A busy worker does its next step in both. -/
theorem doJob? (h : p.Twins a q) {j k : Job} (hjob : j.Twins a k) :
    Option.Rel (Twins a) (p.doJob? j) (q.doJob? k) := by
  have hstage := hjob.stage
  rw [Pipeline.doJob?, Pipeline.doJob?, hjob.worker]
  generalize j.stage = s, k.stage = t at hstage ⊢
  cases hstage with
  | awaitingLock => exact h.withLock? _ fun _ _ h => h.callFetch hjob
  | fetching number hmode => exact h.finishFetch? hjob number hmode
  | handingIn houtcome => exact h.deposit? hjob houtcome

/-- A worker does its next step in both. -/
theorem workOn? (h : p.Twins a q) (id : Nat) :
    Option.Rel (Twins a) (p.workOn? id) (q.workOn? id) := by
  have hjob := h.pool.job? id
  rw [Pipeline.workOn?, Pipeline.workOn?, h.pool.idle]
  generalize p.pool.job? id = x, q.pool.job? id = y at hjob ⊢
  cases hjob with
  | some hjob => exact h.doJob? hjob
  | none =>
      dsimp only
      split
      · exact h.takeLocation? id
      · exact .none

/-- A fetch is dropped in both. -/
theorem dropFetch? (h : p.Twins a q) (id : Nat) :
    Option.Rel (Twins a) (p.dropFetch? id) (q.dropFetch? id) := by
  have hjob := h.pool.job? id
  rw [Pipeline.dropFetch?, Pipeline.dropFetch?, h.isCancelled]
  split
  · generalize p.pool.job? id = x, q.pool.job? id = y at hjob ⊢
    cases hjob with
    | none => exact .none
    | @some j k hjob =>
        have hstage := hjob.stage
        dsimp only
        rw [hjob.location]
        generalize j.stage = s, k.stage = t at hstage ⊢
        cases hstage with
        | fetching number hmode => exact .some ((h.count _).handIn hjob (.inl rfl))
        | _ => exact .none
  · exact .none

/-- A fetch that waits is let go with answers that may differ if it is one of the location. -/
theorem releaseFetch (h : p.Twins a q) {j k : Job} (hjob : j.Twins a k) {m n : FetchMode}
    (hmode : m.Twins (j.location.core = a.core) n) :
    (p.releaseFetch j m).Twins a (q.releaseFetch k n) := by
  have hstage := hjob.stage
  rw [Pipeline.releaseFetch, Pipeline.releaseFetch, hjob.worker, hjob.location]
  generalize j.stage = s, k.stage = t at hstage ⊢
  cases hstage with
  | @fetching held held' number hheld =>
      rcases hheld with rfl | ⟨-, hm, hn⟩
      · cases held with
        | hold => exact h.update j (.fetching number hmode)
        | _ => exact h
      · cases held <;> cases held' <;> first | exact h | simp [FetchMode.isAnswer] at hm hn
  | _ => exact h

/-! ### Steps -/

/-- **Twins go on as twins.** An event that can happen in one of two twins can happen in the other,
and leaves twins. -/
theorem advance (h : p.Twins a q) (e : Event) :
    Option.Rel (Twins a) (p.advance e) (q.advance e) := by
  cases e with
  | coordinate => exact h.coordinate?
  | dropHook => exact h.dropHook?
  | work id => exact h.workOn? id
  | dropFetch id => exact h.dropFetch? id
  | produce id =>
      rw [Pipeline.advance, Pipeline.advance, h.intake, h.tokens]
      cases p.intake.advance p.tokens id with
      | none => exact .none
      | some intake => exact .some { h with intake := rfl, tokens := rfl }

end Twins

end Pipeline

end SharedFetch
