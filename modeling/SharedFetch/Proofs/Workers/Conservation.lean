import Mathlib.Tactic.Abel
import SharedFetch.Proofs.Line
import SharedFetch.Proofs.Workers.Docket
import SharedFetch.Scenario.Workers

/-!
# A pool keeps account of its locations

A pool of workers without a coordinator is taken through *moves*: whoever has the ends of its queues
does something, or a worker takes a step. Any list of moves in any order is a course that the pool
may take, and every step of a scenario is one of them (`exists_moves_step`). A `Watch` follows the
pool through its moves. It notes the locations that the dispatch queue has accepted and the
completions that were received, both from the answers that the caller gets, and it keeps the docket.

## Main results

* `Watch.Reachable.sound`: along every course of moves, watch and pool belong together.
* `Watch.conserves_locations`: every location that was put in is in exactly one place, is taken in
  its turn, and comes out with the outcome of the fetch that was made for it; or it is lost, and in
  which ways that can happen.
-/

namespace SharedFetch

open Pipeline

/-! ### Queues -/

namespace Queue

variable {α : Type}

/-- The items that were accepted, of those offered. -/
def acceptedOf (items : List α) (offers : List (Offer α)) : List α :=
  (items.zip offers).filterMap fun x =>
    match x.2 with
    | .accepted => some x.1
    | _ => none

/-- The item that a look has found. -/
def Receipt.item? : Receipt α → Option α
  | .item a => some a
  | _ => none

/-- Items that are offered are added as far as they are accepted. -/
theorem items_offerAll (q : Queue α) (items : List α) :
    (q.offerAll items).2.items = q.items ++ acceptedOf items (q.offerAll items).1 := by
  induction items generalizing q with
  | nil => simp [offerAll, acceptedOf]
  | cons a rest ih =>
      have hoffer : (q.offer a).2.items =
          q.items ++ acceptedOf [a] [(q.offer a).1] := by
        rw [offer]
        split
        · simp [acceptedOf]
        · split <;> simp [acceptedOf]
      rw [offerAll]
      dsimp only
      rw [ih, hoffer, List.append_assoc]
      congr 1
      simp only [acceptedOf, List.zip_cons_cons, List.zip_nil_left, List.filterMap_cons,
        List.filterMap_nil]
      split <;> simp

/-- What is received was in front. -/
theorem items_receiveMany (q : Queue α) (n : Nat) :
    (q.receiveMany n).1.filterMap Receipt.item? ++ (q.receiveMany n).2.items = q.items := by
  induction n generalizing q with
  | zero => rfl
  | succ n ih =>
      have hreceive : ((q.receive).1.item?).toList ++ (q.receive).2.items = q.items := by
        rw [receive, pop?]
        cases hitems : q.items with
        | nil =>
            dsimp only
            split <;> simp [Receipt.item?, hitems]
        | cons a rest => simp [Receipt.item?]
      rw [receiveMany]
      dsimp only
      rw [List.filterMap_cons, ← hreceive, ← ih q.receive.2]
      cases q.receive.1.item? <;> simp

@[simp] theorem closed_receiveMany (q : Queue α) (n : Nat) :
    (q.receiveMany n).2.closed = q.closed := by
  induction n generalizing q with
  | zero => rfl
  | succ n ih =>
      have hreceive : q.receive.2.closed = q.closed := by
        rw [receive, pop?]
        split
        · rename_i h
          split at h
          · cases h
          · cases h
            rfl
        · rfl
      rw [receiveMany]
      exact (ih q.receive.2).trans hreceive

end Queue

/-! ### Moves -/

namespace Scenario.WorkersBench

/-- Something that happens to workers: the caller does something, there is an event, or the caller
is shown the journal. -/
inductive Move where
  | act (action : Action)
  | event (e : Event)
  | report

/-- The workers after a move. An event that cannot happen changes nothing. -/
def move (b : WorkersBench) : Move → WorkersBench
  | .act action => (b.perform action).2
  | .event e => { b with pipeline := (b.pipeline.advance e).getD b.pipeline }
  | .report => { b with seen := b.pipeline.journal.length }

/-- The locations put into the dispatch queue by an action, as its answer says. -/
def Action.put : Action → Answer → List Location
  | .dispatch locations, .dispatched offers => Queue.acceptedOf locations offers
  | _, _ => []

/-- The completions received by an action, as its answer says. -/
def received : Answer → List Completion
  | .completions receipts => receipts.filterMap Queue.Receipt.item?
  | _ => []

/-- The locations that a move puts into the dispatch queue. -/
def puts (b : WorkersBench) : Move → List Location
  | .act action => action.put (b.perform action).1
  | _ => []

/-- The completions that a move receives. -/
def receives (b : WorkersBench) : Move → List Completion
  | .act action => received (b.perform action).1
  | _ => []

/-- The course that a list of moves takes. -/
def course (b : WorkersBench) (moves : List Move) : WorkersBench :=
  moves.foldl move b

/-- What the caller does is made of moves. -/
theorem performAll_eq_course (b : WorkersBench) (actions : List Action) :
    (performAll perform b actions).2 = b.course (actions.map .act) := by
  induction actions generalizing b with
  | nil => rfl
  | cons action rest ih => exact ih (b.perform action).2

theorem exists_moves_of_reaches {p q : Pipeline} (h : Reaches Pipeline.advance p q)
    (b : WorkersBench) : ∃ moves, { b with pipeline := q } = { b with pipeline := p }.course moves := by
  induction h with
  | refl p => exact ⟨[], rfl⟩
  | @step p next q e hstep hrest ih =>
      obtain ⟨moves, hmoves⟩ := ih
      refine ⟨.event e :: moves, ?_⟩
      rw [hmoves, course, course, List.foldl_cons, move, hstep]
      rfl

/-- **A step of a scenario is a list of moves.** -/
theorem exists_moves_step (number : Nat) (b : WorkersBench) (actions : List Action) :
    ∃ moves, (b.step number actions).2 = b.course moves := by
  obtain ⟨moves, hmoves⟩ := exists_moves_of_reaches
    (reaches_settle Pipeline.advance Pipeline.candidates (performAll perform b actions).2.pipeline.work
      (performAll perform b actions).2.pipeline) (performAll perform b actions).2
  refine ⟨actions.map .act ++ moves ++ [.report], ?_⟩
  rw [course, List.foldl_append, List.foldl_append, ← course, ← course, ← course,
    ← performAll_eq_course, ← hmoves]
  rfl

end Scenario.WorkersBench

/-! ### The watch -/

open Scenario (WorkersBench)

/-- Whoever works stays as they are, and nothing is written. Tokens may be cancelled. -/
structure SameWorkers (p q : Pipeline) : Prop where
  idle : q.pool.idle = p.pool.idle
  busy : q.pool.busy = p.pool.busy
  guarded : q.pool.guarded = p.pool.guarded
  coordinator : q.coordinator = p.coordinator
  intake : q.intake = p.intake
  latch : q.latch = p.latch
  protocol : q.protocol = p.protocol
  journal : q.journal = p.journal
  tokens : p.tokens.Extends q.tokens

/-- Docket and pipeline belong together, and whatever sets the latch off cancels run and root. -/
structure Accounted (put : List Location) (received : List Completion) (d : Docket)
    (p : Pipeline) : Prop where
  docketed : Docketed put received d p
  writtenOff : WrittenOff d p
  alert : p.Alert
  armed : p.Armed

/-- A pool with what was put in, what was received, and its docket. -/
structure Watch where
  bench : WorkersBench
  put : List Location := []
  received : List Completion := []
  docket : Docket := {}

namespace Watch

/-- The watch after a move. -/
def move (w : Watch) (m : WorkersBench.Move) : Watch where
  bench := w.bench.move m
  put := w.put ++ w.bench.puts m
  received := w.received ++ w.bench.receives m
  docket := w.docket.follow w.bench.pipeline (w.bench.move m).pipeline

/-- The watch after a list of moves. -/
def run (w : Watch) (moves : List WorkersBench.Move) : Watch :=
  moves.foldl move w

/-- A watch that some pool can come to by some course of moves. -/
def Reachable (w : Watch) : Prop :=
  ∃ workers dispatch completions protocol bench moves,
    WorkersBench.make workers true dispatch completions protocol = .ok bench ∧
      w = run { bench } moves

/-- Watch and pool belong together, and there is nobody but the workers. -/
structure Sound (w : Watch) : Prop where
  accounted : Accounted w.put w.received w.docket w.bench.pipeline
  ended : w.bench.pipeline.coordinator.phase = .ended .done
  producers : w.bench.pipeline.intake.producers = []

end Watch

namespace Accounted

variable {put more : List Location} {received out : List Completion} {d : Docket} {p q : Pipeline}

/-- Nothing happens. -/
theorem stays (h : Accounted put received d p) : Accounted put received (d.follow p p) p := by
  rwa [Docket.follow_self h.docketed.held]

/-- A worker takes a step. -/
theorem workerStep (h : Accounted put received d p) (hstep : p.WorkerStep q) :
    Accounted put received (d.follow p q) q :=
  ⟨h.docketed.workerStep h.writtenOff h.alert.coherent hstep, h.writtenOff.workerStep hstep,
    hstep.signals.alert h.alert, h.armed.alarmed hstep.alarmed⟩

/-- A fetch that was held is given its answer. -/
theorem releaseFetch {j : Job} (h : Accounted put received d p) (hj : j ∈ p.pool.busy)
    (mode : FetchMode) :
    Accounted put received (d.follow p (p.releaseFetch j mode)) (p.releaseFetch j mode) := by
  rw [Pipeline.releaseFetch]
  split
  · rename_i number hstage
    refine ⟨?_, h.writtenOff.exchanges ?_ (.nothing rfl rfl), h.alert, h.armed⟩
    · refine h.docketed.staged ⟨id, id, fun _ => rfl⟩ hj rfl rfl (fun t hfits _ => ?_) rfl rfl rfl
        (by rw [hstage]; rfl) rfl
      have hshows := hfits.shows
      rw [hstage] at hshows ⊢
      exact hshows
    · simp [Pool.isGone, Pool.update]
  · exact h.stays

/-- The caller takes something out of the queues or puts something in, and the workers stay. -/
theorem exchanges (h : Accounted put received d p) (hsame : SameWorkers p q)
    (hqueues : Exchanges p q more out) :
    Accounted (put ++ more) (received ++ out) (d.follow p q) q := by
  have hcancelled : p.isCancelled = true → q.isCancelled = true := by
    intro hcancelled
    rw [isCancelled, hsame.latch]
    exact hsame.tokens.isCancelled hcancelled
  have hgone : q.pool.isGone = p.pool.isGone := by
    rw [Pool.isGone, Pool.isGone, hsame.idle, hsame.busy]
  refine ⟨h.docketed.of_busy_eq ⟨hcancelled, hqueues.closed, fun _ => by rw [hsame.protocol]⟩ ?_
    (hsame.guarded.trans h.docketed.guarded) hsame.busy ?_
    (h.writtenOff.delivered_exchanges hqueues received) (by rw [hsame.journal])
    (by rw [hsame.latch]), h.writtenOff.exchanges hgone hqueues, ?_,
    h.armed.of_eq hsame.latch hsame.tokens⟩
  · rw [Pool.workers, hsame.idle, hsame.busy]
    exact h.docketed.workers
  · rw [h.docketed.order, hqueues.put, dropped_of_isGone_eq hgone, List.append_nil,
      List.append_assoc _ _ more]
  · rw [Alert, hsame.latch]
    exact h.alert.extended hsame.tokens

end Accounted

namespace Watch

open Scenario.WorkersBench (Move Action)

variable {w : Watch}

/-- A move that leaves the pipeline as it is. -/
theorem Sound.unmoved {m : Move} (h : w.Sound) (hput : w.bench.puts m = [])
    (hreceived : w.bench.receives m = [])
    (hpipeline : (w.bench.move m).pipeline = w.bench.pipeline) : (w.move m).Sound := by
  have hstands := h.accounted.stays
  have hmove : w.move m = { w with
      bench := w.bench.move m
      docket := w.docket.follow w.bench.pipeline w.bench.pipeline } := by
    rw [move, hput, hreceived, hpipeline, List.append_nil, List.append_nil]
  rw [hmove]
  exact ⟨hpipeline ▸ hstands, hpipeline ▸ h.ended, hpipeline ▸ h.producers⟩

/-- An action that keeps docket and pipeline together, and leaves coordinator and intake alone. -/
theorem Sound.performed {action : Action} {answer : Scenario.Answer} {bench : WorkersBench}
    (h : w.Sound) (hperform : w.bench.perform action = (answer, bench))
    (haccounted : Accounted (w.put ++ action.put answer) (w.received ++ WorkersBench.received answer)
      (w.docket.follow w.bench.pipeline bench.pipeline) bench.pipeline)
    (hcoordinator : bench.pipeline.coordinator = w.bench.pipeline.coordinator)
    (hintake : bench.pipeline.intake = w.bench.pipeline.intake) : (w.move (.act action)).Sound := by
  obtain ⟨rfl, rfl⟩ := Prod.mk.inj (Eq.symm hperform)
  refine ⟨haccounted, ?_, ?_⟩
  · exact (congrArg Coordinator.phase hcoordinator).trans h.ended
  · exact (congrArg Intake.producers hintake).trans h.producers

/-- An action on queues and tokens. -/
theorem Sound.exchanged {action : Action} {answer : Scenario.Answer} {bench : WorkersBench}
    (h : w.Sound) (hperform : w.bench.perform action = (answer, bench))
    (hsame : SameWorkers w.bench.pipeline bench.pipeline)
    (hqueues : Exchanges w.bench.pipeline bench.pipeline (action.put answer)
      (WorkersBench.received answer)) : (w.move (.act action)).Sound :=
  h.performed hperform (h.accounted.exchanges hsame hqueues) hsame.coordinator hsame.intake

/-- The caller does something. -/
theorem Sound.act (h : w.Sound) (action : Action) : (w.move (.act action)).Sound := by
  have hunmoved : ∀ {answer : Scenario.Answer}, w.bench.perform action = (answer, w.bench) →
      action.put answer = [] → WorkersBench.received answer = [] →
      (w.move (.act action)).Sound := by
    intro answer hperform hput hreceived
    refine h.unmoved ?_ ?_ ?_
    · rw [WorkersBench.puts, hperform, hput]
    · rw [WorkersBench.receives, hperform, hreceived]
    · rw [WorkersBench.move, hperform]
  have hsame : ∀ dispatch completions lock pool counters,
      pool.idle = w.bench.pipeline.pool.idle → pool.busy = w.bench.pipeline.pool.busy →
      pool.guarded = w.bench.pipeline.pool.guarded →
      SameWorkers w.bench.pipeline
        { w.bench.pipeline with dispatch, completions, lock, pool, counters } :=
    fun _ _ _ _ _ hidle hbusy hguarded =>
      ⟨hidle, hbusy, hguarded, rfl, rfl, rfl, rfl, rfl, .refl _⟩
  cases action with
  | dispatch locations =>
      by_cases hdispatching : w.bench.dispatching = true
      · have hitems := Queue.items_offerAll w.bench.pipeline.dispatch locations
        refine h.exchanged (if_pos hdispatching) (hsame _ _ _ _ _ rfl rfl rfl)
          ⟨hitems, fun hclosed => ?_, id, (Exchanges.nothing rfl rfl).received⟩
        rw [Queue.offerAll_of_closed hclosed] at hitems ⊢
        exact ⟨hclosed, List.self_eq_append_right.mp hitems⟩
      · exact hunmoved (if_neg hdispatching) rfl rfl
  | receive n =>
      by_cases hreceiving : w.bench.receiving = true
      · have hclosed := Queue.closed_receiveMany w.bench.pipeline.completions n
        refine h.exchanged (if_pos hreceiving) (hsame _ _ _ _ _ rfl rfl rfl)
          ⟨(List.append_nil _).symm, fun hshut => ⟨hshut, rfl⟩, hclosed.trans, ?_⟩
        rw [discarded_of_closed_eq hclosed, List.append_nil]
        exact Queue.items_receiveMany _ n
      · exact hunmoved (if_neg hreceiving) rfl rfl
  | closeDispatch =>
      refine h.exchanged rfl (hsame _ _ _ _ _ rfl rfl rfl)
        ⟨?_, fun hclosed => ⟨?_, rfl⟩, id, (Exchanges.nothing rfl rfl).received⟩
      · dsimp only [Action.put]
        split <;> simp
      · dsimp only
        split <;> exact hclosed
  | closeCompletions =>
      refine h.exchanged rfl (hsame _ _ _ _ _ rfl rfl rfl)
        ⟨(List.append_nil _).symm, fun hshut => ⟨hshut, rfl⟩,
          fun _ => Queue.closed_dropReceiver _, ?_⟩
      -- whatever is still there is discarded
      have hemptied := h.accounted.writtenOff.completions
      cases hp : w.bench.pipeline.completions.closed with
      | true => simp [discarded, hp, hemptied hp, WorkersBench.received]
      | false => simp [discarded, hp, WorkersBench.received]
  | cancelRun | cancelRoot =>
      exact h.exchanged rfl ⟨rfl, rfl, rfl, rfl, rfl, rfl, rfl, rfl, Tokens.extends_cancel _ _⟩
        (.nothing rfl rfl)
  | release location mode =>
      cases hheld : w.bench.pipeline.heldFetch? location with
      | none =>
          have hperform : w.bench.perform (.release location mode) =
              (.releasedFetch none, w.bench) := by
            rw [WorkersBench.perform, Scenario.releaseFetch, hheld]
          exact hunmoved hperform rfl rfl
      | some j =>
          have hperform : w.bench.perform (.release location mode) =
              (.releasedFetch (some j.location),
                { w.bench with pipeline := w.bench.pipeline.releaseFetch j mode }) := by
            rw [WorkersBench.perform, Scenario.releaseFetch, hheld]
          have hj : j ∈ w.bench.pipeline.pool.busy := List.mem_of_find?_eq_some hheld
          have hstays : (w.bench.pipeline.releaseFetch j mode).coordinator =
                w.bench.pipeline.coordinator ∧
              (w.bench.pipeline.releaseFetch j mode).intake = w.bench.pipeline.intake := by
            rw [Pipeline.releaseFetch_eq]
            exact ⟨rfl, rfl⟩
          refine h.performed hperform ?_ hstays.1 hstays.2
          simpa [Action.put, WorkersBench.received] using h.accounted.releaseFetch hj mode
  | lock =>
      refine h.exchanged rfl (hsame _ _ _ _ _ rfl rfl rfl) ?_
      -- nothing is received, whether the guard is there or not
      dsimp only
      split <;> exact .nothing rfl rfl
  | unlock => exact h.exchanged rfl (hsame _ _ _ _ _ rfl rfl rfl) (.nothing rfl rfl)
  | shutdownPool =>
      exact h.exchanged (if_pos h.accounted.docketed.guarded) (hsame _ _ _ _ _ rfl rfl rfl)
        (.nothing rfl rfl)
  | look => exact hunmoved rfl rfl rfl

/-- Something happens among the workers. -/
theorem Sound.event (h : w.Sound) (e : Event) : (w.move (.event e)).Sound := by
  have hstays : w.bench.pipeline.advance e = none → (w.move (.event e)).Sound := by
    intro hnone
    exact h.unmoved rfl rfl (by rw [WorkersBench.move, hnone, Option.getD_none])
  have hworks : ∀ q, w.bench.pipeline.advance e = some q → w.bench.pipeline.WorkerStep q →
      (w.move (.event e)).Sound := by
    intro q hsome hstep
    obtain rfl : (w.bench.move (.event e)).pipeline = q := by
      rw [WorkersBench.move, hsome, Option.getD_some]
    refine ⟨?_, ?_, ?_⟩
    · simpa [move, WorkersBench.puts, WorkersBench.receives] using h.accounted.workerStep hstep
    · exact (congrArg Coordinator.phase hstep.coordinator).trans h.ended
    · exact (congrArg Intake.producers hstep.intake).trans h.producers
  cases e with
  | coordinate => exact hstays (by simp only [advance, coordinate?, h.ended])
  | dropHook =>
      refine hstays ?_
      simp only [advance, dropHook?, h.ended]
      split <;> rfl
  | work id =>
      cases hsome : w.bench.pipeline.workOn? id with
      | none => exact hstays hsome
      | some q => exact hworks q hsome (workerStep_of_workOn? hsome)
  | dropFetch id =>
      cases hsome : w.bench.pipeline.dropFetch? id with
      | none => exact hstays hsome
      | some q => exact hworks q hsome (workerStep_of_dropFetch? hsome)
  | produce id =>
      refine hstays ?_
      simp only [advance, Intake.advance, h.producers, List.find?_nil, Option.bind_none,
        Option.map_none]

/-- **Every move keeps watch and pool together.** -/
theorem Sound.move (h : w.Sound) (m : Move) : (w.move m).Sound := by
  cases m with
  | act action => exact h.act action
  | event e => exact h.event e
  | report => exact h.unmoved rfl rfl rfl

theorem Sound.run (h : w.Sound) (moves : List Move) : (w.run moves).Sound := by
  induction moves generalizing w with
  | nil => exact h
  | cons m moves ih => exact ih (h.move m)

/-- A pool that was just launched. -/
theorem sound_make {workers dispatch completions : Nat} {protocol : Protocol} {bench : WorkersBench}
    (h : WorkersBench.make workers true dispatch completions protocol = .ok bench) :
    Sound { bench } := by
  simp only [WorkersBench.make, Queue.make, bind, Except.bind, pure, Except.pure] at h
  cases hdispatch : Queue.check dispatch with
  | error misuse => simp [hdispatch, Except.map] at h
  | ok =>
      cases hcompletions : Queue.check completions with
      | error misuse => simp [hdispatch, hcompletions, Except.map] at h
      | ok =>
          simp only [hdispatch, hcompletions, Except.map, Except.ok.injEq] at h
          subst h
          refine ⟨⟨⟨?_, rfl, .nil, rfl, .nil, rfl, by simp, by simp, .nil, rfl⟩,
            ⟨fun _ => rfl, fun hgone => ?_, fun _ => rfl, fun _ => rfl⟩, .of_unset ⟨rfl, rfl⟩, ?_⟩,
            rfl, rfl⟩
          · simp [Pool.workers, Pool.launch, List.nodup_range]
          · -- a pool has a worker
            simp [Pool.isGone, Pool.launch] at hgone
          · intro htriggered
            cases htriggered

/-- **Along every course of moves, watch and pool belong together.** -/
theorem Reachable.sound (h : w.Reachable) : w.Sound := by
  obtain ⟨workers, dispatch, completions, protocol, bench, moves, hmake, rfl⟩ := h
  exact (sound_make hmake).run moves

/-! ### What becomes of a location -/

/-- The takes held are those of the busy workers. -/
theorem Sound.map_location_held (h : w.Sound) :
    w.docket.held.map Take.location = w.bench.pipeline.pool.busy.map Job.location := by
  have hsame : ∀ {held : List Take} {jobs : List Job},
      List.Forall₂ (Take.Fits w.bench.pipeline.isCancelled) held jobs →
        held.map Take.location = jobs.map Job.location := by
    intro held jobs hheld
    induction hheld with
    | nil => rfl
    | cons hfits _ ih => rw [List.map_cons, List.map_cons, hfits.location, ih]
  exact hsame h.accounted.docketed.held

/-- The takes handed in are those of the completions. -/
theorem Sound.map_location_handedIn (h : w.Sound) :
    w.docket.handedIn.map Take.location =
      (w.received ++ w.docket.discarded ++ w.bench.pipeline.completions.items).map
        Completion.location := by
  have hcompletion : w.docket.handedIn.map (fun t => t.completion?.map Completion.location) =
      w.docket.handedIn.map fun t => some t.location := by
    refine List.map_congr_left fun t ht => ?_
    obtain ⟨e, hended, -⟩ := h.accounted.docketed.answered t ht
    simp [Take.completion?, hended]
  have hdelivered := congrArg (List.map (Option.map Completion.location)) h.accounted.docketed.delivered
  rw [List.map_map, List.map_map] at hdelivered
  refine (List.map_injective_iff.mpr (Option.some_injective Location)) ?_
  rw [List.map_map, List.map_map]
  exact (hdelivered.trans hcompletion).symm

/-- Every location that was put in is in one place. -/
theorem Sound.perm_put (h : w.Sound) :
    w.put.Perm
      (w.bench.pipeline.dispatch.items ++ w.bench.pipeline.pool.busy.map Job.location ++
        w.bench.pipeline.completions.items.map Completion.location ++
        w.received.map Completion.location ++ w.docket.lost.map (fun x => x.take.location) ++
        w.docket.discarded.map Completion.location ++ w.docket.dropped) := by
  have htaken := h.accounted.docketed.tickets.map Prod.fst
  rw [List.map_map, List.zipIdx_map_fst] at htaken
  have hplaces : (w.docket.held ++ w.docket.handedIn ++ w.docket.lost.map Loss.take).map
      (Prod.fst ∘ Take.ticket) =
        w.bench.pipeline.pool.busy.map Job.location ++
          (w.received.map Completion.location ++ w.docket.discarded.map Completion.location ++
            w.bench.pipeline.completions.items.map Completion.location) ++
          w.docket.lost.map fun x => x.take.location := by
    rw [← List.map_append, ← List.map_append, ← h.map_location_held, ← h.map_location_handedIn]
    simp [Function.comp_def, Take.ticket]
  rw [hplaces] at htaken
  rw [h.accounted.docketed.order, ← Multiset.coe_eq_coe]
  simp only [← Multiset.coe_add, ← Multiset.coe_eq_coe.mpr htaken]
  abel

/-- **A pool neither loses nor invents locations, unless an end of a queue is dropped.** Along every
course of moves, every location put into the dispatch queue is still there, or some worker has it,
or its completion is on its way, or was received, or it was lost.

A location is lost in one of four ways: its fetch panicked; its completion could not be sent any
more; its completion stood in the queue when the receiving end was dropped; or it stood in the
dispatch queue when the last worker left. A queue whose receiving end is gone is empty.

Locations are taken in the order in which they were put in. Each take is held, handed in or lost,
once, and exactly one fetch is called for it. Completions come out in the order in which they were
handed in, each with the outcome of the fetch that was called for that take: what it answered, or
that it was dropped, which happens only after the token has fired. The fault captured is that of the
first worker that panicked or could not send, and then run and root are cancelled. -/
theorem conserves_locations (h : w.Reachable) :
    let p := w.bench.pipeline
    let d := w.docket
    w.put.Perm
      (p.dispatch.items ++ p.pool.busy.map Job.location ++
        p.completions.items.map Completion.location ++ w.received.map Completion.location ++
        d.lost.map (fun x => x.take.location) ++ d.discarded.map Completion.location ++
        d.dropped) ∧
    (∀ x ∈ d.lost, x.Excused p) ∧
    (d.discarded ≠ [] → p.completions.closed = true) ∧
    (p.completions.closed = true → p.completions.items = []) ∧
    (d.dropped ≠ [] → p.pool.isGone = true) ∧
    (p.pool.isGone = true → p.dispatch.items = []) ∧
    w.put = d.taken ++ d.dropped ++ p.dispatch.items ∧
    ((d.held ++ d.handedIn ++ d.lost.map Loss.take).map Take.ticket).Perm d.taken.zipIdx ∧
    (fetchedIn p.journal).Perm d.called ∧
    (w.received ++ d.discarded ++ p.completions.items).map some =
      d.handedIn.map Take.completion? ∧
    (∀ t ∈ d.handedIn, t.Answered p.isCancelled) ∧
    p.latch.caught = (d.lost.filterMap Loss.fault?).head? ∧
    (p.latch.caught.isSome = true →
      p.isCancelled = true ∧ p.tokens.isCancelled p.latch.root = true) := by
  have hsound := h.sound
  obtain ⟨hdocketed, hoff, halert, harmed⟩ := hsound.accounted
  refine ⟨hsound.perm_put, hdocketed.excused, fun hsome => ?_, hoff.completions, fun hsome => ?_,
    fun hgone => (hoff.dispatch hgone).2, hdocketed.order, hdocketed.tickets, hdocketed.fetches,
    hdocketed.delivered, hdocketed.answered, hdocketed.caught,
    fun hcaught => harmed (halert.coherent.trans hcaught)⟩
  · rw [← Bool.not_eq_false]
    exact fun hopen => hsome (hoff.discarded hopen)
  · rw [← Bool.not_eq_false]
    exact fun hleft => hsome (hoff.dropped hleft)

/-- Two workers and the locations 1, 1, 2 and 3: both fetches of 1 have answered and the completion
of the first was received, the fetch of 2 has panicked, the receiving end is dropped, and the worker
that is left leaves before it takes 3. -/
def torn (bench : WorkersBench) : Watch :=
  let work (id : Nat) : Move := .event (.work id)
  run { bench }
    ([.act (.dispatch ([1, 1, 2, 3].map .number))] ++ List.replicate 4 (work 0) ++
      List.replicate 4 (work 1) ++ [.act (.receive 1)] ++ List.replicate 3 (work 0) ++
      [.act .closeCompletions, work 1])

/-- There every location is accounted for: one 1 was received, 2 was lost, the other 1 was discarded
and 3 was dropped. The panic is what was captured. -/
theorem conserves_locations_torn :
    ∃ bench,
      WorkersBench.make 2 true 4 2
          { fetches := [("2", .panic (.text "torn"))], otherwise := .content none } = .ok bench ∧
      (torn bench).Reachable ∧
      (torn bench).received.map Completion.outcome = [.content "1#1"] ∧
      (torn bench).docket.discarded.map Completion.outcome = [.content "1#2"] ∧
      (torn bench).bench.pipeline.latch.caught = some (.workerPanic 0 (.text "torn")) ∧
      (torn bench).put.Perm
        ([] ++ [] ++ [] ++ [.number 1] ++ [.number 2] ++ [.number 1] ++ [.number 3]) := by
  have hreachable : ∀ {protocol : Protocol} {bench : WorkersBench},
      WorkersBench.make 2 true 4 2 protocol = .ok bench → (torn bench).Reachable :=
    fun hmake => ⟨_, _, _, _, _, _, hmake, rfl⟩
  refine ⟨_, rfl, hreachable rfl, by rfl, by rfl, by rfl, ?_⟩
  exact (conserves_locations (hreachable rfl)).1

/-- A pool of one worker with the locations 7 and 8. The worker has taken 7 when the run is
cancelled, hands in that its fetch was dropped, and leaves. -/
def deserted (bench : WorkersBench) : Watch :=
  let work : Move := .event (.work 0)
  run { bench }
    [.act (.dispatch [.number 7, .number 8]), work, work, .act .cancelRun, .event (.dropFetch 0), work,
      .act (.receive 2)]

/-- The same, but nobody receives the completion of 7 before the receiving end is dropped. -/
def unheard (bench : WorkersBench) : Watch :=
  let work : Move := .event (.work 0)
  run { bench }
    [.act (.dispatch [.number 7, .number 8]), work, work, .act .cancelRun, .event (.dropFetch 0), work,
      .act .closeCompletions]

/-- **Locations are lost without a panic and without a completion that could not be sent.** In the
first pool 8 is nowhere to be found after the worker has left, and no fetch was ever called for it.
In the second one neither is 7, whose completion was sent. -/
theorem lost_with_queue :
    ∃ bench, WorkersBench.make 1 true 4 4 {} = .ok bench ∧
      ((deserted bench).Reachable ∧ (deserted bench).put = [.number 7, .number 8] ∧
        (deserted bench).bench.pipeline.dispatch.items = [] ∧
        (deserted bench).bench.pipeline.pool.busy = [] ∧
        (deserted bench).bench.pipeline.completions.items = [] ∧
        (deserted bench).received.map Completion.location = [.number 7] ∧
        (deserted bench).docket.lost = [] ∧
        fetchedIn (deserted bench).bench.pipeline.journal = [.number 7]) ∧
      (unheard bench).Reachable ∧ (unheard bench).put = [.number 7, .number 8] ∧
        (unheard bench).bench.pipeline.dispatch.items = [] ∧
        (unheard bench).bench.pipeline.pool.busy = [] ∧
        (unheard bench).bench.pipeline.completions.items = [] ∧ (unheard bench).received = [] ∧
        (unheard bench).docket.lost = [] ∧
        (unheard bench).docket.handedIn.map Take.location = [.number 7] :=
  ⟨_, rfl, ⟨⟨1, 4, 4, {}, _, _, rfl, rfl⟩, by rfl, by rfl, by rfl, by rfl, by rfl, by rfl, by rfl⟩,
    ⟨1, 4, 4, {}, _, _, rfl, rfl⟩, by rfl, by rfl, by rfl, by rfl, by rfl, by rfl, by rfl⟩

end Watch

end SharedFetch
