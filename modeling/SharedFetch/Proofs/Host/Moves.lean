import SharedFetch.Proofs.Host.Inversion
import SharedFetch.Proofs.Lock
import SharedFetch.Proofs.Pipeline.Change

/-!
# The moves of a host

A scenario takes a host through large steps: the caller acts, and then the host settles, which
takes as many small steps as it can in an order of its own. Here the small steps stand alone.
A *move* is one thing that the caller does, one event of the host, or the passing of time, and
any list of moves in any order is a course that a run may take. Every step of a scenario is
one of them (`exists_moves_step`).

Whatever the move, the pipeline changes in one of the ways of `Pipeline.Change`, and the intake
queue goes on knowing of every sending end.

## Main results

* `becomes_move`: what can come of a move.
* `moved_move`: what a move does to the pipeline and to the sending ends.
* `exists_moves_step`: a step of a scenario is a list of moves.
-/

namespace SharedFetch

open Pipeline

/-- What somebody outside may answer. -/
inductive Reply where
  | hook
  | fetch
  deriving DecidableEq

/-- What a move does to the pipeline, where `reply` says what the move may answer: the run changes
unanswered, a new run is launched, or a hook or a fetch that was held is given its answer. -/
inductive Effect (reply : Option Reply) (p : Pipeline) : Pipeline → Prop where
  | unanswered {q : Pipeline} (h : p.UnansweredChange q) : Effect reply p q
  | launched {q : Pipeline} (h : p.Launched q) : Effect reply p q
  | hookAnswered (hreply : reply = some .hook) (mode : HookMode) :
      Effect reply p (p.releaseHook mode)
  | fetchAnswered (hreply : reply = some .fetch) {j : Job} (hj : j ∈ p.pool.busy)
      (mode : FetchMode) : Effect reply p (p.releaseFetch j mode)

theorem Effect.change {reply : Option Reply} {p q : Pipeline} (h : Effect reply p q) :
    p.Change q ∨ p.Launched q := by
  cases h with
  | unanswered h => exact .inl h.change
  | launched h => exact .inr h
  | hookAnswered _ mode => exact .inl (.hookReleased mode)
  | fetchAnswered _ hj mode => exact .inl (.fetchReleased hj mode)

/-- The pipeline changes in one of its ways or gives place to a new run, and the intake queue
knows of every sending end afterwards, where the caller then has those in `ends`. -/
structure Moved (reply : Option Reply) (p : Pipeline) (ends : List Nat) (q : Pipeline) : Prop where
  effect : Effect reply p q
  accounted : q.intake.Accounted ends

/-- What stands still in most of what happens apart from coordinator and workers. -/
structure Stands (p q : Pipeline) : Prop where
  plain : q.protocol.plain = p.protocol.plain
  latch : q.latch = p.latch
  counters : q.counters = { p.counters with poolSize := q.counters.poolSize }
  activity : q.activity = p.activity
  outsider : q.lock.outsider = p.lock.outsider
  journal : q.journal = p.journal

theorem Stands.sparesTasks {p q : Pipeline} (h : Stands p q) (htasks : SameTasks p q)
    (hgrows : p.intake.Grows q.intake) : p.SparesTasks q :=
  ⟨htasks, hgrows, h.plain, ⟨[], h.journal, by simp⟩, h.counters, h.activity,
    fun hwrite => .inl (h.outsider ▸ hwrite)⟩

namespace Moved

variable {reply : Option Reply} {p q : Pipeline} {ends : List Nat}

/-- Something happens apart from coordinator and workers. -/
theorem sameTasks (htasks : SameTasks p q) (hstands : Stands p q)
    (htokens : p.tokens.Extends q.tokens) (hgrows : p.intake.Grows q.intake)
    (haccounted : q.intake.Accounted ends) : Moved reply p ends q :=
  ⟨.unanswered (.tasksSpared (hstands.sparesTasks htasks hgrows) hstands.latch htokens), haccounted⟩

/-- Something happens apart from coordinator, workers and intake. -/
theorem sameIntake (haccounted : p.intake.Accounted ends) (htasks : SameTasks p q)
    (hstands : Stands p q) (htokens : p.tokens.Extends q.tokens) (hintake : q.intake = p.intake) :
    Moved reply p ends q :=
  sameTasks htasks hstands htokens (hintake ▸ .refl p.intake) (hintake ▸ haccounted)

/-- Nothing happens to the pipeline. -/
theorem refl (haccounted : p.intake.Accounted ends) : Moved reply p ends p :=
  sameIntake haccounted (by constructor <;> rfl) (by constructor <;> rfl) (.refl _) rfl

/-- Something happens to the intake alone. -/
theorem grown {intake : Intake} (hgrows : p.intake.Grows intake)
    (haccounted : intake.Accounted ends) : Moved reply p ends { p with intake } :=
  sameTasks (by constructor <;> rfl) (by constructor <;> rfl) (.refl _) hgrows haccounted

/-- The coordinator takes a step. -/
theorem coordinated (haccounted : p.intake.Accounted ends)
    (h : p.coordinate? = some q ∨ p.dropHook? = some q) : Moved reply p ends q := by
  have hstep : p.CoordinatorStep q :=
    h.elim coordinatorStep_of_coordinate? coordinatorStep_of_dropHook?
  obtain ⟨queue, hintake, hsenders, -⟩ := hstep.exists_intake
  exact ⟨.unanswered (.coordinated h), hintake ▸ haccounted.queued hsenders⟩

/-- A worker takes a step. -/
theorem worked {id : Nat} (haccounted : p.intake.Accounted ends)
    (h : p.workOn? id = some q ∨ p.dropFetch? id = some q) : Moved reply p ends q := by
  have hstep : p.WorkerStep q := h.elim workerStep_of_workOn? workerStep_of_dropFetch?
  exact ⟨.unanswered (.worked h), hstep.intake ▸ haccounted⟩

/-- A hook that was held is given its answer. -/
theorem hookReleased (haccounted : p.intake.Accounted ends) (mode : HookMode) :
    Moved (some .hook) p ends (p.releaseHook mode) := by
  refine ⟨.hookAnswered rfl mode, ?_⟩
  rw [releaseHook_eq]
  exact haccounted

/-- A fetch that was held is given its answer. -/
theorem fetchReleased {j : Job} (haccounted : p.intake.Accounted ends) (hj : j ∈ p.pool.busy)
    (mode : FetchMode) : Moved (some .fetch) p ends (p.releaseFetch j mode) := by
  refine ⟨.fetchAnswered rfl hj mode, ?_⟩
  rw [releaseFetch_eq]
  exact haccounted

/-- A producer takes a step. -/
theorem produced {intake : Intake} {tokens : Tokens} {id : Nat}
    (haccounted : p.intake.Accounted ends) (h : p.intake.advance tokens id = some intake) :
    Moved reply p ends { p with intake } := by
  obtain ⟨r, hfind, hstep⟩ := Option.bind_eq_some_iff.mp h
  have hmem := List.mem_of_find?_eq_some hfind
  obtain ⟨queue, task, hproduces, rfl⟩ := Intake.exists_produces hstep
  exact .grown (.produced haccounted hmem hproduces) (haccounted.produced hmem hproduces)

/-- Something happens in the pipeline. -/
theorem advanced {event : Event} (haccounted : p.intake.Accounted ends)
    (h : p.advance event = some q) : Moved reply p ends q := by
  cases event with
  | coordinate => exact .coordinated haccounted (.inl h)
  | dropHook => exact .coordinated haccounted (.inr h)
  | work id => exact .worked haccounted (.inl h)
  | dropFetch id => exact .worked haccounted (.inr h)
  | produce id =>
      obtain ⟨intake, hintake, rfl⟩ := Option.map_eq_some_iff.mp h
      exact .produced haccounted hintake

end Moved

namespace Host

variable {reply : Option Reply} {h h' : Host} {op : Operation} {ends : List Nat}

/-- A host without a run has a pipeline that is through. -/
def Rests (h : Host) : Prop :=
  h.running = false → h.pipeline.Finished

/-- A run is launched, and there is one end of its intake. -/
theorem launched_of_start (hrests : h.Rests) (haccounted : h.pipeline.intake.Accounted ends)
    (hstart : h.start = .launched h') :
    Launched h.pipeline h'.pipeline ∧
      h'.pipeline.intake.Accounted (h'.pipeline.intake.era :: ends) := by
  obtain ⟨hidle, rfl⟩ := eq_of_start_launched hstart
  have hsize : 0 < h.poolSize := Nat.lt_of_lt_of_le Nat.one_pos (Nat.le_max_right _ _)
  exact ⟨⟨hrests hidle, rfl, ⟨_, rfl⟩, rfl, ⟨_, rfl⟩, ⟨_, _, hsize, rfl, rfl⟩,
    ⟨rfl, rfl⟩, rfl, rfl⟩,
    haccounted.launch rfl⟩

/-- A run that cannot be launched changes the latch. -/
theorem moved_of_broken {cause : Misuse} (hrests : h.Rests)
    (haccounted : h.pipeline.intake.Accounted ends) (hstart : h.start = .broken h' cause) :
    Moved reply h.pipeline ends h'.pipeline := by
  obtain ⟨hidle, rfl⟩ := eq_of_start_broken hstart
  refine ⟨.unanswered (.renewed ?_ (hrests hidle) ⟨rfl, rfl⟩), haccounted⟩
  exact ⟨by constructor <;> rfl, .refl _, rfl, ⟨[], rfl, by simp⟩, rfl, rfl, .inl⟩

@[simp] theorem pipeline_wakeReporter (h : Host) : h.wakeReporter.pipeline = h.pipeline := by
  rw [wakeReporter]
  split <;> rfl

@[simp] theorem running_wakeReporter (h : Host) : h.wakeReporter.running = h.running := by
  rw [wakeReporter]
  split <;> rfl

@[simp] theorem operation_wakeReporter (h : Host) : h.wakeReporter.operation = h.operation := by
  rw [wakeReporter]
  split <;> rfl

/-- A run that is to be watched over is launched, with a producer that has the one end. -/
theorem moved_openRun {supply : Supply} (hrests : h.Rests)
    (haccounted : h.pipeline.intake.Accounted ends) (hstart : h.start = .launched h') :
    Moved reply h.pipeline ends (h.openRun op supply).pipeline := by
  obtain ⟨hlaunched, hends⟩ := launched_of_start hrests haccounted hstart
  rw [openRun, hstart]
  simp only [turnTo, pipeline_wakeReporter]
  exact ⟨.launched ⟨hlaunched.finished, hlaunched.era, hlaunched.intake, hlaunched.coordinator,
    hlaunched.dispatch, hlaunched.pool, hlaunched.latch, hlaunched.counters,
    hlaunched.activity⟩, hends.start rfl⟩

/-- A run is cancelled. -/
theorem moved_tearDown (haccounted : h.pipeline.intake.Accounted ends) :
    Moved reply h.pipeline ends (h.tearDown op).pipeline := by
  obtain ⟨tokens, htokens, -, heq⟩ := exists_tearDown_eq h op
  rw [heq]
  exact .sameIntake haccounted (by constructor <;> rfl) (by constructor <;> rfl) htokens rfl

/-- The hook for the end of a run has answered, and the producers that worked for the host are
gone. -/
theorem moved_finishShutdown? {mode : HookMode} {fault : Option Fault}
    (haccounted : h.pipeline.intake.Accounted ends)
    (hstep : h.finishShutdown? op fault mode = some h') :
    Moved reply h.pipeline ends h'.pipeline := by
  have hgrows : h.pipeline.intake.Grows h.dismissProducers.pipeline.intake :=
    .of_eq rfl rfl (Nat.le_refl _) rfl
  have hdismissed : h.dismissProducers.pipeline.intake.Accounted ends :=
    haccounted.dismiss fun q => !q.hosted
  obtain ⟨lost, results, -, ⟨-, rfl⟩ | ⟨-, rfl⟩⟩ := exists_eq_of_finishShutdown? hstep
  · exact .sameTasks (by constructor <;> rfl) (by constructor <;> rfl) (.refl _) hgrows hdismissed
  · exact .sameTasks (by constructor <;> rfl) (by constructor <;> rfl) (Tokens.extends_fresh _)
      hgrows hdismissed

/-- The hook for the end of a run is called. -/
theorem moved_callShutdown {lock : Lock Party} {fault : Option Fault}
    (haccounted : h.pipeline.intake.Accounted ends)
    (hlock : lock.outsider = h.pipeline.lock.outsider) :
    Moved reply h.pipeline ends
      ({ h with pipeline := { h.pipeline with lock } }.callShutdown op fault).pipeline := by
  rw [callShutdown]
  cases h.pipeline.protocol.plain with
  | true =>
      simp only [if_true]
      exact .sameIntake haccounted (by constructor <;> rfl) ⟨rfl, rfl, rfl, rfl, hlock, rfl⟩
        (.refl _) rfl
  | false =>
      simp only [Bool.false_eq_true, if_false]
      refine ⟨.unanswered (.tasksSpared ⟨by constructor <;> rfl, .refl _, rfl,
        ⟨[.shutdown], rfl, ?_⟩, rfl, rfl, ?_⟩ rfl (.refl _)), haccounted⟩
      · simp
      · exact fun hwrite => .inl (hlock ▸ hwrite)

/-- The operation of a host goes on. -/
theorem Operates.moved (hoperates : h.Operates op h') (hrests : h.Rests)
    (haccounted : h.pipeline.intake.Accounted ends) :
    Moved reply h.pipeline ends h'.pipeline := by
  cases hoperates with
  | openRefused | workersJoined | returned => exact .refl haccounted
  | openBroken hphase hstart =>
      rw [turnTo, pipeline_wakeReporter]
      exact moved_of_broken hrests haccounted hstart
  | openLaunched hphase hstart => exact moved_openRun hrests haccounted hstart
  | tornDown => exact moved_tearDown haccounted
  | coordinatorJoined | reporterJoined =>
      exact .sameIntake haccounted (by constructor <;> rfl) (by constructor <;> rfl) (.refl _) rfl
  | shutdownCalled hphase hlock =>
      exact moved_callShutdown haccounted (Lock.outsider_of_grant? hlock)
  | concluded hphase hstep => exact moved_finishShutdown? haccounted hstep

/-- Something happens in a host. -/
theorem moved_advance {e : HostEvent} (hrests : h.Rests)
    (haccounted : h.pipeline.intake.Accounted ends) (hstep : h.advance e = some h') :
    Moved reply h.pipeline ends h'.pipeline := by
  cases happens_of_advance hstep with
  | inside _ hinside => exact .advanced haccounted hinside
  | reporterQuit => exact .refl haccounted
  | operated _ hoperates => exact hoperates.moved hrests haccounted

end Host

namespace Scenario.HostBench

/-- What may happen to a host and its caller, one thing at a time. -/
inductive Move where
  /-- The caller acts, in the step with the given number. -/
  | act (number : Nat) (action : Action)
  /-- Something happens in the host. -/
  | event (e : HostEvent)
  /-- The reporter makes the reports that are due. -/
  | wake
  /-- Time passes. -/
  | elapse (ms : Nat)
  /-- What has ended is reported and put away. -/
  | report

/-- What an action may answer. -/
def Action.reply? : Action → Option Reply
  | .release .. => some .fetch
  | .releaseHook .. => some .hook
  | _ => none

/-- What a move may answer. -/
def Move.reply? : Move → Option Reply
  | .act _ action => action.reply?
  | _ => none

/-- Puts away what a report shows. -/
def putAway (b : HostBench) : HostBench :=
  let p := b.host.pipeline
  { b with
    root := if b.host.kind = .runner then b.host.root else b.root
    seen := p.journal.length
    host :=
      { b.host with
        pipeline := { p with intake := p.intake.collect.2 }
        results := []
        reports := [] } }

/-- The host and its caller after a move; a move that is not possible changes nothing. Looking
whether a run has finished lets the host go on first, and those are moves of their own. -/
def move (b : HostBench) : Move → HostBench
  | .act _ .finished => b
  | .act number action => (b.perform number action).2
  | .event e => { b with host := (b.host.advance e).getD b.host }
  | .wake => { b with host := b.host.wakeReporter }
  | .elapse ms => { b with host := b.host.elapse ms }
  | .report => b.putAway

/-- What comes of a move. -/
inductive Becomes (b : HostBench) : Move → HostBench → Prop where
  /-- The move is not possible, or changes nothing. -/
  | stays {m : Move} : Becomes b m b
  | acts {number : Nat} {action : Action} {b' : HostBench} (hacts : b.Acts number action b') :
      Becomes b (.act number action) b'
  | advances {e : HostEvent} {host : Host} (hstep : b.host.advance e = some host) :
      Becomes b (.event e) { b with host }
  | wakes : Becomes b .wake { b with host := b.host.wakeReporter }
  | elapses (ms : Nat) : Becomes b (.elapse ms) { b with host := b.host.elapse ms }
  | reports : Becomes b .report b.putAway

theorem becomes_move (b : HostBench) (m : Move) : b.Becomes m (b.move m) := by
  cases m with
  | act number action =>
      by_cases hfinished : action = .finished
      · subst hfinished
        exact .stays
      · rw [move]
        · exact .acts (acts_perform hfinished)
        · exact hfinished
  | event e =>
      cases hstep : b.host.advance e with
      | none =>
          simp only [move, hstep, Option.getD_none]
          exact .stays
      | some host =>
          simp only [move, hstep, Option.getD_some]
          exact .advances hstep
  | wake => exact .wakes
  | elapse ms => exact .elapses ms
  | report => exact .reports

/-- The pipeline of the host. -/
def pipeline (b : HostBench) : Pipeline :=
  b.host.pipeline

/-- The account of the sending ends that the caller and the producers have. -/
def Accounted (b : HostBench) : Prop :=
  b.pipeline.intake.Accounted b.senders

variable {b : HostBench}

/-- Items that are offered only come to the end, and not at all if the queue is closed. -/
theorem exists_items_offerAll {α : Type} (q : Queue α) (items : List α) :
    (∃ new, (q.offerAll items).2.items = q.items ++ new ∧ (q.closed = true → new = [])) ∧
      (q.offerAll items).2.senders = q.senders ∧ (q.offerAll items).2.closed = q.closed := by
  induction items generalizing q with
  | nil => exact ⟨⟨[], (List.append_nil _).symm, fun _ => rfl⟩, rfl, rfl⟩
  | cons a rest ih =>
      obtain ⟨⟨new, hnew, hnone⟩, hsenders, hclosed⟩ := ih (q.offer a).2
      have hoffer : (∃ new, (q.offer a).2.items = q.items ++ new ∧ (q.closed = true → new = [])) ∧
          (q.offer a).2.senders = q.senders ∧ (q.offer a).2.closed = q.closed := by
        rw [Queue.offer]
        split
        · exact ⟨⟨[], (List.append_nil _).symm, fun _ => rfl⟩, rfl, rfl⟩
        · rename_i hopen
          split
          · exact ⟨⟨[a], rfl, fun hclosed => absurd hclosed hopen⟩, rfl, rfl⟩
          · exact ⟨⟨[], (List.append_nil _).symm, fun _ => rfl⟩, rfl, rfl⟩
      obtain ⟨⟨first, hfirst, hnone'⟩, hsenders', hclosed'⟩ := hoffer
      refine ⟨⟨first ++ new, ?_, fun hshut => ?_⟩, hsenders.trans hsenders',
        hclosed.trans hclosed'⟩
      · rw [← List.append_assoc, ← hfirst]
        exact hnew
      · rw [hnone' hshut, hnone (hclosed'.trans hshut), List.append_nil]

/-- References are offered through the end on top of the stack. -/
theorem moved_offerAll {era : Nat} {ends : List Nat} (haccounted : b.Accounted)
    (hsenders : b.senders = era :: ends) (refs : List Reference) :
    Moved none b.pipeline b.senders
      { b.pipeline with intake := (offerAll b.pipeline.intake era refs).2 } := by
  rw [offerAll]
  split
  · rename_i hera
    obtain ⟨⟨new, hnew, hnone⟩, hkept, hclosed⟩ :=
      exists_items_offerAll b.pipeline.intake.queue refs
    refine .grown (.of_mem haccounted ?_ rfl hnew hnone hclosed)
      (Intake.Accounted.queued haccounted hkept)
    rw [← hera, hsenders]
    exact List.mem_cons_self
  · exact .refl haccounted

/-- All ends are given up. -/
theorem exists_intake_dropAll (ends : List Nat) (b : HostBench)
    (haccounted : b.pipeline.intake.Accounted ends) :
    ∃ intake, b.pipeline.intake.Grows intake ∧ intake.Accounted [] ∧
      (ends.foldl (fun b era => b.onQueue era Queue.dropSender) b).pipeline =
        { b.pipeline with intake } := by
  induction ends generalizing b with
  | nil => exact ⟨b.pipeline.intake, .refl _, haccounted, rfl⟩
  | cons era ends ih =>
      obtain ⟨intake, hgrows, haccounted', heq⟩ :=
        ih (b.onQueue era Queue.dropSender) haccounted.drop
      exact ⟨intake, Intake.Grows.drop.trans hgrows, haccounted', heq⟩

/-- What the caller does is a change of the pipeline. -/
theorem Acts.moved {number : Nat} {action : Action} {b' : HostBench}
    (hacts : b.Acts number action b') (hrests : b.host.Rests) (haccounted : b.Accounted) :
    Moved action.reply? b.pipeline b'.senders b'.pipeline := by
  cases hacts with
  | nothing | idled | drained | opened | supplied | unfed | interrupted | shutdownReleased =>
      exact .refl haccounted
  | launched hfree hstart =>
      obtain ⟨hlaunched, hends⟩ := Host.launched_of_start hrests haccounted hstart
      exact ⟨.launched hlaunched, hends⟩
  | broken hfree hstart => exact Host.moved_of_broken hrests haccounted hstart
  | offered hsenders refs => exact moved_offerAll haccounted hsenders refs
  | @submitted era ends hsenders r =>
      have hmem : era ∈ b.senders := hsenders ▸ List.mem_cons_self
      exact .grown ((Intake.Grows.clone haccounted hmem).trans
        (.of_eq rfl rfl (Nat.le_refl _) rfl)) ((Intake.Accounted.clone haccounted hmem).start rfl)
  | @forwarded era ends hsenders supply =>
      have haccounted' : b.pipeline.intake.Accounted (era :: ends) := hsenders ▸ haccounted
      exact .grown (.of_eq rfl rfl (Nat.le_refl _) rfl) (haccounted'.start rfl)
  | @cloned era ends hsenders =>
      have hmem : era ∈ b.senders := hsenders ▸ List.mem_cons_self
      exact .grown (.clone haccounted hmem) (Intake.Accounted.clone haccounted hmem)
  | @dropped era ends hsenders =>
      have haccounted' : b.pipeline.intake.Accounted (era :: ends) := hsenders ▸ haccounted
      exact .grown .drop haccounted'.drop
  | droppedAll =>
      obtain ⟨intake, hgrows, haccounted', heq⟩ := exists_intake_dropAll b.senders b haccounted
      have hmoved : Moved none b.pipeline [] { b.pipeline with intake } := .grown hgrows haccounted'
      rw [← heq] at hmoved
      exact hmoved
  | stopped => exact Host.moved_tearDown haccounted
  | fed label f =>
      exact .grown (.of_eq rfl rfl (Nat.le_refl _) rfl) (Intake.Accounted.onSupply haccounted label f)
  | cancelled =>
      exact .sameIntake haccounted (by constructor <;> rfl) (by constructor <;> rfl)
        (Tokens.extends_cancel _ _) rfl
  | rootReplaced =>
      exact .sameIntake haccounted (by constructor <;> rfl) (by constructor <;> rfl)
        (Tokens.extends_fresh _) rfl
  | fetchReleased hheld mode =>
      exact .fetchReleased haccounted (List.mem_of_find?_eq_some hheld) mode
  | hookReleased key mode => exact .hookReleased haccounted mode
  | guarded access =>
      refine ⟨.unanswered (.tasksSpared ⟨by constructor <;> rfl, .refl _, rfl,
        ⟨[], rfl, by simp⟩, rfl, rfl, ?_⟩ rfl (.refl _)), haccounted⟩
      exact Lock.outsider_guard
  | unguarded =>
      refine ⟨.unanswered (.tasksSpared ⟨by constructor <;> rfl, .refl _, rfl,
        ⟨[], rfl, by simp⟩, rfl, rfl, ?_⟩ rfl (.refl _)), haccounted⟩
      exact fun hwrite => nomatch hwrite

/-- **Whatever the move**, the pipeline changes in one of its ways and the intake queue goes on
knowing of every sending end. -/
theorem moved_move (hrests : b.host.Rests) (haccounted : b.Accounted) (m : Move) :
    Moved m.reply? b.pipeline (b.move m).senders (b.move m).pipeline := by
  have hbecomes := b.becomes_move m
  generalize b.move m = b' at hbecomes ⊢
  cases hbecomes with
  | stays | elapses => exact .refl haccounted
  | acts hacts => exact hacts.moved hrests haccounted
  | advances hstep => exact Host.moved_advance hrests haccounted hstep
  | wakes =>
      rw [pipeline, pipeline, Host.pipeline_wakeReporter]
      exact .refl haccounted
  | reports =>
      exact .grown (.of_eq rfl rfl (Nat.le_refl _) rfl)
        (Intake.Accounted.dismiss haccounted fun p => p.result?.isNone)

/-- The account of sending ends is kept by every move. -/
theorem Accounted.move (hrests : b.host.Rests) (haccounted : b.Accounted) (m : Move) :
    (b.move m).Accounted :=
  (moved_move hrests haccounted m).accounted

/-! ### Steps of a scenario -/

/-- The course that a list of moves takes. -/
def course (b : HostBench) (moves : List Move) : HostBench :=
  moves.foldl move b

theorem course_append (b : HostBench) (first second : List Move) :
    b.course (first ++ second) = (b.course first).course second :=
  List.foldl_append

/-- Events of the host are moves. -/
theorem exists_moves_of_reaches {host host' : Host} (h : Reaches Host.advance host host')
    (b : HostBench) : ∃ moves, { b with host := host' } = { b with host }.course moves := by
  induction h with
  | refl host => exact ⟨[], rfl⟩
  | @step host next host' e hstep hrest ih =>
      obtain ⟨moves, hmoves⟩ := ih
      refine ⟨.event e :: moves, ?_⟩
      rw [hmoves, course, course, List.foldl_cons, move, hstep]
      rfl

/-- Settling is made of moves. -/
theorem exists_moves_settle (b : HostBench) :
    ∃ moves, { b with host := b.host.settle } = b.course moves := by
  obtain ⟨moves, hmoves⟩ := exists_moves_of_reaches
    (reaches_settle Host.advance Host.candidates b.host.wakeReporter.work b.host.wakeReporter) b
  exact ⟨.wake :: moves, hmoves⟩

/-- Whatever the caller does is made of moves. -/
theorem exists_moves_perform (number : Nat) (b : HostBench) (action : Action) :
    ∃ moves, (b.perform number action).2 = b.course moves := by
  by_cases hfinished : action = .finished
  · subst hfinished
    obtain ⟨moves, hmoves⟩ := exists_moves_settle b
    rw [perform]
    split
    · exact ⟨[], rfl⟩
    · dsimp only
      split
      · exact ⟨moves, hmoves⟩
      · exact ⟨moves ++ [Move.elapse 1], by rw [course_append, ← hmoves]; rfl⟩
  · refine ⟨[.act number action], ?_⟩
    rw [course, List.foldl_cons, move]
    · rfl
    · exact hfinished

theorem exists_moves_performAll (number : Nat) (b : HostBench) (actions : List Action) :
    ∃ moves, (performAll (perform number) b actions).2 = b.course moves := by
  induction actions generalizing b with
  | nil => exact ⟨[], rfl⟩
  | cons action rest ih =>
      obtain ⟨first, hfirst⟩ := exists_moves_perform number b action
      obtain ⟨others, hothers⟩ := ih (b.perform number action).2
      refine ⟨first ++ others, ?_⟩
      rw [course_append, ← hfirst]
      exact hothers

/-- **A step of a scenario is a list of moves.** -/
theorem exists_moves_step (number : Nat) (b : HostBench) (actions : List Action) :
    ∃ moves, (b.step number actions).2 = b.course moves := by
  obtain ⟨acts, hacts⟩ := exists_moves_performAll number b actions
  obtain ⟨settles, hsettles⟩ := exists_moves_settle (b.course acts)
  refine ⟨acts ++ settles ++ [Move.elapse (duration actions), Move.report], ?_⟩
  rw [course_append, course_append, ← hsettles, ← hacts]
  rfl

end Scenario.HostBench

end SharedFetch
