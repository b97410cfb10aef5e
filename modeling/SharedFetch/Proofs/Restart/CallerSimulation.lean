import SharedFetch.Proofs.Host.RootTokens
import SharedFetch.Proofs.Restart.HostSimulation

/-!
# Callers after a past

A caller of a new host and a caller of one that has a past take the same steps. Both get the same
answers, and what is reported to them is the same but for four things. Counters go on from where
they were. The gauge of locations in flight shows what the past has left until a location is
admitted. The highest number of fetches in progress is never below that of the past. Producers that
remain of the past are reported when they finish.

The second caller may cancel tokens of the past before any step. Nobody notices.

## Main results

* `Follows.perform`: each action has the same answer.
* `Follows.step`: each step is reported alike.
* `Follows.runFrom`: and so is a whole run.
-/

namespace SharedFetch

open Pipeline

namespace Scenario

variable {past : Past}

/-- A caller who answers a fetch is told the same. -/
theorem releaseFetch_later {p q : Pipeline} (h : p.Later past q) (location : Option String)
    (mode : FetchMode) :
    (releaseFetch q location mode).1 = (releaseFetch p location mode).1 ∧
      (releaseFetch p location mode).2.Later past (releaseFetch q location mode).2 := by
  rw [releaseFetch, releaseFetch, h.heldFetch?]
  split
  · exact ⟨rfl, h⟩
  · exact ⟨rfl, h.releaseFetch _ mode⟩

/-- The reference whose hook is held is the same. -/
theorem heldKey?_later {p q : Pipeline} (h : p.Later past q) : heldKey? q = heldKey? p := by
  rw [heldKey?, heldKey?, h.heldHook?]

/-- A caller who answers a hook is told the same. -/
theorem releaseHook_later {p q : Pipeline} (h : p.Later past q) (key : Option String)
    (mode : HookMode) :
    (releaseHook q key mode).1 = (releaseHook p key mode).1 ∧
      (releaseHook p key mode).2.Later past (releaseHook q key mode).2 := by
  rw [releaseHook, releaseHook, heldKey?_later h]
  split
  · exact ⟨rfl, h⟩
  · split
    · exact ⟨rfl, h.releaseHook mode⟩
    · exact ⟨rfl, h⟩

/-- Nobody waits in a run that is through. -/
theorem releaseFetch_of_finished {p : Pipeline} (h : p.Finished) (location : Option String)
    (mode : FetchMode) : releaseFetch p location mode = (.releasedFetch none, p) := by
  have hnone : p.heldFetch? location = none := by
    rw [Pipeline.heldFetch?, h.nobody.2]
    rfl
  rw [releaseFetch, hnone]

/-- In a run that is through no hook is held. -/
theorem heldKey?_of_finished {p : Pipeline} (h : p.Finished) : heldKey? p = none := by
  obtain ⟨ending, hphase⟩ := exists_of_isOver h.ended
  rw [heldKey?, Pipeline.heldHook?, hphase]
  rfl

/-- In a run that is through there is no hook to answer. -/
theorem releaseHook_of_finished {p : Pipeline} (h : p.Finished) (key : Option String)
    (mode : HookMode) : releaseHook p key mode = (.releasedHook none, p) := by
  rw [releaseHook, heldKey?_of_finished h]

namespace HostBench

/-- What a caller keeps, as it is later, with the host given. -/
def after (past : Past) (b : HostBench) (host : Host) : HostBench :=
  { b with
    host
    root := past.token b.root
    senders := b.senders.map (· + past.era)
    seen := b.seen + past.journal.length }

/-- A caller as it is later. -/
inductive Later (past : Past) (b : HostBench) : HostBench → Prop where
  | mk {k : Host} (hhost : b.host.Later past k) : Later past b (b.after past k)

/-- Two callers whose hosts have no run yet. Nobody has a sending end. -/
inductive Poised (past : Past) (b : HostBench) : HostBench → Prop where
  | mk {k : Host} (hhost : b.host.Poised past k) (hsenders : b.senders = []) :
      Poised past b (b.after past k)

/-- Two callers, one of a new host and the other of one that has a past, at the same point of what
both do. -/
def Follows (past : Past) (b c : HostBench) : Prop :=
  b.Poised past c ∨ b.Later past c

/-- What two callers are answered, and what they have then. -/
def SameAnswer (past : Past) (x y : Answer × HostBench) : Prop :=
  y.1 = x.1 ∧ x.2.Follows past y.2

/-! ### From the first launch on -/

namespace Later

variable {b c : HostBench} {number : Nat}

/-- The host is the same, later. -/
theorem host (hlater : b.Later past c) : b.host.Later past c.host := by
  cases hlater with
  | mk hhost => exact hhost

/-- The hosts change. -/
theorem withHost (hlater : b.Later past c) {h k : Host} (hhost : h.Later past k) :
    { b with host := h }.Later past { c with host := k } := by
  cases hlater with
  | mk _ => exact ⟨hhost⟩

/-- The pipelines change. -/
theorem withPipeline (hlater : b.Later past c) {p q : Pipeline} (hpipeline : p.Later past q) :
    (b.onPipeline fun _ => p).Later past (c.onPipeline fun _ => q) :=
  hlater.withHost (hlater.host.withPipeline hpipeline)

/-- The sending ends that the caller keeps change. -/
theorem withSenders (hlater : b.Later past c) (senders : List Nat) :
    { b with senders }.Later past { c with senders := senders.map (· + past.era) } := by
  cases hlater with
  | mk hhost => exact ⟨hhost⟩

/-- A run is launched, and the caller has the sending end of its intake. -/
theorem launched (k₀ : Host) {h k : Host} (hhost : h.Later past k) :
    { b with host := h, senders := h.pipeline.intake.era :: b.senders }.Later past
      { b.after past k₀ with
        host := k
        senders := k.pipeline.intake.era :: (b.after past k₀).senders } := by
  rw [hhost.pipeline.intake.era]
  exact ⟨hhost⟩

/-- The intakes change. -/
theorem onIntake (hlater : b.Later past c) {f g : Intake → Intake}
    (hintake : (f b.host.pipeline.intake).Later past (g c.host.pipeline.intake)) :
    (b.onIntake f).Later past (c.onIntake g) :=
  hlater.withHost (hlater.host.withIntake hintake)

/-- The caller starts a producer. -/
theorem startProducer (hlater : b.Later past c) (label era : Nat) (task : Task) :
    (b.onIntake fun i => i.start label era task false).Later past
      (c.onIntake fun i => i.start label (era + past.era) (task.later past) false) :=
  hlater.onIntake (hlater.host.pipeline.intake.start label era task false)

/-- The queue of an era changes, in a way that has nothing to do with names. -/
theorem onQueue (hlater : b.Later past c) (era : Nat) {f : Queue Reference → Queue Reference}
    (hcommute : ∀ q : Queue Reference, f (q.later past) = (f q).later past) :
    (b.onQueue era f).Later past (c.onQueue (era + past.era) f) := by
  have hintake := hlater.host.pipeline.intake
  have hqueue : f c.host.pipeline.intake.queue = (f b.host.pipeline.intake.queue).later past := by
    rw [hintake.queue, hcommute]
  refine hlater.onIntake ?_
  by_cases hera : era = b.host.pipeline.intake.era
  · rw [if_pos hera, if_pos (by rw [hera, hintake.era]), hqueue]
    exact hintake.withQueue _
  · rw [if_neg hera, if_neg (by rwa [hintake.era, Nat.add_right_cancel_iff])]
    exact hintake

/-- All sending ends are dropped. -/
theorem dropSenders (hlater : b.Later past c) (senders : List Nat) :
    (senders.foldl (fun b era => b.onQueue era Queue.dropSender) b).Later past
      ((senders.map (· + past.era)).foldl (fun b era => b.onQueue era Queue.dropSender) c) := by
  induction senders generalizing b c with
  | nil => exact hlater
  | cons era rest ih => exact ih (hlater.onQueue era fun _ => rfl)

end Later

/-- References are offered as before, through a sending end that has its later name. -/
theorem offerAll_later {i j : Intake} (h : i.Later past j) (era : Nat) (refs : List Reference) :
    (offerAll j (era + past.era) refs).1 = (offerAll i era refs).1 ∧
      (offerAll i era refs).2.Later past (offerAll j (era + past.era) refs).2 := by
  by_cases hera : era = i.era
  · rw [offerAll, offerAll, if_pos hera, if_pos (by rw [hera, h.era]), h.queue, Queue.offerAll_later]
    exact ⟨rfl, h.withQueue _⟩
  · rw [offerAll, offerAll, if_neg hera, if_neg (by rwa [h.era, Nat.add_right_cancel_iff])]
    exact ⟨rfl, h⟩

/-- From the first launch on, each action has the same answer. -/
theorem Later.perform {b c : HostBench} {number : Nat} (hlater : b.Later past c)
    (hreachable : b.host.Reachable) (action : Action) :
    SameAnswer past (perform number b action) (perform number c action) := by
  have hsame := hlater
  have hbusy : c.isBusy = b.isBusy := hlater.host.isBusy
  obtain @⟨k, hhost⟩ := hlater
  have hpipeline := hhost.pipeline
  have hmapped : (b.after past k).senders = b.senders.map (· + past.era) := rfl
  have hfeed : (b.after past k).feed = b.feed := rfl
  have hadded : ∀ q : Queue Reference, (q.later past).addSender = q.addSender.later past :=
    fun _ => rfl
  have hdropped : ∀ q : Queue Reference, (q.later past).dropSender = q.dropSender.later past :=
    fun _ => rfl
  cases action with
  | start =>
      have hstart := hhost.start
      rw [HostBench.perform, HostBench.perform, hbusy]
      dsimp only [after]
      split
      · exact ⟨rfl, .inr hsame⟩
      · generalize b.host.start = x, k.start = y at hstart ⊢
        cases hstart with
        | refused fault => exact ⟨rfl, .inr hsame⟩
        | broken hbroken cause => exact ⟨rfl, .inr ⟨hbroken⟩⟩
        | launched hlaunched => exact ⟨rfl, .inr (.launched k hlaunched)⟩
  | trySubmit refs =>
      rw [HostBench.perform, HostBench.perform, hmapped]
      cases hsenders : b.senders with
      | nil => exact ⟨rfl, .inr hsame⟩
      | cons era rest =>
          rw [List.map_cons]
          dsimp only
          obtain ⟨hoffers, hintake⟩ := offerAll_later hsame.host.pipeline.intake era refs
          exact ⟨congrArg Answer.submittedAll hoffers,
            .inr (hsame.onIntake (f := fun _ => _) (g := fun _ => _) hintake)⟩
  | submit r =>
      rw [HostBench.perform, HostBench.perform, hmapped]
      cases hsenders : b.senders with
      | nil => exact ⟨rfl, .inr hsame⟩
      | cons era rest =>
          exact ⟨rfl, .inr ((hsame.onQueue era hadded).startProducer number era (.submit r false))⟩
  | forward supply =>
      rw [HostBench.perform, HostBench.perform, hmapped]
      cases hsenders : b.senders with
      | nil => exact ⟨rfl, .inr hsame⟩
      | cons era rest =>
          exact ⟨rfl, .inr ((hsame.withSenders rest).startProducer number era
            (.forward b.root supply none 0))⟩
  | clone =>
      rw [HostBench.perform, HostBench.perform, hmapped]
      cases hsenders : b.senders with
      | nil => exact ⟨rfl, .inr hsame⟩
      | cons era rest =>
          refine ⟨by simp, .inr ?_⟩
          exact (hsame.onQueue era hadded).withSenders (era :: era :: rest)
  | drop =>
      rw [HostBench.perform, HostBench.perform, hmapped]
      cases hsenders : b.senders with
      | nil => exact ⟨rfl, .inr hsame⟩
      | cons era rest =>
          refine ⟨by simp, .inr ?_⟩
          exact (hsame.onQueue era hdropped).withSenders rest
  | dropAll => exact ⟨rfl, .inr ((hsame.dropSenders b.senders).withSenders [])⟩
  | stop =>
      rw [HostBench.perform, HostBench.perform, hbusy]
      split
      · exact ⟨rfl, .inr hsame⟩
      · exact ⟨rfl, .inr ⟨hhost.beginStop _⟩⟩
  | drain =>
      rw [HostBench.perform, HostBench.perform, hbusy]
      split
      · exact ⟨rfl, .inr hsame⟩
      · exact ⟨rfl, .inr ⟨hhost.beginDrain _⟩⟩
  | run supply =>
      rw [HostBench.perform, HostBench.perform, hbusy, hsame.host.kind]
      split
      · exact ⟨rfl, .inr hsame⟩
      · split
        · exact ⟨rfl, .inr hsame⟩
        · exact ⟨rfl, .inr ⟨hhost.begun _⟩⟩
  | push refs =>
      rw [HostBench.perform, HostBench.perform, hfeed]
      split
      · exact ⟨rfl, .inr hsame⟩
      · rw [hsame.host.isFed]
        split
        · exact ⟨rfl, .inr ⟨hhost.onSupply _ _⟩⟩
        · exact ⟨rfl, .inr hsame⟩
  | endFeed =>
      rw [HostBench.perform, HostBench.perform, hfeed]
      split
      · exact ⟨rfl, .inr hsame⟩
      · exact ⟨rfl, .inr ⟨hhost.onSupply _ _⟩⟩
  | interrupt =>
      rw [HostBench.perform, HostBench.perform, hsame.host.operation]
      split
      · split
        · exact ⟨rfl, .inr ⟨hhost.interrupt⟩⟩
        · exact ⟨rfl, .inr hsame⟩
      · exact ⟨rfl, .inr hsame⟩
  | cancel => exact ⟨rfl, .inr ⟨hhost.cancel _⟩⟩
  | replaceRoot =>
      have hrenewed := hhost.renewRoot
      rw [HostBench.perform, HostBench.perform, hbusy, hsame.host.running, hsame.host.kind]
      split
      · exact ⟨rfl, .inr hsame⟩
      · dsimp only [after]
        rw [hrenewed.root]
        exact ⟨rfl, .inr ⟨hrenewed⟩⟩
  | finished =>
      have hsettled := hsame.host.settle hreachable
      rw [HostBench.perform, HostBench.perform, hbusy]
      split
      · exact ⟨rfl, .inr hsame⟩
      · dsimp only
        rw [hsettled.handles, hsettled.pipeline.isOver]
        split
        · exact ⟨rfl, .inr (hsame.withHost hsettled)⟩
        · exact ⟨rfl, .inr (hsame.withHost (hsettled.elapse 1))⟩
  | release location mode =>
      obtain ⟨hanswer, hreleased⟩ := releaseFetch_later hpipeline location mode
      exact ⟨hanswer, .inr (hsame.withPipeline hreleased)⟩
  | releaseHook key mode =>
      obtain ⟨hanswer, hreleased⟩ := releaseHook_later hpipeline key mode
      rw [HostBench.perform, HostBench.perform, hsame.host.holdsShutdown]
      split
      · split
        · exact ⟨rfl, .inr ⟨hhost.releaseShutdown mode⟩⟩
        · exact ⟨rfl, .inr hsame⟩
      · exact ⟨hanswer, .inr (hsame.withPipeline hreleased)⟩
  | guard access =>
      rw [HostBench.perform, HostBench.perform, hsame.host.pipeline.lock]
      exact ⟨rfl, .inr (hsame.withPipeline { hpipeline with lock := rfl })⟩
  | unguard =>
      rw [HostBench.perform, HostBench.perform, hsame.host.pipeline.lock]
      exact ⟨rfl, .inr (hsame.withPipeline { hpipeline with lock := rfl })⟩
  | sleep _ | look => exact ⟨rfl, .inr hsame⟩

/-! ### Until the first launch -/

namespace Poised

variable {b c : HostBench} {number : Nat}

/-- The hosts are poised. -/
theorem host (hpoised : b.Poised past c) : b.host.Poised past c.host := by
  cases hpoised with
  | mk hhost hsenders => exact hhost

/-- The hosts change. -/
theorem withHost (hpoised : b.Poised past c) {h k : Host} (hhost : h.Poised past k) :
    { b with host := h }.Poised past { c with host := k } := by
  cases hpoised with
  | mk _ hsenders => exact ⟨hhost, hsenders⟩

/-- The host goes on, and may launch its first run. -/
theorem withFollowing (hpoised : b.Poised past c) {h k : Host} (hhost : h.Follows past k) :
    { b with host := h }.Follows past { c with host := k } := by
  cases hpoised with
  | mk _ hsenders => exact hhost.imp (fun hhost => ⟨hhost, hsenders⟩) fun hhost => ⟨hhost⟩

/-- Until the first launch, each action has the same answer. -/
theorem perform (hpoised : b.Poised past c) (hreachable : b.host.Reachable) (action : Action) :
    SameAnswer past (perform number b action) (perform number c action) := by
  have hsame := hpoised
  have hbusy : c.isBusy = b.isBusy := hpoised.host.isBusy
  obtain @⟨k, hhost, hsenders⟩ := hpoised
  have hmapped : (b.after past k).senders = [] := by
    rw [after, hsenders]
    rfl
  have hfeed : (b.after past k).feed = b.feed := rfl
  cases action with
  | start =>
      rw [HostBench.perform, HostBench.perform, hbusy]
      split
      · exact ⟨rfl, .inl hsame⟩
      · rw [hhost.bare.start, hsame.host.bare'.start]
        exact ⟨rfl, .inr (.launched k hhost.launch)⟩
  | trySubmit refs | submit r | forward supply | clone | drop =>
      rw [HostBench.perform, HostBench.perform, hmapped, hsenders]
      exact ⟨rfl, .inl hsame⟩
  | dropAll =>
      rw [HostBench.perform, HostBench.perform, hmapped, hsenders]
      exact ⟨rfl, .inl ⟨hhost, rfl⟩⟩
  | stop =>
      rw [HostBench.perform, HostBench.perform, hbusy]
      split
      · exact ⟨rfl, .inl hsame⟩
      · exact ⟨rfl, .inl (hsame.withHost (hhost.beginStop _))⟩
  | drain =>
      rw [HostBench.perform, HostBench.perform, hbusy]
      split
      · exact ⟨rfl, .inl hsame⟩
      · exact ⟨rfl, .inl (hsame.withHost (hhost.beginDrain _))⟩
  | run supply =>
      rw [HostBench.perform, HostBench.perform, hbusy, hsame.host.kind]
      split
      · exact ⟨rfl, .inl hsame⟩
      · split
        · exact ⟨rfl, .inl hsame⟩
        · exact ⟨rfl, .inl ⟨hhost.begun (.inl ⟨supply, rfl⟩), hsenders⟩⟩
  | push refs =>
      rw [HostBench.perform, HostBench.perform, hfeed]
      split
      · exact ⟨rfl, .inl hsame⟩
      · rw [hsame.host.isFed]
        split
        · exact ⟨rfl, .inl (hsame.withHost (hhost.onSupply _ _))⟩
        · exact ⟨rfl, .inl hsame⟩
  | endFeed =>
      rw [HostBench.perform, HostBench.perform, hfeed]
      split
      · exact ⟨rfl, .inl hsame⟩
      · exact ⟨rfl, .inl ⟨hhost.onSupply _ _, hsenders⟩⟩
  | interrupt =>
      rw [HostBench.perform, HostBench.perform, hsame.host.operation]
      split
      · split
        · rw [hhost.bare.interrupt, hsame.host.bare'.interrupt]
          exact ⟨rfl, .inl hsame⟩
        · exact ⟨rfl, .inl hsame⟩
      · exact ⟨rfl, .inl hsame⟩
  | cancel => exact ⟨rfl, .inl (hsame.withHost (hhost.cancel _))⟩
  | replaceRoot =>
      have hrenewed := hhost.renewRoot
      rw [HostBench.perform, HostBench.perform, hbusy, hsame.host.bare'.running, hhost.bare.running,
        hsame.host.kind]
      split
      · exact ⟨rfl, .inl hsame⟩
      · dsimp only [after]
        rw [hrenewed.root]
        exact ⟨rfl, .inl ⟨hrenewed, hsenders⟩⟩
  | finished =>
      have hsettled := Host.Follows.settle (.inl hsame.host) hreachable
      rw [HostBench.perform, HostBench.perform, hbusy]
      split
      · exact ⟨rfl, .inl hsame⟩
      · dsimp only
        rcases hsettled with hstays | hlaunched
        · rw [hstays.bare.done, hstays.bare'.done]
          exact ⟨rfl, .inl (hsame.withHost hstays)⟩
        · rw [hlaunched.handles, hlaunched.pipeline.isOver]
          split
          · exact ⟨rfl, hsame.withFollowing (.inr hlaunched)⟩
          · exact ⟨rfl, hsame.withFollowing (.inr (hlaunched.elapse 1))⟩
  | release location mode =>
      rw [HostBench.perform, HostBench.perform, releaseFetch_of_finished hhost.bare.finished,
        releaseFetch_of_finished hsame.host.bare'.finished]
      exact ⟨rfl, .inl hsame⟩
  | releaseHook key mode =>
      rw [HostBench.perform, HostBench.perform, hsame.host.bare'.holdsShutdown,
        hhost.bare.holdsShutdown, releaseHook_of_finished hhost.bare.finished,
        releaseHook_of_finished hsame.host.bare'.finished]
      exact ⟨rfl, .inl hsame⟩
  | guard access =>
      rw [HostBench.perform, HostBench.perform, hsame.host.lasts.lock]
      exact ⟨rfl, .inl (hsame.withHost (hhost.withLasting hhost.lasts.tokens rfl))⟩
  | unguard =>
      rw [HostBench.perform, HostBench.perform, hsame.host.lasts.lock]
      exact ⟨rfl, .inl (hsame.withHost (hhost.withLasting hhost.lasts.tokens rfl))⟩
  | sleep _ | look => exact ⟨rfl, .inl hsame⟩

end Poised

end HostBench

end Scenario

/-- A chronicle follows the course of its bench. -/
theorem Chronicle.bench_run (c : Chronicle) (moves : List Scenario.HostBench.Move) :
    (c.run moves).bench = c.bench.course moves := by
  induction moves generalizing c with
  | nil => rfl
  | cons m moves ih => exact ih (c.move m)

namespace Scenario

variable {past : Past}

namespace HostBench

/-! ### Steps -/

/-- A caller that some course of moves comes to. -/
def Reachable (b : HostBench) : Prop :=
  ∃ c : Chronicle, c.Reachable ∧ c.bench = b

namespace Reachable

variable {b : HostBench}

/-- The host of such a bench is reachable as well. -/
theorem host (hreachable : b.Reachable) : b.host.Reachable := by
  obtain ⟨c, hc, rfl⟩ := hreachable
  exact ⟨c, hc, rfl⟩

/-- A course of moves goes on. -/
theorem course (hreachable : b.Reachable) (moves : List Move) : (b.course moves).Reachable := by
  obtain ⟨c, hc, rfl⟩ := hreachable
  exact ⟨c.run moves, hc.run moves, c.bench_run moves⟩

/-- An action is one of the moves. -/
theorem perform (hreachable : b.Reachable) (number : Nat) (action : Action) :
    (perform number b action).2.Reachable := by
  obtain ⟨moves, hmoves⟩ := exists_moves_perform number b action
  rw [hmoves]
  exact hreachable.course moves

/-- Actions are moves, one after the other. -/
theorem performAll (hreachable : b.Reachable) (number : Nat) (actions : List Action) :
    (performAll (HostBench.perform number) b actions).2.Reachable := by
  obtain ⟨moves, hmoves⟩ := exists_moves_performAll number b actions
  rw [hmoves]
  exact hreachable.course moves

/-- A step is a course of moves. -/
theorem step (hreachable : b.Reachable) (number : Nat) (actions : List Action) :
    (step number b actions).2.Reachable := by
  obtain ⟨moves, hmoves⟩ := exists_moves_step number b actions
  rw [hmoves]
  exact hreachable.course moves

/-- Nothing is taken out of the journal. -/
theorem mem_journal_step (hreachable : b.Reachable) (number : Nat) (actions : List Action)
    {e : Entry} (he : e ∈ b.host.pipeline.journal) :
    e ∈ (HostBench.step number b actions).2.host.pipeline.journal := by
  obtain ⟨c, hc, rfl⟩ := hreachable
  obtain ⟨moves, hmoves⟩ := exists_moves_step number c.bench actions
  obtain ⟨new, hnew⟩ := hc.sound.exists_journal moves
  rw [hmoves, ← c.bench_run]
  rw [Chronicle.pipeline, HostBench.pipeline] at hnew
  rw [hnew]
  exact List.mem_append_right _ he

end Reachable

/-- What is reported of a caller whose host has settled. -/
def shown (answers : List Answer) (b : HostBench) : Report where
  answers
  finished := b.host.pipeline.intake.collect.1
  concluded := b.host.results
  entries := b.host.pipeline.history.drop b.seen
  heldFetches := b.host.pipeline.pool.held
  heldHook := heldHook? b.host
  counters := b.host.pipeline.counters
  activity := b.host.pipeline.activity
  host := if b.isBusy then none else some (b.host.running, b.host.pipeline.pool.handles)
  sender := b.senderView?
  rootCancelled := b.host.pipeline.tokens.isCancelled b.putAway.root
  metrics := b.host.reports

/-- A step reports what is seen of the host once it has settled, and puts that away. -/
theorem step_eq (number : Nat) (b : HostBench) (actions : List Action) :
    step number b actions =
      let performed := performAll (perform number) b actions
      let settled :=
        { performed.2 with host := performed.2.host.settle.elapse (duration actions) }
      (settled.shown performed.1, settled.putAway) :=
  rfl

/-- The top sender sees the same. -/
theorem senderView?_after {b : HostBench} {k : Host} (h : b.host.pipeline.Later past k.pipeline) :
    (b.after past k).senderView? = b.senderView? := by
  simp only [senderView?, after, List.head?_map, Option.map_map, Function.comp_def, h.intake.era,
    h.intake.queue, Nat.add_right_cancel_iff, IntakeBench.senderView, Queue.free_later]
  rfl

/-- What is collected at the end of a step can be collected first and moved into the past then. -/
theorem putAway_after {b : HostBench} {k : Host} (hkind : k.kind = b.host.kind)
    (hroot : k.root = past.token b.host.root)
    (hjournal : k.pipeline.journal = b.host.pipeline.journal ++ past.journal) :
    (b.after past k).putAway =
      b.putAway.after past { k with
        pipeline := { k.pipeline with intake := k.pipeline.intake.collect.2 }
        results := []
        reports := [] } := by
  simp only [putAway, after, hkind, hroot, hjournal, List.length_append]
  congr 1
  split <;> rfl

/-- Two reports that differ in what was counted in the past. The gauge of locations in flight is
left open. Producers of the past that have ended meanwhile come before the others. -/
structure Report.Later (past : Past) (r s : Report) : Prop where
  answers : s.answers = r.answers
  finished : ∃ earlier, s.finished = earlier ++ r.finished ∧ ∀ x ∈ earlier, x.1 ∈ past.remaining
  concluded : s.concluded = r.concluded
  entries : s.entries = r.entries
  heldFetches : s.heldFetches = r.heldFetches
  heldHook : s.heldHook = r.heldHook
  counters : s.counters = r.counters.later past s.counters.inFlight
  activity : s.activity = r.activity.later past
  host : s.host = r.host
  sender : s.sender = r.sender
  rootCancelled : s.rootCancelled = r.rootCancelled
  metrics : List.Forall₂ (LogLine.Later past) r.metrics s.metrics

namespace Follows

variable {b c : HostBench} {number : Nat}

/-- **Each action has the same answer.** -/
theorem perform (hfollows : b.Follows past c) (hreachable : b.Reachable) (action : Action) :
    SameAnswer past (perform number b action) (perform number c action) := by
  rcases hfollows with hpoised | hlater
  · exact hpoised.perform hreachable.host action
  · exact hlater.perform hreachable.host action

/-- **A list of actions has the same answers.** -/
theorem performAll (hfollows : b.Follows past c) (hreachable : b.Reachable) (number : Nat)
    (actions : List Action) :
    (performAll (HostBench.perform number) c actions).1 =
        (performAll (HostBench.perform number) b actions).1 ∧
      (performAll (HostBench.perform number) b actions).2.Follows past
        (performAll (HostBench.perform number) c actions).2 := by
  induction actions generalizing b c with
  | nil => exact ⟨rfl, hfollows⟩
  | cons action rest ih =>
      obtain ⟨hanswer, hnext⟩ := hfollows.perform hreachable action
      obtain ⟨hanswers, hlast⟩ := ih hnext (hreachable.perform number action)
      exact ⟨congrArg₂ List.cons hanswer hanswers, hlast⟩

/-- The host goes on by itself. -/
theorem settle (hfollows : b.Follows past c) (hreachable : b.Reachable) (ms : Nat) :
    { b with host := b.host.settle.elapse ms }.Follows past
      { c with host := c.host.settle.elapse ms } := by
  rcases hfollows with hpoised | hlater
  · exact hpoised.withFollowing ((Host.Follows.settle (.inl hpoised.host) hreachable.host).elapse ms)
  · exact .inr (hlater.withHost ((hlater.host.settle hreachable.host).elapse ms))

/-- What was reported is put away. -/
theorem putAway (hfollows : b.Follows past c) : b.putAway.Follows past c.putAway := by
  rcases hfollows with @⟨k, hhost, hsenders⟩ | @⟨k, hhost⟩
  · have hlasts := hhost.lasts
    rw [putAway_after hhost.kind hhost.root hlasts.journal]
    refine .inl ⟨?_, hsenders⟩
    have hkept : ∀ {h : Host}, h.Bare → { h with
        pipeline := { h.pipeline with intake := h.pipeline.intake.collect.2 }
        results := []
        reports := [] }.Bare := fun hbare =>
      { hbare with
        finished := ⟨hbare.finished.ended, hbare.finished.gone⟩
        hosted := fun q hq => hbare.hosted q (List.mem_filter.mp hq).1 }
    exact { hhost with
      bare := hkept hhost.bare
      bare' := hkept hhost.bare'
      lasts := { hlasts with }
      results := rfl
      reports := .nil
      producers := by
        simp only [HostBench.putAway, Intake.collect, hhost.producers, List.filter_nil]
      pastProducers := hhost.pastProducers.filter _ }
  · have hpipeline := hhost.pipeline
    rw [putAway_after hhost.kind hhost.root hpipeline.journal]
    refine .inr ⟨?_⟩
    cases hhost with
    | mk _ hreports =>
        exact ⟨{ hpipeline with intake := hpipeline.intake.collect.2 }, .nil⟩

/-- The token that the caller has next is the later one. -/
theorem isCancelled (hfollows : b.Follows past c) :
    c.host.pipeline.tokens.isCancelled c.putAway.root =
      b.host.pipeline.tokens.isCancelled b.putAway.root := by
  rcases hfollows with @⟨k, hhost, hsenders⟩ | @⟨k, hhost⟩
  · rw [putAway_after hhost.kind hhost.root hhost.lasts.journal]
    exact hhost.lasts.tokens.isCancelled _
  · rw [putAway_after hhost.kind hhost.root hhost.pipeline.journal]
    exact hhost.pipeline.tokens.isCancelled _

/-- What is reported is the same but for what was counted. -/
theorem shown (hfollows : b.Follows past c) (answers : List Answer) :
    (b.shown answers).Later past (c.shown answers) := by
  have hcancelled := hfollows.isCancelled
  rcases hfollows with @⟨k, hhost, hsenders⟩ | @⟨k, hhost⟩
  · have hnobody : ∀ {h : Host}, h.Bare → h.pipeline.pool.held = [] ∧ heldHook? h = none := by
      intro h hbare
      refine ⟨?_, ?_⟩
      · simp only [Pool.held, hbare.finished.nobody.2, List.filter_nil, List.map_nil]
      · rw [HostBench.heldHook?, hbare.holdsShutdown, heldKey?_of_finished hbare.finished]
        rfl
    obtain ⟨hheld, hhook⟩ := hnobody hhost.bare
    obtain ⟨hheld', hhook'⟩ := hnobody hhost.bare'
    exact {
      answers := rfl
      finished := by
        refine ⟨k.pipeline.intake.collect.1, ?_,
          fun x hx => hhost.pastProducers.mem_remaining rfl hx⟩
        simp only [HostBench.shown, Intake.collect, hhost.producers, List.filterMap_nil]
        exact (List.append_nil _).symm
      concluded := hhost.results
      entries := hhost.lasts.history b.seen
      heldFetches := hheld'.trans hheld.symm
      heldHook := hhook'.trans hhook.symm
      counters := hhost.lasts.counters
      activity := hhost.lasts.activity
      host := by
        simp only [HostBench.shown, HostBench.isBusy, after, hhost.isBusy, hhost.bare.running,
          hhost.bare'.running, hhost.bare.handles, hhost.bare'.handles]
      sender := by
        simp only [HostBench.shown, senderView?, after, hsenders, List.map_nil, List.head?_nil,
          Option.map_none]
      rootCancelled := hcancelled
      metrics := hhost.reports }
  · have hpipeline := hhost.pipeline
    exact {
      answers := rfl
      finished := hpipeline.intake.collect.1
      concluded := hhost.results
      entries := hpipeline.history b.seen
      heldFetches := congrArg Pool.held hpipeline.pool
      heldHook := by
        simp only [HostBench.shown, after, HostBench.heldHook?, hhost.holdsShutdown,
          heldKey?_later hpipeline]
      counters := hpipeline.counters
      activity := hpipeline.activity
      host := by
        simp only [HostBench.shown, HostBench.isBusy, after, hhost.isBusy, hhost.running,
          hpipeline.pool]
        rfl
      sender := senderView?_after hpipeline
      rootCancelled := hcancelled
      metrics := hhost.reports }

/-- **Each step is reported alike.** -/
theorem step (hfollows : b.Follows past c) (hreachable : b.Reachable) (number : Nat)
    (actions : List Action) :
    (step number b actions).1.Later past (step number c actions).1 ∧
      (step number b actions).2.Follows past (step number c actions).2 := by
  obtain ⟨hanswers, hperformed⟩ := hfollows.performAll hreachable number actions
  have hsettled := hperformed.settle (hreachable.performAll number actions) (duration actions)
  rw [step_eq, step_eq]
  dsimp only
  rw [hanswers]
  exact ⟨hsettled.shown _, hsettled.putAway⟩

/-- Either both callers are at their end or neither is. -/
theorem misuse (hfollows : b.Follows past c) : c.misuse = b.misuse := by
  rcases hfollows with @⟨k, hhost, hsenders⟩ | @⟨k, hhost⟩ <;> rfl

/-- From the first admission on, the gauges of locations in flight agree. -/
theorem inFlight (hfollows : b.Follows past c)
    (hadmitted : ∃ e ∈ b.host.pipeline.journal, e.isAdmission = true) :
    c.host.pipeline.counters.inFlight = b.host.pipeline.counters.inFlight := by
  have hlasts : b.host.pipeline.Lasts past c.host.pipeline := by
    rcases hfollows with hpoised | hlater
    · exact hpoised.host.lasts
    · exact hlater.host.pipeline.toLasts
  obtain ⟨e, he, hadmission⟩ := hadmitted
  refine hlasts.gauged.resolve_right fun hnone => ?_
  cases (hnone e he).symm.trans hadmission

/-- Tokens of the past are cancelled, and nobody notices. -/
theorem cancelAll (hfollows : b.Follows past c) {tokens : List Token}
    (hpast : ∀ t ∈ tokens, t < past.tokens ∧ t ∉ past.roots) :
    b.Follows past { c with host := tokens.foldl Host.cancel c.host } := by
  induction tokens generalizing c with
  | nil => exact hfollows
  | cons token rest ih =>
      obtain ⟨⟨hmade, hroots⟩, hrest⟩ := List.forall_mem_cons.mp hpast
      refine ih (c := { c with host := c.host.cancel token }) ?_ hrest
      rcases hfollows with hpoised | hlater
      · exact .inl (hpoised.withHost (hpoised.host.cancel_past hmade hroots))
      · exact .inr (hlater.withHost (hlater.host.cancel_past hmade hroots))

end Follows

/-! ### Runs -/

/-- The reports of steps, before each of which some tokens are cancelled. -/
def runAmid (number : Nat) (b : HostBench) :
    List (List Token × List Action) → Except Misuse (List Report)
  | [] => .ok []
  | (tokens, actions) :: rest =>
    let (report, b) := step number { b with host := tokens.foldl Host.cancel b.host } actions
    match b.misuse with
    | some cause => .error cause
    | none => (runAmid (number + 1) b rest).map fun reports => report :: reports

/-! ### Callers whom nothing ends -/

/-- Only queues that cannot be made end a caller. -/
theorem Acts.misuse {b b' : HostBench} {number : Nat} {action : Action}
    (hacts : b.Acts number action b') (hqueues : Host.checkQueues b.host.settings = .ok ()) :
    b'.misuse = b.misuse := by
  cases hacts with
  | broken hfree hstart => exact absurd hqueues (Host.checkQueues_of_start_broken hstart)
  | droppedAll =>
      have hdropped : ∀ (ends : List Nat) (b : HostBench),
          (ends.foldl (fun b era => b.onQueue era Queue.dropSender) b).misuse = b.misuse := by
        intro ends
        induction ends with
        | nil => exact fun _ => rfl
        | cons era ends ih => exact fun b => ih (b.onQueue era Queue.dropSender)
      exact hdropped b.senders b
  | _ => rfl

/-- Where queues can be made, no move ends a caller. -/
theorem misuse_move {b : HostBench} (hqueues : Host.checkQueues b.host.settings = .ok ())
    (m : Move) : (b.move m).misuse = b.misuse := by
  have hbecomes := b.becomes_move m
  generalize b.move m = b' at hbecomes ⊢
  cases hbecomes with
  | acts hacts => exact hacts.misuse hqueues
  | _ => rfl

/-- Where queues can be made, no step ends a caller. -/
theorem misuse_step {b : HostBench} (hqueues : Host.checkQueues b.host.settings = .ok ())
    (number : Nat) (actions : List Action) :
    (step number b actions).2.misuse = b.misuse ∧
      Host.checkQueues (step number b actions).2.host.settings = .ok () := by
  have hcourse : ∀ (moves : List Move) (b : HostBench),
      Host.checkQueues b.host.settings = .ok () →
      (b.course moves).misuse = b.misuse ∧
        Host.checkQueues (b.course moves).host.settings = .ok () := by
    intro moves
    induction moves with
    | nil => exact fun _ hqueues => ⟨rfl, hqueues⟩
    | cons m moves ih =>
        intro b hqueues
        obtain ⟨hmisuse, hnext⟩ := ih (b.move m) ((step_move b m).settings ▸ hqueues)
        exact ⟨hmisuse.trans (misuse_move hqueues m), hnext⟩
  obtain ⟨moves, hmoves⟩ := exists_moves_step number b actions
  rw [hmoves]
  exact hcourse moves b hqueues

/-- Where queues can be made, every run of steps is reported. -/
theorem exists_runFrom_eq_ok {b : HostBench} (hqueues : Host.checkQueues b.host.settings = .ok ())
    (hmisuse : b.misuse = none) (number : Nat) (steps : List (List Action)) :
    ∃ reports, runFrom number b steps = .ok reports := by
  induction steps generalizing number b with
  | nil => exact ⟨[], rfl⟩
  | cons actions rest ih =>
      obtain ⟨hnone, hnext⟩ := misuse_step hqueues number actions
      obtain ⟨reports, hreports⟩ := ih hnext (hnone.trans hmisuse) (number + 1)
      refine ⟨(step number b actions).1 :: reports, ?_⟩
      rw [runFrom]
      dsimp only
      rw [hnone, hmisuse, hreports]
      rfl

/-- The reports of two runs, step by step, where `admitted` says whether a location was admitted
before. From then on also the gauges of locations in flight agree. -/
inductive ReportsLater (past : Past) : Bool → List Report → List Report → Prop where
  | nil (admitted : Bool) : ReportsLater past admitted [] []
  | cons {admitted : Bool} {r s : Report} {rs ss : List Report} (hreport : r.Later past s)
      (hgauge : (admitted || r.entries.any Entry.isAdmission) = true →
        s.counters.inFlight = r.counters.inFlight)
      (hrest : ReportsLater past (admitted || r.entries.any Entry.isAdmission) rs ss) :
      ReportsLater past admitted (r :: rs) (s :: ss)

/-- What two runs come to: both end with their callers, for the same reason, or neither does, and
their reports go together. -/
inductive Outcome.Later (past : Past) (admitted : Bool) :
    Except Misuse (List Report) → Except Misuse (List Report) → Prop where
  | ok {rs ss : List Report} (hreports : ReportsLater past admitted rs ss) :
      Later past admitted (.ok rs) (.ok ss)
  | error (cause : Misuse) : Later past admitted (.error cause) (.error cause)

/-- What is reported of the journal is in the journal. -/
theorem mem_journal_of_mem_entries {number : Nat} {b : HostBench} {actions : List Action} {e : Entry}
    (he : e ∈ (step number b actions).1.entries) :
    e ∈ (step number b actions).2.host.pipeline.journal :=
  List.mem_reverse.mp (List.mem_of_mem_drop he)

/-- **A whole run is reported alike**, whatever tokens of the past are cancelled before its
steps. -/
theorem Follows.runFrom {b c : HostBench} {admitted : Bool} (hfollows : b.Follows past c)
    (hreachable : b.Reachable)
    (hadmitted : admitted = true → ∃ e ∈ b.host.pipeline.journal, e.isAdmission = true)
    (number : Nat) {steps : List (List Token × List Action)}
    (hpast : ∀ s ∈ steps, ∀ t ∈ s.1, t < past.tokens ∧ t ∉ past.roots) :
    Outcome.Later past admitted (runFrom number b (steps.map Prod.snd)) (runAmid number c steps) := by
  induction steps generalizing number b c admitted with
  | nil => exact .ok (.nil _)
  | cons s rest ih =>
      obtain ⟨tokens, actions⟩ := s
      obtain ⟨hfirst, hrest⟩ := List.forall_mem_cons.mp hpast
      obtain ⟨hreport, hnext⟩ := (hfollows.cancelAll hfirst).step hreachable number actions
      have hseen : (admitted || (HostBench.step number b actions).1.entries.any Entry.isAdmission) =
          true → ∃ e ∈ (HostBench.step number b actions).2.host.pipeline.journal,
            e.isAdmission = true := by
        rw [Bool.or_eq_true, List.any_eq_true]
        rintro (hbefore | ⟨e, he, hadmission⟩)
        · obtain ⟨e, he, hadmission⟩ := hadmitted hbefore
          exact ⟨e, hreachable.mem_journal_step number actions he, hadmission⟩
        · exact ⟨e, mem_journal_of_mem_entries he, hadmission⟩
      have hlater := ih hnext (hreachable.step number actions) hseen (number + 1) hrest
      rw [List.map_cons, HostBench.runFrom, runAmid]
      dsimp only
      rw [hnext.misuse]
      cases (HostBench.step number b actions).2.misuse with
      | some cause => exact .error cause
      | none =>
          generalize HostBench.runFrom (number + 1) (HostBench.step number b actions).2
            (rest.map Prod.snd) = x, runAmid (number + 1) _ rest = y at hlater ⊢
          cases hlater with
          | ok hreports => exact .ok (.cons hreport (fun h => hnext.inFlight (hseen h)) hreports)
          | error cause => exact .error cause

end HostBench

end Scenario

end SharedFetch
