import SharedFetch.Proofs.Host.Settlement
import SharedFetch.Proofs.Pipeline.Schedule
import SharedFetch.Proofs.Restart.CallerSimulation

/-!
# Runners that have stopped

When a runner stops, it cancels its root token, and when the hook for the end of the run has
returned, it takes a new one. So whatever was bound to the run goes with it: producers that forward
a stream until the root is cancelled, those that find the intake closed, and those that worked for
the runner. Nobody outside has the lock, for the runner has just had it to write. The step in which
all this comes to an end leaves a runner without producers, with a root that nobody had before.

## Main results

* `Chronicle.Reachable.outsider_eq_none`: nobody outside has the lock while the hook for the end of
  a run has it.
* `Chronicle.Reachable.boundToRoot`: all producers of a runner depend on its root, or on one that is
  cancelled.
* `Chronicle.Reachable.afterRun_step`: what a step leaves of a run that it has ended.
-/

namespace SharedFetch

open Pipeline

/-! ### Tokens of producers -/

/-- The token that ends the forwarding of a stream. -/
def Task.token? : Task → Option Token
  | .forward token .. => some token
  | _ => none

namespace Intake

variable {i j : Intake} {p : Producer} {t : Token}

/-- The tokens of all who forward a stream. -/
def tokens (i : Intake) : List Token :=
  i.producers.filterMap fun p => p.task.token?

/-- A producer that goes on keeps its token, unless it ends. Nobody else does anything. -/
theorem exists_update_of_step {u : Tokens} (h : i.step u p = some j) :
    ∃ queue task, j = { i with queue }.update { p with task } ∧
      ∀ t, task.token? = some t → p.task.token? = some t := by
  have hended : ∀ (queue : Queue Reference) (result : Produced),
      ∃ queue' task,
        { i with queue }.finish p result = { i with queue := queue' }.update { p with task } ∧
        ∀ t, task.token? = some t → p.task.token? = some t :=
    fun queue result => ⟨_, .finished result, rfl, by simp [Task.token?]⟩
  cases goesOn_of_step h with
  | refused | submitted => exact hended _ _
  | linedUp htask => exact ⟨_, _, rfl, by simp [Task.token?]⟩
  | forwards htask hforwards =>
      cases hforwards with
      | cancelled | turnedAway | ended => exact hended _ _
      | entered | pulled => exact ⟨_, _, rfl, fun t ht => by rw [htask]; exact ht⟩

/-- After an update everybody but the one who is updated is as before. -/
theorem mem_producers_update {queue : Queue Reference} {q : Producer}
    (hq : q ∈ ({ i with queue }.update p).producers) : q ∈ i.producers ∨ q = p := by
  obtain ⟨r, hr, rfl⟩ := List.mem_map.mp hq
  split
  · exact .inr rfl
  · exact .inl hr

/-- A producer that goes on brings no token in. -/
theorem mem_tokens_of_step {u : Tokens} (hp : p ∈ i.producers) (h : i.step u p = some j)
    (ht : t ∈ j.tokens) : t ∈ i.tokens := by
  obtain ⟨queue, task, rfl, htask⟩ := exists_update_of_step h
  obtain ⟨q, hq, htoken⟩ := List.mem_filterMap.mp ht
  rcases mem_producers_update hq with hq | rfl
  · exact List.mem_filterMap.mpr ⟨q, hq, htoken⟩
  · exact List.mem_filterMap.mpr ⟨p, hp, htask t htoken⟩

/-- A producer that is started brings its own token in. -/
theorem mem_tokens_start {label era : Nat} {task : Task} {hosted : Bool}
    (ht : t ∈ (i.start label era task hosted).tokens) : t ∈ i.tokens ∨ task.token? = some t := by
  obtain ⟨q, hq, htoken⟩ := List.mem_filterMap.mp ht
  rcases List.mem_append.mp hq with hq | hq
  · exact .inl (List.mem_filterMap.mpr ⟨q, hq, htoken⟩)
  · obtain rfl := List.mem_singleton.mp hq
    exact .inr htoken

/-- A stream that changes brings no token in. -/
theorem mem_tokens_onSupply {label : Nat} {f : Supply → Supply}
    (ht : t ∈ (i.onSupply label f).tokens) : t ∈ i.tokens := by
  obtain ⟨q, hq, htoken⟩ := List.mem_filterMap.mp ht
  obtain ⟨r, hr, rfl⟩ := List.mem_map.mp hq
  refine List.mem_filterMap.mpr ⟨r, hr, ?_⟩
  split at htoken
  · rename_i token supply inHand sent htask
    rw [htask]
    split at htoken
    · exact htoken
    · rw [htask] at htoken
      exact htoken
  · exact htoken

/-- Producers that go take their tokens along. -/
theorem mem_tokens_filter {keep : Producer → Bool} {queue : Queue Reference}
    (ht : t ∈ ({ i with queue, producers := i.producers.filter keep } : Intake).tokens) :
    t ∈ i.tokens := by
  obtain ⟨q, hq, htoken⟩ := List.mem_filterMap.mp ht
  exact List.mem_filterMap.mpr ⟨q, (List.mem_filter.mp hq).1, htoken⟩

end Intake

/-! ### What comes from outside -/

namespace Pipeline

variable {p q : Pipeline}

/-- Nobody in a pipeline touches the guard of an outsider. -/
theorem outsider_of_advance {event : Event} (h : p.advance event = some q) :
    q.lock.outsider = p.lock.outsider := by
  cases advances_of_advance h with
  | coordinated hstep => exact hstep.outsider
  | worked hstep => exact hstep.outsider
  | produced => rfl

/-- No event brings a token in. -/
theorem mem_tokens_of_advance {event : Event} {t : Token} (h : p.advance event = some q)
    (ht : t ∈ q.intake.tokens) : t ∈ p.intake.tokens := by
  cases advances_of_advance h with
  | coordinated hstep =>
      obtain ⟨queue, hintake, -⟩ := hstep.exists_intake
      rw [hintake] at ht
      exact ht
  | worked hstep => exact hstep.intake ▸ ht
  | produced hfind hstep => exact Intake.mem_tokens_of_step (List.mem_of_find?_eq_some hfind) hstep ht

end Pipeline

namespace Host

variable {h h' : Host} {own : Token} {op : Operation}

/-- What a host is given from outside, where `own` is the token of the caller: an outsider gets no
guard while somebody writes, and whoever begins to forward a stream has the token of the caller or
that of the host. -/
structure Given (h : Host) (own : Token) (h' : Host) : Prop where
  outsider : h.pipeline.lock.writing = true → h.pipeline.lock.outsider = none →
    h'.pipeline.lock.outsider = none
  tokens : ∀ t ∈ h'.pipeline.intake.tokens, t ∈ h.pipeline.intake.tokens ∨ t = own ∨ t = h.root

namespace Given

/-- No guard is given, and no stream. -/
theorem nothing (houtsider : h'.pipeline.lock.outsider = h.pipeline.lock.outsider)
    (htokens : ∀ t ∈ h'.pipeline.intake.tokens, t ∈ h.pipeline.intake.tokens) : h.Given own h' :=
  ⟨fun _ hnone => houtsider.trans hnone, fun t ht => .inl (htokens t ht)⟩

/-- Nothing is given. -/
theorem refl (h : Host) (own : Token) : h.Given own h :=
  .nothing rfl fun _ => id

/-- Something happens that has to do neither with the guard nor with producers. -/
theorem of_producers_eq (houtsider : h'.pipeline.lock.outsider = h.pipeline.lock.outsider)
    (hproducers : h'.pipeline.intake.producers = h.pipeline.intake.producers) : h.Given own h' := by
  refine .nothing houtsider fun t ht => ?_
  rw [Intake.tokens, hproducers] at ht
  exact ht

end Given

/-- A run that is torn down is given nothing. -/
theorem given_tearDown (h : Host) (own : Token) (op : Operation) : h.Given own (h.tearDown op) := by
  obtain ⟨tokens, -, -, heq⟩ := exists_tearDown_eq h op
  rw [heq]
  exact .of_producers_eq rfl rfl

/-- The run that an operation is to watch over is launched, with a producer that has the token of
the host. -/
theorem given_openRun (own : Token) (op : Operation) (supply : Supply)
    (hstart : h.start = .launched h') : h.Given own (h.openRun op supply) := by
  rw [openRun, hstart]
  obtain ⟨-, rfl⟩ := eq_of_start_launched hstart
  refine ⟨fun _ hnone => ?_, fun t ht => ?_⟩
  · simp only [turnTo, pipeline_wakeReporter]
    exact hnone
  · simp only [turnTo, pipeline_wakeReporter, root_wakeReporter] at ht
    rcases Intake.mem_tokens_start ht with ht | ht
    · exact .inl ht
    · exact .inr (.inr (Option.some.inj ht).symm)

/-- The operation goes on. -/
theorem Operates.given (hoperates : h.Operates op h') : h.Given own h' := by
  cases hoperates with
  | openBroken hphase hstart =>
      obtain ⟨-, rfl⟩ := eq_of_start_broken hstart
      refine .of_producers_eq ?_ ?_ <;> simp only [turnTo, pipeline_wakeReporter] <;> rfl
  | openLaunched hphase hstart => exact given_openRun own op _ hstart
  | tornDown => exact given_tearDown h own op
  | shutdownCalled hphase hlock =>
      refine .nothing ?_ ?_
      · refine Eq.trans ?_ (Lock.outsider_of_grant? hlock)
        simp only [callShutdown, turnTo]
        split <;> rfl
      · rw [intake_callShutdown]
        exact fun _ => id
  | concluded hphase hstep =>
      obtain ⟨lost, results, -, ⟨-, rfl⟩ | ⟨-, rfl⟩⟩ := exists_eq_of_finishShutdown? hstep
      · exact .nothing rfl fun _ => Intake.mem_tokens_filter
      · exact .nothing rfl fun _ => Intake.mem_tokens_filter
  | openRefused | coordinatorJoined | workersJoined | reporterJoined | returned =>
      exact .of_producers_eq rfl rfl

/-- Something happens in the host. -/
theorem given_advance {e : HostEvent} (hstep : h.advance e = some h') : h.Given own h' := by
  cases happens_of_advance hstep with
  | inside _ hinside =>
      exact .nothing (outsider_of_advance hinside) fun _ => mem_tokens_of_advance hinside
  | reporterQuit => exact .of_producers_eq rfl rfl
  | operated _ hoperates => exact hoperates.given

end Host

namespace Scenario

namespace HostBench

open Host

variable {b : HostBench} {number : Nat}

/-- A queue that changes leaves the producers alone. -/
theorem producers_onQueue (b : HostBench) (era : Nat) (f : Queue Reference → Queue Reference) :
    (b.onQueue era f).host.pipeline.intake.producers = b.host.pipeline.intake.producers := by
  simp only [onQueue, onIntake, onPipeline]
  split <;> rfl

/-- References that are offered leave the producers alone. -/
theorem producers_offerAll (i : Intake) (era : Nat) (refs : List Reference) :
    (offerAll i era refs).2.producers = i.producers := by
  rw [offerAll]
  split <;> rfl

/-- The caller starts a producer, which has no token but that of the caller. -/
theorem given_startProducer (b : HostBench) {i : Intake} (era : Nat) {task : Task}
    (hi : i.producers = b.host.pipeline.intake.producers)
    (htask : ∀ t, task.token? = some t → t = b.root) :
    b.host.Given b.root (b.onIntake fun _ => i.start number era task false).host := by
  refine ⟨fun _ hnone => hnone, fun t ht => ?_⟩
  rcases Intake.mem_tokens_start ht with ht | ht
  · rw [Intake.tokens, hi] at ht
    exact .inl ht
  · exact .inr (.inl (htask t ht))

/-- What the caller does. -/
theorem Acts.given {action : Action} {b' : HostBench} (hacts : b.Acts number action b') :
    b.host.Given b.root b'.host := by
  cases hacts with
  | nothing | unfed => exact .refl _ _
  | launched hfree hstart =>
      obtain ⟨-, rfl⟩ := eq_of_start_launched hstart
      exact .of_producers_eq rfl rfl
  | broken hfree hstart =>
      obtain ⟨-, rfl⟩ := eq_of_start_broken hstart
      exact .of_producers_eq rfl rfl
  | offered => exact .of_producers_eq rfl (producers_offerAll _ _ _)
  | submitted =>
      exact given_startProducer b _ (producers_onQueue b _ _) (by simp [Task.token?])
  | forwarded => exact given_startProducer b _ rfl fun t ht => (Option.some.inj ht).symm
  | cloned | dropped => exact .of_producers_eq rfl (producers_onQueue b _ _)
  | droppedAll =>
      obtain ⟨queue, -, -, -, heq⟩ := exists_queue_dropAll b.senders b
      dsimp only
      rw [heq]
      exact .of_producers_eq rfl rfl
  | stopped => exact given_tearDown _ _ _
  | fed => exact .nothing rfl fun _ => Intake.mem_tokens_onSupply
  | fetchReleased =>
      rw [onPipeline, Pipeline.releaseFetch_eq]
      exact .of_producers_eq rfl rfl
  | hookReleased =>
      rw [onPipeline, Pipeline.releaseHook_eq]
      exact .of_producers_eq rfl rfl
  | guarded access =>
      refine ⟨fun hwriting hnone => ?_, fun _ => .inl⟩
      have hkept : (b.host.pipeline.lock.guard access).2 = b.host.pipeline.lock := by
        rw [Lock.guard, if_neg]
        cases access <;> simp [Lock.isFree, Lock.allows, hwriting]
      exact (congrArg Lock.outsider hkept).trans hnone
  | unguarded => exact ⟨fun _ _ => rfl, fun _ => .inl⟩
  | idled | drained | opened | supplied | interrupted | cancelled | rootReplaced
  | shutdownReleased => exact .of_producers_eq rfl rfl

/-- **What a move gives to the host from outside.** -/
theorem given_move (b : HostBench) (m : Move) : b.host.Given b.root (b.move m).host := by
  have hbecomes := b.becomes_move m
  generalize b.move m = b' at hbecomes ⊢
  cases hbecomes with
  | stays => exact .refl _ _
  | acts hacts => exact hacts.given
  | advances hstep => exact given_advance hstep
  | wakes => exact .of_producers_eq (by simp) (by simp)
  | elapses => exact .of_producers_eq rfl rfl
  | reports => exact .nothing rfl fun _ => Intake.mem_tokens_filter

end HostBench

end Scenario

/-! ### Who depends on the root -/

/-- Whether the run is cancelled and about to end. -/
def OperationPhase.isEnding : OperationPhase → Bool
  | .joiningCoordinator | .joiningWorkers _ | .joiningReporter _ | .awaitingLock _
  | .inShutdown .. => true
  | _ => false

/-- Whoever leaves a run is about to end it. -/
theorem OperationPhase.isEnding_of_isLeaving {phase : OperationPhase}
    (h : phase.isLeaving = true) : phase.isEnding = true := by
  cases phase with
  | awaitingLock | inShutdown => rfl
  | _ => cases h

namespace Host

variable {h h' : Host} {own own' : Token} {op : Operation}

/-- A host is of one kind. -/
theorem Step.kind (hstep : h.Step h') : h'.kind = h.kind := by
  cases hstep with
  | within hkeeps => exact hkeeps.kind
  | launched hfree hstart =>
      obtain ⟨-, rfl⟩ := eq_of_start_launched hstart
      rfl
  | broken hfree hstart =>
      obtain ⟨-, rfl⟩ := eq_of_start_broken hstart
      rfl
  | stopped | tornDown =>
      obtain ⟨tokens, -, -, heq⟩ := exists_tearDown_eq h _
      rw [heq]
      rfl
  | openBroken hop hphase hstart =>
      obtain ⟨-, rfl⟩ := eq_of_start_broken hstart
      exact (keeps_wakeReporter h.beginLife).kind
  | openLaunched hop hphase hstart =>
      rw [openRun, hstart]
      obtain ⟨-, rfl⟩ := eq_of_start_launched hstart
      exact (keeps_wakeReporter _).kind
  | concluded hop hphase hstep =>
      obtain ⟨lost, results, -, ⟨-, rfl⟩ | ⟨-, rfl⟩⟩ := exists_eq_of_finishShutdown? hstep
      · rfl
      · rfl
  | idled | drained | opening | openRefused | coordinatorJoined | workersJoined | reporterJoined
  | shutdownCalled | returned | supplied | interrupted | shutdownAnswered => rfl

/-- A runner that stops cancels its root. -/
theorem isCancelled_tearDown (hkind : h.kind = .runner) (op : Operation) :
    (h.tearDown op).pipeline.tokens.isCancelled h.root = true := by
  simp only [tearDown, hkind]
  exact (Tokens.extends_cancel _ _).isCancelled (Tokens.isCancelled_cancel _ _)

/-- An operation that ends the run has done so before, or cancels the root of its runner now. -/
theorem Step.isEnding (hstep : h.Step h') (hkind : h.kind = .runner) (hop : h'.operation = some op)
    (hending : op.phase.isEnding = true) :
    (∃ op, h.operation = some op ∧ op.phase.isEnding = true) ∨
      h'.pipeline.tokens.isCancelled h.root = true := by
  have hfreed : h'.operation = none → (∃ op, h.operation = some op ∧ op.phase.isEnding = true) ∨
      h'.pipeline.tokens.isCancelled h.root = true := by
    intro hnone
    cases hnone.symm.trans hop
  have hturned : ∀ op', h'.operation = some op' → op'.phase.isEnding = false →
      (∃ op, h.operation = some op ∧ op.phase.isEnding = true) ∨
        h'.pipeline.tokens.isCancelled h.root = true := by
    intro op' hop' hphase
    obtain rfl := Option.some.inj (hop'.symm.trans hop)
    cases hphase.symm.trans hending
  cases hstep with
  | within hkeeps => exact .inl ⟨op, hkeeps.operation ▸ hop, hending⟩
  | launched hfree hstart =>
      obtain ⟨-, rfl⟩ := eq_of_start_launched hstart
      exact hfreed hfree
  | broken hfree hstart =>
      obtain ⟨-, rfl⟩ := eq_of_start_broken hstart
      exact hfreed hfree
  | idled | drained | opening | openRefused | openBroken | supplied | interrupted =>
      exact hturned _ rfl rfl
  | openLaunched _ _ hstart =>
      rw [openRun, hstart] at hop
      obtain rfl := Option.some.inj hop
      cases hending
  | stopped | tornDown => exact .inr (isCancelled_tearDown hkind _)
  | coordinatorJoined hbefore hphase | workersJoined hbefore hphase | reporterJoined hbefore hphase
  | shutdownCalled hbefore hphase | shutdownAnswered hbefore hphase =>
      exact .inl ⟨_, hbefore, by rw [hphase]; rfl⟩
  | concluded hop hphase hstep =>
      obtain ⟨lost, results, -, ⟨-, rfl⟩ | ⟨-, rfl⟩⟩ := exists_eq_of_finishShutdown? hstep
      · exact hfreed rfl
      · exact hfreed rfl
  | returned => exact hfreed rfl

/-- The host is given the lock to write only if nobody outside has it. -/
theorem Orderly.outsider_eq_none {lock : Lock Party} {fault : Option Fault} (horder : h.Orderly)
    (hop : h.operation = some op) (hphase : op.phase = .awaitingLock fault)
    (hgrant : h.pipeline.lock.grant? .host = some lock) : lock.outsider = none := by
  have hidle : h.running = false := by
    have hfits := horder.fits op hop
    rwa [hphase] at hfits
  have hline := horder.line.line
  obtain ⟨access, rest, hfront, hallows, rfl⟩ := Lock.exists_of_grant? hgrant
  -- nobody but the host is in line
  rw [turn_eq hop, hphase, (turns_of_finished (horder.rests hidle)).1, hfront, OperationPhase.turn,
    List.nil_append, List.perm_singleton, List.cons.injEq, Prod.mk.injEq] at hline
  obtain ⟨⟨-, rfl⟩, -⟩ := hline
  simp only [Lock.allows, Bool.and_eq_true, beq_iff_eq] at hallows
  exact hallows.2

/-- The lock that the host writes under is one that it had, or one that it has just been given. Then
nobody outside has a guard. -/
theorem Step.writes (hstep : h.Step h') (horder : h.Orderly) (hwrites : h'.writes = true) :
    h.writes = true ∨ h'.pipeline.lock.outsider = none := by
  have hnot : ∀ {k : Host}, k = h' → k.writes = false →
      h.writes = true ∨ h'.pipeline.lock.outsider = none := by
    rintro k rfl hnot
    cases hnot.symm.trans hwrites
  have hfreed : ∀ {k : Host}, k.operation = none → k.writes = false := by
    intro k hfree
    rw [Host.writes, hfree]
    rfl
  cases hstep with
  | within hkeeps =>
      rw [Host.writes, hkeeps.operation] at hwrites
      exact .inl hwrites
  | launched hfree hstart =>
      obtain ⟨-, rfl⟩ := eq_of_start_launched hstart
      exact hnot rfl (hfreed hfree)
  | broken hfree hstart =>
      obtain ⟨-, rfl⟩ := eq_of_start_broken hstart
      exact hnot rfl (hfreed hfree)
  | openLaunched _ _ hstart => exact hnot (by rw [openRun, hstart]) rfl
  | stopped | tornDown =>
      obtain ⟨tokens, -, -, heq⟩ := exists_tearDown_eq h _
      exact hnot heq.symm rfl
  | shutdownCalled hop hphase hlock =>
      refine .inr (Eq.trans ?_ (horder.outsider_eq_none hop hphase hlock))
      simp only [callShutdown, turnTo]
      split <;> rfl
  | concluded hop hphase hstep =>
      obtain ⟨lost, results, -, ⟨-, rfl⟩ | ⟨-, rfl⟩⟩ := exists_eq_of_finishShutdown? hstep
      · exact hnot rfl rfl
      · exact hnot rfl rfl
  | shutdownAnswered hop hphase => exact .inl (by rw [writes_eq hop, hphase]; rfl)
  | idled | drained | opening | openRefused | openBroken | coordinatorJoined | workersJoined
  | reporterJoined | returned | supplied | interrupted => exact hnot rfl rfl

/-- Whoever has a token of a runner has its root, or one that is cancelled. While the runner ends a
run, the root is cancelled. -/
structure BoundToRoot (h : Host) (own : Token) : Prop where
  own : own = h.root ∨ h.pipeline.tokens.isCancelled own = true
  tokens : ∀ t ∈ h.pipeline.intake.tokens, t = h.root ∨ h.pipeline.tokens.isCancelled t = true
  ending : ∀ op, h.operation = some op → op.phase.isEnding = true →
    h.pipeline.tokens.isCancelled h.root = true

namespace BoundToRoot

/-- The root is as it was. -/
theorem rooted (hbound : h.BoundToRoot own) (hkind : h.kind = .runner) (hroot : h'.root = h.root)
    (hown : own' = own ∨ own' = h.root) (hextends : h.pipeline.tokens.Extends h'.pipeline.tokens)
    (hgiven : h.Given own h') (hstep : h.Step h') : h'.BoundToRoot own' := by
  have hkept : ∀ t, t = h.root ∨ h.pipeline.tokens.isCancelled t = true →
      t = h'.root ∨ h'.pipeline.tokens.isCancelled t = true := by
    rw [hroot]
    exact fun t => Or.imp_right hextends.isCancelled
  refine ⟨hkept _ ?_, fun t ht => hkept t ?_, fun op hop hending => ?_⟩
  · rcases hown with rfl | rfl
    · exact hbound.own
    · exact .inl rfl
  · rcases hgiven.tokens t ht with ht | rfl | rfl
    · exact hbound.tokens t ht
    · exact hbound.own
    · exact .inl rfl
  · rw [hroot]
    rcases hstep.isEnding hkind hop hending with ⟨op', hop', hending'⟩ | hcancelled
    · exact hextends.isCancelled (hbound.ending op' hop' hending')
    · exact hcancelled

/-- **Every step of a runner keeps its tokens bound.** -/
theorem step (hbound : h.BoundToRoot own) (hkind : h.kind = .runner)
    (htoken : h.TokenStep own h' own') (hgiven : h.Given own h') (hstep : h.Step h') :
    h'.BoundToRoot own' := by
  have hextends := htoken.tokens
  cases htoken with
  | alarmed hnothing hroot hown => exact hbound.rooted hkind hroot hown hextends hgiven hstep
  | cancelled tokens hnothing hroot hown | begun hidle hroot hown =>
      exact hbound.rooted hkind hroot (.inl hown) hextends hgiven hstep
  | renewed hidle hcause hfree hnothing hroot hown =>
      -- the root has been cancelled before the hook was called
      have hcancelled : h'.pipeline.tokens.isCancelled h.root = true := by
        rcases hcause with hfetcher | ⟨op, hop, hleaving⟩
        · cases hfetcher.symm.trans hkind
        · exact hextends.isCancelled
            (hbound.ending op hop (OperationPhase.isEnding_of_isLeaving hleaving))
      have hgone : ∀ t, t = h.root ∨ h.pipeline.tokens.isCancelled t = true →
          h'.pipeline.tokens.isCancelled t = true := by
        rintro t (rfl | ht)
        · exact hcancelled
        · exact hextends.isCancelled ht
      refine ⟨?_, fun t ht => .inr (hgone t ?_), fun op hop => ?_⟩
      · rcases hown with rfl | rfl
        · exact .inr (hgone _ hbound.own)
        · exact .inl rfl
      · rcases hgiven.tokens t ht with ht | rfl | rfl
        · exact hbound.tokens t ht
        · exact hbound.own
        · exact .inl rfl
      · cases hfree.symm.trans hop

end BoundToRoot

end Host

namespace Chronicle

open Scenario (HostBench)

variable {c : Chronicle}

/-- **All producers of a runner depend on its root, or on one that is cancelled.** -/
theorem Reachable.boundToRoot (hc : c.Reachable) (hkind : c.bench.host.kind = .runner) :
    c.bench.host.BoundToRoot c.bench.root := by
  revert hkind
  refine hc.induct
    (J := fun c => c.bench.host.kind = .runner → c.bench.host.BoundToRoot c.bench.root) ?_ ?_
  · intro kind settings protocol ownToken hkind
    rw [start, HostBench.make] at hkind ⊢
    split at hkind
    · rename_i hown
      simp only [Bool.and_eq_true, beq_iff_eq] at hown
      cases hown.2.symm.trans hkind
    · rename_i hown
      rw [if_neg hown]
      refine ⟨.inl rfl, fun t ht => ?_, fun op hop => ?_⟩
      · cases ht
      · cases hop
  · intro c m hc ih hkind
    have hstep := HostBench.step_move c.bench m
    have hbefore : c.bench.host.kind = .runner := hstep.kind ▸ hkind
    exact (ih hbefore).step hbefore (hc.sound.tokenStep m) (HostBench.given_move c.bench m) hstep

/-- **Nobody outside has the lock while the hook for the end of a run has it.** -/
theorem Reachable.outsider_eq_none (hc : c.Reachable) (hwrites : c.bench.host.writes = true) :
    c.pipeline.lock.outsider = none := by
  revert hwrites
  refine hc.induct (J := fun c => c.bench.host.writes = true → c.pipeline.lock.outsider = none) ?_ ?_
  · intro kind settings protocol ownToken hwrites
    rw [start, HostBench.make] at hwrites
    split at hwrites <;> cases hwrites
  · intro c m hc ih hwrites
    have horder := hc.sound.orderly
    rcases (HostBench.step_move c.bench m).writes horder hwrites with hbefore | hnone
    · have hwriting : c.bench.host.pipeline.lock.writing = true := by
        rw [horder.line.writing, hbefore, Bool.or_true]
      exact (HostBench.given_move c.bench m).outsider hwriting (ih hbefore)
    · exact hnone

end Chronicle

/-! ### The end of a run -/

/-- Whether the operation has to do with a run, or is about to take the host along. -/
def OperationPhase.commits : OperationPhase → Bool
  | .returning ending => ending.isPanic
  | _ => true

/-- Whether the operation has to do with a run that was launched. -/
def OperationPhase.hasRun : OperationPhase → Bool
  | .opening _ | .returning _ => false
  | _ => true

/-- Where the intake is closed, only somebody who forwards a stream may wait. -/
theorem Intake.isSome_step {i : Intake} {tokens : Tokens} {p : Producer}
    (hclosed : i.queue.closed = true) (hunfinished : p.result? = none)
    (htoken : ∀ t, p.task.token? = some t → tokens.isCancelled t = true) :
    (i.step tokens p).isSome = true := by
  have haccepts : i.accepts p.era = false := by rw [accepts, hclosed, Bool.not_true, Bool.and_false]
  rw [step]
  cases htask : p.task with
  | finished result => simp [Producer.result?, htask] at hunfinished
  | submit r queued => simp [haccepts]
  | forward token supply inHand sent => simp [htoken token (by rw [htask]; rfl)]

namespace Host

variable {h h' : Host} {n : Nat} {op : Operation}

/-- Whoever has to do with a run has had to do with it before, unless it has just been launched. -/
theorem Step.hasRun (hstep : h.Step h') (hrun : h'.running = true ∨
      ∃ op, h'.operation = some op ∧ op.phase.hasRun = true) :
    (h.running = true ∨ ∃ op, h.operation = some op ∧ op.phase.hasRun = true) ∨
      0 < h'.pipeline.intake.era := by
  have hturned : ∀ {k : Host} {op : Operation}, k = h' → k.operation = some op →
      op.phase.hasRun = false → h'.running = true := by
    rintro k op rfl hop hnot
    refine hrun.resolve_right ?_
    rintro ⟨op', hop', hphase⟩
    obtain rfl := Option.some.inj (hop.symm.trans hop')
    cases hnot.symm.trans hphase
  have hfreed : ∀ {k : Host}, k = h' → k.operation = none → h'.running = true := by
    rintro k rfl hfree
    refine hrun.resolve_right ?_
    rintro ⟨op, hop, -⟩
    cases hfree.symm.trans hop
  cases hstep with
  | within hkeeps =>
      rw [hkeeps.running, hkeeps.operation] at hrun
      exact .inl hrun
  | launched hfree hstart =>
      obtain ⟨-, rfl⟩ := eq_of_start_launched hstart
      exact .inr (Nat.succ_pos _)
  | broken hfree hstart =>
      obtain ⟨-, rfl⟩ := eq_of_start_broken hstart
      exact .inl (.inl (hfreed rfl hfree))
  | openBroken hop hphase hstart =>
      obtain ⟨-, rfl⟩ := eq_of_start_broken hstart
      have hrunning := hturned rfl rfl rfl
      exact .inl (.inl ((running_wakeReporter h.beginLife).symm.trans hrunning))
  | openLaunched hop hphase hstart =>
      refine .inr ?_
      rw [openRun, hstart]
      obtain ⟨-, rfl⟩ := eq_of_start_launched hstart
      simp only [turnTo, pipeline_wakeReporter]
      exact Nat.succ_pos _
  | drained hfree hrunning | stopped hfree hrunning => exact .inl (.inl hrunning)
  | tornDown hop hphase =>
      rcases hphase with hphase | ⟨interrupted, hphase⟩
      · exact .inl (.inr ⟨_, hop, by rw [hphase]; rfl⟩)
      · exact .inl (.inr ⟨_, hop, by rw [hphase]; rfl⟩)
  | coordinatorJoined hop hphase | workersJoined hop hphase | reporterJoined hop hphase
  | shutdownCalled hop hphase | concluded hop hphase | interrupted hop hphase
  | shutdownAnswered hop hphase => exact .inl (.inr ⟨_, hop, by rw [hphase]; rfl⟩)
  | idled | opening | openRefused | supplied => exact .inl (.inl (hturned rfl rfl rfl))
  | returned => exact .inl (.inl (hfreed rfl rfl))

/-- There is a run, or an operation that has to do with one, or the host is lost. -/
def Pending (h : Host) : Prop :=
  h.running = true ∨ h.lost = true ∨ ∃ op, h.operation = some op ∧ op.phase.commits = true

/-- What a runner is like that has ended a run, where `n` is a number of tokens that were made
before: it has a new root, and whoever is still there will not stay. -/
structure AfterRun (n : Nat) (h : Host) : Prop where
  launched : 0 < h.pipeline.intake.era
  idle : h.running = false
  free : h.operation = none
  root : n ≤ h.root
  live : h.pipeline.tokens.isCancelled h.root = false
  outsider : h.pipeline.lock.outsider = none
  hosted : ∀ q ∈ h.pipeline.intake.producers, q.hosted = false
  tokens : ∀ t ∈ h.pipeline.intake.tokens, h.pipeline.tokens.isCancelled t = true

/-- What is pending goes on until the hook for the end of the run returns. -/
theorem Pending.step (hpending : h.Pending) (hclean : h.NoLeftovers) (hstep : h.Step h') :
    h'.Pending ∨ ∃ op mode fault, h.operation = some op ∧ op.phase = .inShutdown mode fault ∧
      h.finishShutdown? op fault mode = some h' := by
  have hturned : ∀ {k : Host} {op : Operation}, k.operation = some op → op.phase.commits = true →
      k.Pending := fun hop hcommits => .inr (.inr ⟨_, hop, hcommits⟩)
  cases hstep with
  | within hkeeps =>
      rw [Pending, ← hkeeps.running, ← hkeeps.lost, ← hkeeps.operation] at hpending
      exact .inl hpending
  | launched hfree hstart =>
      obtain ⟨-, rfl⟩ := eq_of_start_launched hstart
      exact .inl (.inl rfl)
  | broken hfree hstart =>
      obtain ⟨-, rfl⟩ := eq_of_start_broken hstart
      exact .inl hpending
  | idled hfree hidle =>
      rcases hpending with hrunning | hlost | ⟨op, hop, -⟩
      · cases hidle.symm.trans hrunning
      · exact .inl (.inr (.inl hlost))
      · cases hfree.symm.trans hop
  | openRefused hop hphase hstart =>
      refine .inl ?_
      rcases of_start_refused hstart with hstarted | hrunning
      · obtain ⟨-, hrunning | hlost | ⟨op', hop', hleaving⟩⟩ := hclean.started hstarted
        · exact .inl hrunning
        · exact .inr (.inl hlost)
        · obtain rfl := Option.some.inj (hop.symm.trans hop')
          rw [hphase] at hleaving
          cases hleaving
      · exact .inl hrunning
  | openLaunched hop hphase hstart =>
      rw [openRun, hstart]
      exact .inl (hturned rfl rfl)
  | stopped | tornDown =>
      obtain ⟨tokens, -, -, heq⟩ := exists_tearDown_eq h _
      rw [heq]
      exact .inl (hturned rfl rfl)
  | concluded hop hphase hstep => exact .inr ⟨_, _, _, hop, hphase, hstep⟩
  | returned hop hphase =>
      rcases hpending with hrunning | hlost | ⟨op', hop', hcommits⟩
      · exact .inl (.inl hrunning)
      · exact .inl (.inr (.inl (by rw [report, hlost, Bool.true_or])))
      · obtain rfl := Option.some.inj (hop.symm.trans hop')
        rw [hphase, OperationPhase.commits] at hcommits
        exact .inl (.inr (.inl (by rw [report, hcommits, Bool.or_true])))
  | drained | opening | openBroken | coordinatorJoined | workersJoined | reporterJoined
  | shutdownCalled | supplied | interrupted | shutdownAnswered => exact .inl (hturned rfl rfl)

/-- A runner that has ended a run has ended it for good. -/
theorem AfterRun.advance {e : HostEvent} (hleft : h.AfterRun n) (horder : h.Orderly)
    (hstep : h.advance e = some h') : h'.AfterRun n := by
  cases happens_of_advance hstep with
  | inside _ hinside =>
      obtain ⟨id, intake, -, hadvance, rfl⟩ := (horder.rests hleft.idle).exists_of_advance hinside
      obtain ⟨r, hfind, hintake⟩ := Option.bind_eq_some_iff.mp hadvance
      have hr := List.mem_of_find?_eq_some hfind
      refine { hleft with launched := ?_, hosted := fun q hq => ?_, tokens := fun t ht => ?_ }
      · obtain ⟨queue, task, rfl, -⟩ := Intake.exists_update_of_step hintake
        exact hleft.launched
      · obtain ⟨queue, task, rfl, -⟩ := Intake.exists_update_of_step hintake
        rcases Intake.mem_producers_update hq with hq | rfl
        · exact hleft.hosted q hq
        · exact hleft.hosted r hr
      · exact hleft.tokens t (Intake.mem_tokens_of_step hr hintake ht)
  | reporterQuit => exact { hleft with }
  | operated hop => cases hleft.free.symm.trans hop

/-- Once nothing more can happen, everybody is gone. -/
theorem AfterRun.producers (hleft : h.AfterRun n) (hsettled : Settled Host.advance h)
    (hnames : h.pipeline.intake.names.Nodup) (hclosed : h.pipeline.intake.queue.closed = true) :
    h.pipeline.intake.collect.2.producers = [] := by
  rw [Intake.collect, List.filter_eq_nil_iff]
  intro q hq hunfinished
  have hnone : q.result? = none := Option.isNone_iff_eq_none.mp hunfinished
  obtain ⟨intake, hstep⟩ := Option.isSome_iff_exists.mp
    (Intake.isSome_step hclosed hnone fun t ht => hleft.tokens t (List.mem_filterMap.mpr ⟨q, hq, ht⟩))
  have hallowed : h.mayProduce q.id = true := by
    rw [mayProduce, List.all_eq_true]
    intro r hr
    rw [hleft.hosted r hr, Bool.not_false, Bool.or_true, Bool.true_or]
  have hproduced := hsettled (.inside (.produce q.id))
  simp only [Host.advance, hallowed, if_true, Pipeline.advance, Intake.advance,
    Intake.find?_of_mem hnames hq, Option.bind_some, hstep, Option.map_some] at hproduced
  cases hproduced

end Host

namespace Chronicle

open Scenario
open Host (Pending AfterRun)

variable {c : Chronicle} {h : Host} {n : Nat}

/-- Whoever has to do with a run has one that was launched. -/
theorem Reachable.era_pos (hc : c.Reachable) (hrun : c.bench.host.running = true ∨
      ∃ op, c.bench.host.operation = some op ∧ op.phase.hasRun = true) :
    0 < c.pipeline.intake.era := by
  revert hrun
  refine hc.induct (J := fun c => (c.bench.host.running = true ∨
    ∃ op, c.bench.host.operation = some op ∧ op.phase.hasRun = true) → 0 < c.pipeline.intake.era) ?_ ?_
  · intro kind settings protocol ownToken hrun
    rw [start, HostBench.make] at hrun
    split at hrun <;> rcases hrun with hrun | ⟨op, hop, -⟩
    · cases hrun
    · cases hop
    · cases hrun
    · cases hop
  · intro c m hc ih hrun
    rcases (HostBench.step_move c.bench m).hasRun hrun with hbefore | hlaunched
    · exact Nat.lt_of_lt_of_le (ih hbefore) (hc.sound.era_le [m])
    · exact hlaunched

/-- The hook for the end of a run has returned, and the runner is lost or has left the run
behind. -/
theorem Reachable.afterRun_of_concluded {op : Operation} {mode : HookMode} {fault : Option Fault}
    (hc : c.Reachable) (hkind : c.bench.host.kind = .runner)
    (hn : n ≤ c.pipeline.tokens.parents.length) (hop : c.bench.host.operation = some op)
    (hphase : op.phase = .inShutdown mode fault)
    (hstep : c.bench.host.finishShutdown? op fault mode = some h) :
    h.lost = true ∨ h.AfterRun n := by
  obtain ⟨lost, results, -, ⟨hcause, rfl⟩ | ⟨-, rfl⟩⟩ := Host.exists_eq_of_finishShutdown? hstep
  · rcases hcause with hfetcher | hlost
    · cases hfetcher.symm.trans hkind
    · exact .inl hlost
  · have hbound := hc.boundToRoot hkind
    have hcancelled := hbound.ending op hop (by rw [hphase]; rfl)
    have hidle : c.bench.host.running = false := by
      have hfits := hc.sound.orderly.fits op hop
      rwa [hphase] at hfits
    have hlaunched := hc.era_pos (.inr ⟨op, hop, by rw [hphase]; rfl⟩)
    refine .inr ⟨hlaunched, hidle, rfl, hn, Tokens.isCancelled_fresh hc.rooted.allMade, ?_,
      fun q hq => ?_, fun t ht => (Tokens.extends_fresh _).isCancelled ?_⟩
    · exact hc.outsider_eq_none (by rw [Host.writes_eq hop, hphase]; rfl)
    · simpa using (List.mem_filter.mp hq).2
    · rcases hbound.tokens t (Intake.mem_tokens_filter ht) with rfl | ht
      · exact hcancelled
      · exact ht

/-- A runner with a run that goes on by itself is not done with the run until it has left it
behind. -/
theorem afterRun_of_reaches {h' : Host} (hreaches : Reaches Host.advance h h')
    (hreachable : h.Reachable) (hkind : h.kind = .runner) (hn : n ≤ h.pipeline.tokens.parents.length)
    (hpending : h.Pending ∨ h.AfterRun n) : h'.Pending ∨ h'.AfterRun n := by
  induction hreaches with
  | refl => exact hpending
  | step e hstep hrest ih =>
      refine ih (hreachable.advance hstep) ?_ ?_ ?_
      · exact (Host.step_advance hstep).kind.trans hkind
      · obtain ⟨c, hc, rfl⟩ := hreachable
        have htoken : c.bench.host.TokenStep c.bench.root _ c.bench.root :=
          Host.tokenStep_advance hc.sound.orderly hstep
        exact Nat.le_trans hn htoken.tokens.parents.length_le
      · obtain ⟨c, hc, rfl⟩ := hreachable
        rcases hpending with hpending | hleft
        · rcases hpending.step hc.noLeftovers (Host.step_advance hstep) with
            hpending | ⟨op, mode, fault, hop, hphase, hconcluded⟩
          · exact .inl hpending
          · exact (hc.afterRun_of_concluded hkind hn hop hphase hconcluded).imp_left fun hlost =>
              .inr (.inl hlost)
        · exact .inr (hleft.advance hc.sound.orderly hstep)

/-- A host stays of its kind. -/
theorem kind_run (c : Chronicle) (moves : List HostBench.Move) :
    (c.run moves).bench.host.kind = c.bench.host.kind := by
  induction moves generalizing c with
  | nil => rfl
  | cons m moves ih => exact (ih (c.move m)).trans (HostBench.step_move c.bench m).kind

/-- A runner with a run that has settled has left the run behind, unless it still has it. -/
theorem Reachable.afterRun_settle (hc : c.Reachable) (hkind : c.bench.host.kind = .runner)
    (hn : n ≤ c.pipeline.tokens.parents.length) (hpending : c.bench.host.Pending)
    (hdone : ¬ c.bench.host.settle.Pending) :
    c.bench.host.settle.AfterRun n ∧
      c.bench.host.settle.pipeline.intake.collect.2.producers = [] := by
  have hkeeps := Host.keeps_wakeReporter c.bench.host
  have hreachable : c.bench.host.Reachable := ⟨c, hc, rfl⟩
  have hleft : c.bench.host.settle.AfterRun n := by
    refine (afterRun_of_reaches (reaches_settle _ _ _ _) hreachable.wakeReporter
      (hkeeps.kind.trans hkind) ?_ (.inl ?_)).resolve_left hdone
    · rw [Host.pipeline_wakeReporter]
      exact hn
    · rw [Pending, hkeeps.running, hkeeps.lost, hkeeps.operation]
      exact hpending
  obtain ⟨moves, hmoves⟩ := HostBench.exists_moves_settle c.bench
  obtain ⟨d, hd, hhost⟩ : c.bench.host.settle.Reachable :=
    ⟨c.run moves, hc.run moves, by rw [c.bench_run, ← hmoves]⟩
  refine ⟨hleft, hleft.producers (Host.Regular.settled_settle ⟨c, hc.sound, rfl⟩) ?_ ?_⟩
  · rw [← hhost]
    exact hd.sound.accounted.names
  · have hidle := hleft.idle
    rw [← hhost] at hidle ⊢
    exact hd.tidy.intake (hd.sound.orderly.rests hidle).ended

/-- **What a step leaves of a run that it has ended**: a runner without producers, with a root that
nobody had before. -/
theorem Reachable.afterRun_step (hc : c.Reachable) (hkind : c.bench.host.kind = .runner)
    (number : Nat) (actions : List HostBench.Action)
    (hpending : (performAll (HostBench.perform number) c.bench actions).2.host.Pending)
    (hdone : ¬ (HostBench.step number c.bench actions).2.host.Pending) :
    (HostBench.step number c.bench actions).2.host.AfterRun
        (performAll (HostBench.perform number) c.bench
          actions).2.host.pipeline.tokens.parents.length ∧
      (HostBench.step number c.bench actions).2.host.pipeline.intake.producers = [] := by
  obtain ⟨moves, hmoves⟩ := HostBench.exists_moves_performAll number c.bench actions
  rw [HostBench.step_eq] at hdone ⊢
  dsimp only at hdone ⊢
  rw [hmoves, ← c.bench_run] at hpending hdone ⊢
  obtain ⟨hleft, hproducers⟩ := (hc.run moves).afterRun_settle ((c.kind_run moves).trans hkind)
    (Nat.le_refl _) hpending hdone
  refine ⟨{ hleft with hosted := fun q hq => ?_, tokens := fun t ht => ?_ }, hproducers⟩
  · exact hleft.hosted q (List.mem_filter.mp hq).1
  · exact hleft.tokens t (Intake.mem_tokens_filter ht)

end Chronicle

end SharedFetch
