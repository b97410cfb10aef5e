import SharedFetch.Proofs.Host.Fetcher
import SharedFetch.Proofs.Host.Stop

/-!
# What remains of a run

Journal and tokens go on from run to run, and so does the root token, above the token of every run,
unless it is replaced. All else that a run has left is looked at by nobody: when there is no run,
the host answers for no workers, there is no reporter, and a runner can be started again.

## Main results

* `Chronicle.Sound.exists_journal`: nothing is ever taken out of the journal.
* `Scenario.HostBench.tokenStep_move`: what a move can do to the tokens.
* `Chronicle.Reachable.rooted`: the root tokens stand alone, and a triggered latch has cancelled
  that of its run.
* `Chronicle.Reachable.noLeftovers`: a host has nothing of a run that it has ended.
-/

namespace SharedFetch

open Pipeline

namespace Host

variable {h h' : Host} {op : Operation}

/-! ### The journal -/

/-- Nothing is taken out of the journal. -/
theorem Step.exists_journal (hstep : h.Step h')
    (hchange : h.pipeline.Change h'.pipeline ∨ h.pipeline.Launched h'.pipeline) :
    ∃ new, h'.pipeline.journal = new ++ h.pipeline.journal := by
  cases hstep with
  | within hkeeps hlatch hintake hsame => exact (change_of_turn hintake hchange).exists_journal
  | launched hfree hstart =>
      obtain ⟨-, rfl⟩ := eq_of_start_launched hstart
      exact ⟨[], rfl⟩
  | broken hfree hstart =>
      obtain ⟨-, rfl⟩ := eq_of_start_broken hstart
      exact ⟨[], rfl⟩
  | openBroken hop hphase hstart =>
      obtain ⟨-, rfl⟩ := eq_of_start_broken hstart
      exact ⟨[], by simp [turnTo, beginLife]⟩
  | openLaunched hop hphase hstart =>
      rw [openRun, hstart]
      obtain ⟨-, rfl⟩ := eq_of_start_launched hstart
      exact ⟨[], by simp [turnTo, freshPipeline, beginLife]⟩
  | stopped | tornDown =>
      obtain ⟨tokens, -, -, heq⟩ := exists_tearDown_eq h _
      rw [heq]
      exact ⟨[], rfl⟩
  | shutdownCalled hop hphase hlock =>
      obtain ⟨new, hjournal, -⟩ := exists_journal_callShutdown _ _ _
      exact ⟨new, hjournal⟩
  | concluded hop hphase hstep =>
      obtain ⟨lost, results, -, ⟨-, rfl⟩ | ⟨-, rfl⟩⟩ := exists_eq_of_finishShutdown? hstep
      · exact ⟨[], rfl⟩
      · exact ⟨[], rfl⟩
  | idled | drained | opening | openRefused | coordinatorJoined | workersJoined | reporterJoined
  | returned | supplied | interrupted | shutdownAnswered => exact ⟨[], rfl⟩

end Host

/-! ### Tokens -/

/-- Whether the run is given up, and the hook for its end has not returned. -/
def OperationPhase.isLeaving : OperationPhase → Bool
  | .awaitingLock _ | .inShutdown .. => true
  | _ => false

namespace Pipeline

variable {p q : Pipeline}

/-- Whatever happens in a pipeline, of the tokens only an alarm cancels any. -/
theorem alarmed_of_advance {event : Event} (hstep : p.advance event = some q) : p.Alarmed q := by
  cases advances_of_advance hstep with
  | coordinated hstep => exact hstep.alarmed
  | worked hstep => exact hstep.alarmed
  | produced => exact .quiet rfl rfl

end Pipeline

namespace Host

variable {h h' : Host} {op : Operation}

@[simp] theorem root_wakeReporter (h : Host) : h.wakeReporter.root = h.root := by
  rw [wakeReporter]
  split <;> rfl

/-- No run is launched, and no reporter begins. -/
structure LaunchesNothing (h h' : Host) : Prop where
  running : h'.running = true → h.running = true
  reporting : h'.reporting.isAlive = true → h.reporting.isAlive = true

/-- What may happen to the tokens of a host and to whoever lives by them, where `own` is the token
that the caller keeps. -/
inductive TokenStep (h : Host) (own : Token) (h' : Host) (own' : Token) : Prop where
  /-- An alarm may be raised. The caller may take over the root of the host. -/
  | alarmed (hnothing : h.LaunchesNothing h') (hroot : h'.root = h.root)
      (hown : own' = own ∨ own' = h.root) (halarmed : h.pipeline.Alarmed h'.pipeline)
  | cancelled (tokens : List Token) (hnothing : h.LaunchesNothing h') (hroot : h'.root = h.root)
      (hown : own' = own)
      (hkept : ∀ t ∈ tokens, t = own ∨ t = h.root ∨ t = h.pipeline.latch.run)
      (hlatch : h'.pipeline.latch = h.pipeline.latch)
      (htokens : h'.pipeline.tokens = tokens.foldl Tokens.cancel h.pipeline.tokens)
  /-- A run begins, and is launched unless its queues cannot be made. -/
  | begun (hidle : h.running = false) (hroot : h'.root = h.root) (hown : own' = own)
      (hlatch : h'.pipeline.latch = { root := h.root, run := h.pipeline.tokens.parents.length })
      (htokens : h'.pipeline.tokens = (h.pipeline.tokens.child h.root).2)
      (hlaunched : h'.running = true ∨ checkQueues h.settings ≠ .ok ())
  /-- The host takes a new root, when the hook for the end of a run has returned or because a
  fetcher is asked to. -/
  | renewed (hidle : h.running = false)
      (hcause : h.kind = .fetcher ∨ ∃ op, h.operation = some op ∧ op.phase.isLeaving = true)
      (hfree : h'.operation = none) (hnothing : h.LaunchesNothing h')
      (hroot : h'.root = h.pipeline.tokens.parents.length) (hown : own' = own ∨ own' = h'.root)
      (hlatch : h'.pipeline.latch = h.pipeline.latch)
      (htokens : h'.pipeline.tokens = h.pipeline.tokens.fresh.2)

variable {own : Token}

/-- Something happens that has nothing to do with tokens. -/
theorem TokenStep.of_tokens_eq (hroot : h'.root = h.root)
    (hlatch : h'.pipeline.latch = h.pipeline.latch)
    (htokens : h'.pipeline.tokens = h.pipeline.tokens)
    (hrunning : h'.running = true → h.running = true)
    (hreporting : h'.reporting.isAlive = true → h.reporting.isAlive = true) :
    h.TokenStep own h' own :=
  .alarmed ⟨hrunning, hreporting⟩ hroot (.inl rfl) (.quiet hlatch htokens)

/-- Nothing happens. -/
theorem TokenStep.refl (h : Host) (own : Token) : h.TokenStep own h own :=
  .of_tokens_eq rfl rfl rfl id id

/-- A run is torn down. -/
theorem tokenStep_tearDown (h : Host) (own : Token) (op : Operation) :
    h.TokenStep own (h.tearDown op) own := by
  have hnothing : h.LaunchesNothing (h.tearDown op) := by
    rw [tearDown]
    split <;> exact ⟨id, id⟩
  cases hkind : h.kind with
  | fetcher =>
      refine .cancelled [h.pipeline.latch.run] hnothing ?_ rfl (by simp) ?_ ?_ <;>
        simp only [tearDown, hkind] <;> rfl
  | runner =>
      refine .cancelled [h.root, h.pipeline.latch.run] hnothing ?_ rfl (by simp) ?_ ?_ <;>
        simp only [tearDown, hkind] <;> rfl

/-- The operation goes on. -/
theorem Operates.tokenStep (hoperates : h.Operates op h') (horder : h.Orderly)
    (hop : h.operation = some op) : h.TokenStep own h' own := by
  cases hoperates with
  | openBroken hphase hstart =>
      have hqueues := checkQueues_of_start_broken hstart
      obtain ⟨hidle, rfl⟩ := eq_of_start_broken hstart
      exact .begun hidle (root_wakeReporter _) rfl
        (congrArg Pipeline.latch (pipeline_wakeReporter h.beginLife))
        (congrArg Pipeline.tokens (pipeline_wakeReporter h.beginLife)) (.inr hqueues)
  | openLaunched hphase hstart =>
      rw [openRun, hstart]
      obtain ⟨hidle, rfl⟩ := eq_of_start_launched hstart
      exact .begun hidle (root_wakeReporter _) rfl
        (congrArg Pipeline.latch (pipeline_wakeReporter _))
        (congrArg Pipeline.tokens (pipeline_wakeReporter _)) (.inl (running_wakeReporter _))
  | tornDown => exact tokenStep_tearDown h own op
  | reporterJoined => exact .of_tokens_eq rfl rfl rfl (fun hrunning => by cases hrunning) id
  | shutdownCalled =>
      refine .of_tokens_eq rfl ?_ ?_ id id <;> simp only [callShutdown, turnTo] <;> split <;> rfl
  | concluded hphase hstep =>
      have hidle := horder.fits op hop
      rw [hphase] at hidle
      obtain ⟨lost, results, -, ⟨-, rfl⟩ | ⟨-, rfl⟩⟩ := exists_eq_of_finishShutdown? hstep
      · exact .of_tokens_eq rfl rfl rfl id id
      · exact .renewed hidle (.inr ⟨op, hop, by rw [hphase]; rfl⟩) rfl ⟨id, id⟩ rfl (.inl rfl) rfl rfl
  | openRefused | coordinatorJoined | workersJoined | returned =>
      exact .of_tokens_eq rfl rfl rfl id id

/-- Something happens in the host. -/
theorem tokenStep_advance {e : HostEvent} (horder : h.Orderly) (hstep : h.advance e = some h') :
    h.TokenStep own h' own := by
  cases happens_of_advance hstep with
  | inside _ hinside => exact .alarmed ⟨id, id⟩ rfl (.inl rfl) (alarmed_of_advance hinside)
  | reporterQuit halive => exact .of_tokens_eq rfl rfl rfl id fun _ => halive
  | operated hop hoperates => exact hoperates.tokenStep horder hop

/-- A reporter that does not go on does not begin again. -/
theorem isAlive_wakeReporter (h : Host) (halive : h.wakeReporter.reporting.isAlive = true) :
    h.reporting.isAlive = true := by
  rw [wakeReporter] at halive
  split at halive
  · exact halive
  · cases hr : h.reporting with
    | waiting | active => rfl
    | _ =>
        rw [hr] at halive
        cases halive

/-- No reporter begins because time passes. -/
theorem isAlive_elapse (h : Host) (ms : Nat) (halive : (h.elapse ms).reporting.isAlive = true) :
    h.reporting.isAlive = true := by
  rw [elapse] at halive
  cases hr : h.reporting with
  | waiting | active => rfl
  | _ =>
      rw [hr] at halive
      cases halive

end Host

namespace Scenario

namespace HostBench

open Host

variable {b : HostBench} {number : Nat}

/-- To drop sending ends leaves the root of the caller. -/
theorem root_dropAll (ends : List Nat) (b : HostBench) :
    (ends.foldl (fun b era => b.onQueue era Queue.dropSender) b).root = b.root := by
  induction ends generalizing b with
  | nil => rfl
  | cons era ends ih => exact ih _

/-- What the caller does. -/
theorem Acts.tokenStep {action : Action} {b' : HostBench} (hacts : b.Acts number action b') :
    b.host.TokenStep b.root b'.host b'.root := by
  cases hacts with
  | nothing | unfed => exact .refl _ _
  | launched hfree hstart =>
      obtain ⟨hidle, rfl⟩ := eq_of_start_launched hstart
      exact .begun hidle rfl rfl rfl rfl (.inl rfl)
  | broken hfree hstart =>
      have hqueues := checkQueues_of_start_broken hstart
      obtain ⟨hidle, rfl⟩ := eq_of_start_broken hstart
      exact .begun hidle rfl rfl rfl rfl (.inr hqueues)
  | droppedAll =>
      obtain ⟨queue, -, -, -, heq⟩ := exists_queue_dropAll b.senders b
      dsimp only
      rw [heq, root_dropAll]
      exact .of_tokens_eq rfl rfl rfl id id
  | stopped => exact tokenStep_tearDown _ _ _
  | cancelled => exact .cancelled [b.root] ⟨id, id⟩ rfl rfl (by simp) rfl rfl
  | rootReplaced hfree hidle hkind =>
      exact .renewed hidle (.inl hkind) hfree ⟨id, id⟩ rfl (.inr rfl) rfl rfl
  | fetchReleased =>
      rw [onPipeline, Pipeline.releaseFetch_eq]
      exact .of_tokens_eq rfl rfl rfl id id
  | hookReleased =>
      rw [onPipeline, Pipeline.releaseHook_eq]
      exact .of_tokens_eq rfl rfl rfl id id
  | offered | submitted | forwarded | cloned | dropped | idled | drained | opened | supplied | fed
  | interrupted | shutdownReleased | guarded | unguarded => exact .of_tokens_eq rfl rfl rfl id id

/-- **What a move can do to the tokens.** -/
theorem tokenStep_move (horder : b.host.Orderly) (m : Move) :
    b.host.TokenStep b.root (b.move m).host (b.move m).root := by
  have hbecomes := b.becomes_move m
  generalize b.move m = b' at hbecomes ⊢
  cases hbecomes with
  | stays => exact .refl _ _
  | acts hacts => exact hacts.tokenStep
  | advances hstep => exact tokenStep_advance horder hstep
  | wakes =>
      exact .of_tokens_eq (root_wakeReporter _) (by simp) (by simp) (by simp)
        (isAlive_wakeReporter _)
  | elapses ms => exact .of_tokens_eq rfl rfl rfl id (isAlive_elapse _ ms)
  | reports =>
      refine .alarmed ⟨id, id⟩ rfl ?_ (.quiet rfl rfl)
      rw [putAway]
      dsimp only
      split
      · exact .inr rfl
      · exact .inl rfl

end HostBench

end Scenario

/-! ### Roots -/

namespace Tokens

variable {t u : Tokens} {token : Token}

/-- A token that was made, and that stands alone. -/
def IsRoot (t : Tokens) (token : Token) : Prop :=
  t.parents[token]? = some none

/-- A root has been made. -/
theorem IsRoot.made (h : t.IsRoot token) : token < t.parents.length :=
  (List.getElem?_eq_some_iff.mp h).1

/-- A root has no parent. -/
theorem IsRoot.parent? (h : t.IsRoot token) : t.parent? token = none := by
  rw [Tokens.parent?, h]
  rfl

/-- A root is cancelled by itself or not at all. -/
theorem IsRoot.contains (h : t.IsRoot token) : t.fired.contains token = t.isCancelled token := by
  rw [isCancelled, h.parent?, Option.any_none, Bool.or_false]

/-- A root stays one. -/
theorem IsRoot.extends (h : t.IsRoot token) (hextends : t.Extends u) : u.IsRoot token := by
  obtain ⟨made, hmade⟩ := hextends.parents
  rw [IsRoot, ← hmade, List.getElem?_append_left h.made]
  exact h

/-- A new token is a root. -/
theorem isRoot_fresh (t : Tokens) : t.fresh.2.IsRoot t.parents.length :=
  List.getElem?_concat_length

/-- No token was cancelled before it was made. -/
def AllMade (t : Tokens) : Prop :=
  ∀ token ∈ t.fired, token < t.parents.length

/-- A token that was made is cancelled. -/
theorem AllMade.cancel (h : t.AllMade) (hmade : token < t.parents.length) :
    (t.cancel token).AllMade := by
  rw [Tokens.cancel]
  split
  · exact h
  · intro x hx
    rcases List.mem_append.mp hx with hx | hx
    · exact h x hx
    · rw [List.mem_singleton.mp hx]
      exact hmade

/-- Another token is made. -/
theorem AllMade.append (h : t.AllMade) (parent : Option Token) :
    ({ t with parents := t.parents ++ [parent] } : Tokens).AllMade := by
  intro x hx
  rw [List.length_append]
  exact Nat.lt_add_right _ (h x hx)

/-- Some tokens are cancelled, one after the other. -/
theorem extends_cancelAll (tokens : List Token) (t : Tokens) :
    t.Extends (tokens.foldl Tokens.cancel t) := by
  induction tokens generalizing t with
  | nil => exact .refl t
  | cons token rest ih => exact (extends_cancel t token).trans (ih _)

/-- Tokens that were made are cancelled. -/
theorem AllMade.cancelAll {tokens : List Token} (h : t.AllMade)
    (hmade : ∀ token ∈ tokens, token < t.parents.length) :
    (tokens.foldl Tokens.cancel t).AllMade := by
  induction tokens generalizing t with
  | nil => exact h
  | cons token rest ih =>
      obtain ⟨hfirst, hrest⟩ := List.forall_mem_cons.mp hmade
      refine ih (h.cancel hfirst) fun x hx => ?_
      rw [parents_cancel]
      exact hrest x hx

/-- A new child takes nothing away. -/
theorem extends_child (t : Tokens) (parent : Token) : t.Extends (t.child parent).2 :=
  ⟨List.prefix_append _ _, List.Subset.refl _⟩

/-- A child of a root that is cancelled is cancelled as well. -/
theorem IsRoot.isCancelled_child (h : t.IsRoot token) (hcancelled : t.isCancelled token = true) :
    (t.child token).2.isCancelled t.parents.length = true := by
  have hparent : (t.child token).2.parent? t.parents.length = some token := by
    rw [Tokens.parent?, child, List.getElem?_concat_length, Option.join_some]
  rw [isCancelled, hparent, Option.any_some, Bool.or_eq_true]
  exact .inr (h.contains.trans hcancelled)

/-- A new token is not cancelled. -/
theorem isCancelled_fresh (h : t.AllMade) : t.fresh.2.isCancelled t.parents.length = false := by
  have hfired : t.fired.contains t.parents.length = false := by
    rw [Bool.eq_false_iff]
    intro hmem
    exact Nat.lt_irrefl _ (h _ (List.contains_iff_mem.mp hmem))
  rw [isCancelled, (isRoot_fresh t).parent?, Option.any_none, Bool.or_false]
  exact hfired

end Tokens

namespace Latch

variable (alarm : Alarm)

/-- An alarm cancels tokens that were made. -/
theorem allMade_trigger {l : Latch} {tokens : Tokens} (h : tokens.AllMade)
    (hrun : l.run < tokens.parents.length) (hroot : l.root < tokens.parents.length) :
    (l.trigger tokens alarm).tokens.AllMade := by
  rw [trigger]
  split
  · exact h
  · refine (h.cancel hrun).cancel ?_
    rw [Tokens.parents_cancel]
    exact hroot

end Latch

namespace Host

variable {h h' : Host} {own own' : Token}

namespace TokenStep

/-- **Tokens are only made and cancelled.** -/
theorem tokens (hstep : h.TokenStep own h' own') :
    h.pipeline.tokens.Extends h'.pipeline.tokens := by
  cases hstep with
  | alarmed hnothing hroot hown halarmed =>
      cases halarmed with
      | quiet hlatch htokens => exact htokens ▸ .refl _
      | raised alarm hlatch htokens => exact htokens ▸ Latch.extends_trigger _ _ _
  | cancelled tokens hnothing hroot hown hkept hlatch htokens =>
      exact htokens ▸ Tokens.extends_cancelAll tokens _
  | begun hidle hroot hown hlatch htokens => exact htokens ▸ Tokens.extends_child _ _
  | renewed hidle hcause hfree hnothing hroot hown hlatch htokens =>
      exact htokens ▸ Tokens.extends_fresh _

end TokenStep

/-- The root tokens of host and caller stand alone, the latch of the present run knows tokens that
were made, and if it has been triggered the root is cancelled. -/
structure Rooted (h : Host) (own : Token) : Prop where
  allMade : h.pipeline.tokens.AllMade
  root : h.pipeline.tokens.IsRoot h.root
  own : h.pipeline.tokens.IsRoot own
  latch : h.pipeline.tokens.IsRoot h.pipeline.latch.root
  run : h.pipeline.latch.run < h.pipeline.tokens.parents.length
  joined : h.running = true → h.pipeline.latch.root = h.root
  triggered : h.pipeline.latch.triggered = true →
    h.pipeline.tokens.isCancelled h.pipeline.latch.root = true

namespace Rooted

/-- **Every step keeps the roots alone.** -/
theorem tokenStep (hrooted : h.Rooted own) (hstep : h.TokenStep own h' own') : h'.Rooted own' := by
  have hextends := hstep.tokens
  have hroot := hrooted.root.extends hextends
  have hown := hrooted.own.extends hextends
  have hlatch := hrooted.latch.extends hextends
  have hmade : h.pipeline.tokens.parents.length ≤ h'.pipeline.tokens.parents.length :=
    hextends.parents.length_le
  have hrun := Nat.lt_of_lt_of_le hrooted.run hmade
  have htriggered : h.pipeline.latch.triggered = true →
      h'.pipeline.tokens.isCancelled h.pipeline.latch.root = true :=
    fun h => hextends.isCancelled (hrooted.triggered h)
  cases hstep with
  | alarmed hnothing hsame hown' halarmed =>
      have hown' : h'.pipeline.tokens.IsRoot own' := by
        rcases hown' with rfl | rfl
        · exact hown
        · exact hroot
      cases halarmed with
      | quiet hlatch' htokens =>
          refine ⟨htokens ▸ hrooted.allMade, hsame ▸ hroot, hown', hlatch' ▸ hlatch, hlatch' ▸ hrun,
            fun hrunning => ?_, hlatch' ▸ htriggered⟩
          rw [hlatch', hsame]
          exact hrooted.joined (hnothing.running hrunning)
      | raised alarm hlatch' htokens =>
          have hsameRoot : h'.pipeline.latch.root = h.pipeline.latch.root := by
            rw [hlatch', Latch.root_trigger]
          refine ⟨?_, hsame ▸ hroot, hown', hsameRoot ▸ hlatch, ?_, fun hrunning => ?_, fun _ => ?_⟩
          · rw [htokens]
            exact Latch.allMade_trigger alarm hrooted.allMade hrooted.run hrooted.latch.made
          · rw [hlatch', Latch.run_trigger]
            exact hrun
          · rw [hsameRoot, hsame]
            exact hrooted.joined (hnothing.running hrunning)
          · rw [hsameRoot, htokens]
            exact Latch.isCancelled_root_trigger _ _ alarm hrooted.triggered
  | cancelled tokens hnothing hsame hown' hkept hlatch' htokens =>
      refine ⟨?_, hsame ▸ hroot, hown' ▸ hown, hlatch' ▸ hlatch, hlatch' ▸ hrun,
        fun hrunning => ?_, hlatch' ▸ htriggered⟩
      · rw [htokens]
        refine hrooted.allMade.cancelAll fun token htoken => ?_
        rcases hkept token htoken with rfl | rfl | rfl
        · exact hrooted.own.made
        · exact hrooted.root.made
        · exact hrooted.run
      · rw [hlatch', hsame]
        exact hrooted.joined (hnothing.running hrunning)
  | begun hidle hsame hown' hlatch' htokens hlaunched =>
      refine ⟨?_, hsame ▸ hroot, hown' ▸ hown, by rw [hlatch']; exact hroot, ?_, fun _ => ?_,
        fun htriggered => ?_⟩
      · rw [htokens]
        exact hrooted.allMade.append _
      · rw [hlatch', htokens, Tokens.child, List.length_append]
        exact Nat.lt_succ_self _
      · rw [hlatch', hsame]
      · rw [hlatch'] at htriggered
        cases htriggered
  | renewed hidle hcause hfree hnothing hnew hown' hlatch' htokens =>
      have hnewRoot : h'.pipeline.tokens.IsRoot h'.root := by
        rw [hnew, htokens]
        exact Tokens.isRoot_fresh _
      refine ⟨?_, hnewRoot, ?_, hlatch' ▸ hlatch, hlatch' ▸ hrun, fun hrunning => ?_,
        hlatch' ▸ htriggered⟩
      · rw [htokens]
        exact hrooted.allMade.append _
      · rcases hown' with rfl | rfl
        · exact hown
        · exact hnewRoot
      · cases hidle.symm.trans (hnothing.running hrunning)

end Rooted

/-- In a new host root and caller stand alone. -/
theorem rooted_make (kind : HostKind) (settings : Settings) (protocol : Protocol)
    (ownToken : Bool) :
    (Scenario.HostBench.make kind settings protocol ownToken).host.Rooted
      (Scenario.HostBench.make kind settings protocol ownToken).root := by
  have hnone : ∀ parents : List (Option Token), ({ parents } : Tokens).AllMade :=
    fun _ _ hmem => absurd hmem List.not_mem_nil
  rw [Scenario.HostBench.make]
  split
  · refine ⟨hnone _, rfl, rfl, rfl, Nat.zero_lt_succ _, fun h => ?_, fun h => ?_⟩ <;> cases h
  · refine ⟨hnone _, rfl, rfl, rfl, Nat.zero_lt_succ _, fun h => ?_, fun h => ?_⟩ <;> cases h

/-! ### Hosts without a run -/

end Host

/-- Whether the workers are given up, and the run is not. -/
def OperationPhase.isJoiningCrew : OperationPhase → Bool
  | .joiningWorkers _ | .joiningReporter _ => true
  | _ => false

namespace Host

variable {h h' : Host} {op : Operation}

/-- A host has of a run only what it still needs. Where a run was launched, the next one can be. -/
structure NoLeftovers (h : Host) : Prop where
  done : h.handles.done = h.running
  crew : (h.running = false ∨ ∃ op, h.operation = some op ∧ op.phase.isJoiningCrew = true) →
    h.pipeline.pool.handles = 0 ∧ h.pipeline.counters.poolSize = 0
  started : h.started = true → h.kind = .runner ∧
    (h.running = true ∨ h.lost = true ∨ ∃ op, h.operation = some op ∧ op.phase.isLeaving = true)
  queues : 0 < h.pipeline.intake.era → checkQueues h.settings = .ok ()

/-- What a host has of a run is as it was. -/
structure SameHold (h h' : Host) : Prop where
  kind : h'.kind = h.kind
  settings : h'.settings = h.settings
  running : h'.running = h.running
  done : h'.handles.done = h.handles.done
  started : h'.started = h.started
  lost : h'.lost = h.lost
  handles : h'.pipeline.pool.handles = h.pipeline.pool.handles
  poolSize : h'.pipeline.counters.poolSize = h.pipeline.counters.poolSize
  era : h'.pipeline.intake.era = h.pipeline.intake.era

namespace NoLeftovers

/-- The operation goes on, with the same of a run. -/
theorem turned (hclean : h.NoLeftovers) (hsame : h.SameHold h')
    (hcrew : ∀ op', h'.operation = some op' → op'.phase.isJoiningCrew = true →
      h.running = false ∨ ∃ op, h.operation = some op ∧ op.phase.isJoiningCrew = true)
    (hleaving : ∀ op, h.operation = some op → op.phase.isLeaving = true →
      ∃ op', h'.operation = some op' ∧ op'.phase.isLeaving = true) : h'.NoLeftovers := by
  refine ⟨?_, ?_, ?_, ?_⟩
  · rw [hsame.done, hsame.running, hclean.done]
  · rw [hsame.running, hsame.handles, hsame.poolSize]
    rintro (hidle | ⟨op', hop', hphase⟩)
    · exact hclean.crew (.inl hidle)
    · exact hclean.crew (hcrew op' hop' hphase)
  · rw [hsame.started, hsame.kind, hsame.running, hsame.lost]
    intro hstarted
    obtain ⟨hkind, hrunning | hlost | ⟨op, hop, hphase⟩⟩ := hclean.started hstarted
    · exact ⟨hkind, .inl hrunning⟩
    · exact ⟨hkind, .inr (.inl hlost)⟩
    · exact ⟨hkind, .inr (.inr (hleaving op hop hphase))⟩
  · rw [hsame.settings, hsame.era]
    exact hclean.queues

/-- An operation begins, or one goes on that has not given up the run. -/
theorem carried (hclean : h.NoLeftovers) (hsame : h.SameHold h')
    (hnew : ∀ op', h'.operation = some op' → op'.phase.isJoiningCrew = false)
    (hold : ∀ op, h.operation = some op → op.phase.isLeaving = false) : h'.NoLeftovers := by
  refine hclean.turned hsame (fun op' hop' hphase => ?_) fun op hop hphase => ?_
  · cases (hnew op' hop').symm.trans hphase
  · cases (hold op hop).symm.trans hphase

/-- A run is launched. -/
theorem launched (hstart : h.start = .launched h')
    (hold : ∀ op, h.operation = some op → op.phase.isJoiningCrew = false) : h'.NoLeftovers := by
  have hqueues := checkQueues_of_start_launched hstart
  obtain ⟨-, rfl⟩ := eq_of_start_launched hstart
  refine ⟨rfl, ?_, fun hstarted => ⟨of_decide_eq_true hstarted, .inl rfl⟩, fun _ => hqueues⟩
  rintro (hidle | ⟨op, hop, hphase⟩)
  · cases hidle
  · cases (hold op hop).symm.trans hphase

/-- **No step leaves a host with more of a run than it needs.** -/
theorem step (hclean : h.NoLeftovers) (horder : h.Orderly) (hstep : h.Step h') :
    h'.NoLeftovers := by
  have hfreed : h.operation = none → ∀ op, h.operation = some op → op.phase.isLeaving = false := by
    intro hfree op hop
    cases hfree.symm.trans hop
  have hturned : ∀ {op : Operation}, h.operation = some op → op.phase.isLeaving = false →
      ∀ op', h.operation = some op' → op'.phase.isLeaving = false := by
    intro op hop hphase op' hop'
    exact Option.some.inj (hop.symm.trans hop') ▸ hphase
  have hnow : ∀ {op : Operation}, op.phase.isJoiningCrew = false → ∀ op', some op = some op' →
      op'.phase.isJoiningCrew = false :=
    fun hphase op' hop' => Option.some.inj hop' ▸ hphase
  cases hstep with
  | within hkeeps hlatch hintake hsame =>
      refine hclean.turned ⟨hkeeps.kind, hkeeps.settings, hkeeps.running, by rw [hkeeps.handles],
        hkeeps.started, hkeeps.lost, hsame.handles, hsame.poolSize, hintake.era⟩ ?_ ?_
      · rw [hkeeps.operation]
        exact fun op hop hphase => .inr ⟨op, hop, hphase⟩
      · rw [hkeeps.operation]
        exact fun op hop hphase => ⟨op, hop, hphase⟩
  | launched hfree hstart =>
      refine .launched hstart fun op hop => ?_
      cases hfree.symm.trans hop
  | broken hfree hstart =>
      obtain ⟨-, rfl⟩ := eq_of_start_broken hstart
      refine hclean.carried (by constructor <;> rfl) (fun op' hop' => ?_) (hfreed hfree)
      cases hfree.symm.trans hop'
  | idled hfree | drained hfree | opening hfree =>
      exact hclean.carried (by constructor <;> rfl) (hnow rfl) (hfreed hfree)
  | stopped hfree hrunning label =>
      obtain ⟨tokens, -, -, heq⟩ := exists_tearDown_eq h _
      rw [heq]
      exact hclean.carried (by constructor <;> rfl) (hnow rfl) (hfreed hfree)
  | @tornDown op hop hphase =>
      have hold : op.phase.isLeaving = false := by
        rcases hphase with hphase | ⟨interrupted, hphase⟩ <;> rw [hphase] <;> rfl
      obtain ⟨tokens, -, -, heq⟩ := exists_tearDown_eq h _
      rw [heq]
      exact hclean.carried (by constructor <;> rfl) (hnow rfl) (hturned hop hold)
  | openRefused hop hphase | supplied hop hphase | interrupted hop hphase =>
      exact hclean.carried (by constructor <;> rfl) (hnow rfl) (hturned hop (by rw [hphase]; rfl))
  | openBroken hop hphase hstart =>
      obtain ⟨-, rfl⟩ := eq_of_start_broken hstart
      have hkeeps := keeps_wakeReporter h.beginLife
      refine hclean.carried ⟨hkeeps.kind, hkeeps.settings, hkeeps.running, ?_, hkeeps.started,
        hkeeps.lost, ?_, ?_, ?_⟩ (hnow rfl) (hturned hop (by rw [hphase]; rfl))
      · simp only [turnTo, hkeeps.handles]
        rfl
      all_goals
        simp only [turnTo, pipeline_wakeReporter]
        rfl
  | @openLaunched op supply h'' hop hphase hstart =>
      have hopening : ∀ op', h.operation = some op' → op' = op := fun op' hop' =>
        Option.some.inj (hop'.symm.trans hop)
      have hlaunched := launched hstart fun op' hop' => by rw [hopening op' hop', hphase]; rfl
      have hkeeps := keeps_wakeReporter h''
      rw [openRun, hstart]
      refine hlaunched.carried ⟨hkeeps.kind, hkeeps.settings, hkeeps.running, ?_, hkeeps.started,
        hkeeps.lost, ?_, ?_, ?_⟩ (hnow rfl) fun op' hop' => ?_
      · simp only [turnTo, hkeeps.handles]
      · simp only [turnTo, pipeline_wakeReporter]
      · simp only [turnTo, pipeline_wakeReporter]
      · simp only [turnTo, pipeline_wakeReporter, Intake.start]
      · obtain ⟨-, rfl⟩ := eq_of_start_launched hstart
        rw [hopening op' hop', hphase]
        rfl
  | coordinatorJoined hop hphase hending =>
      refine ⟨hclean.done, fun _ => ⟨rfl, rfl⟩, fun hstarted => ?_, hclean.queues⟩
      obtain ⟨hkind, hrunning | hlost | ⟨op', hop', hleaving⟩⟩ := hclean.started hstarted
      · exact ⟨hkind, .inl hrunning⟩
      · exact ⟨hkind, .inr (.inl hlost)⟩
      · cases (hturned hop (by rw [hphase]; rfl) op' hop').symm.trans hleaving
  | workersJoined hop hphase hgone =>
      refine hclean.turned (by constructor <;> rfl)
        (fun _ _ _ => .inr ⟨_, hop, by rw [hphase]; rfl⟩) fun op' hop' hleaving => ?_
      cases (hturned hop (by rw [hphase]; rfl) op' hop').symm.trans hleaving
  | reporterJoined hop hphase hgone =>
      exact ⟨rfl, fun _ => hclean.crew (.inr ⟨_, hop, by rw [hphase]; rfl⟩),
        fun hstarted => ⟨(hclean.started hstarted).1, .inr (.inr ⟨_, rfl, rfl⟩)⟩, hclean.queues⟩
  | shutdownCalled hop hphase hlock =>
      refine hclean.turned ⟨rfl, rfl, rfl, rfl, rfl, rfl, ?_, ?_, by rw [intake_callShutdown]⟩
        (fun op' hop' hcrew => ?_) fun _ _ _ => ⟨_, rfl, rfl⟩
      · simp only [callShutdown, turnTo]
        split <;> rfl
      · simp only [callShutdown, turnTo]
        split <;> rfl
      · cases (hnow rfl op' hop').symm.trans hcrew
  | concluded hop hphase hstep =>
      have hidle : h.running = false := by
        have hfits := horder.fits _ hop
        rwa [hphase] at hfits
      have hcrew := hclean.crew (.inl hidle)
      obtain ⟨lost, results, -, ⟨hcause, rfl⟩ | ⟨-, rfl⟩⟩ := exists_eq_of_finishShutdown? hstep
      · refine ⟨hclean.done, fun _ => hcrew, fun hstarted => ?_, hclean.queues⟩
        have hrunner := (hclean.started hstarted).1
        rcases hcause with hkind | hlost
        · cases hkind.symm.trans hrunner
        · exact ⟨hrunner, .inr (.inl hlost)⟩
      · exact ⟨hclean.done, fun _ => hcrew, (fun hstarted => by cases hstarted), hclean.queues⟩
  | returned hop hphase =>
      refine ⟨hclean.done, fun hgone => hclean.crew (.inl ?_), fun hstarted => ?_, hclean.queues⟩
      · rcases hgone with hidle | ⟨op', hop', -⟩
        · exact hidle
        · cases hop'
      · obtain ⟨hkind, hrunning | hlost | ⟨op', hop', hleaving⟩⟩ := hclean.started hstarted
        · exact ⟨hkind, .inl hrunning⟩
        · exact ⟨hkind, .inr (.inl (by rw [report, hlost, Bool.true_or]))⟩
        · cases (hturned hop (by rw [hphase]; rfl) op' hop').symm.trans hleaving
  | shutdownAnswered hop hphase mode =>
      refine hclean.turned (by constructor <;> rfl) (fun op' hop' hcrew => ?_)
        fun _ _ _ => ⟨_, rfl, rfl⟩
      cases (hnow rfl op' hop').symm.trans hcrew

end NoLeftovers

/-- A new host has nothing of a run. -/
theorem noLeftovers_make (kind : HostKind) (settings : Settings) (protocol : Protocol)
    (ownToken : Bool) :
    (Scenario.HostBench.make kind settings protocol ownToken).host.NoLeftovers := by
  rw [Scenario.HostBench.make]
  split
  · refine ⟨rfl, fun _ => ⟨rfl, rfl⟩, fun h => ?_, fun h => ?_⟩ <;> cases h
  · refine ⟨rfl, fun _ => ⟨rfl, rfl⟩, fun h => ?_, fun h => ?_⟩ <;> cases h

/-- When a run is given up, its reporter has ended. -/
theorem Step.isAlive_eq_false (hstep : h.Step h') (hrunning : h.running = true)
    (hidle : h'.running = false) : h'.reporting.isAlive = false := by
  have hsame : h'.running = h.running → h'.reporting.isAlive = false := by
    intro hsame
    cases hrunning.symm.trans (hsame.symm.trans hidle)
  cases hstep with
  | within hkeeps => exact hsame hkeeps.running
  | launched hfree hstart =>
      obtain ⟨hbefore, -⟩ := eq_of_start_launched hstart
      cases hrunning.symm.trans hbefore
  | broken hfree hstart =>
      obtain ⟨hbefore, -⟩ := eq_of_start_broken hstart
      cases hrunning.symm.trans hbefore
  | openBroken hop hphase hstart =>
      obtain ⟨hbefore, -⟩ := eq_of_start_broken hstart
      cases hrunning.symm.trans hbefore
  | openLaunched hop hphase hstart =>
      obtain ⟨hbefore, -⟩ := eq_of_start_launched hstart
      cases hrunning.symm.trans hbefore
  | stopped | tornDown =>
      obtain ⟨tokens, -, -, heq⟩ := exists_tearDown_eq h _
      exact hsame (by rw [heq]; rfl)
  | reporterJoined hop hphase hgone => exact hgone
  | concluded hop hphase hstep => exact hsame (intake_of_finishShutdown? hstep).2.2
  | idled | drained | opening | openRefused | coordinatorJoined | workersJoined | shutdownCalled
  | returned | supplied | interrupted | shutdownAnswered => exact hsame rfl

end Host

/-! ### Courses of moves -/

namespace Chronicle

open Scenario (HostBench)

variable {c : Chronicle}

/-- A move does to the tokens what a step may do. -/
theorem Sound.tokenStep (h : c.Sound) (m : HostBench.Move) :
    c.bench.host.TokenStep c.bench.root (c.move m).bench.host (c.move m).bench.root :=
  HostBench.tokenStep_move h.orderly m

/-- **Nothing is ever taken out of the journal.** -/
theorem Sound.exists_journal (h : c.Sound) (moves : List HostBench.Move) :
    ∃ new, (c.run moves).pipeline.journal = new ++ c.pipeline.journal := by
  induction moves generalizing c with
  | nil => exact ⟨[], rfl⟩
  | cons m moves ih =>
      obtain ⟨first, hfirst⟩ := (HostBench.step_move c.bench m).exists_journal (h.change m)
      obtain ⟨rest, hrest⟩ := ih (h.move m)
      exact ⟨rest ++ first, by rw [List.append_assoc]; exact hrest.trans (congrArg (rest ++ ·) hfirst)⟩

/-- **Tokens are only made and cancelled.** -/
theorem Sound.tokens (h : c.Sound) (moves : List HostBench.Move) :
    c.pipeline.tokens.Extends (c.run moves).pipeline.tokens := by
  induction moves generalizing c with
  | nil => exact .refl _
  | cons m moves ih => exact (h.tokenStep m).tokens.trans (ih (h.move m))

/-- **The root tokens stand alone.** -/
theorem Reachable.rooted (hc : c.Reachable) : c.bench.host.Rooted c.bench.root :=
  hc.induct (J := fun c => c.bench.host.Rooted c.bench.root) Host.rooted_make
    fun _ m hc hrooted => hrooted.tokenStep (hc.sound.tokenStep m)

/-- **A host has nothing of a run that it has ended.** -/
theorem Reachable.noLeftovers (hc : c.Reachable) : c.bench.host.NoLeftovers :=
  hc.induct (J := fun c => c.bench.host.NoLeftovers) Host.noLeftovers_make
    fun c m hc hclean => hclean.step hc.sound.orderly (HostBench.step_move c.bench m)

/-- Where runs can be launched, there is no reporter without a run. -/
theorem Reachable.isAlive_eq_false (hc : c.Reachable) (hidle : c.bench.host.running = false)
    (hqueues : Host.checkQueues c.bench.host.settings = .ok ()) :
    c.bench.host.reporting.isAlive = false := by
  revert hidle hqueues
  refine hc.induct (J := fun c => c.bench.host.running = false →
    Host.checkQueues c.bench.host.settings = .ok () → c.bench.host.reporting.isAlive = false) ?_ ?_
  · intro kind settings protocol ownToken _ _
    rw [start, HostBench.make]
    split <;> rfl
  · intro c m hc ih hidle hqueues
    have hstep := HostBench.step_move c.bench m
    rw [show (c.move m).bench.host.settings = _ from hstep.settings] at hqueues
    have hnothing : c.bench.host.LaunchesNothing (c.move m).bench.host →
        (c.move m).bench.host.reporting.isAlive = false := by
      intro hnothing
      cases hrunning : c.bench.host.running with
      | true => exact hstep.isAlive_eq_false hrunning hidle
      | false =>
          rw [Bool.eq_false_iff]
          intro halive
          cases (ih hrunning hqueues).symm.trans (hnothing.reporting halive)
    cases hc.sound.tokenStep m with
    | alarmed h | cancelled _ h | renewed _ _ _ h => exact hnothing h
    | begun _ _ _ _ _ hlaunched =>
        rcases hlaunched with hrunning | hbroken
        · cases hidle.symm.trans hrunning
        · exact absurd hqueues hbroken

end Chronicle

end SharedFetch
