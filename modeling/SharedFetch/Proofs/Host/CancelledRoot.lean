import SharedFetch.Proofs.Host.RootTokens

/-!
# Runs under a cancelled root

The token of a run is a child of the root, so a run that is launched under a cancelled root is
cancelled from the beginning. Its coordinator leaves before it has taken anything up, and so do its
workers. This goes on from run to run, as long as the host keeps the root, and nobody can take back
what was cancelled.

## Main results

* `Pipeline.Unbegun.change`: a cancelled run that has begun nothing never does.
* `Chronicle.Reachable.unbegun_run`: under a cancelled root nothing is resolved, fetched or
  delivered, along every course of moves.
-/

namespace SharedFetch

/-- Whether the entry is about something other than references and locations. -/
def Entry.isBystanding : Entry → Bool
  | .shutdown | .note _ => true
  | _ => false

namespace Pipeline

variable {p q r : Pipeline}

/-- Nothing is resolved, fetched or delivered: that is neither written down nor counted. -/
structure Idles (p q : Pipeline) : Prop where
  journal : ∃ new, q.journal = new ++ p.journal ∧ ∀ e ∈ new, e.isBystanding = true
  counters : q.counters = { p.counters with poolSize := q.counters.poolSize }
  activity : q.activity = p.activity

namespace Idles

/-- What is neither written nor counted has not been done. -/
theorem of_eq (hjournal : q.journal = p.journal) (hcounters : q.counters = p.counters)
    (hactivity : q.activity = p.activity) : p.Idles q :=
  ⟨⟨[], hjournal, by simp⟩, by rw [hcounters], hactivity⟩

/-- Nothing happens. -/
theorem refl (p : Pipeline) : p.Idles p :=
  .of_eq rfl rfl rfl

/-- Nothing is done in a while and in another. -/
theorem trans (h : p.Idles q) (h' : q.Idles r) : p.Idles r := by
  obtain ⟨old, hold, hbefore⟩ := h.journal
  obtain ⟨new, hnew, hafter⟩ := h'.journal
  refine ⟨⟨new ++ old, by rw [hnew, hold, List.append_assoc], fun e he => ?_⟩, ?_, ?_⟩
  · exact (List.mem_append.mp he).elim (hafter e) (hbefore e)
  · rw [h'.counters, h.counters]
  · exact h'.activity.trans h.activity

end Idles

/-- The run is cancelled or through, and nobody has begun anything. -/
structure Unbegun (p : Pipeline) : Prop where
  cancelled : p.isCancelled = true ∨ p.Finished
  phase : p.coordinator.phase = .choosing ∨ p.isOver = true
  busy : p.pool.busy = []

namespace Unbegun

/-- A run that is through begins nothing. -/
theorem of_finished (h : p.Finished) : p.Unbegun :=
  ⟨.inr h, .inr h.ended, h.nobody.2⟩

/-- The coordinator leaves at once. -/
theorem coordinatorStep (h : p.Unbegun) (hstep : p.CoordinatorStep q) : q.Unbegun ∧ p.Idles q := by
  have hrunning := hstep.running
  have hphase : p.coordinator.phase = .choosing := by
    refine h.phase.resolve_right fun hover => ?_
    cases hrunning.symm.trans hover
  have hcancelled : p.isCancelled = true := by
    refine h.cancelled.resolve_right fun hfinished => ?_
    cases hrunning.symm.trans hfinished.ended
  have hlooks : ¬ p.Looks := by
    intro hlooks
    cases hlooks.live.symm.trans hcancelled
  cases hstep with
  | drained =>
      exact ⟨⟨.inl hcancelled, .inr rfl, h.busy⟩,
        ⟨⟨[.note .stopped, .note .drained], rfl, by simp [Entry.isBystanding]⟩, rfl, rfl⟩⟩
  | interrupted =>
      exact ⟨⟨.inl hcancelled, .inr rfl, h.busy⟩,
        ⟨⟨[.note .stopped, .note (.interrupted _ _)], rfl, by simp [Entry.isBystanding]⟩, rfl, rfl⟩⟩
  | completed hl | stray hl | completionsEnded hl | stranded hl | dispatched hl | undispatchable hl
  | took hl | intakeEnded hl => exact absurd hl hlooks
  | admitted hp | coalesced hp | unresolvable hp | resolvePanicked hp | calledUnresolved hp
  | unresolvedSucceeded hp | unresolvedFailed hp | unresolvedPanicked hp | fanOutBegun hp
  | fanOutEnded hp | calledProcess hp | processSucceeded hp | processFailed hp | processPanicked hp
  | unresolvedDropped hp | processDropped hp => cases hphase.symm.trans hp

/-- A worker leaves, for it has nothing to do. -/
theorem workerStep (h : p.Unbegun) (hstep : p.WorkerStep q) : q.Unbegun ∧ p.Idles q := by
  have hcancelled : p.isCancelled = true := by
    refine h.cancelled.resolve_right fun hfinished => ?_
    cases hstep.isGone_eq_false.symm.trans hfinished.gone
  have hworks : ∀ {j : Job} {stage : JobStage}, ¬ p.Works j stage := by
    intro j stage hworks
    have hmem := hworks.mem
    rw [h.busy] at hmem
    cases hmem
  have hleft : ∀ id, (p.leave id .done).Unbegun ∧ p.Idles (p.leave id .done) := by
    intro id
    refine ⟨⟨.inl hcancelled, ?_, ?_⟩, .of_eq rfl rfl rfl⟩
    · rw [isOver, coordinator_leave]
      exact h.phase
    · rw [pool_leave, Pool.without, h.busy]
      rfl
  cases hstep with
  | quit | dismissed => exact hleft _
  | took hlive => cases hlive.symm.trans hcancelled
  | called hw | callPanicked hw | fetched hw | fetchFailed hw | fetchPanicked hw | fetchDropped hw
  | handedIn hw | handedInLast hw | undelivered hw => exact absurd hw hworks

/-- Something happens apart from coordinator and workers. -/
theorem sparesTasks (h : p.Unbegun) (hspares : p.SparesTasks q)
    (hcancelled : q.isCancelled = true ∨ q.Finished) : q.Unbegun ∧ p.Idles q := by
  refine ⟨⟨hcancelled, ?_, ?_⟩, ⟨?_, hspares.counters, hspares.activity⟩⟩
  · rw [isOver, hspares.coordinator]
    exact h.phase
  · rw [hspares.busy]
    exact h.busy
  · obtain ⟨new, hnew, hshutdown⟩ := hspares.journal
    exact ⟨new, hnew, fun e he => by rw [hshutdown e he]; rfl⟩

/-- **A cancelled run that has begun nothing never does.** -/
theorem change (h : p.Unbegun) (hchange : p.Change q) : q.Unbegun ∧ p.Idles q := by
  cases hchange with
  | coordinated hstep => exact h.coordinatorStep hstep
  | worked hstep => exact h.workerStep hstep
  | hookReleased mode =>
      have hsame : p.releaseHook mode = p := by
        rcases exists_releaseHook p mode with heq | ⟨phase, hrunning, -, hheld⟩
        · exact heq
        · have hphase := h.phase.resolve_right fun hover => by cases hrunning.symm.trans hover
          rcases hheld with ⟨r, hheld, -⟩ | ⟨r, outcome, rest, delivered, hheld, -⟩ <;>
            cases hphase.symm.trans hheld
      rw [hsame]
      exact ⟨h, .refl p⟩
  | fetchReleased hj mode =>
      rw [h.busy] at hj
      cases hj
  | tasksSpared hspares hlatch htokens =>
      refine h.sparesTasks hspares (h.cancelled.imp (fun hcancelled => ?_) hspares.finished)
      rw [isCancelled, hlatch]
      exact htokens.isCancelled hcancelled
  | renewed hspares hfinished hcaught =>
      exact h.sparesTasks hspares (.inr (hspares.finished hfinished))

end Unbegun

end Pipeline

namespace Host

variable {h h' : Host}

/-- A run that is launched under a cancelled root is cancelled before anything has begun. -/
theorem unbegun_launch (hroot : h.pipeline.tokens.IsRoot h.root)
    (hcancelled : h.pipeline.tokens.isCancelled h.root = true) :
    h.beginLife.freshPipeline.Unbegun ∧ h.pipeline.Idles h.beginLife.freshPipeline :=
  ⟨⟨.inl (hroot.isCancelled_child hcancelled), .inl rfl, rfl⟩, ⟨[], rfl, by simp⟩, rfl, rfl⟩

/-- **Whatever happens to a host with a cancelled root, its pipeline begins nothing.** -/
theorem Step.unbegun (hstep : h.Step h') (hunbegun : h.pipeline.Unbegun)
    (hroot : h.pipeline.tokens.IsRoot h.root)
    (hcancelled : h.pipeline.tokens.isCancelled h.root = true)
    (hchange : h.pipeline.Change h'.pipeline ∨ h.pipeline.Launched h'.pipeline) :
    h'.pipeline.Unbegun ∧ h.pipeline.Idles h'.pipeline := by
  have hkept : h'.pipeline.intake.era = h.pipeline.intake.era →
      h'.pipeline.Unbegun ∧ h.pipeline.Idles h'.pipeline := by
    intro hera
    refine hunbegun.change (hchange.resolve_right fun hlaunched => ?_)
    exact Nat.succ_ne_self _ (hlaunched.era.symm.trans hera)
  have hlaunched := unbegun_launch hroot hcancelled
  cases hstep with
  | within hkeeps hlatch hintake => exact hkept hintake.era
  | launched hfree hstart =>
      obtain ⟨-, rfl⟩ := eq_of_start_launched hstart
      exact hlaunched
  | broken hfree hstart =>
      obtain ⟨-, rfl⟩ := eq_of_start_broken hstart
      exact hkept rfl
  | stopped | tornDown =>
      obtain ⟨tokens, -, -, heq⟩ := exists_tearDown_eq h _
      exact hkept (by rw [heq]; rfl)
  | openBroken hop hphase hstart =>
      obtain ⟨-, rfl⟩ := eq_of_start_broken hstart
      refine hkept ?_
      simp only [turnTo, pipeline_wakeReporter]
      rfl
  | openLaunched hop hphase hstart =>
      rw [openRun, hstart]
      obtain ⟨-, rfl⟩ := eq_of_start_launched hstart
      simp only [turnTo, pipeline_wakeReporter]
      obtain ⟨⟨hrun, hphase, hbusy⟩, hjournal, hcounters, hactivity⟩ := hlaunched
      exact ⟨⟨hrun.imp id fun hfinished => ⟨hfinished.ended, hfinished.gone⟩, hphase, hbusy⟩,
        hjournal, hcounters, hactivity⟩
  | shutdownCalled => exact hkept (by rw [intake_callShutdown])
  | concluded hop hphase hstep => exact hkept (by rw [(intake_of_finishShutdown? hstep).1]; rfl)
  | idled | drained | opening | openRefused | coordinatorJoined | workersJoined | reporterJoined
  | returned | supplied | interrupted | shutdownAnswered => exact hkept rfl

/-- Roots are replaced by new ones only. -/
theorem TokenStep.root_le {own own' : Token} (hstep : h.TokenStep own h' own')
    (hrooted : h.Rooted own) : h.root ≤ h'.root := by
  cases hstep with
  | alarmed _ hroot | cancelled _ _ hroot | begun _ hroot => exact Nat.le_of_eq hroot.symm
  | renewed _ _ _ _ hroot =>
      rw [hroot]
      exact Nat.le_of_lt hrooted.root.made

end Host

namespace Chronicle

open Scenario (HostBench)

variable {c : Chronicle}

/-- Roots are made one after the other. -/
theorem Reachable.root_le (hc : c.Reachable) (moves : List HostBench.Move) :
    c.bench.host.root ≤ (c.run moves).bench.host.root := by
  induction moves generalizing c with
  | nil => exact Nat.le_refl _
  | cons m moves ih =>
      exact Nat.le_trans ((hc.sound.tokenStep m).root_le hc.rooted) (ih (hc.move m))

/-- **Under a cancelled root nothing is resolved, fetched or delivered**, as long as the host keeps
that root. -/
theorem Reachable.unbegun_run (hc : c.Reachable) (hunbegun : c.pipeline.Unbegun)
    (hcancelled : c.pipeline.tokens.isCancelled c.bench.host.root = true)
    (moves : List HostBench.Move)
    (hroot : (c.run moves).bench.host.root = c.bench.host.root) :
    (c.run moves).pipeline.Unbegun ∧ c.pipeline.Idles (c.run moves).pipeline := by
  induction moves generalizing c with
  | nil => exact ⟨hunbegun, .refl _⟩
  | cons m moves ih =>
      have hnext := hc.move m
      -- a root that is given up does not come back
      have hsame : (c.move m).bench.host.root = c.bench.host.root :=
        Nat.le_antisymm (hroot ▸ hnext.root_le moves) (hc.root_le [m])
      obtain ⟨hunbegun, hidles⟩ := (HostBench.step_move c.bench m).unbegun hunbegun hc.rooted.root
        hcancelled (hc.sound.change m)
      have hstays : (c.move m).pipeline.tokens.isCancelled (c.move m).bench.host.root = true := by
        rw [hsame]
        exact (hc.sound.tokens [m]).isCancelled hcancelled
      obtain ⟨hlast, hrest⟩ := ih hnext hunbegun hstays (hroot.trans hsame.symm)
      exact ⟨hlast, hidles.trans hrest⟩

end Chronicle

end SharedFetch
