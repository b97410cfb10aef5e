import SharedFetch.Proofs.Host.Provenance
import SharedFetch.Proofs.Pipeline.Stopping

/-!
# Stopping a run

A run is stopped while neither its coordinator nor a worker can go on: somebody cancels its token.
From then on the run is only taken down, however the moves that follow are interleaved: no reference
is taken up or resolved, no hook is called, nothing is dispatched, and all that is counted of the
fan-out that is interrupted is what has been delivered. Once nobody can go on any more, coordinator
and workers are gone.

Two things are asked of those outside. A coordinator that waits for the protocol lock, because
somebody outside has it, goes on with what it has in hand once it gets the lock, before it looks at
the token; and a hook that is held and is given its answer after the token has fired may be taken
for one that has returned (`acts_after_stop`).

## Main results

* `Chronicle.Reachable.not_cancelled_of_process`: no reference is given an outcome that only says
  that its fetch was dropped.
* `Chronicle.Sound.halted_run`, `Chronicle.Sound.winding_run`: what a stopped run does, along every
  course of moves.
* `Chronicle.stop_safe`: a run that is stopped is taken down, with no further effect.
-/

namespace SharedFetch

namespace Pipeline

variable {p q r : Pipeline} {reply : Option Reply}

/-- Whether a hook or a fetch waits to be let go. -/
def awaits (p : Pipeline) : Reply → Bool
  | .hook => p.heldHook?.isSome
  | .fetch => !p.pool.held.isEmpty

theorem releaseHook_of_awaits (h : p.awaits .hook = false) (mode : HookMode) :
    p.releaseHook mode = p := by
  rcases exists_releaseHook p mode with heq | ⟨phase, -, -, hphase⟩
  · exact heq
  · rcases hphase with ⟨r, hphase, -⟩ | ⟨r, outcome, rest, delivered, hphase, -⟩ <;>
      simp [awaits, heldHook?, hphase] at h

theorem releaseFetch_of_awaits {j : Job} (h : p.awaits .fetch = false) (hj : j ∈ p.pool.busy)
    (mode : FetchMode) : p.releaseFetch j mode = p := by
  rw [releaseFetch]
  split
  · rename_i number hstage
    have hheld : j.location ∈ p.pool.held :=
      List.mem_map_of_mem (List.mem_filter.mpr ⟨hj, by rw [Job.isHeld, hstage]⟩)
    simp [awaits, List.ne_nil_of_mem hheld] at h
  · rfl

/-- A host that has never run is tidy. -/
theorem Unused.tidy (h : p.Unused) : p.Tidy := by
  obtain ⟨kind, settings, protocol, tokens, rfl⟩ := h
  exact ⟨fun _ => rfl, fun _ => rfl, rfl⟩

/-! ### What a move does to a run that was stopped -/

/-- A move that launches no run and answers no hook keeps a halted run halted, and adds nothing to
its ledger. -/
theorem Halted.effect {others : List (Party × Access)} {held : Bool} (h : Halted p q)
    (hpaused : p.coordinator.phase.isPaused = true) (hline : q.InLine others held)
    (hera : r.intake.era = q.intake.era) (hhook : reply = some .hook → q.awaits .hook = false)
    (heffect : Effect reply q r) : Halted p r ∧ ∀ g : Ledger, g.follow q r = g := by
  cases heffect with
  | unanswered hunanswered => exact h.unansweredChange hpaused hline hunanswered
  | launched hlaunched =>
      rw [hlaunched.era] at hera
      exact absurd hera (Nat.succ_ne_self _)
  | hookAnswered hreply mode =>
      rw [releaseHook_of_awaits (hhook hreply)]
      exact ⟨h, (SparesTasks.refl q).sparesCoordinator.follow⟩
  | fetchAnswered hreply hj mode =>
      exact ⟨h.releaseFetch hj mode, (sparesCoordinator_releaseFetch q _ mode).follow⟩

/-- A move that launches no run and answers no fetch keeps the account of the fetches that were
held. -/
theorem Winding.effect (h : Winding p q) (hworkers : q.pool.workers.Nodup)
    (hcancelled : q.isCancelled = true ∨ q.Finished) (hera : r.intake.era = q.intake.era)
    (hfetch : reply = some .fetch → q.awaits .fetch = false) (heffect : Effect reply q r) :
    Winding p r := by
  cases heffect with
  | unanswered hunanswered => exact h.unansweredChange hworkers hcancelled hunanswered
  | launched hlaunched =>
      rw [hlaunched.era] at hera
      exact absurd hera (Nat.succ_ne_self _)
  | hookAnswered hreply mode =>
      rcases exists_releaseHook q mode with heq | ⟨phase, -, heq, -⟩
      · rwa [heq]
      · rw [heq]
        exact h.kept rfl rfl
  | fetchAnswered hreply hj mode => rwa [releaseFetch_of_awaits (hfetch hreply) hj]

/-- A move that cancels a run in which nobody can go on happens apart from coordinator and
workers. -/
theorem Quiescent.sparesTasks (h : p.Quiescent) (hlive : p.isCancelled = false)
    (hera : q.intake.era = p.intake.era) (hcancelled : q.isCancelled = true)
    (heffect : Effect reply p q) : p.SparesTasks q := by
  cases heffect with
  | unanswered hunanswered =>
      cases hunanswered with
      | coordinated hstep =>
          rw [h.coordinate, h.dropHook] at hstep
          exact hstep.elim nofun nofun
      | worked hstep =>
          rw [h.work, h.dropFetch] at hstep
          exact hstep.elim nofun nofun
      | tasksSpared hspares | renewed hspares => exact hspares
  | launched hlaunched =>
      rw [hlaunched.era] at hera
      exact absurd hera (Nat.succ_ne_self _)
  | hookAnswered hreply mode =>
      have hsame : (p.releaseHook mode).isCancelled = p.isCancelled := by
        rw [releaseHook_eq]
        rfl
      rw [hsame, hlive] at hcancelled
      cases hcancelled
  | @fetchAnswered hreply j hj mode =>
      have hsame : (p.releaseFetch j mode).isCancelled = p.isCancelled := by
        rw [releaseFetch_eq]
        rfl
      rw [hsame, hlive] at hcancelled
      cases hcancelled

end Pipeline

namespace Host

variable {h : Host}

/-- A host in which no candidate is possible has settled. -/
theorem settled_of_candidates (hnone : firstStep? advance h h.candidates = none) :
    Settled advance h := by
  have hcandidates : ∀ e ∈ h.candidates, h.advance e = none := by
    simpa [firstStep?] using hnone
  intro e
  cases e with
  | quitReporter | operate => exact hcandidates _ (by simp [candidates])
  | inside event =>
      cases hadvance : h.pipeline.advance event with
      | none => simp [advance, hadvance]
      | some q =>
          have hmem := Pipeline.mem_candidates hadvance
          exact hcandidates _ (List.mem_append_left _ (List.mem_map_of_mem hmem))

/-- In a host that has settled neither coordinator nor workers can go on. -/
theorem quiescent_of_settled (hsettled : Settled advance h) : h.pipeline.Quiescent where
  coordinate := by simpa [advance, Pipeline.advance] using hsettled (.inside .coordinate)
  dropHook := by simpa [advance, Pipeline.advance] using hsettled (.inside .dropHook)
  work id := by simpa [advance, Pipeline.advance] using hsettled (.inside (.work id))
  dropFetch id := by simpa [advance, Pipeline.advance] using hsettled (.inside (.dropFetch id))

end Host

/-- A host that has a run does not wait for the lock. -/
theorem Host.Orderly.inLine {h : Host} (horder : h.Orderly) (hbusy : ¬ h.pipeline.Finished) :
    h.pipeline.InLine [] false := by
  have hline := horder.line
  have hturn : h.turn = [] ∧ h.writes = false := by
    rw [Host.turn, Host.writes]
    cases hop : h.operation with
    | none => exact ⟨rfl, rfl⟩
    | some op =>
        have hfits := horder.fits op hop
        cases hphase : op.phase with
        | awaitingLock fault | inShutdown mode fault =>
            rw [hphase] at hfits
            exact absurd (horder.rests hfits) hbusy
        | _ => simp [hphase]
  rwa [hturn.1, hturn.2] at hline

namespace Chronicle

open Pipeline
open Scenario (HostBench)

variable {c : Chronicle} {p : Pipeline} {m : HostBench.Move} {moves : List HostBench.Move}

/-- **No reference is given an outcome that only says that its fetch was dropped.** -/
theorem Reachable.not_cancelled_of_process (hc : c.Reachable) {r : Reference} {d : Delivery}
    (h : Entry.process r d ∈ c.entries) : d.isCancelled = false := by
  have hholds := hc.sound.holds
  have hdelivered : (r, d) ∈ deliveriesIn c.entries := List.mem_filterMap.mpr ⟨_, h, rfl⟩
  rw [Chronicle.entries, hholds.delivered] at hdelivered
  have hbook := (hholds.faithful.behind.1.filterMap Call.delivery?).subset hdelivered
  obtain ⟨x, hx, rfl⟩ := Book.exists_of_mem_deliveries hbook
  exact hc.taken_not_cancelled x hx

theorem Reachable.tidy (hc : c.Reachable) : c.pipeline.Tidy :=
  hc.invariant (J := fun _ p => p.Tidy) (fun _ hunused => hunused.tidy)
    (fun _ _ _ hlaunched htidy => htidy.launched hlaunched)
    fun _ _ _ hholds hchange htidy => htidy.change hholds.owned.workers hchange

theorem Reachable.run (hc : c.Reachable) (moves : List HostBench.Move) :
    (c.run moves).Reachable := by
  obtain ⟨kind, settings, protocol, ownToken, before, rfl⟩ := hc
  exact ⟨kind, settings, protocol, ownToken, before ++ moves, (List.foldl_append ..).symm⟩

theorem Reachable.move (hc : c.Reachable) (m : HostBench.Move) : (c.move m).Reachable := by
  obtain ⟨kind, settings, protocol, ownToken, before, rfl⟩ := hc
  refine ⟨kind, settings, protocol, ownToken, before ++ [m], ?_⟩
  rw [Chronicle.run, Chronicle.run, List.foldl_append, List.foldl_cons, List.foldl_nil]

/-- Runs only follow one another. -/
theorem Sound.era_le (h : c.Sound) (moves : List HostBench.Move) :
    c.pipeline.intake.era ≤ (c.run moves).pipeline.intake.era := by
  induction moves generalizing c with
  | nil => exact Nat.le_refl _
  | cons m moves ih =>
      refine Nat.le_trans ?_ (ih (h.move m))
      rcases h.change m with hchange | hlaunched
      · exact Nat.le_of_eq hchange.era.symm
      · rw [hlaunched.era]
        exact Nat.le_succ _

/-- If the run is the same after some moves, then it is the same after the first. -/
theorem Sound.era_move (h : c.Sound)
    (hera : (c.run (m :: moves)).pipeline.intake.era = c.pipeline.intake.era) :
    (c.move m).pipeline.intake.era = c.pipeline.intake.era :=
  Nat.le_antisymm (hera ▸ (h.move m).era_le moves) (h.era_le [m])

/-- None of the moves answers a hook, or a fetch, that is held. -/
def Spares (reply : Reply) (c : Chronicle) : List HostBench.Move → Prop
  | [] => True
  | m :: moves =>
    (m.reply? = some reply → c.pipeline.awaits reply = false) ∧ (c.move m).Spares reply moves

/-- **A stopped run stays halted, and its ledger as it is**, along every course of moves that answer
no hook. -/
theorem Sound.halted_run (h : c.Sound) (hpaused : p.coordinator.phase.isPaused = true)
    (hhalted : Halted p c.pipeline) (hhooks : c.Spares .hook moves)
    (hera : (c.run moves).pipeline.intake.era = c.pipeline.intake.era) :
    Halted p (c.run moves).pipeline ∧ (c.run moves).ledger = c.ledger := by
  induction moves generalizing c with
  | nil => exact ⟨hhalted, rfl⟩
  | cons m moves ih =>
      have hsame := h.era_move hera
      obtain ⟨hnext, hfollow⟩ :=
        hhalted.effect hpaused h.orderly.line hsame hhooks.1 (h.effect m)
      obtain ⟨hlast, hledger⟩ := ih (h.move m) hnext hhooks.2 (hera.trans hsame.symm)
      refine ⟨hlast, hledger.trans ?_⟩
      exact (congrArg Record.ledger (Record.follow_of_era_eq hsame)).trans (hfollow _)

/-- **In a stopped run every fetch that was held is dropped and counted**, along every course of
moves that answer none. -/
theorem Sound.winding_run (h : c.Sound) (hpaused : p.coordinator.phase.isPaused = true)
    (hhalted : Halted p c.pipeline) (hwinding : Winding p c.pipeline)
    (hhooks : c.Spares .hook moves) (hfetches : c.Spares .fetch moves)
    (hera : (c.run moves).pipeline.intake.era = c.pipeline.intake.era) :
    Winding p (c.run moves).pipeline := by
  induction moves generalizing c with
  | nil => exact hwinding
  | cons m moves ih =>
      have hsame := h.era_move hera
      have hnext := (hhalted.effect hpaused h.orderly.line hsame hhooks.1 (h.effect m)).1
      exact ih (h.move m) hnext (hwinding.effect h.holds.owned.workers hhalted.cancelled hsame
        hfetches.1 (h.effect m)) hhooks.2 hfetches.2 (hera.trans hsame.symm)

/-- The move `m` cancels the run while neither coordinator nor workers can go on, and `moves` follow
in the same run. -/
structure Stops (c : Chronicle) (m : HostBench.Move) (moves : List HostBench.Move) : Prop where
  quiescent : c.pipeline.Quiescent
  live : c.pipeline.isCancelled = false
  /-- Nobody outside has the lock, or the coordinator at least does not wait for it. -/
  ready : c.pipeline.lock.outsider = none ∨ c.pipeline.coordinator.phase.wants = []
  fires : (c.move m).pipeline.isCancelled = true
  /-- The hook that is held is not given an answer any more. -/
  hooks : (c.move m).Spares .hook moves
  era : (c.run (m :: moves)).pipeline.intake.era = c.pipeline.intake.era

namespace Stops

theorem wants_eq_nil (h : c.Stops m moves) (hsound : c.Sound) :
    c.pipeline.coordinator.phase.wants = [] := by
  refine h.ready.elim (fun houtsider => ?_) id
  by_cases hfinished : c.pipeline.Finished
  · obtain ⟨ending, hphase⟩ := exists_of_isOver hfinished.ended
    rw [hphase]
    rfl
  · exact h.quiescent.wants_eq_nil (hsound.orderly.inLine hfinished) hsound.holds.owned.workers
      houtsider

theorem isPaused (h : c.Stops m moves) (hsound : c.Sound) :
    c.pipeline.coordinator.phase.isPaused = true :=
  h.quiescent.isPaused (h.wants_eq_nil hsound)

/-- The run is cancelled, and nothing else happens to it. -/
theorem sparesTasks (h : c.Stops m moves) (hsound : c.Sound) :
    c.pipeline.SparesTasks (c.move m).pipeline :=
  h.quiescent.sparesTasks h.live (hsound.era_move h.era) h.fires (hsound.effect m)

/-- The run is only taken down. -/
theorem halted (h : c.Stops m moves) (hsound : c.Sound) :
    Halted c.pipeline (c.run (m :: moves)).pipeline ∧
      (c.run (m :: moves)).ledger = c.ledger := by
  have hspares := h.sparesTasks hsound
  have hsame := hsound.era_move h.era
  obtain ⟨hhalted, hledger⟩ := (hsound.move m).halted_run (h.isPaused hsound)
    (.begun hsound.orderly.line hspares h.fires) h.hooks (h.era.trans hsame.symm)
  refine ⟨hhalted, hledger.trans ?_⟩
  exact (congrArg Record.ledger (Record.follow_of_era_eq hsame)).trans
    (hspares.sparesCoordinator.follow _)

/-- Every fetch that was held is dropped and counted. -/
theorem winding (h : c.Stops m moves) (hsound : c.Sound)
    (houtsider : c.pipeline.lock.outsider ≠ some .write) (hhook : c.pipeline.heldHook? = none)
    (hfetches : (c.move m).Spares .fetch moves) :
    Winding c.pipeline (c.run (m :: moves)).pipeline := by
  have hspares := h.sparesTasks hsound
  have hstart : Winding c.pipeline c.pipeline := by
    by_cases hfinished : c.pipeline.Finished
    · exact .of_finished hfinished
    · exact .of_quiescent h.quiescent (hsound.orderly.inLine hfinished) hsound.holds.owned.workers
        (h.wants_eq_nil hsound) houtsider hhook
  exact (hsound.move m).winding_run (h.isPaused hsound)
    (.begun hsound.orderly.line hspares h.fires)
    (hstart.kept hspares.busy (by rw [hspares.counters])) h.hooks hfetches
    (h.era.trans (hsound.era_move h.era).symm)

/-- Once nobody can go on any more the run is through, unless somebody outside has kept the lock to
write all the time. -/
theorem finished (h : c.Stops m moves) (hc : c.Reachable)
    (hquiescent : (c.run (m :: moves)).pipeline.Quiescent)
    (houtsider : c.pipeline.lock.outsider ≠ some .write ∨
      (c.run (m :: moves)).pipeline.lock.outsider ≠ some .write) :
    (c.run (m :: moves)).pipeline.Finished := by
  have hsound := hc.sound
  have hlast := hsound.run (m :: moves)
  have hhalted := (h.halted hsound).1
  by_contra hbusy
  refine hbusy (hquiescent.finished (hhalted.cancelled.resolve_right hbusy) ?_
    (hlast.orderly.inLine hbusy) hlast.holds.owned.workers ?_
    (hc.run (m :: moves)).tidy.completions)
  · rcases hhalted.coordinator with hover | hsame
    · obtain ⟨ending, hphase⟩ := exists_of_isOver hover
      rw [hphase]
      rfl
    · rw [hsame]
      exact h.isPaused hsound
  · exact fun hturns => houtsider.elim (fun hfree => hhalted.free hfree hturns) id

end Stops

/-- **A run that is stopped is taken down, with no further effect.** In no run is a reference given
an outcome that only says that its fetch was dropped. If the token of a run fires while neither
coordinator nor workers can go on, then for the rest of that run nothing is taken up and no hook
called (the ledger stays as it is, and so does the journal, but for the shutdown hook, fetches and
notes), nothing is dispatched and no worker takes a location (the dispatch queue stays as it is,
until the last worker drops it), and what the coordinator counts does not change, but that it adds
the deliveries of the fan-out in which it is interrupted. Once nobody can go on any more,
coordinator and workers are gone, nobody is active and the intake is closed; and if no hook was
held, each fetch that was held has been counted as cancelled. -/
theorem stop_safe (hc : c.Reachable) :
    (∀ r d, Entry.process r d ∈ c.entries → d.isCancelled = false) ∧
    ∀ m moves, c.Stops m moves →
      let p := c.pipeline
      let q := (c.run (m :: moves)).pipeline
      (c.run (m :: moves)).ledger = c.ledger ∧
      (∃ new, q.journal = new ++ p.journal ∧ ∀ e ∈ new, e.isCall = true → e = .shutdown) ∧
      (q.dispatch.items = p.dispatch.items ∨ q.pool.isGone = true ∧ q.dispatch.items = []) ∧
      (q.counters.references = p.counters.references ∧
        q.counters.resolutionFailures = p.counters.resolutionFailures ∧
        q.counters.coalesced = p.counters.coalesced ∧
        q.counters.dispatched = p.counters.dispatched ∧
        q.counters.completions = p.counters.completions) ∧
      q.counters.deliveries = p.counters.deliveries +
        (if q.isOver then UInt64.ofNat p.coordinator.phase.delivered else 0) ∧
      (q.Quiescent → p.lock.outsider ≠ some .write ∨ q.lock.outsider ≠ some .write →
        q.isOver = true ∧ q.pool.isGone = true ∧ q.activity.active = 0 ∧
        q.intake.queue.closed = true ∧
        (p.heldHook? = none → p.lock.outsider ≠ some .write → (c.move m).Spares .fetch moves →
          q.counters.cancelledFetches =
            p.counters.cancelledFetches + UInt64.ofNat p.pool.held.length)) := by
  refine ⟨fun r d => hc.not_cancelled_of_process, fun m moves hstops => ?_⟩
  obtain ⟨hhalted, hledger⟩ := hstops.halted hc.sound
  refine ⟨hledger, hhalted.journal, hhalted.dispatch, hhalted.counters_eq, hhalted.deliveries_eq,
    fun hquiescent houtsider => ?_⟩
  have hfinished := hstops.finished hc hquiescent houtsider
  have htidy := (hc.run (m :: moves)).tidy
  refine ⟨hfinished.ended, hfinished.gone, ?_, htidy.intake hfinished.ended, ?_⟩
  · rw [htidy.active, hfinished.nobody.2]
    rfl
  · intro hhook hfree hfetches
    exact (hstops.winding hc.sound hfree hhook hfetches).cancelledFetches_eq hfinished

/-- Moves that answer nothing spare everything. -/
theorem spares_of_forall {reply : Reply} (c : Chronicle) (h : ∀ m ∈ moves, m.reply? = none) :
    c.Spares reply moves := by
  induction moves generalizing c with
  | nil => trivial
  | cons m moves ih =>
      obtain ⟨hfirst, hrest⟩ := List.forall_mem_cons.mp h
      refine ⟨fun hreply => ?_, ih (c.move m) hrest⟩
      rw [hfirst] at hreply
      cases hreply

/-- Three references lead to one location and a fourth to another, whose fetch is held. The hook of
the second reference answers as given. -/
def halfway (hook : HookMode) : Chronicle :=
  let reference (id : Nat) (location : Int) (process : HookMode) : Reference :=
    { id, target := .location (.number location), process }
  let references : List Reference :=
    [reference 1 7 .succeed, reference 2 7 hook, reference 3 7 .succeed, reference 4 8 .succeed]
  let coordinate : HostBench.Move := .event (.inside .coordinate)
  let work (id : Nat) : HostBench.Move := .event (.inside (.work id))
  (start .fetcher ⟨2, 8, 2, 2, ⟨5, 0⟩⟩ { fetches := [("8", .hold)], otherwise := .content none }
    false).run
    ([.act 0 .start, .act 1 (.trySubmit references)] ++ List.replicate 10 coordinate ++
      [work 0, work 0, work 1, work 1, work 0, work 0] ++ List.replicate 9 coordinate)

/-- Everybody leaves. -/
def leaving : List HostBench.Move :=
  [.event (.inside .dropHook), .event (.inside .coordinate), .event (.inside (.dropFetch 1)),
    .event (.inside (.work 1)), .event (.inside (.work 1)), .event (.inside (.work 0)),
    .event .quitReporter]

/-- The same run after it was stopped. -/
def abandoned (hook : HookMode) : Chronicle :=
  (halfway hook).run (.act 2 .cancel :: leaving)

set_option maxRecDepth 1024 in
/-- If the hook is held when the run is stopped, the one delivery made is counted, the others are
not made and nobody is left; if it is not, the fetch that is held is counted as cancelled. -/
theorem stop_safe_halfway :
    ((halfway .hold).Reachable ∧ (halfway .hold).Stops (.act 2 .cancel) leaving ∧
      (halfway .hold).pipeline.coordinator.phase.delivered = 1 ∧
      (abandoned .hold).ledger = (halfway .hold).ledger ∧
      (abandoned .hold).pipeline.counters.deliveries =
        (halfway .hold).pipeline.counters.deliveries + 1 ∧
      (abandoned .hold).pipeline.pool.isGone = true) ∧
    (halfway .succeed).Reachable ∧ (halfway .succeed).Stops (.act 2 .cancel) leaving ∧
      (halfway .succeed).pipeline.pool.held = [.number 8] ∧
      (abandoned .succeed).pipeline.counters.cancelledFetches =
        (halfway .succeed).pipeline.counters.cancelledFetches + 1 := by
  have hreachable : ∀ hook, (halfway hook).Reachable := fun _ => ⟨_, _, _, _, _, rfl⟩
  have hsilent : ∀ m ∈ leaving, m.reply? = none := by decide
  have hheld : (halfway .hold).Stops (.act 2 .cancel) leaving :=
    ⟨Host.quiescent_of_settled (Host.settled_of_candidates (by rfl)), by rfl, .inl (by rfl), by rfl,
      spares_of_forall _ hsilent, by rfl⟩
  have hfree : (halfway .succeed).Stops (.act 2 .cancel) leaving :=
    ⟨Host.quiescent_of_settled (Host.settled_of_candidates (by rfl)), by rfl, .inl (by rfl), by rfl,
      spares_of_forall _ hsilent, by rfl⟩
  have hquiescent : (abandoned .hold).pipeline.Quiescent :=
    Host.quiescent_of_settled (Host.settled_of_candidates (by rfl))
  have hquiescent' : (abandoned .succeed).pipeline.Quiescent :=
    Host.quiescent_of_settled (Host.settled_of_candidates (by rfl))
  have houtsider : (halfway .hold).pipeline.lock.outsider = none := by rfl
  have houtsider' : (halfway .succeed).pipeline.lock.outsider = none := by rfl
  obtain ⟨hledger, -, -, -, hdeliveries, hleft⟩ := (stop_safe (hreachable .hold)).2 _ _ hheld
  obtain ⟨-, hgone, -⟩ := hleft hquiescent (.inl (by rw [houtsider]; exact nofun))
  obtain ⟨-, -, -, -, -, hleft'⟩ := (stop_safe (hreachable .succeed)).2 _ _ hfree
  obtain ⟨-, -, -, -, hcancelled⟩ := hleft' hquiescent' (.inl (by rw [houtsider']; exact nofun))
  refine ⟨⟨hreachable _, hheld, by rfl, hledger, hdeliveries, hgone⟩, hreachable _, hfree, by rfl,
    hcancelled (by rfl) ?_ (spares_of_forall _ hsilent)⟩
  rw [houtsider']
  exact nofun

/-- A reference is submitted while somebody outside has the lock to write, so that the coordinator
cannot resolve it. -/
def guarded : Chronicle :=
  (start .fetcher ⟨1, 8, 1, 1, ⟨5, 0⟩⟩ {} false).run
    [.act 0 .start, .act 1 (.guard .write),
      .act 2 (.trySubmit [{ id := 1, target := .location (.number 7) }]),
      .event (.inside .coordinate)]

/-- The lock is given back after the run has been cancelled. -/
def unguarded : Chronicle :=
  guarded.run [.act 3 .cancel, .act 4 .unguard, .event (.inside .coordinate)]

/-- The hook that is held is given its answer after the run has been cancelled. -/
def answered : Chronicle :=
  (halfway .hold).run [.act 2 .cancel, .act 3 (.releaseHook none .succeed),
    .event (.inside .coordinate), .event (.inside .coordinate)]

set_option maxRecDepth 1024 in
/-- Neither proviso can be left out. In both runs the host has settled when the token fires. Yet a
coordinator that waits for the lock resolves its reference once the lock is given back, and one
whose hook is given its answer goes on to the next reference. -/
theorem acts_after_stop :
    (guarded.Reachable ∧ Settled Host.advance guarded.bench.host ∧
      guarded.pipeline.isCancelled = false ∧
      (guarded.move (.act 3 .cancel)).pipeline.isCancelled = true ∧
      unguarded.pipeline.intake.era = guarded.pipeline.intake.era ∧
      guarded.pipeline.journal = [] ∧
      Entry.resolve { id := 1, target := .location (.number 7) } ∈ unguarded.pipeline.journal) ∧
    (halfway .hold).Reachable ∧ Settled Host.advance (halfway .hold).bench.host ∧
      (halfway .hold).pipeline.isCancelled = false ∧
      ((halfway .hold).move (.act 2 .cancel)).pipeline.isCancelled = true ∧
      answered.pipeline.intake.era = (halfway .hold).pipeline.intake.era ∧
      (processedIn (halfway .hold).entries).map Reference.id = [1, 2] ∧
      (processedIn answered.entries).map Reference.id = [1, 2, 3] :=
  ⟨⟨⟨_, _, _, _, _, rfl⟩, Host.settled_of_candidates (by rfl), by rfl, by rfl, by rfl, by rfl,
      List.mem_of_getElem? (i := 1) (by rfl)⟩,
    ⟨_, _, _, _, _, rfl⟩, Host.settled_of_candidates (by rfl), by rfl, by rfl, by rfl, by rfl,
    by rfl⟩

end Chronicle

end SharedFetch
