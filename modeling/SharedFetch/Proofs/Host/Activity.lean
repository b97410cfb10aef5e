import SharedFetch.Proofs.Host.Bounds
import SharedFetch.Proofs.Host.Fetcher
import SharedFetch.Proofs.Host.Stop
import SharedFetch.Proofs.Parts
import SharedFetch.Proofs.Settings

/-!
# How many fetches are in progress

A worker is *active* from the moment at which it takes a location until it has the outcome, also
while it waits to read the protocol. Activity goes on from run to run. What keeps it exact is that
every move of a host either leaves activity and the active workers as they are, or makes one idle
worker active and counts it, or lets one worker be active no longer and counts one fetch less
(`Tallies`). There are five ways for a worker to get there and no others (`WayOut`), and each of
them does just that.

## Main results

* `Pipeline.Change.tallies`, `Pipeline.Launched.tallies`: activity follows the active workers.
* `Pipeline.WayOut.exists_releases`: every way out of a fetch counts one fetch less.
* `Chronicle.activity_exact`: activity and peak of a host after any history, and of guards alone.
-/

namespace SharedFetch

namespace Pool

variable {p : Pool} {j : Job} {id : Nat}

/-- The workers that have a location and no outcome yet. -/
def active (p : Pool) : List Nat :=
  (p.busy.filter Job.isActive).map Job.worker

theorem length_active (p : Pool) : p.active.length = p.busy.countP Job.isActive := by
  rw [active, List.length_map, List.countP_eq_length_filter]

theorem nodup_active (h : p.workers.Nodup) : p.active.Nodup :=
  (List.nodup_append.mp h).2.1.sublist (List.filter_sublist.map _)

theorem mem_active_of_mem (hj : j ∈ p.busy) (hactive : j.isActive = true) : j.worker ∈ p.active :=
  List.mem_map_of_mem (List.mem_filter.mpr ⟨hj, hactive⟩)

/-- A worker with an outcome is not among them. -/
theorem not_mem_active (h : p.workers.Nodup) (hj : j ∈ p.busy) (hdone : j.isActive = false) :
    j.worker ∉ p.active := by
  intro hmem
  obtain ⟨k, hk, hworker⟩ := List.mem_map.mp hmem
  obtain ⟨hk, hactive⟩ := List.mem_filter.mp hk
  rw [eq_of_worker_eq h hj hk hworker, hdone] at hactive
  cases hactive

/-- A worker that leaves is not among them any more. -/
theorem active_without (h : p.workers.Nodup) (id : Nat) (ending : Ending) :
    (p.without id ending).active = p.active.erase id := by
  rw [(nodup_active h).erase_eq_filter, active, active, List.filter_map, without,
    List.filter_filter, List.filter_filter]
  congr 2
  funext j
  exact Bool.and_comm _ _

/-- A worker that goes on without an outcome stays among them. -/
theorem active_update_of_active (h : p.workers.Nodup) (hj : j ∈ p.busy) (hactive : j.isActive = true)
    {stage : JobStage} (hstage : ({ j with stage } : Job).isActive = true) :
    (p.update { j with stage }).active = p.active := by
  obtain ⟨before, after, hbusy, -, hupdate⟩ := exists_busy_eq h hj
  rw [active, hupdate, active, hbusy]
  simp [hactive, hstage]

/-- A worker that gets an outcome is not among them any more. -/
theorem active_update_handingIn (h : p.workers.Nodup) (hj : j ∈ p.busy) (outcome : Delivery) :
    (p.update { j with stage := .handingIn outcome }).active = p.active.erase j.worker := by
  have hdone : ({ j with stage := .handingIn outcome } : Job).isActive = false := rfl
  obtain ⟨before, after, hbusy, hwithout, hupdate⟩ := exists_busy_eq h hj
  rw [← active_without h j.worker .done, active, hupdate, active, hwithout]
  simp [hdone]

end Pool

namespace Pipeline

variable {p q r : Pipeline} {j : Job} {id : Nat}

/-! ### The ways out of a fetch -/

/-- How a fetch that is in progress can come to its end, and with what event: with its content, with
an error, with a panic in the call or in its future, or because it is dropped once the run is
cancelled. -/
inductive WayOut (p : Pipeline) (j : Job) : Event → Prop where
  | content {number : Nat} {value : Option String}
      (hstage : j.stage = .fetching number (.content value)) : WayOut p j (.work j.worker)
  | failure {number : Nat} {cause : Chain} (hstage : j.stage = .fetching number (.fail cause)) :
      WayOut p j (.work j.worker)
  | cancelled {number : Nat} {mode : FetchMode} (hstage : j.stage = .fetching number mode)
      (hcancelled : p.isCancelled = true) : WayOut p j (.dropFetch j.worker)
  | callPanicked {payload : Payload} (hstage : j.stage = .awaitingLock)
      (hlock : (p.lock.grant? (.worker j.worker)).isSome = true)
      (hmode : p.protocol.fetchMode j.location = .panicCall payload) : WayOut p j (.work j.worker)
  | panicked {number : Nat} {mode : FetchMode} {payload : Payload}
      (hstage : j.stage = .fetching number mode)
      (hmode : mode = .panic payload ∨ mode = .panicCall payload) : WayOut p j (.work j.worker)

/-- Whoever has a way out of a fetch is in one. -/
theorem WayOut.isActive {event : Event} (h : p.WayOut j event) : j.isActive = true := by
  cases h with
  | content hstage | failure hstage | cancelled hstage | callPanicked hstage | panicked hstage =>
      rw [Job.isActive, hstage]

/-! ### What a step does to activity -/

/-- A worker ceases to be active: it alone is no longer counted, and it was. -/
structure Releases (p q : Pipeline) (id : Nat) : Prop where
  mem : id ∈ p.pool.active
  pool : q.pool.active = p.pool.active.erase id
  activity : q.activity = p.activity.leave
  counted : q.activity.active + 1 = p.activity.active

/-- Activity follows the active workers, of whom there is at most one more or one fewer. Whoever
ceases to be active does so by a way out of its fetch. -/
inductive Tallies (p q : Pipeline) : Prop where
  | kept (hactivity : q.activity = p.activity) (hpool : q.pool.active = p.pool.active)
  | entered {id : Nat} (hidle : id ∈ p.pool.idle) (hactivity : q.activity = p.activity.enter)
      (hpool : q.pool.active = p.pool.active ++ [id])
  | released {j : Job} {event : Event} (hj : j ∈ p.pool.busy) (hway : p.WayOut j event)
      (hreleases : p.Releases q j.worker)

/-- Activity changes by one fetch at most. -/
theorem Tallies.next (h : p.Tallies q) : p.activity.Next q.activity := by
  cases h with
  | kept hactivity => exact hactivity ▸ .kept
  | entered _ hactivity => exact hactivity ▸ .entered
  | released _ _ hreleases =>
      rw [hreleases.activity]
      exact .left (hreleases.counted ▸ Nat.succ_pos _)

/-- The outcome of a fetch is ready. -/
theorem Tidy.releases_handIn (h : p.Tidy) (hworkers : p.pool.workers.Nodup) (hj : j ∈ p.pool.busy)
    (hactive : j.isActive = true) (hpool : r.pool = p.pool) (hactivity : r.activity = p.activity)
    (outcome : Delivery) : p.Releases (r.handIn j outcome) j.worker where
  mem := Pool.mem_active_of_mem hj hactive
  pool := by
    rw [handIn, hpool]
    exact Pool.active_update_handingIn hworkers hj outcome
  activity := by rw [handIn, hactivity]
  counted := by
    rw [handIn, hactivity]
    exact h.leave_add_one hj hactive

/-- A worker panics over its fetch. -/
theorem Tidy.releases_leave (h : p.Tidy) (hworkers : p.pool.workers.Nodup) (hj : j ∈ p.pool.busy)
    (hactive : j.isActive = true) (hpool : r.pool = p.pool)
    (hactivity : r.activity = p.activity.leave) (ending : Ending) :
    p.Releases (r.leave j.worker ending) j.worker where
  mem := Pool.mem_active_of_mem hj hactive
  pool := by rw [pool_leave, hpool, Pool.active_without hworkers]
  activity := by rw [activity_leave, hactivity]
  counted := by
    rw [activity_leave, hactivity]
    exact h.leave_add_one hj hactive

/-- A worker that is not active leaves. -/
theorem tallies_leave (hworkers : p.pool.workers.Nodup) (hid : id ∉ p.pool.active)
    (hpool : r.pool = p.pool) (hactivity : r.activity = p.activity) (ending : Ending) :
    p.Tallies (r.leave id ending) := by
  refine .kept (by rw [activity_leave, hactivity]) ?_
  rw [pool_leave, hpool, Pool.active_without hworkers, List.erase_of_not_mem hid]

/-- A worker takes a step. -/
theorem WorkerStep.tallies (h : p.WorkerStep q) (htidy : p.Tidy) (hworkers : p.pool.workers.Nodup) :
    p.Tallies q := by
  have hleave : ∀ {j : Job} {event : Event} {r : Pipeline} {ending : Ending}, j ∈ p.pool.busy →
      p.WayOut j event → r.pool = p.pool → r.activity = p.activity.leave →
        p.Tallies (r.leave j.worker ending) := fun hj hway hpool hactivity =>
    .released hj hway (htidy.releases_leave hworkers hj hway.isActive hpool hactivity _)
  have hhandIn : ∀ {j : Job} {event : Event} {r : Pipeline} {outcome : Delivery}, j ∈ p.pool.busy →
      p.WayOut j event → r.pool = p.pool → r.activity = p.activity →
        p.Tallies (r.handIn j outcome) := fun hj hway hpool hactivity =>
    .released hj hway (htidy.releases_handIn hworkers hj hway.isActive hpool hactivity _)
  have hdone : ∀ {j : Job} {outcome : Delivery}, p.Works j (.handingIn outcome) →
      j.worker ∉ p.pool.active := fun hworks =>
    Pool.not_mem_active hworkers hworks.mem (by rw [Job.isActive, hworks.stage])
  cases h with
  | @quit id hidle | @dismissed id hidle =>
      -- an idle worker has no job and is not among those counted
      refine tallies_leave hworkers (fun hmem => ?_) rfl rfl _
      obtain ⟨k, hk, rfl⟩ := List.mem_map.mp hmem
      exact (List.nodup_append.mp hworkers).2.2 _ hidle _
        (List.mem_map_of_mem (List.mem_filter.mp hk).1) rfl
  | @took id idle l items hlive hidle =>
      have hid : id ∈ p.pool.idle := hidle ▸ List.mem_cons_self
      refine .entered hid rfl ?_
      simp only [Pool.active, List.filter_append, List.map_append]
      rfl
  | called hworks =>
      exact .kept rfl (Pool.active_update_of_active hworkers hworks.mem
        (by rw [Job.isActive, hworks.stage]) rfl)
  | callPanicked hworks hlock hmode =>
      exact hleave hworks.mem (.callPanicked hworks.stage (by rw [hlock]; rfl) hmode) (by rfl) (by rfl)
  | fetchPanicked hworks hmode =>
      exact hleave hworks.mem (.panicked hworks.stage hmode) (by rfl) (by rfl)
  | fetched hworks => exact hhandIn hworks.mem (.content hworks.stage) (by rfl) (by rfl)
  | fetchFailed hworks => exact hhandIn hworks.mem (.failure hworks.stage) (by rfl) (by rfl)
  | fetchDropped hworks hcancelled =>
      exact hhandIn hworks.mem (.cancelled hworks.stage hcancelled) (by rfl) (by rfl)
  | handedIn hworks =>
      -- it has given up its guard with the outcome, before it got in line
      refine .kept rfl ?_
      exact (Pool.active_without hworkers _ .done).trans (List.erase_of_not_mem (hdone hworks))
  | handedInLast hworks | undelivered hworks =>
      exact tallies_leave hworkers (hdone hworks) (by rfl) (by rfl) _

/-- **Whatever changes within a run, activity follows the active workers.** -/
theorem Change.tallies (h : p.Change q) (htidy : p.Tidy) (hworkers : p.pool.workers.Nodup) :
    p.Tallies q := by
  cases h with
  | coordinated hstep => exact .kept hstep.activity (by rw [hstep.pool])
  | worked hstep => exact hstep.tallies htidy hworkers
  | hookReleased mode =>
      rw [releaseHook_eq]
      exact .kept rfl rfl
  | @fetchReleased j hj mode =>
      rw [releaseFetch]
      split
      · rename_i number hstage
        exact .kept rfl (Pool.active_update_of_active hworkers hj (by rw [Job.isActive, hstage]) rfl)
      · exact .kept rfl rfl
  | tasksSpared hspares | renewed hspares =>
      exact .kept hspares.activity (by rw [Pool.active, Pool.active, hspares.busy])

/-- A new run begins with nobody active, and takes the place of one that ended so. -/
theorem Launched.tallies (h : p.Launched q) : p.Tallies q := by
  obtain ⟨size, capacity, -, hpool, -⟩ := h.pool
  refine .kept h.activity ?_
  rw [Pool.active, Pool.active, h.finished.nobody.2, hpool]
  rfl

/-- **Every way out of a fetch is open, and counts one fetch less.** -/
theorem WayOut.exists_releases {event : Event} (h : p.WayOut j event) (htidy : p.Tidy)
    (hworkers : p.pool.workers.Nodup) (hj : j ∈ p.pool.busy) :
    ∃ q, p.advance event = some q ∧ p.Releases q j.worker := by
  have hjob := Pool.job?_of_mem hworkers hj
  have hactive := h.isActive
  cases h with
  | @content number value hstage =>
      refine ⟨p.handIn j (.content (contentOf j.location number value)), ?_,
        htidy.releases_handIn hworkers hj hactive (by rfl) (by rfl) _⟩
      simp only [advance, workOn?, hjob, doJob?, hstage, finishFetch?]
  | @failure number cause hstage =>
      refine ⟨(p.count .fetchFailure).handIn j (.failure (.failed j.location cause)), ?_,
        htidy.releases_handIn hworkers hj hactive (by rfl) (by rfl) _⟩
      simp only [advance, workOn?, hjob, doJob?, hstage, finishFetch?]
  | cancelled hstage hcancelled =>
      refine ⟨(p.count .cancelledFetch).handIn j (.failure (.cancelled j.location)), ?_,
        htidy.releases_handIn hworkers hj hactive (by rfl) (by rfl) _⟩
      simp only [advance, dropFetch?, hcancelled, if_true, hjob, hstage]
  | @callPanicked payload hstage hlock hmode =>
      obtain ⟨lock, hlock⟩ := Option.isSome_iff_exists.mp hlock
      have hcall : p.advance (.work j.worker) = some ({ p with lock }.callFetch j) := by
        simp only [advance, workOn?, hjob, doJob?, hstage, withLock?, hlock, Option.map_some]
      refine ⟨_, hcall, ?_⟩
      rw [callFetch, hmode]
      exact htidy.releases_leave hworkers hj hactive (by rfl) (by rfl) _
  | @panicked number mode payload hstage hmode =>
      refine ⟨{ p with activity := p.activity.leave }.leave j.worker (.panicked payload), ?_,
        htidy.releases_leave hworkers hj hactive (by rfl) (by rfl) _⟩
      rcases hmode with rfl | rfl <;>
        simp only [advance, workOn?, hjob, doJob?, hstage, finishFetch?]

end Pipeline

namespace Chronicle

open Pipeline
open Scenario

variable {c : Chronicle}

/-! ### The whole history of a host -/

/-- Every move tallies. -/
theorem Reachable.tallies (hc : c.Reachable) (m : HostBench.Move) :
    c.pipeline.Tallies (c.move m).pipeline := by
  rcases hc.sound.change m with hchange | hlaunched
  · exact hchange.tallies hc.tidy hc.sound.holds.owned.workers
  · exact hlaunched.tallies

theorem run_concat (c : Chronicle) (moves : List HostBench.Move) (m : HostBench.Move) :
    c.run (moves ++ [m]) = (c.run moves).move m := by
  rw [run, List.foldl_append]
  rfl

/-- The settings are those that the host was made with. -/
theorem settings_run (c : Chronicle) (moves : List HostBench.Move) :
    (c.run moves).bench.host.settings = c.bench.host.settings := by
  induction moves generalizing c with
  | nil => rfl
  | cons m moves ih => exact (ih (c.move m)).trans (HostBench.step_move c.bench m).settings

theorem settings_start (kind : HostKind) (settings : Settings) (protocol : Protocol)
    (ownToken : Bool) : (start kind settings protocol ownToken).bench.host.settings = settings := by
  rw [start, HostBench.make]
  split <;> rfl

/-- Of a host, a fetch that is in progress takes every way out that is open to it. -/
theorem Reachable.releases (hc : c.Reachable) {j : Job} (hj : j ∈ c.pipeline.pool.busy) {event : Event}
    (hway : c.pipeline.WayOut j event) :
    c.pipeline.Releases (c.move (.event (.inside event))).pipeline j.worker := by
  obtain ⟨q, hadvance, hreleases⟩ := hway.exists_releases hc.tidy hc.sound.holds.owned.workers hj
  have hmove : (c.move (.event (.inside event))).pipeline = q := by
    have hadvance : c.bench.host.pipeline.advance event = some q := hadvance
    cases hway <;>
      simp [pipeline, HostBench.pipeline, Chronicle.move, HostBench.move, Host.advance, hadvance]
  rwa [hmove]

/-- **Activity is exact.** Whatever happened to a host since it was made, over any number of runs,
the fetches in progress are those of the active workers, of whom there are never more than workers
altogether, and the peak is the most there were at any time. No move counts a fetch without a worker
that becomes active, or lets a worker cease to be active without counting one fetch less. It ceases
by content, error, cancellation or a panic and in no other way, and each of these is counted once.
When all workers are gone nothing is counted any more.

Guards alone are counted in the same way after any operations on them: as many as are alive, the
peak is the most there were, and a guard that is dropped while it lives is counted until then. -/
theorem activity_exact (kind : HostKind) (settings : Settings) (protocol : Protocol) (ownToken : Bool)
    (moves : List HostBench.Move) (actions : List GuardAction) :
    let after := (start kind settings protocol ownToken).run
    let p := (after moves).pipeline
    let guarded := fun done => (guardsAfter done).activity
    (p.activity.active = p.pool.active.length ∧ p.pool.active.Nodup ∧
      p.activity.active ≤ max settings.workers 1 ∧
      (settings.validate = .ok () → p.activity.active ≤ settings.workers)) ∧
    ((∀ before, before <+: moves → (after before).pipeline.activity.active ≤ p.activity.peak) ∧
      ∃ before, before <+: moves ∧ (after before).pipeline.activity.active = p.activity.peak) ∧
    (∀ m, p.Tallies ((after moves).move m).pipeline) ∧
    (∀ j ∈ p.pool.busy, ∀ event, p.WayOut j event →
      p.Releases ((after moves).move (.event (.inside event))).pipeline j.worker) ∧
    (p.pool.isGone = true → p.activity.active = 0) ∧
    (∀ k < actions.length,
      (runGuards actions)[k]?.map Prod.snd = some (guarded (actions.take (k + 1)))) ∧
    (guarded actions).active = (liveIn actions).length ∧
    ((∀ before, before <+: actions → (guarded before).active ≤ (guarded actions).peak) ∧
      ∃ before, before <+: actions ∧ (guarded before).active = (guarded actions).peak) ∧
    ∀ name ∈ liveIn actions,
      (guarded (actions ++ [.drop name])).active + 1 = (guarded actions).active := by
  intro after p guarded
  have hc : ∀ moves, (after moves).Reachable := fun moves =>
    ⟨kind, settings, protocol, ownToken, moves, rfl⟩
  have hactive : p.activity.active = p.pool.active.length :=
    (hc moves).tidy.active.trans (Pool.length_active _).symm
  have hbound : p.activity.active ≤ max settings.workers 1 := by
    have hsized := (hc moves).sized.workers
    rw [Host.poolSize, settings_run, settings_start] at hsized
    calc p.activity.active = p.pool.busy.countP Job.isActive := (hc moves).tidy.active
      _ ≤ p.pool.busy.length := List.countP_le_length
      _ ≤ p.headcount := by rw [headcount, Pool.alive]; omega
      _ ≤ max settings.workers 1 := hsized
  refine ⟨⟨hactive, Pool.nodup_active (hc moves).sound.holds.owned.workers, hbound, fun hvalid => ?_⟩,
    Activity.peak_isGreatest ?_ ?_ moves, (hc moves).tallies,
    fun j hj event hway => (hc moves).releases hj hway, fun hgone => ?_,
    fun k hk => activity_runGuards actions hk, (live_after actions).2,
    Activity.peak_isGreatest rfl next_after actions, fun name hname => active_after_drop hname⟩
  · have hworkers := (Settings.forall_isZero_eq_false_iff.mp (Settings.validate_eq_ok_iff.mp hvalid)).1
    omega
  · obtain ⟨tokens, hpipeline⟩ := exists_pipeline_start kind settings protocol ownToken
    exact congrArg Pipeline.activity hpipeline
  · intro xs x
    rw [show after (xs ++ [x]) = (after xs).move x from run_concat _ xs x]
    exact ((hc xs).tallies x).next
  · rw [Pool.isGone, Bool.and_eq_true, List.isEmpty_iff, List.isEmpty_iff] at hgone
    rw [hactive, Pool.active, hgone.2]
    rfl

end Chronicle

end SharedFetch
