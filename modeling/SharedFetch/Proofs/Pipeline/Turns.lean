import SharedFetch.Proofs.Lock
import SharedFetch.Proofs.Pipeline.Ownership

/-!
# Who waits for the lock

Coordinator and workers take turns for the protocol lock, and whoever has taken a turn waits
until the lock is granted. So the line is a matter of what everybody is doing: the coordinator
stands in it while it wants the lock (`Phase.wants`), a worker while it waits to call its fetch
(`Job.turn?`), and besides there may be others, which the pipeline knows nothing of. In the same
way somebody writes exactly if the coordinator is about its hooks (`Phase.writes`) or another
writes.

## Main results

* `InLine.coordinatorStep`, `InLine.workerStep`: every step keeps line and writer in hand.
-/

namespace SharedFetch

namespace Phase

/-- How the coordinator wants the lock. -/
@[simp] def wants : Phase → List Access
  | .resolving _ => [.read]
  | .reporting .. | .fanningOut .. => [.write]
  | _ => []

/-- Whether the coordinator has the lock to write. -/
@[simp] def writes : Phase → Bool
  | .inUnresolved .. | .delivering .. | .inProcess .. => true
  | _ => false

end Phase

/-- The turn of a worker that waits to call its fetch. -/
def Job.turn? (j : Job) : Option (Party × Access) :=
  match j.stage with
  | .awaitingLock => some (.worker j.worker, .read)
  | _ => none

namespace Pool

/-- The turns of all workers. -/
def turns (p : Pool) : List (Party × Access) :=
  p.busy.filterMap Job.turn?

variable {p : Pool} {j : Job}

/-- The turns without that of one worker. -/
theorem turns_without (p : Pool) (id : Nat) (ending : Ending) :
    (p.without id ending).turns =
      p.busy.filterMap fun k => if k.worker = id then none else k.turn? := by
  rw [turns, without, List.filterMap_filter]
  refine List.filterMap_congr fun k _ => ?_
  by_cases hk : k.worker = id <;> simp [hk]

/-- A worker that calls its fetch, or is past that, has no turn. -/
theorem turns_update {stage : JobStage} (hstage : ({ j with stage } : Job).turn? = none)
    (ending : Ending) :
    (p.update { j with stage }).turns = (p.without j.worker ending).turns := by
  rw [turns_without, turns, update, List.filterMap_map]
  refine List.filterMap_congr fun k _ => ?_
  by_cases hk : k.worker = j.worker <;> simp [hk, hstage]

/-- A worker without a turn takes none along. -/
theorem turns_without_of_none (h : p.workers.Nodup) (hj : j ∈ p.busy) (hnone : j.turn? = none)
    (ending : Ending) : (p.without j.worker ending).turns = p.turns := by
  rw [turns_without, turns]
  refine List.filterMap_congr fun k hk => ?_
  by_cases hworker : k.worker = j.worker
  · rw [if_pos hworker, eq_of_worker_eq h hj hk hworker, hnone]
  · rw [if_neg hworker]

/-- A worker with a turn takes that along and no other. -/
theorem turns_perm_without (h : p.workers.Nodup) (hj : j ∈ p.busy)
    (hstage : j.stage = .awaitingLock) (ending : Ending) :
    p.turns.Perm ((.worker j.worker, .read) :: (p.without j.worker ending).turns) := by
  have hturn : j.turn? = some (.worker j.worker, .read) := by rw [Job.turn?, hstage]
  have := (busy_perm_without h hj ending).filterMap Job.turn?
  rwa [List.filterMap_cons_some hturn] at this

/-- If nobody has a turn, nobody waits for the lock. -/
theorem stage_ne_awaitingLock (hturns : p.turns = []) (hj : j ∈ p.busy) :
    j.stage ≠ .awaitingLock := by
  intro hstage
  have hturn : (Party.worker j.worker, Access.read) ∈ p.turns :=
    List.mem_filterMap.mpr ⟨j, hj, by rw [Job.turn?, hstage]⟩
  rw [hturns] at hturn
  cases hturn

/-- Every turn in the line is that of a worker. -/
theorem exists_of_mem_turns {e : Party × Access} (h : e ∈ p.turns) :
    ∃ j ∈ p.busy, j.stage = .awaitingLock ∧ e = (.worker j.worker, .read) := by
  obtain ⟨j, hj, hturn⟩ := List.mem_filterMap.mp h
  refine ⟨j, hj, ?_⟩
  rw [Job.turn?] at hturn
  split at hturn
  · rename_i hstage
    exact ⟨hstage, (Option.some.inj hturn).symm⟩
  · cases hturn

end Pool

namespace Pipeline

variable {p q : Pipeline} {others : List (Party × Access)} {held : Bool}

/-- The turns of coordinator and workers. -/
def turns (p : Pipeline) : List (Party × Access) :=
  (p.coordinator.phase.wants.map fun access => (.coordinator, access)) ++ p.pool.turns

/-- The line holds the turns of coordinator, workers and `others`, and somebody writes if the
coordinator does or another has the lock (`held`), who gets it only after the coordinator has
ended. -/
structure InLine (p : Pipeline) (others : List (Party × Access)) (held : Bool) : Prop where
  host : ∀ e ∈ others, e.1 = .host
  line : p.lock.line.Perm (p.turns ++ others)
  writing : p.lock.writing = (p.coordinator.phase.writes || held)
  after : held = true → p.isOver = true

namespace InLine

/-- Nobody else writes while the coordinator goes on. -/
theorem held_eq_false (h : p.InLine others held) (hrunning : p.isOver = false) : held = false := by
  by_contra hheld
  rw [h.after (by simpa using hheld)] at hrunning
  exact absurd hrunning (by simp)

/-- Coordinator, workers and line are as they were. -/
theorem congr (h : p.InLine others held) (hcoordinator : q.coordinator = p.coordinator)
    (hbusy : q.pool.busy = p.pool.busy) (hline : q.lock.line = p.lock.line)
    (hwriting : q.lock.writing = p.lock.writing) : q.InLine others held := by
  refine ⟨h.host, ?_, ?_, ?_⟩
  · rw [hline, turns, hcoordinator, Pool.turns, hbusy]
    exact h.line
  · rw [hwriting, hcoordinator]
    exact h.writing
  · rw [isOver, hcoordinator]
    exact h.after

/-! ### The coordinator -/

/-- The coordinator goes on without the lock, or with the lock that it has. -/
theorem kept (h : p.InLine others held) (hrunning : p.isOver = false) (hpool : q.pool = p.pool)
    (hlock : q.lock = p.lock) (hwants : q.coordinator.phase.wants = p.coordinator.phase.wants)
    (hwrites : q.coordinator.phase.writes = p.coordinator.phase.writes) :
    q.InLine others held := by
  obtain rfl := h.held_eq_false hrunning
  refine ⟨h.host, ?_, ?_, nofun⟩
  · rw [hlock, turns, hwants, hpool]
    exact h.line
  · rw [hlock, hwrites]
    exact h.writing

/-- The coordinator takes a turn. -/
theorem queued {access : Access} (h : p.InLine others held) (hrunning : p.isOver = false)
    (hpool : q.pool = p.pool) (hlock : q.lock = p.lock.queueUp .coordinator access)
    (hidle : p.coordinator.phase.wants = []) (hwants : q.coordinator.phase.wants = [access])
    (hwrites : q.coordinator.phase.writes = p.coordinator.phase.writes) :
    q.InLine others held := by
  obtain rfl := h.held_eq_false hrunning
  refine ⟨h.host, ?_, ?_, nofun⟩
  · have hline := h.line
    rw [turns, hidle] at hline
    rw [hlock, turns, hwants, hpool]
    exact (hline.append_right _).trans (List.perm_append_singleton _ _)
  · rw [hlock, hwrites]
    exact h.writing

/-- The coordinator gets the lock that it wants. -/
theorem granted {lock : Lock Party} {access : Access} (h : p.InLine others held)
    (hrunning : p.isOver = false) (hgrant : p.lock.grant? .coordinator = some lock)
    (hpool : q.pool = p.pool) (hlock : q.lock = lock)
    (hwants : p.coordinator.phase.wants = [access]) (hdone : q.coordinator.phase.wants = [])
    (hwrites : q.coordinator.phase.writes = (access == .write)) : q.InLine others held := by
  obtain rfl := h.held_eq_false hrunning
  obtain ⟨access', rest, hfront, hallows, rfl⟩ := Lock.exists_of_grant? hgrant
  have hline := h.line
  rw [turns, hwants, hfront] at hline
  -- the coordinator has only the one turn
  obtain rfl : access' = access := by
    have hmem := hline.subset List.mem_cons_self
    rw [List.mem_append, List.mem_append] at hmem
    rcases hmem with (hown | hturn) | hother
    · exact (Prod.mk.inj (List.mem_singleton.mp hown)).2
    · obtain ⟨j, -, -, heq⟩ := Pool.exists_of_mem_turns hturn
      cases heq
    · cases h.host _ hother
  refine ⟨h.host, ?_, ?_, nofun⟩
  · rw [hlock, turns, hdone, hpool]
    exact hline.cons_inv
  · have hfree : p.lock.writing = false := by
      cases access' <;> simp_all [Lock.allows]
    rw [hlock, hwrites, hfree]
    cases access' <;> rfl

/-- The coordinator gives the lock back. -/
theorem released (h : p.InLine others held) (hrunning : p.isOver = false)
    (hpool : q.pool = p.pool) (hlock : q.lock = p.lock.release)
    (hwants : q.coordinator.phase.wants = p.coordinator.phase.wants)
    (hwrites : q.coordinator.phase.writes = false) : q.InLine others held := by
  obtain rfl := h.held_eq_false hrunning
  refine ⟨h.host, ?_, ?_, nofun⟩
  · rw [hlock, turns, hwants, hpool]
    exact h.line
  · rw [hlock, hwrites]
    rfl

/-- A step of the coordinator keeps line and writer in hand. -/
theorem coordinatorStep (h : p.InLine others held) (hstep : p.CoordinatorStep q) :
    q.InLine others held := by
  have hrunning := hstep.running
  have hpool := hstep.pool
  cases hstep with
  | completed hlooks | took hlooks =>
      exact h.queued hrunning rfl rfl (by rw [hlooks.phase]; rfl) rfl (by rw [hlooks.phase]; rfl)
  | drained hphase | interrupted hphase =>
      exact h.kept hrunning hpool rfl (by rw [hphase]; rfl) (by rw [hphase]; rfl)
  | stray hlooks | stranded hlooks | undispatchable hlooks =>
      rw [abort_eq] at hpool ⊢
      exact h.kept hrunning hpool rfl (by rw [hlooks.phase]; rfl) (by rw [hlooks.phase]; rfl)
  | completionsEnded | dispatched | intakeEnded => exact h.kept hrunning rfl rfl rfl rfl
  | admitted hphase hlock | coalesced hphase hlock | resolvePanicked hphase hlock =>
      exact h.granted hrunning hlock rfl rfl (by rw [hphase]; rfl) rfl rfl
  | @unresolvable r cause lock hphase hlock htarget =>
      -- it gets the lock to read and takes a turn to write, in one step
      have hread : { p with
          lock, coordinator := { p.coordinator with phase := .choosing } }.InLine others held :=
        h.granted hrunning hlock rfl rfl (by rw [hphase]; rfl) rfl rfl
      exact hread.queued rfl rfl rfl rfl rfl rfl
  | calledUnresolved hphase hlock | fanOutBegun hphase hlock =>
      exact h.granted hrunning hlock rfl rfl (by rw [hphase]; rfl) rfl rfl
  | calledProcess hphase | processSucceeded hphase =>
      exact h.kept hrunning rfl rfl (by rw [hphase]; rfl) (by rw [hphase]; rfl)
  | unresolvedSucceeded hphase | fanOutEnded hphase | unresolvedPanicked hphase
  | processPanicked hphase | unresolvedDropped hphase | processDropped hphase =>
      exact h.released hrunning hpool rfl (by rw [hphase]; rfl) rfl
  | unresolvedFailed hphase | processFailed hphase =>
      rw [abort_eq] at hpool ⊢
      exact h.released hrunning hpool rfl (by rw [hphase]; rfl) rfl

/-! ### The workers -/

/-- The workers change, and the line with them. -/
theorem worked (h : p.InLine others held) (hcoordinator : q.coordinator = p.coordinator)
    (hwriting : q.lock.writing = p.lock.writing)
    (hline : p.lock.line.Perm (p.turns ++ others) → q.lock.line.Perm
      ((p.coordinator.phase.wants.map fun access => (.coordinator, access)) ++ q.pool.turns ++
        others)) : q.InLine others held := by
  refine ⟨h.host, ?_, ?_, ?_⟩
  · rw [turns, hcoordinator]
    exact hline h.line
  · rw [hwriting, hcoordinator]
    exact h.writing
  · rw [isOver, hcoordinator]
    exact h.after

/-- A worker goes on without the lock. -/
theorem of_lock_eq (h : p.InLine others held) (hcoordinator : q.coordinator = p.coordinator)
    (hlock : q.lock = p.lock) (hturns : q.pool.turns = p.pool.turns) : q.InLine others held :=
  h.worked hcoordinator (by rw [hlock]) fun hline => by rwa [hlock, hturns]

/-- A worker gets the lock to call its fetch. -/
theorem fetches {j : Job} {lock : Lock Party} (h : p.InLine others held)
    (hworkers : p.pool.workers.Nodup) (hworks : p.Works j .awaitingLock)
    (hgrant : p.lock.grant? (.worker j.worker) = some lock)
    (hcoordinator : q.coordinator = p.coordinator) (hlock : q.lock = lock)
    (hturns : q.pool.turns = (p.pool.without j.worker .done).turns) : q.InLine others held := by
  obtain ⟨access, rest, hfront, hallows, rfl⟩ := Lock.exists_of_grant? hgrant
  have hturn := Pool.turns_perm_without hworkers hworks.mem hworks.stage .done
  have hline := h.line
  rw [hfront] at hline
  -- the turn of a worker is one to read
  obtain rfl : access = .read := by
    have hmem := hline.subset List.mem_cons_self
    rw [turns, List.mem_append, List.mem_append] at hmem
    rcases hmem with (hown | hturn) | hother
    · obtain ⟨access', -, heq⟩ := List.mem_map.mp hown
      cases heq
    · obtain ⟨j, -, -, heq⟩ := Pool.exists_of_mem_turns hturn
      exact (Prod.mk.inj heq).2
    · cases h.host _ hother
  refine h.worked hcoordinator (by rw [hlock]; simp) fun _ => ?_
  rw [hlock, hturns]
  refine (hline.trans ?_).cons_inv
  exact ((hturn.append_left _).trans List.perm_middle).append_right others

/-- A step of a worker keeps line and writer in hand. -/
theorem workerStep (h : p.InLine others held) (hworkers : p.pool.workers.Nodup)
    (hstep : p.WorkerStep q) : q.InLine others held := by
  cases hstep with
  | quit hidle | dismissed hidle =>
      refine h.of_lock_eq (by simp) (by simp) ?_
      rw [pool_leave, Pool.turns, Pool.busy_without_of_mem_idle hworkers hidle, Pool.turns]
  | @took id idle l items hlive hidle hitems =>
      refine h.worked rfl rfl fun hline => ?_
      have hturns : ({ p.pool with
          idle, busy := p.pool.busy ++ [⟨id, l, .awaitingLock⟩] } : Pool).turns =
          p.pool.turns ++ [(.worker id, .read)] := by
        rw [Pool.turns, List.filterMap_append]
        rfl
      have hswap : (p.turns ++ others ++ [(Party.worker id, Access.read)]).Perm
          (p.turns ++ [(Party.worker id, Access.read)] ++ others) := by
        rw [List.append_assoc, List.append_assoc]
        exact List.perm_append_comm.append_left p.turns
      rw [hturns, ← List.append_assoc]
      exact (hline.append_right _).trans hswap
  | called hworks hlock hmode =>
      exact h.fetches hworkers hworks hlock rfl rfl (Pool.turns_update rfl .done)
  | callPanicked hworks hlock hmode =>
      refine h.fetches hworkers hworks hlock (by simp) (by simp) ?_
      rw [pool_leave, Pool.turns_without, Pool.turns_without]
  | @fetched j _ _ hworks | @fetchFailed j _ _ hworks | @fetchDropped j _ _ hworks =>
      have hnone : j.turn? = none := by rw [Job.turn?, hworks.stage]
      exact h.of_lock_eq rfl rfl ((Pool.turns_update rfl .done).trans
        (Pool.turns_without_of_none hworkers hworks.mem hnone .done))
  | @handedIn j _ hworks =>
      have hnone : j.turn? = none := by rw [Job.turn?, hworks.stage]
      exact h.of_lock_eq rfl rfl (Pool.turns_without_of_none hworkers hworks.mem hnone .done)
  | @fetchPanicked j _ _ _ hworks | @handedInLast j _ hworks | @undelivered j _ hworks =>
      have hnone : j.turn? = none := by rw [Job.turn?, hworks.stage]
      refine h.of_lock_eq (by simp) (by simp) ?_
      rw [pool_leave]
      exact Pool.turns_without_of_none hworkers hworks.mem hnone _

/-! ### Answers -/

/-- A hook that was held is given its answer. -/
theorem releaseHook (h : p.InLine others held) (mode : HookMode) :
    (p.releaseHook mode).InLine others held := by
  rw [Pipeline.releaseHook]
  split
  · rename_i r hphase
    exact h.kept (by rw [isOver, hphase]) rfl rfl (by rw [hphase]; rfl) (by rw [hphase]; rfl)
  · rename_i r outcome rest delivered hphase
    exact h.kept (by rw [isOver, hphase]) rfl rfl (by rw [hphase]; rfl) (by rw [hphase]; rfl)
  · exact h

/-- A fetch that was held is given its answer. -/
theorem releaseFetch {j : Job} (h : p.InLine others held) (hworkers : p.pool.workers.Nodup)
    (hj : j ∈ p.pool.busy) (mode : FetchMode) : (p.releaseFetch j mode).InLine others held := by
  rw [Pipeline.releaseFetch]
  split
  · rename_i number hstage
    have hnone : j.turn? = none := by rw [Job.turn?, hstage]
    exact h.of_lock_eq rfl rfl ((Pool.turns_update rfl .done).trans
      (Pool.turns_without_of_none hworkers hj hnone .done))
  · exact h

end InLine

end Pipeline

end SharedFetch
