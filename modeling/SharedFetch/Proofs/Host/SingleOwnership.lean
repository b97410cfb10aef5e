import SharedFetch.Proofs.Host.Integrity

/-!
# Every location in flight has one owner

Along every course of moves, a location in flight stands in exactly one place: in the slot or
the dispatch queue, with one worker, or among the completions. So a location is never fetched
twice at a time, and a completion always finds the references that wait for it.

There is one exception, and it takes a run that is cancelled. The last worker may leave before the
coordinator does, and drops what stands in the dispatch queue; the coordinator still has these
locations in flight, and a reference that it has in hand may even join one of them
(`dropped_in_flight`).

All this needs locations that are the same as themselves. One with a broken part would be admitted
anew for every reference that leads to it, and nothing would be found for its completion.

## Main results

* `single_owner`: **the locations in flight are those underway and those dropped, each in one
  place.**
-/

namespace SharedFetch

/-- Whether the worker has called its fetch and has no outcome yet. -/
def Job.isFetching (j : Job) : Bool :=
  match j.stage with
  | .fetching .. => true
  | _ => false

/-- The locations whose fetch was called and is not over, the oldest first. -/
def Pool.fetching (p : Pool) : List Location :=
  (p.busy.filter Job.isFetching).map Job.location

namespace Pipeline.Owned

variable {p : Pipeline} {dropped : List Location}

/-- Every location underway, or dropped with the dispatch queue, is in flight. -/
theorem subperm_underway_dropped (h : p.Owned dropped) :
    (p.underway ++ dropped).Subperm p.coordinator.waiters.locations := by
  obtain ⟨lost, hperm, -⟩ := h.locations
  exact (List.sublist_append_left _ _).subperm.trans hperm.symm.subperm

/-- While the coordinator goes on and no worker has panicked, every location in flight is
underway, or was dropped with the dispatch queue. -/
theorem perm_underway_dropped (h : p.Owned dropped) (hrunning : p.isOver = false)
    (hcalm : ∀ e ∈ p.pool.gone, e.2.isPanic = false) :
    p.coordinator.waiters.locations.Perm (p.underway ++ dropped) := by
  obtain ⟨lost, hperm, hlost⟩ := h.locations
  have hpanics : p.pool.panics = 0 :=
    List.countP_eq_zero.mpr fun e he => by simp [hcalm e he]
  obtain rfl : lost = [] := by
    have := hlost hrunning
    rw [hpanics] at this
    exact List.length_eq_zero_iff.mp (Nat.le_zero.mp this)
  rwa [List.append_nil] at hperm

/-- While a worker is left as well, every location in flight is underway. -/
theorem perm_underway (h : p.Owned dropped) (hrunning : p.isOver = false)
    (hcalm : ∀ e ∈ p.pool.gone, e.2.isPanic = false) (hstaffed : p.pool.isGone = false) :
    p.coordinator.waiters.locations.Perm p.underway := by
  have hperm := h.perm_underway_dropped hrunning hcalm
  rwa [h.kept hstaffed, List.append_nil] at hperm

/-- The locations that are fetched are underway. -/
theorem sublist_fetching (p : Pipeline) : p.pool.fetching.Sublist p.underway := by
  have hbusy : p.pool.fetching.Sublist (p.pool.busy.map Job.location) :=
    List.filter_sublist.map _
  exact (hbusy.trans (List.sublist_append_right _ _)).trans (List.sublist_append_left _ _)

end Pipeline.Owned

/-- No location underway, or dropped, is the same as another. -/
theorem Record.Holds.underway_differ {r : Record} {p : Pipeline} (h : r.Holds p) :
    AllDiffer (p.underway ++ r.dropped) :=
  h.faithful.distinct.subperm h.owned.subperm_underway_dropped

namespace Chronicle

open Scenario (HostBench)

variable {c : Chronicle}

/-- The locations dropped with the dispatch queue in the present run. -/
def dropped (c : Chronicle) : List Location :=
  c.record.dropped

/-- **The locations in flight are those underway and those dropped, each in one place.** No
location in flight is the same as another, and neither is one underway or dropped, or one of those
that are fetched. As long as the coordinator goes on and no worker has panicked, the locations in
flight are exactly those underway and those that stood in the dispatch queue when the last worker
left. None has been dropped as long as a worker is left, or the run is not cancelled. If all that a
run has accepted leads to locations that are the same as themselves, a coordinator that goes on
finds what every completion is for, and none has ever ended because of one that it could not
place. -/
theorem single_owner (hc : c.Reachable) (hwhole : ∀ r ∈ c.accepted, r.IsWhole) :
    let p := c.pipeline
    AllDiffer p.coordinator.waiters.locations ∧
    AllDiffer (p.underway ++ c.dropped) ∧
    AllDiffer p.pool.fetching ∧
    (p.isOver = false → (∀ e ∈ p.pool.gone, e.2.isPanic = false) →
      p.coordinator.waiters.locations.Perm (p.underway ++ c.dropped)) ∧
    (p.pool.isGone = false → c.dropped = []) ∧
    (p.isOver = false → p.isCancelled = false → c.dropped = []) ∧
    (∀ x ∈ p.completions.items,
      (p.coordinator.waiters.complete? x.location).isSome = true) ∧
    ∀ ending fault, p.coordinator.phase = .ended ending →
      ending.fault? = some fault → fault.kind ≠ .violation := by
  intro p
  have hholds := hc.sound.holds
  have hunderway := hholds.underway_differ
  exact ⟨hholds.faithful.distinct, hunderway,
    hunderway.sublist
      ((Pipeline.Owned.sublist_fetching p).trans (List.sublist_append_left _ _)),
    hholds.owned.perm_underway_dropped, hholds.owned.kept,
    fun hrunning hlive => hholds.owned.kept (hc.staffed.present hrunning hlive),
    hholds.isSome_complete? hwhole, hholds.lawful hwhole⟩

/-- References to the given locations, each with a name of its own. -/
def toNumbers (ns : List (Nat × Int)) : List Reference :=
  ns.map fun n => { id := n.1, target := .location (.number n.2) }

theorem isWhole_toNumbers (ns : List (Nat × Int)) : ∀ r ∈ toNumbers ns, r.IsWhole := by
  intro r hr l hl
  obtain ⟨n, -, rfl⟩ := List.mem_map.mp hr
  obtain rfl := Target.location.inj hl
  exact (Location.beq_iff _ _).mpr ⟨rfl, rfl⟩

/-- A run with two workers and one place in the dispatch queue, and with references to the
locations 1, 1, 2, 3 and 4. The fetch of 1 has answered and its completion waits; 2 is fetched,
3 stands in the dispatch queue and 4 in the slot. -/
def spread : Chronicle :=
  let references := toNumbers [(1, 1), (2, 1), (3, 2), (4, 3), (5, 4)]
  let opening : List HostBench.Move := [.act 0 .start, .act 1 (.trySubmit references)]
  let answer : HostBench.Move := .act 2 (.release none (.content none))
  let coordinate : HostBench.Move := .event (.inside .coordinate)
  let work (id : Nat) : HostBench.Move := .event (.inside (.work id))
  (start .fetcher ⟨2, 8, 1, 2, ⟨5, 0⟩⟩ {} false).run
    (opening ++ List.replicate 3 coordinate ++ [work 0, work 0] ++
      List.replicate 5 coordinate ++ [work 1, work 1] ++
      List.replicate 5 coordinate ++ [answer, work 0, work 0])

/-- The locations of that run, in four different places. -/
theorem single_owner_spread :
    (spread.Reachable ∧ ∀ r ∈ spread.accepted, r.IsWhole) ∧
    spread.pipeline.isOver = false ∧ spread.dropped = [] ∧
    spread.pipeline.underway = [.number 4, .number 3, .number 2, .number 1] ∧
    spread.pipeline.coordinator.waiters.locations.Perm
      (spread.pipeline.underway ++ spread.dropped) := by
  have hreachable : spread.Reachable := ⟨_, _, _, _, _, rfl⟩
  have haccepted : spread.accepted = toNumbers [(1, 1), (2, 1), (3, 2), (4, 3), (5, 4)] := by rfl
  have hwhole : ∀ r ∈ spread.accepted, r.IsWhole := haccepted ▸ isWhole_toNumbers _
  have hgone : spread.pipeline.pool.gone = [] := by rfl
  obtain ⟨-, -, -, hperm, hkept, -⟩ := single_owner hreachable hwhole
  exact ⟨⟨hreachable, hwhole⟩, by rfl, hkept (by rfl), by rfl, hperm (by rfl) (by simp [hgone])⟩

/-- A run with one worker, which fetches 7, while 8 stands in the dispatch queue and the coordinator
has a reference to 8 in hand that it cannot resolve, because somebody outside has the lock. When the
run is cancelled, the worker drops its fetch, hands in what became of it, and leaves. -/
def orphaned : Chronicle :=
  let coordinate : HostBench.Move := .event (.inside .coordinate)
  let work : HostBench.Move := .event (.inside (.work 0))
  (start .fetcher ⟨1, 8, 1, 1, ⟨5, 0⟩⟩ {} false).run
    ([.act 0 .start, .act 1 (.trySubmit (toNumbers [(1, 7), (2, 8)]))] ++
      List.replicate 3 coordinate ++ [work, work] ++ List.replicate 3 coordinate ++
      [.act 2 (.guard .write), .act 3 (.trySubmit (toNumbers [(3, 8)])), coordinate,
        .act 4 .cancel, .event (.inside (.dropFetch 0)), work])

set_option maxRecDepth 1024 in
/-- **A location in flight need not be underway.** In that run the coordinator goes on and nobody
has panicked, but 8 is in flight and neither in the slot nor in the dispatch queue, neither with a
worker nor among the completions. Once the lock is given back the last reference joins it. -/
theorem dropped_in_flight :
    let last := orphaned.run [.act 5 .unguard, .event (.inside .coordinate)]
    orphaned.Reachable ∧ (∀ r ∈ orphaned.accepted, r.IsWhole) ∧
    orphaned.pipeline.isOver = false ∧ orphaned.pipeline.pool.gone = [(0, .done)] ∧
    orphaned.pipeline.coordinator.waiters.locations = [.number 7, .number 8] ∧
    orphaned.pipeline.underway = [.number 7] ∧ orphaned.dropped = [.number 8] ∧
    orphaned.pipeline.counters.coalesced = 0 ∧ last.pipeline.counters.coalesced = 1 := by
  have haccepted : orphaned.accepted = toNumbers [(1, 7), (2, 8), (3, 8)] := by rfl
  exact ⟨⟨_, _, _, _, _, rfl⟩, haccepted ▸ isWhole_toNumbers _, by rfl, by rfl, by rfl, by rfl,
    by rfl, by rfl, by rfl⟩

end Chronicle

end SharedFetch
