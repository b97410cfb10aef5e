import SharedFetch.Proofs.Host.Chronicle

/-!
# Deliveries over whole runs

What becomes of the references of a run, whatever the order of moves and however the run ends.
Each statement is first one about a ledger and its coordinator (`Faithful`), where it follows
from the book of what was taken up; the chronicle then carries it to every run of a host.

A reference that was taken up and not decided yet is the one in the hand of the coordinator,
which is about to resolve or to report it. There is at most one of these, and none once the
run has ended.

## Main results

* `delivered_in_order`: **first in, first out, and at most once.**
* `drained_complete`: **a run that drains has served every reference.**
-/

namespace SharedFetch

open Pipeline

/-- The reference that was taken up and neither enrolled nor reported yet. -/
def Phase.undecided : Phase → List Reference
  | .resolving r => [r]
  | .reporting r _ => [r]
  | _ => []

namespace Faithful

variable {g : Ledger} {c : Coordinator}

/-- The references served are the first of those that the book serves. -/
theorem processed_behind (h : Faithful g c) :
    g.processed <+: processed (Book.ofTaken g.taken).calls :=
  h.behind.1.filterMap Call.processed?

/-- For each location, the references served are the first that were taken up. -/
theorem first_served (h : Faithful g c) (l : Location) :
    g.processed.filter (Reference.leadsTo l) <+: g.references.filter (Reference.leadsTo l) := by
  rw [Ledger.references, Book.filter_leadsTo_references, List.filter_append]
  exact (h.processed_behind.filter _).trans (List.prefix_append _ _)

/-- Whoever is served leads to a location. -/
theorem exists_leadsTo_of_mem_processed (h : Faithful g c) :
    ∀ r ∈ g.processed, ∃ l, Reference.leadsTo l r = true := by
  intro r hr
  exact Book.exists_leadsTo_of_mem_processed g.taken r (h.processed_behind.subset hr)

/-- The references reported are those taken up that lead nowhere, in order, apart from one that
is not decided yet. -/
theorem unresolved_eq (h : Faithful g c) :
    g.unresolved ++ c.phase.undecided.filter Reference.leadsNowhere =
      g.references.filter Reference.leadsNowhere := by
  obtain ⟨settled, owed, awaited, h⟩ := h
  have hcalls := congrArg unresolved h.calls
  rw [unresolved_append, Book.unresolved_ofTaken] at hcalls
  rw [Ledger.unresolved, Ledger.references, h.taken, references_append, List.filter_append,
    ← hcalls]
  have howes := h.owes
  cases hphase : c.phase with
  | resolving r =>
      rw [hphase] at howes
      obtain rfl : owed = [] := howes
      simp [Phase.undecided, Phase.inHand, unresolved]
  | reporting r cause =>
      rw [hphase] at howes
      obtain rfl : owed = [.unresolved r cause] := howes
      have htarget := h.target r cause hphase
      simp [Phase.undecided, Phase.inHand, Reference.leadsNowhere, htarget, references]
  | choosing | inUnresolved | fanningOut | delivering | inProcess | ended =>
      obtain ⟨outcome, rest, rfl⟩ := howes.exists_fanOut (by simp [hphase])
      simp [Phase.undecided, Phase.inHand, references]

/-- Once the coordinator has ended, every reference taken up is decided. -/
theorem unresolved_eq_of_ended (h : Faithful g c) {ending : Ending}
    (hphase : c.phase = .ended ending) :
    g.unresolved = g.references.filter Reference.leadsNowhere := by
  simpa [hphase, Phase.undecided] using h.unresolved_eq

/-- No reference is served or reported more often than it was taken up. -/
theorem subperm_references (h : Faithful g c) :
    (g.processed ++ g.unresolved).Subperm g.references := by
  have hreported : g.unresolved <+: unresolved (Book.ofTaken g.taken).calls :=
    h.behind.1.filterMap Call.unresolved?
  have heveryone : (g.processed ++ g.unresolved).Sublist
      ((Book.ofTaken g.taken).everyone ++ g.references.filter Reference.panics) :=
    ((h.processed_behind.sublist.append hreported.sublist).trans
      (List.sublist_append_left _ _)).trans (List.sublist_append_left _ _)
  exact heveryone.subperm.trans (Book.references_perm g.taken).subperm

end Faithful

/-- If all was done that the book asks for and nothing waits, every reference taken up was
served or reported. -/
theorem Ledger.Drained.perm_references {g : Ledger} {c : Coordinator} (h : g.Drained c)
    (hfaithful : Faithful g c) : g.references.Perm (g.processed ++ g.unresolved) := by
  obtain ⟨hwaiters, -, -⟩ := hfaithful.level_of_ended h.phase
  have hnobody : (Book.ofTaken g.taken).waiters.references = [] := by
    have hempty := h.waiters
    rw [hwaiters, Waiters.isEmpty, List.isEmpty_iff] at hempty
    rw [Waiters.references, hempty, List.flatMap_nil]
  have hcalm : g.references.filter Reference.panics = [] :=
    List.filter_eq_nil_iff.mpr fun r hr => by simp [h.calm r hr]
  have hperm := Book.references_perm g.taken
  rw [Book.everyone, hnobody, ← h.calls, List.append_nil] at hperm
  rw [Ledger.references] at hcalm
  rw [hcalm, List.append_nil] at hperm
  exact hperm.symm

namespace Chronicle

open Scenario (HostBench)

variable {c : Chronicle}

/-- **First in, first out, and at most once.** However a run has gone so far and however it
ends, for each location the references given their delivery are the first that were taken up
for it; each of them leads to some location. The references reported are those taken up that
lead nowhere, in the same order, up to the one in the coordinator's hand, and all of them once
the coordinator has ended. No reference comes to a hook more often than it was accepted: what was
taken up, and then what stands in the intake, was accepted in this order, and nothing else was as
long as the coordinator goes on, which drops what stands there when it ends. The journal shows the
same deliveries and, unless the protocol leaves its hooks as they are, the same reports. -/
theorem delivered_in_order (hc : c.Reachable) :
    (∀ l, c.ledger.processed.filter (Reference.leadsTo l) <+:
      c.ledger.references.filter (Reference.leadsTo l)) ∧
    (∀ r ∈ c.ledger.processed, ∃ l, Reference.leadsTo l r = true) ∧
    c.ledger.unresolved ++ c.pipeline.coordinator.phase.undecided.filter Reference.leadsNowhere =
      c.ledger.references.filter Reference.leadsNowhere ∧
    (∀ ending, c.pipeline.coordinator.phase = .ended ending →
      c.ledger.unresolved = c.ledger.references.filter Reference.leadsNowhere) ∧
    (c.ledger.processed ++ c.ledger.unresolved).Subperm c.ledger.references ∧
    c.ledger.references ++ c.pipeline.intake.queue.items <+: c.accepted ∧
    (c.pipeline.isOver = false →
      c.ledger.references ++ c.pipeline.intake.queue.items = c.accepted) ∧
    processedIn c.entries = c.ledger.processed ∧
    (c.pipeline.protocol.plain = false → unresolvedIn c.entries = c.ledger.unresolved) := by
  have hholds := hc.sound.holds
  have hfaithful : Faithful c.ledger c.pipeline.coordinator := hholds.faithful
  exact ⟨hfaithful.first_served, hfaithful.exists_leadsTo_of_mem_processed,
    hfaithful.unresolved_eq, fun _ => hfaithful.unresolved_eq_of_ended,
    hfaithful.subperm_references, hholds.accepted_of_references,
    fun hrunning => hholds.references_eq (.inl hrunning), hholds.processed, hholds.unresolved⟩

/-- A run with three references to one location, of which the second makes its hook fail. -/
def halted : Chronicle :=
  let references : List Reference :=
    [{ id := 1, target := .location (.number 7) },
      { id := 2, target := .location (.number 7), process := .fail none ⟨"full", []⟩ },
      { id := 3, target := .location (.number 7) }]
  let opening : List HostBench.Move := [.act 0 .start, .act 1 (.trySubmit references)]
  let coordinate : HostBench.Move := .event (.inside .coordinate)
  let work : HostBench.Move := .event (.inside (.work 0))
  (start .fetcher ⟨1, 8, 1, 1, ⟨5, 0⟩⟩ { otherwise := .content none } false).run
    (opening ++ List.replicate 7 coordinate ++ List.replicate 4 work ++
      List.replicate 6 coordinate)

/-- Two of the references of that run are given their delivery, and the run has ended. -/
theorem delivered_in_order_halted :
    halted.Reachable ∧
    halted.pipeline.isOver = true ∧
    halted.ledger.processed.map Reference.id = [1, 2] ∧
    halted.ledger.references.map Reference.id = [1, 2, 3] ∧
    halted.ledger.processed.filter (Reference.leadsTo (.number 7)) <+:
      halted.ledger.references.filter (Reference.leadsTo (.number 7)) := by
  have hreachable : halted.Reachable := ⟨_, _, _, _, _, rfl⟩
  exact ⟨hreachable, by rfl, by rfl, by rfl, (delivered_in_order hreachable).1 (.number 7)⟩

/-- **A run that drains has served every reference.** From the moment at which the coordinator
leaves because nothing is left to do, the references accepted are, each as often as it was accepted,
those given their delivery and those reported; the latter are the ones that lead nowhere. Every hook
called has succeeded, and the journal shows the same deliveries, with the same outcomes, and unless
the protocol is plain the same reports. Neither in the queues nor with a worker is a location left,
and no worker has failed, as one would that cannot hand in its completion. -/
theorem drained_complete (hc : c.Reachable) (hdrained : .note .drained ∈ c.entries) :
    c.accepted.Perm (c.ledger.processed ++ c.ledger.unresolved) ∧
    c.ledger.unresolved = c.accepted.filter Reference.leadsNowhere ∧
    c.ledger.returned = c.ledger.calls ∧
    (processed c.ledger.returned).length + c.ledger.unresolved.length = c.accepted.length ∧
    deliveriesIn c.entries = deliveries c.ledger.calls ∧
    (c.pipeline.protocol.plain = false → unresolvedIn c.entries = c.ledger.unresolved) ∧
    c.pipeline.dispatch.items = [] ∧ c.pipeline.pool.busy = [] ∧
    c.pipeline.completions.items = [] ∧
    ∀ e ∈ c.pipeline.pool.gone, ∀ fault, e.2 ≠ .failed fault := by
  have hholds := hc.sound.holds
  have hfaithful : Faithful c.ledger c.pipeline.coordinator := hholds.faithful
  have hdone : c.ledger.Drained c.pipeline.coordinator := hholds.drained hdrained
  have haccepted : c.accepted = c.ledger.references := by
    rw [accepted, ← hholds.references_eq (.inr hdone.intake), (hholds.closed hdone.intake).1,
      List.append_nil]
    rfl
  have hperm := hdone.perm_references hfaithful
  have hunresolved := hfaithful.unresolved_eq_of_ended hdone.phase
  have hnothing := hholds.owned.underway_eq_nil hdone.waiters
  simp only [underway, List.append_eq_nil_iff, List.map_eq_nil_iff] at hnothing
  obtain ⟨⟨⟨-, hdispatch⟩, hbusy⟩, hcompletions⟩ := hnothing
  refine ⟨haccepted ▸ hperm, haccepted ▸ hunresolved, hdone.returned, ?_, hholds.delivered,
    hholds.unresolved, hdispatch, hbusy, hcompletions, hholds.owned.failures (.inr hdone.waiters)⟩
  rw [hdone.returned, haccepted, hperm.length_eq, List.length_append]
  rfl

/-- A run with two references to one location and one that leads nowhere, up to its end. -/
def finished : Chronicle :=
  let references : List Reference :=
    [{ id := 1, target := .location (.number 7) }, { id := 2, target := .nowhere ⟨"gone", []⟩ },
      { id := 3, target := .location (.number 7) }]
  let opening : List HostBench.Move :=
    [.act 0 .start, .act 1 (.trySubmit references), .act 2 .drop]
  let coordinate : HostBench.Move := .event (.inside .coordinate)
  let work : HostBench.Move := .event (.inside (.work 0))
  (start .fetcher ⟨1, 8, 1, 1, ⟨5, 0⟩⟩ { otherwise := .content none } false).run
    (opening ++ List.replicate 9 coordinate ++ List.replicate 4 work ++
      List.replicate 9 coordinate)

set_option maxRecDepth 1024 in
/-- That run has drained, and each of its references has come to a hook. -/
theorem drained_complete_finished :
    finished.Reachable ∧ .note .drained ∈ finished.entries ∧
    finished.accepted.map Reference.id = [1, 2, 3] ∧
    finished.ledger.processed.map Reference.id = [1, 3] ∧
    finished.accepted.Perm (finished.ledger.processed ++ finished.ledger.unresolved) := by
  have hreachable : finished.Reachable := ⟨_, _, _, _, _, rfl⟩
  have hdrained : .note .drained ∈ finished.entries := List.mem_of_getElem? (i := 12) (by rfl)
  exact ⟨hreachable, hdrained, by rfl, by rfl, (drained_complete hreachable hdrained).1⟩

end Chronicle

end SharedFetch
