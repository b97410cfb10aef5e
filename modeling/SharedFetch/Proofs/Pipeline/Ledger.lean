import SharedFetch.Proofs.Book
import SharedFetch.Proofs.Pipeline.CoordinatorStep

/-!
# The ledger of a coordinator

The ledger stands beside the coordinator and is written by comparing the pipeline before and
after each of its steps: where a reference or a completion was counted, the first of its queue was
taken up, what stands at the end of the dispatch queue was dispatched, and a change of phase
shows whether a hook was called and whether it has returned. Nothing in the pipeline looks at
the ledger. That what is missing from a queue was taken up cannot be read off the queue alone, for
the coordinator drops both queues when it ends.

`Faithful g c` says how the ledger, the book of what was taken up and the coordinator belong
together at any moment. The coordinator may be behind the book in three ways: it has a
reference in hand that it has not resolved yet, it owes the calls of the event that it is
dealing with, and a location may stand in its slot that is not dispatched yet. Once it has
ended, the calls that it owed and did not make are the rest of one fan-out.

## Main results

* `Faithful.step`: every step of the coordinator keeps ledger, book and coordinator together.
-/

namespace SharedFetch

/-- What a coordinator has done so far. -/
structure Ledger where
  /-- What it has taken up, in order. -/
  taken : List Taking := []
  /-- The locations that it has put into the dispatch queue, in order. -/
  dispatched : List Location := []
  /-- The hooks that it has called, in order. -/
  calls : List Call := []
  /-- The hooks among them that have succeeded, in order. -/
  returned : List Call := []

namespace Phase

/-- The hook that is called where the coordinator goes from one phase to another. -/
def called : Phase → Phase → List Call
  | .reporting r cause, .inUnresolved .. => [.unresolved r cause]
  | .delivering .., .inProcess r _ outcome _ _ => [.process r outcome]
  | _, _ => []

/-- The hook that has succeeded where the coordinator goes from one phase to another. -/
def returned : Phase → Phase → List Call
  | .inUnresolved r _, .choosing => r.failure
  | .inProcess r _ outcome _ _, .delivering .. => [.process r outcome]
  | _, _ => []

/-- What the coordinator has taken up and not dealt with. -/
@[simp] def inHand : Phase → List Taking
  | .resolving r => [.reference r]
  | _ => []

/-- The calls that the coordinator still has to make for what it is dealing with. Once it has
ended it may have left out the rest of a fan-out. -/
@[simp] def Owes : Phase → List Call → Prop
  | .reporting r cause, owed => owed = [.unresolved r cause]
  | .fanningOut outcome rest, owed => owed = fanOut outcome rest
  | .delivering outcome rest _, owed => owed = fanOut outcome rest
  | .inProcess _ _ outcome rest _, owed => owed = fanOut outcome rest
  | .ended _, owed => ∃ outcome rest, owed = fanOut outcome rest
  | _, owed => owed = []

/-- The call that the coordinator waits for. Once it has ended, that may be the one it was
waiting for. -/
@[simp] def Awaits : Phase → List Call → Prop
  | .inUnresolved r _, awaited => awaited = r.failure
  | .inProcess r _ outcome _ _, awaited => awaited = [.process r outcome]
  | .ended _, awaited => awaited.length ≤ 1
  | _, awaited => awaited = []

/-- Whether the coordinator is through. -/
@[simp] def isOver : Phase → Bool
  | .ended _ => true
  | _ => false

end Phase

namespace Ledger

/-- What was taken from the front of a queue, if the count of what was taken has changed. -/
def counted {α : Type} (before after : UInt64) (items : List α) : List α :=
  if after = before then [] else items.take 1

/-- What has come to the end of a queue. -/
def pushed {α : Type} (before after : List α) : List α :=
  after.drop before.length

/-- The ledger after a step of the coordinator from one pipeline to another. -/
def follow (g : Ledger) (p q : Pipeline) : Ledger where
  taken :=
    g.taken ++
      (counted p.counters.completions q.counters.completions p.completions.items).map .completion ++
      (counted p.counters.references q.counters.references p.intake.queue.items).map .reference
  dispatched := g.dispatched ++ pushed p.dispatch.items q.dispatch.items
  calls := g.calls ++ p.coordinator.phase.called q.coordinator.phase
  returned := g.returned ++ p.coordinator.phase.returned q.coordinator.phase

@[simp] theorem counted_self {α : Type} (n : UInt64) (items : List α) : counted n n items = [] :=
  if_pos rfl

@[simp] theorem counted_succ {α : Type} (n : UInt64) (a : α) (rest : List α) :
    counted n (n + 1) (a :: rest) = [a] := by
  simp [counted]

/-- What was taken stood in the queue. -/
theorem mem_of_mem_counted {α : Type} {before after : UInt64} {items : List α} {a : α}
    (h : a ∈ counted before after items) : a ∈ items := by
  rw [counted] at h
  split at h
  · cases h
  · exact List.mem_of_mem_take h

/-- Nothing has come to a queue that has only been taken from. -/
@[simp] theorem pushed_append_left {α : Type} (taken rest : List α) :
    pushed (taken ++ rest) rest = [] := by
  simp [pushed]

@[simp] theorem pushed_self {α : Type} (items : List α) : pushed items items = [] := by
  simp [pushed]

@[simp] theorem pushed_append {α : Type} (items new : List α) :
    pushed items (items ++ new) = new := by
  simp [pushed]

/-- The references that were taken up. -/
def references (g : Ledger) : List Reference :=
  SharedFetch.references g.taken

/-- The references that were given their delivery. -/
def processed (g : Ledger) : List Reference :=
  SharedFetch.processed g.calls

/-- The references that were reported as unresolvable. -/
def unresolved (g : Ledger) : List Reference :=
  SharedFetch.unresolved g.calls

@[simp] theorem references_follow (g : Ledger) (p q : Pipeline) :
    (g.follow p q).references =
      g.references ++
        counted p.counters.references q.counters.references p.intake.queue.items := by
  have hcompletions : ∀ cs : List Completion, SharedFetch.references (cs.map .completion) = [] := by
    intro cs
    rw [SharedFetch.references, List.filterMap_map]
    exact List.filterMap_eq_nil_iff.mpr fun _ _ => rfl
  have hreferences : ∀ rs : List Reference, SharedFetch.references (rs.map .reference) = rs := by
    intro rs
    rw [SharedFetch.references, List.filterMap_map]
    exact List.filterMap_some
  rw [references, references, follow, references_append, references_append, hcompletions,
    hreferences, List.append_nil]

/-- Where nothing is counted, nothing was taken up. -/
theorem taken_follow (g : Ledger) {p q : Pipeline}
    (hcompletions : q.counters.completions = p.counters.completions)
    (hreferences : q.counters.references = p.counters.references) :
    (g.follow p q).taken = g.taken := by
  simp [follow, hcompletions, hreferences]

theorem taken_follow_completion (g : Ledger) {p q : Pipeline} {c : Completion}
    {rest : List Completion} (hitems : p.completions.items = c :: rest)
    (hcompletions : q.counters.completions = p.counters.completions + 1)
    (hreferences : q.counters.references = p.counters.references) :
    (g.follow p q).taken = g.taken ++ [.completion c] := by
  simp [follow, hitems, hcompletions, hreferences]

theorem taken_follow_reference (g : Ledger) {p q : Pipeline} {r : Reference}
    {rest : List Reference} (hitems : p.intake.queue.items = r :: rest)
    (hcompletions : q.counters.completions = p.counters.completions)
    (hreferences : q.counters.references = p.counters.references + 1) :
    (g.follow p q).taken = g.taken ++ [.reference r] := by
  simp [follow, hitems, hcompletions, hreferences]

@[simp] theorem unresolved_follow (g : Ledger) (p q : Pipeline) :
    (g.follow p q).unresolved =
      g.unresolved ++ SharedFetch.unresolved (p.coordinator.phase.called q.coordinator.phase) :=
  unresolved_append _ _

end Ledger

/-! ### Ledger, book and coordinator -/

/-- Ledger `g`, the book of the takings `settled` and coordinator `c` belong together, where
the coordinator owes the calls `owed` and waits for the call `awaited`. -/
structure Agrees (g : Ledger) (c : Coordinator) (settled : List Taking)
    (owed awaited : List Call) : Prop where
  taken : g.taken = settled ++ c.phase.inHand
  waiters : c.waiters = (Book.ofTaken settled).waiters
  dispatches : g.dispatched ++ c.slot.toList = (Book.ofTaken settled).dispatches
  calls : g.calls ++ owed = (Book.ofTaken settled).calls
  returned : g.returned ++ awaited = g.calls
  owes : c.phase.Owes owed
  awaits : c.phase.Awaits awaited
  slot : ∀ r, c.phase = .resolving r → c.slot = none
  target : ∀ r cause, c.phase = .reporting r cause → r.target = .nowhere cause
  sober : c.phase.isOver = false → ∀ r ∈ references settled, r.panics = false

/-- Ledger and coordinator belong together. -/
def Faithful (g : Ledger) (c : Coordinator) : Prop :=
  ∃ settled owed awaited, Agrees g c settled owed awaited

/-- At the start nothing has happened. -/
theorem faithful_start : Faithful {} {} :=
  ⟨[], [], [], rfl, rfl, rfl, rfl, rfl, rfl, rfl, by simp, by simp, by simp [references]⟩

namespace Ledger

/-- Nothing is taken up or dispatched, and waiters and slot are as they were. -/
structure Keeps (p q : Pipeline) : Prop where
  completions : q.counters.completions = p.counters.completions
  references : q.counters.references = p.counters.references
  dispatch : q.dispatch.items = p.dispatch.items
  waiters : q.coordinator.waiters = p.coordinator.waiters
  slot : q.coordinator.slot = p.coordinator.slot

/-- A step that takes nothing up only writes calls and returns. -/
theorem follow_eq {g : Ledger} {p q : Pipeline} (h : Keeps p q) :
    g.follow p q =
      { g with
        calls := g.calls ++ p.coordinator.phase.called q.coordinator.phase
        returned := g.returned ++ p.coordinator.phase.returned q.coordinator.phase } := by
  simp [follow, h.completions, h.references, h.dispatch]

@[simp] theorem called_self (phase : Phase) : phase.called phase = [] := by
  cases phase <;> rfl

@[simp] theorem returned_self (phase : Phase) : phase.returned phase = [] := by
  cases phase <;> rfl

/-- A coordinator that ends calls nothing. -/
theorem called_ended (phase : Phase) (e : Ending) : phase.called (.ended e) = [] := by
  cases phase <;> rfl

/-- Nothing has returned to a coordinator that ends. -/
theorem returned_ended (phase : Phase) (e : Ending) : phase.returned (.ended e) = [] := by
  cases phase <;> rfl

/-- A coordinator that ends writes nothing into the ledger. -/
theorem follow_finish {g : Ledger} {p q : Pipeline} {e : Ending} (h : Keeps p q) :
    g.follow p (q.finish e) = g := by
  have hkeeps : Keeps p (q.finish e) :=
    ⟨h.completions, h.references, h.dispatch, h.waiters, h.slot⟩
  rw [follow_eq hkeeps]
  simp [Pipeline.finish, called_ended, returned_ended]

end Ledger

namespace Phase

variable {phase : Phase} {owed awaited : List Call}

/-- Apart from a report, all that is ever owed is the rest of a fan-out. -/
theorem Owes.exists_fanOut (h : phase.Owes owed) (hphase : ∀ r cause, phase ≠ .reporting r cause) :
    ∃ outcome rest, owed = fanOut outcome rest := by
  cases phase with
  | reporting r cause => exact absurd rfl (hphase r cause)
  | fanningOut outcome rest => exact ⟨outcome, rest, h⟩
  | delivering outcome rest delivered => exact ⟨outcome, rest, h⟩
  | inProcess r mode outcome rest delivered => exact ⟨outcome, rest, h⟩
  | ended e => exact h
  | choosing => exact ⟨default, [], h⟩
  | resolving r => exact ⟨default, [], h⟩
  | inUnresolved r mode => exact ⟨default, [], h⟩

/-- The coordinator waits for one hook at a time. -/
theorem Awaits.length_le (h : phase.Awaits awaited) : awaited.length ≤ 1 := by
  cases phase with
  | inUnresolved r mode =>
      rw [show awaited = r.failure from h, Reference.failure]
      split <;> simp
  | inProcess r mode outcome rest delivered =>
      rw [show awaited = [.process r outcome] from h, List.length_singleton]
  | ended e => exact h
  | choosing | resolving r | reporting r cause | fanningOut outcome rest
  | delivering outcome rest delivered =>
      rw [show awaited = [] from h]
      exact Nat.zero_le 1

end Phase

namespace Agrees

variable {g : Ledger} {c : Coordinator} {settled : List Taking} {owed awaited : List Call}

/-- A coordinator that is between two events owes nothing and waits for nothing. -/
theorem choosing (h : Agrees g c settled owed awaited) (hphase : c.phase = .choosing) :
    g.taken = settled ∧ owed = [] ∧ awaited = [] := by
  have htaken := h.taken
  have howes := h.owes
  have hawaits := h.awaits
  rw [hphase] at htaken howes hawaits
  exact ⟨by simpa using htaken, howes, hawaits⟩

end Agrees

namespace Faithful

variable {g : Ledger} {p q : Pipeline}

/-- A coordinator with no reference in hand may end. -/
theorem ended {c d : Coordinator} (h : Faithful g c) (hresolving : ∀ r, c.phase ≠ .resolving r)
    (hreporting : ∀ r cause, c.phase ≠ .reporting r cause) (hwaiters : d.waiters = c.waiters)
    (hslot : d.slot = c.slot) {e : Ending} (hphase : d.phase = .ended e) : Faithful g d := by
  obtain ⟨settled, owed, awaited, h⟩ := h
  have hhand : c.phase.inHand = [] := by
    cases hc : c.phase with
    | resolving r => exact absurd hc (hresolving r)
    | _ => rfl
  refine ⟨settled, owed, awaited, ?_, hwaiters.trans h.waiters, by rw [hslot, h.dispatches],
    h.calls, h.returned, ?_, ?_, by simp [hphase], by simp [hphase], by simp [hphase]⟩
  · rw [h.taken, hhand, hphase]
    rfl
  · rw [hphase]
    exact h.owes.exists_fanOut hreporting
  · rw [hphase]
    exact h.awaits.length_le

/-- A coordinator with no reference in hand may let go of its queues. -/
theorem finish (h : Faithful g p.coordinator) (hresolving : ∀ r, p.coordinator.phase ≠ .resolving r)
    (hreporting : ∀ r cause, p.coordinator.phase ≠ .reporting r cause)
    (hkeeps : Ledger.Keeps p q) {e : Ending} :
    Faithful (g.follow p (q.finish e)) (q.finish e).coordinator := by
  rw [Ledger.follow_finish hkeeps]
  exact h.ended hresolving hreporting hkeeps.waiters hkeeps.slot rfl

/-- The same with an alarm. -/
theorem abort (h : Faithful g p.coordinator) (hresolving : ∀ r, p.coordinator.phase ≠ .resolving r)
    (hreporting : ∀ r cause, p.coordinator.phase ≠ .reporting r cause)
    (hkeeps : Ledger.Keeps p q) {alarm : Alarm} :
    Faithful (g.follow p (q.abort alarm)) (q.abort alarm).coordinator := by
  rw [Pipeline.abort_eq]
  exact h.finish hresolving hreporting
    ⟨hkeeps.completions, hkeeps.references, hkeeps.dispatch, hkeeps.waiters, hkeeps.slot⟩

/-- Only waiters, slot and phase of the coordinator matter. -/
theorem congr {c d : Coordinator} (h : Faithful g c) (hwaiters : d.waiters = c.waiters)
    (hslot : d.slot = c.slot) (hphase : d.phase = c.phase) : Faithful g d := by
  obtain ⟨settled, owed, awaited, h⟩ := h
  refine ⟨settled, owed, awaited, ?_, hwaiters.trans h.waiters, ?_, h.calls, h.returned, ?_, ?_,
    ?_, ?_, ?_⟩
  · rw [hphase, h.taken]
  · rw [hslot, h.dispatches]
  · rw [hphase]; exact h.owes
  · rw [hphase]; exact h.awaits
  · rw [hphase, hslot]; exact h.slot
  · rw [hphase]; exact h.target
  · rw [hphase]; exact h.sober

/-! ### Events -/

section Events

variable {c : Coordinator}

/-- A completion that is taken up is served next. -/
theorem completed {x : Completion} {rs : List Reference} {waiters : Waiters Location Reference}
    (h : Faithful g c) (hphase : c.phase = .choosing)
    (hfound : c.waiters.complete? x.location = some (rs, waiters)) :
    Faithful { g with taken := g.taken ++ [.completion x] }
      { c with waiters, phase := .fanningOut x.outcome rs } := by
  obtain ⟨settled, owed, awaited, h⟩ := h
  obtain ⟨htaken, rfl, rfl⟩ := h.choosing hphase
  have htake : (Book.ofTaken settled).take (.completion x) =
      { Book.ofTaken settled with
        waiters, calls := (Book.ofTaken settled).calls ++ fanOut x.outcome rs } := by
    simp [Book.take, ← h.waiters, hfound]
  refine ⟨settled ++ [Taking.completion x], fanOut x.outcome rs, [], ?_, ?_, ?_, ?_, h.returned,
    rfl, rfl, by simp, by simp, ?_⟩
  · simp [htaken]
  · rw [Book.ofTaken_append, htake]
  · rw [Book.ofTaken_append, htake]; exact h.dispatches
  · rw [Book.ofTaken_append, htake, ← h.calls, List.append_nil]
  · intro _
    simpa using h.sober (by rw [hphase]; rfl)

/-- A completion that nothing waits for ends the coordinator. -/
theorem stray {x : Completion} {d : Coordinator} {e : Ending} (h : Faithful g c)
    (hphase : c.phase = .choosing) (hlost : c.waiters.complete? x.location = none)
    (hwaiters : d.waiters = c.waiters) (hslot : d.slot = c.slot) (hended : d.phase = .ended e) :
    Faithful { g with taken := g.taken ++ [.completion x] } d := by
  obtain ⟨settled, owed, awaited, h⟩ := h
  obtain ⟨htaken, rfl, rfl⟩ := h.choosing hphase
  have htake : (Book.ofTaken settled).take (.completion x) = Book.ofTaken settled := by
    simp [Book.take, ← h.waiters, hlost]
  refine ⟨settled ++ [Taking.completion x], [], [], ?_, ?_, ?_, ?_, h.returned, ?_, ?_,
    by simp [hended], by simp [hended], by simp [hended]⟩
  · simp [htaken, hended]
  · rw [Book.ofTaken_append, htake, hwaiters, h.waiters]
  · rw [Book.ofTaken_append, htake, hslot, h.dispatches]
  · rw [Book.ofTaken_append, htake, ← h.calls]
  · rw [hended]; exact ⟨default, [], rfl⟩
  · rw [hended]; exact Nat.zero_le 1

/-- A location goes from the slot into the dispatch queue. -/
theorem dispatched {l : Location} (h : Faithful g c) (hphase : c.phase = .choosing)
    (hslot : c.slot = some l) :
    Faithful { g with dispatched := g.dispatched ++ [l] } { c with slot := none } := by
  obtain ⟨settled, owed, awaited, h⟩ := h
  refine ⟨settled, owed, awaited, h.taken, h.waiters, ?_, h.calls, h.returned, h.owes, h.awaits,
    by simp [hphase], h.target, h.sober⟩
  have := h.dispatches
  rw [hslot] at this
  simpa using this

/-- A reference that is taken up is resolved next. -/
theorem took {r : Reference} (h : Faithful g c) (hphase : c.phase = .choosing)
    (hslot : c.slot = none) :
    Faithful { g with taken := g.taken ++ [.reference r] } { c with phase := .resolving r } := by
  obtain ⟨settled, owed, awaited, h⟩ := h
  obtain ⟨htaken, rfl, rfl⟩ := h.choosing hphase
  exact ⟨settled, [], [], by rw [htaken]; rfl, h.waiters, h.dispatches, h.calls, h.returned, rfl,
    rfl, fun _ _ => hslot, by simp, fun _ => h.sober (by rw [hphase]; rfl)⟩

/-- A reference with a location is enrolled, and its location fills the slot if it is new. -/
theorem enrolled {r : Reference} {l : Location} {admission : Admission Location}
    {waiters : Waiters Location Reference} (h : Faithful g c) (hphase : c.phase = .resolving r)
    (htarget : r.target = .location l) (henroll : c.waiters.enroll l r = (admission, waiters)) :
    Faithful g { c with waiters, slot := admission.dispatches.head?, phase := .choosing } := by
  obtain ⟨settled, owed, awaited, h⟩ := h
  obtain rfl : owed = [] := by simpa [hphase] using h.owes
  obtain rfl : awaited = [] := by simpa [hphase] using h.awaits
  have htake : (Book.ofTaken settled).take (.reference r) =
      { Book.ofTaken settled with
        waiters, dispatches := (Book.ofTaken settled).dispatches ++ admission.dispatches } := by
    simp [Book.take, htarget, ← h.waiters, henroll]
  refine ⟨settled ++ [Taking.reference r], [], [], ?_, ?_, ?_, ?_, h.returned, rfl, rfl, by simp,
    by simp, ?_⟩
  · simpa [hphase] using h.taken
  · rw [Book.ofTaken_append, htake]
  · rw [Book.ofTaken_append, htake, ← h.dispatches, h.slot r hphase]
    cases admission <;> simp [Admission.dispatches]
  · rw [Book.ofTaken_append, htake]; exact h.calls
  · intro _
    have := h.sober (by rw [hphase]; rfl)
    simpa [or_imp, forall_and, Reference.panics, htarget] using this

/-- A reference without a location is reported next. -/
theorem unresolvable {r : Reference} {cause : Chain} (h : Faithful g c)
    (hphase : c.phase = .resolving r) (htarget : r.target = .nowhere cause) :
    Faithful g { c with phase := .reporting r cause } := by
  obtain ⟨settled, owed, awaited, h⟩ := h
  obtain rfl : owed = [] := by simpa [hphase] using h.owes
  obtain rfl : awaited = [] := by simpa [hphase] using h.awaits
  have htake : (Book.ofTaken settled).take (.reference r) =
      { Book.ofTaken settled with
        calls := (Book.ofTaken settled).calls ++ [.unresolved r cause] } := by
    simp [Book.take, Reference.failure, htarget]
  refine ⟨settled ++ [Taking.reference r], [.unresolved r cause], [], ?_, ?_, ?_, ?_, h.returned,
    rfl, rfl, by simp, ?_, ?_⟩
  · simpa [hphase] using h.taken
  · rw [Book.ofTaken_append, htake]; exact h.waiters
  · rw [Book.ofTaken_append, htake]; exact h.dispatches
  · rw [Book.ofTaken_append, htake, ← h.calls, List.append_nil]
  · rintro r' cause' heq
    obtain ⟨rfl, rfl⟩ := Phase.reporting.inj heq
    exact htarget
  · intro _
    have := h.sober (by rw [hphase]; rfl)
    simpa [or_imp, forall_and, Reference.panics, htarget] using this

/-- A reference that panics when it is resolved ends the coordinator. -/
theorem resolvePanicked {r : Reference} {payload : Payload} {e : Ending} (h : Faithful g c)
    (hphase : c.phase = .resolving r) (htarget : r.target = .panic payload) :
    Faithful g { c with phase := .ended e } := by
  obtain ⟨settled, owed, awaited, h⟩ := h
  obtain rfl : owed = [] := by simpa [hphase] using h.owes
  obtain rfl : awaited = [] := by simpa [hphase] using h.awaits
  have htake : (Book.ofTaken settled).take (.reference r) = Book.ofTaken settled := by
    simp [Book.take, Reference.failure, htarget]
  refine ⟨settled ++ [Taking.reference r], [], [], ?_, ?_, ?_, ?_, h.returned, ⟨default, [], rfl⟩,
    Nat.zero_le 1, by simp, by simp, by simp⟩
  · simpa [hphase] using h.taken
  · rw [Book.ofTaken_append, htake]; exact h.waiters
  · rw [Book.ofTaken_append, htake]; exact h.dispatches
  · rw [Book.ofTaken_append, htake]; exact h.calls

/-- The coordinator goes on with the event that it is dealing with: of the calls that it owes
it makes `made`, and of those made so far `got` have returned. -/
theorem turned {settled : List Taking} {made got awaited : List Call} {phase : Phase}
    (owed awaited' : List Call) (h : Agrees g c settled (made ++ owed) awaited)
    (hover : c.phase.isOver = false) (hhand : c.phase.inHand = []) (hhand' : phase.inHand = [])
    (hreporting : ∀ r cause, phase ≠ .reporting r cause) (howes : phase.Owes owed)
    (hawaits : phase.Awaits awaited') (hreturned : awaited ++ made = got ++ awaited') :
    Faithful { g with calls := g.calls ++ made, returned := g.returned ++ got }
      { c with phase } := by
  refine ⟨settled, owed, awaited', ?_, h.waiters, h.dispatches, ?_, ?_, howes, hawaits, ?_,
    fun r cause heq => absurd heq (hreporting r cause), fun _ => h.sober hover⟩
  · rw [h.taken, hhand, hhand']
  · rw [List.append_assoc, h.calls]
  · rw [List.append_assoc, ← hreturned, ← List.append_assoc, h.returned]
  · intro r heq
    rw [show phase = .resolving r from heq] at hhand'
    simp at hhand'

/-- The hook for an unresolvable reference is called. -/
theorem calledUnresolved {r : Reference} {cause : Chain} (h : Faithful g c)
    (hphase : c.phase = .reporting r cause) (mode : HookMode) :
    Faithful { g with calls := g.calls ++ [.unresolved r cause], returned := g.returned ++ [] }
      { c with phase := .inUnresolved r mode } := by
  obtain ⟨settled, owed, awaited, h⟩ := h
  obtain rfl : owed = [.unresolved r cause] := by simpa [hphase] using h.owes
  obtain rfl : awaited = [] := by simpa [hphase] using h.awaits
  have hfailure : r.failure = [.unresolved r cause] := by
    rw [Reference.failure, h.target r cause hphase]
  exact turned [] r.failure h (by simp [hphase]) (by simp [hphase]) rfl
    (by simp) rfl rfl hfailure.symm

/-- The hook for an unresolvable reference has succeeded. -/
theorem unresolvedSucceeded {r : Reference} {mode : HookMode} (h : Faithful g c)
    (hphase : c.phase = .inUnresolved r mode) :
    Faithful { g with calls := g.calls ++ [], returned := g.returned ++ r.failure }
      { c with phase := .choosing } := by
  obtain ⟨settled, owed, awaited, h⟩ := h
  obtain rfl : owed = [] := by simpa [hphase] using h.owes
  obtain rfl : awaited = r.failure := by simpa [hphase] using h.awaits
  exact turned [] [] h (by simp [hphase]) (by simp [hphase]) rfl
    (by simp) rfl rfl rfl

/-- The coordinator has the lock for a fan-out. -/
theorem fanOutBegun {outcome : Delivery} {rest : List Reference} (h : Faithful g c)
    (hphase : c.phase = .fanningOut outcome rest) :
    Faithful { g with calls := g.calls ++ [], returned := g.returned ++ [] }
      { c with phase := .delivering outcome rest 0 } := by
  obtain ⟨settled, owed, awaited, h⟩ := h
  obtain rfl : owed = fanOut outcome rest := by simpa [hphase] using h.owes
  obtain rfl : awaited = [] := by simpa [hphase] using h.awaits
  exact turned (fanOut outcome rest) [] h (by simp [hphase])
    (by simp [hphase]) rfl (by simp) rfl rfl rfl

/-- A fan-out is over. -/
theorem fanOutEnded {outcome : Delivery} {delivered : Nat} (h : Faithful g c)
    (hphase : c.phase = .delivering outcome [] delivered) :
    Faithful { g with calls := g.calls ++ [], returned := g.returned ++ [] }
      { c with phase := .choosing } := by
  obtain ⟨settled, owed, awaited, h⟩ := h
  obtain rfl : owed = [] := by simpa [hphase, fanOut] using h.owes
  obtain rfl : awaited = [] := by simpa [hphase] using h.awaits
  exact turned [] [] h (by simp [hphase]) (by simp [hphase]) rfl
    (by simp) rfl rfl rfl

/-- The hook that takes a delivery is called. -/
theorem calledProcess {r : Reference} {outcome : Delivery} {rest : List Reference}
    {delivered : Nat} (h : Faithful g c)
    (hphase : c.phase = .delivering outcome (r :: rest) delivered) (mode : HookMode) :
    Faithful { g with calls := g.calls ++ [.process r outcome], returned := g.returned ++ [] }
      { c with phase := .inProcess r mode outcome rest delivered } := by
  obtain ⟨settled, owed, awaited, h⟩ := h
  obtain rfl : owed = [Call.process r outcome] ++ fanOut outcome rest := by
    simpa [hphase, fanOut] using h.owes
  obtain rfl : awaited = [] := by simpa [hphase] using h.awaits
  exact turned (fanOut outcome rest) [.process r outcome] h (by simp [hphase])
    (by simp [hphase]) rfl (by simp) rfl rfl rfl

/-- The hook that takes a delivery has succeeded. -/
theorem processSucceeded {r : Reference} {mode : HookMode} {outcome : Delivery}
    {rest : List Reference} {delivered : Nat} (h : Faithful g c)
    (hphase : c.phase = .inProcess r mode outcome rest delivered) :
    Faithful { g with calls := g.calls ++ [], returned := g.returned ++ [.process r outcome] }
      { c with phase := .delivering outcome rest (delivered + 1) } := by
  obtain ⟨settled, owed, awaited, h⟩ := h
  obtain rfl : owed = fanOut outcome rest := by simpa [hphase] using h.owes
  obtain rfl : awaited = [.process r outcome] := by simpa [hphase] using h.awaits
  exact turned (fanOut outcome rest) [] h (by simp [hphase])
    (by simp [hphase]) rfl (by simp) rfl rfl rfl

/-- A hook that waits is let go on with an answer. -/
theorem released {phase : Phase} (h : Faithful g c)
    (hphase : (∃ r mode mode', c.phase = .inUnresolved r mode ∧ phase = .inUnresolved r mode') ∨
      ∃ r mode mode' outcome rest delivered, c.phase = .inProcess r mode outcome rest delivered ∧
        phase = .inProcess r mode' outcome rest delivered) :
    Faithful g { c with phase } := by
  obtain ⟨settled, owed, awaited, h⟩ := h
  have htaken := h.taken
  have howes := h.owes
  have hawaits := h.awaits
  have hsober := h.sober
  rcases hphase with ⟨r, mode, mode', hphase, rfl⟩ |
    ⟨r, mode, mode', outcome, rest, delivered, hphase, rfl⟩
  · rw [hphase] at htaken howes hawaits hsober
    exact ⟨settled, owed, awaited, htaken, h.waiters, h.dispatches, h.calls, h.returned, howes,
      hawaits, by simp, by simp, hsober⟩
  · rw [hphase] at htaken howes hawaits hsober
    exact ⟨settled, owed, awaited, htaken, h.waiters, h.dispatches, h.calls, h.returned, howes,
      hawaits, by simp, by simp, hsober⟩

end Events

/-! ### Steps -/

/-- **Step.** Every step of the coordinator keeps ledger, book and coordinator together. -/
theorem step (h : Faithful g p.coordinator) (hstep : p.CoordinatorStep q) :
    Faithful (g.follow p q) q.coordinator := by
  cases hstep with
  | drained hphase hdrained =>
      exact h.finish (by simp [hphase]) (by simp [hphase]) (by constructor <;> rfl)
  | interrupted hphase hbusy hcancelled =>
      exact h.finish (by simp [hphase]) (by simp [hphase]) (by constructor <;> rfl)
  | completed hlooks hopen hitems hfound =>
      have := h.completed hlooks.phase hfound
      simpa [Ledger.follow, Counters.record, hitems, hlooks.phase, Phase.called, Phase.returned]
        using this
  | @stray c rest hlooks hopen hitems hlost =>
      rw [Pipeline.abort_eq]
      have := h.stray hlooks.phase hlost (d := { p.coordinator with phase := .ended (.failed
        (p.latch.trigger p.tokens (.pipeline "coordinator received unexpected completion"
          (.violation (.of c.location)))).returned) }) rfl rfl rfl
      simpa [Ledger.follow, Counters.record, Pipeline.finish, hitems, hlooks.phase, Phase.called,
        Phase.returned] using this
  | completionsEnded hlooks hopen hexhausted hempty =>
      have := h.congr (d := { p.coordinator with completionsDone := true }) rfl rfl rfl
      simpa [Ledger.follow, hlooks.phase, Phase.called, Phase.returned] using this
  | stranded hlooks hopen hexhausted hwaiting =>
      exact h.abort (by simp [hlooks.phase]) (by simp [hlooks.phase]) (by constructor <;> rfl)
  | dispatched hlooks hnone hslot hopen hroom =>
      have := h.dispatched hlooks.phase hslot
      simpa [Ledger.follow, Counters.record, hlooks.phase, Phase.called, Phase.returned] using this
  | undispatchable hlooks hnone hslot hclosed =>
      exact h.abort (by simp [hlooks.phase]) (by simp [hlooks.phase]) (by constructor <;> rfl)
  | @took r rest hlooks hnone hslot hopen hitems =>
      have := h.took hlooks.phase hslot (r := r)
      simpa [Ledger.follow, Counters.record, hitems, hlooks.phase, Phase.called, Phase.returned]
        using this
  | intakeEnded hlooks hnone hslot hopen hexhausted =>
      have := h.congr (d := { p.coordinator with intakeDone := true }) rfl rfl rfl
      simpa [Ledger.follow, hlooks.phase, Phase.called, Phase.returned] using this
  | admitted hphase hlock htarget henroll =>
      have := h.enrolled hphase htarget henroll
      simpa [Ledger.follow, Counters.record, hphase, Admission.dispatches, Phase.called,
        Phase.returned] using this
  | @coalesced r l n lock waiters hphase hlock htarget henroll =>
      have hslot : p.coordinator.slot = none := by
        obtain ⟨settled, owed, awaited, h⟩ := h
        exact h.slot r hphase
      have := h.enrolled hphase htarget henroll
      simpa [Ledger.follow, Counters.record, hphase, hslot, Admission.dispatches, Phase.called,
        Phase.returned] using this
  | unresolvable hphase hlock htarget =>
      have := h.unresolvable hphase htarget
      simpa [Ledger.follow, Counters.record, hphase, Phase.called, Phase.returned] using this
  | resolvePanicked hphase hlock htarget =>
      rw [Ledger.follow_finish (by constructor <;> rfl)]
      exact h.resolvePanicked hphase htarget
  | @calledUnresolved r cause lock hphase hlock =>
      have := h.calledUnresolved hphase (p.protocol.unresolvedMode r)
      simpa [Ledger.follow, hphase, Phase.called, Phase.returned] using this
  | unresolvedSucceeded hphase =>
      have := h.unresolvedSucceeded hphase
      simpa [Ledger.follow, hphase, Phase.called, Phase.returned] using this
  | unresolvedFailed hphase =>
      exact h.abort (by simp [hphase]) (by simp [hphase]) (by constructor <;> rfl)
  | unresolvedPanicked hphase =>
      exact h.finish (by simp [hphase]) (by simp [hphase]) (by constructor <;> rfl)
  | fanOutBegun hphase hlock =>
      have := h.fanOutBegun hphase
      simpa [Ledger.follow, hphase, Phase.called, Phase.returned] using this
  | fanOutEnded hphase =>
      have := h.fanOutEnded hphase
      simpa [Ledger.follow, Counters.record, hphase, Phase.called, Phase.returned] using this
  | @calledProcess r outcome rest delivered hphase =>
      have := h.calledProcess hphase r.process
      simpa [Ledger.follow, hphase, Phase.called, Phase.returned] using this
  | processSucceeded hphase =>
      have := h.processSucceeded hphase
      simpa [Ledger.follow, hphase, Phase.called, Phase.returned] using this
  | processFailed hphase =>
      exact h.abort (by simp [hphase]) (by simp [hphase]) (by constructor <;> rfl)
  | processPanicked hphase =>
      exact h.finish (by simp [hphase]) (by simp [hphase]) (by constructor <;> rfl)
  | unresolvedDropped hphase hcancelled =>
      exact h.finish (by simp [hphase]) (by simp [hphase]) (by constructor <;> rfl)
  | processDropped hphase hcancelled =>
      exact h.finish (by simp [hphase]) (by simp [hphase]) (by constructor <;> rfl)

end Faithful

/-- An answer to a hook keeps ledger and coordinator together. -/
theorem Faithful.releaseHook {g : Ledger} {p : Pipeline} (h : Faithful g p.coordinator)
    (mode : HookMode) : Faithful g (p.releaseHook mode).coordinator := by
  rw [Pipeline.releaseHook]
  split
  · rename_i r hphase
    exact h.released (.inl ⟨r, _, mode, hphase, rfl⟩)
  · rename_i r outcome rest delivered hphase
    exact h.released (.inr ⟨r, _, mode, outcome, rest, delivered, hphase, rfl⟩)
  · exact h

/-! ### What a faithful ledger says -/

namespace Faithful

variable {g : Ledger} {c : Coordinator}

/-- Between two events the coordinator is level with the book. -/
theorem level (h : Faithful g c) (hphase : c.phase = .choosing) :
    c.waiters = (Book.ofTaken g.taken).waiters ∧
      g.dispatched ++ c.slot.toList = (Book.ofTaken g.taken).dispatches ∧
      g.calls = (Book.ofTaken g.taken).calls := by
  obtain ⟨settled, owed, awaited, h⟩ := h
  obtain ⟨rfl, rfl, rfl⟩ := h.choosing hphase
  exact ⟨h.waiters, h.dispatches, by simpa using h.calls⟩

/-- Between two events every hook has returned, and no reference has panicked. -/
theorem calm (h : Faithful g c) (hphase : c.phase = .choosing) :
    g.returned = g.calls ∧ ∀ r ∈ g.references, r.panics = false := by
  obtain ⟨settled, owed, awaited, h⟩ := h
  obtain ⟨rfl, rfl, rfl⟩ := h.choosing hphase
  exact ⟨by simpa using h.returned, h.sober (by rw [hphase]; rfl)⟩

/-- A coordinator that has ended is level with the book, but for the rest of one fan-out. -/
theorem level_of_ended (h : Faithful g c) {e : Ending} (hphase : c.phase = .ended e) :
    c.waiters = (Book.ofTaken g.taken).waiters ∧
      g.dispatched ++ c.slot.toList = (Book.ofTaken g.taken).dispatches ∧
      ∃ outcome rest, g.calls ++ fanOut outcome rest = (Book.ofTaken g.taken).calls := by
  obtain ⟨settled, owed, awaited, h⟩ := h
  have htaken : g.taken = settled := by simpa [hphase] using h.taken
  have howes := h.owes
  rw [hphase] at howes
  obtain ⟨outcome, rest, rfl⟩ := howes
  exact htaken ▸ ⟨h.waiters, h.dispatches, outcome, rest, h.calls⟩

/-- The coordinator is never ahead of the book. -/
theorem behind (h : Faithful g c) :
    g.calls <+: (Book.ofTaken g.taken).calls ∧
      g.dispatched ++ c.slot.toList <+: (Book.ofTaken g.taken).dispatches := by
  obtain ⟨settled, owed, awaited, h⟩ := h
  have hcalls : g.calls <+: (Book.ofTaken settled).calls := h.calls ▸ List.prefix_append _ _
  rw [h.taken, h.dispatches]
  cases hphase : c.phase with
  | resolving r =>
      -- the book has dealt with the reference in hand, the coordinator has not
      obtain ⟨hgrows, hgrows'⟩ := (Book.takes_take (Book.ofTaken settled) (.reference r)).grows
      rw [Phase.inHand, Book.ofTaken_append]
      exact ⟨hcalls.trans hgrows, hgrows'⟩
  | _ =>
      simp only [Phase.inHand, List.append_nil]
      exact ⟨hcalls, List.prefix_rfl⟩

/-- While a reference is resolved the slot is free. -/
theorem slot_eq_none (h : Faithful g c) {r : Reference} (hphase : c.phase = .resolving r) :
    c.slot = none := by
  obtain ⟨settled, owed, awaited, h⟩ := h
  exact h.slot r hphase

/-- No two locations in flight are the same. -/
theorem distinct (h : Faithful g c) : c.waiters.Distinct := by
  obtain ⟨settled, owed, awaited, h⟩ := h
  exact h.waiters ▸ (Book.filed_ofTaken settled).distinct

/-- A location in flight is the location of a reference taken up. -/
theorem exists_of_mem_locations (h : Faithful g c) {l : Location} (hl : l ∈ c.waiters.locations) :
    ∃ r ∈ g.references, r.target = .location l := by
  obtain ⟨settled, owed, awaited, h⟩ := h
  rw [h.waiters] at hl
  obtain ⟨r, hr, htarget⟩ := Book.exists_of_mem_locations hl
  refine ⟨r, ?_, htarget⟩
  rw [Ledger.references, h.taken, references_append]
  exact List.mem_append_left _ hr

end Faithful

end SharedFetch
