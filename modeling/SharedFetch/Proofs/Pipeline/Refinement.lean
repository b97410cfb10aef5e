import SharedFetch.Proofs.Pipeline.Change

/-!
# The coordinator keeps the book

A coordinator may find itself in any surroundings. References, completions and free places in
the dispatch queue come and go at any time, the run may be cancelled, the lock may be taken,
hooks may be held and answered: between two steps of the coordinator everything around it may
change. What it has taken up, in order, still decides what it does. At the end of each event
its waiters are those of the book, the locations that it has dispatched with the one in its
slot are the dispatches of the book, and the hooks that it has called are those of the book.

## Convention

A *shift* is a coordinator at work with its ledger. Each *turn* of a shift is a step of the
coordinator, the answer to a hook that it waits for, or a change of everything around it. A
turn that cannot be taken changes nothing.

## Main results

* `coordinator_refines_book`: **the coordinator refines the book**, in all surroundings.
-/

namespace SharedFetch

/-- What may happen to a coordinator. -/
inductive Turn where
  /-- It goes on. -/
  | advance
  /-- It drops the hook that it waits for. -/
  | dropHook
  /-- The hook that it waits for is let go on. -/
  | answer (mode : HookMode)
  /-- Everything around it changes. -/
  | surround (world : Pipeline)

/-- A coordinator at work, with its ledger. -/
structure Shift where
  pipeline : Pipeline
  ledger : Ledger

namespace Shift

/-- A coordinator that begins, in the given surroundings. -/
def start (world : Pipeline) : Shift :=
  ⟨{ world with coordinator := {} }, {}⟩

/-- The coordinator takes a step, if it can, and its ledger is written. -/
def follow (s : Shift) : Option Pipeline → Shift
  | some q => ⟨q, s.ledger.follow s.pipeline q⟩
  | none => s

/-- Takes one turn. -/
def turn (s : Shift) : Turn → Shift
  | .advance => s.follow s.pipeline.coordinate?
  | .dropHook => s.follow s.pipeline.dropHook?
  | .answer mode => { s with pipeline := s.pipeline.releaseHook mode }
  | .surround world =>
    { s with pipeline := { world with coordinator := s.pipeline.coordinator } }

/-- Takes turns, one after the other. -/
def run (s : Shift) (turns : List Turn) : Shift :=
  turns.foldl turn s

/-- The coordinator of a shift. -/
def coordinator (s : Shift) : Coordinator :=
  s.pipeline.coordinator

/-- The book of what was taken up in a shift. -/
def book (s : Shift) : Book :=
  Book.ofTaken s.ledger.taken

/-- From one state of a shift to another the hooks `calls` were called, and that is what the entries
`new` of the journal show. A plain protocol does not show the reports. -/
structure Shows (s s' : Shift) (new : List Entry) (calls : List Call) : Prop where
  journal : s'.pipeline.journal = new ++ s.pipeline.journal
  ledger : s'.ledger.calls = s.ledger.calls ++ calls
  delivered : deliveriesIn new.reverse = deliveries calls
  reported : s.pipeline.protocol.plain = false → unresolvedIn new.reverse = unresolved calls

/-- If nothing happens, nothing is shown. -/
theorem Shows.refl (s : Shift) : Shows s s [] [] :=
  ⟨rfl, (List.append_nil _).symm, rfl, fun _ => rfl⟩

/-- A step of the coordinator shows in the journal. -/
theorem exists_shows_follow {s : Shift} {next : Option Pipeline}
    (hnext : ∀ q, next = some q → s.pipeline.CoordinatorStep q) :
    ∃ new calls, Shows s (s.follow next) new calls := by
  cases next with
  | none => exact ⟨[], [], .refl s⟩
  | some q =>
      obtain ⟨new, hwrites⟩ := (hnext q rfl).exists_writes
      exact ⟨new, _, hwrites.journal, rfl, hwrites.delivered, hwrites.unresolved⟩

/-- A turn of the coordinator itself shows in the journal. -/
theorem exists_shows_turn (s : Shift) {t : Turn} (ht : ∀ world, t ≠ .surround world) :
    ∃ new calls, Shows s (s.turn t) new calls := by
  cases t with
  | advance => exact exists_shows_follow fun _ => Pipeline.coordinatorStep_of_coordinate?
  | dropHook => exact exists_shows_follow fun _ => Pipeline.coordinatorStep_of_dropHook?
  | answer mode =>
      refine ⟨[], [], ?_, (List.append_nil _).symm, rfl, fun _ => rfl⟩
      rw [turn, Pipeline.releaseHook_eq]
      rfl
  | surround world => exact absurd rfl (ht world)

/-- Every turn keeps ledger and coordinator together. -/
theorem faithful_turn {s : Shift} (h : Faithful s.ledger s.coordinator) (t : Turn) :
    Faithful (s.turn t).ledger (s.turn t).coordinator := by
  cases t with
  | advance =>
      rw [turn]
      rcases hstep : s.pipeline.coordinate? with _ | q
      · exact h
      · exact h.step (Pipeline.coordinatorStep_of_coordinate? hstep)
  | dropHook =>
      rw [turn]
      rcases hstep : s.pipeline.dropHook? with _ | q
      · exact h
      · exact h.step (Pipeline.coordinatorStep_of_dropHook? hstep)
  | answer mode => exact h.releaseHook mode
  | surround world => exact h

/-- In every shift, ledger and coordinator belong together. -/
theorem faithful_run (world : Pipeline) (turns : List Turn) :
    Faithful ((start world).run turns).ledger ((start world).run turns).coordinator := by
  induction turns using List.reverseRecOn with
  | nil => exact faithful_start
  | append_singleton turns t ih =>
      rw [run, List.foldl_append]
      exact faithful_turn ih t

end Shift

/-- **The coordinator refines the book.** In any surroundings, at the end of each event, the
waiters are those of the book, the locations dispatched and then the one in the slot are the
dispatches of the book, and the hooks called are the calls of the book. That also holds once
the coordinator has ended, except that the rest of the last fan-out may not have been called.
At no time has it called a hook or dispatched a location that the book does not have in that
place, and the slot is free whenever a reference is about to fill it. What it calls in any further
turn is what that turn writes into the journal; a change of its surroundings calls nothing. So two
coordinators that have taken up the same have done the same, whatever their surroundings. -/
theorem coordinator_refines_book (world : Pipeline) (turns : List Turn) :
    let s := (Shift.start world).run turns
    (s.coordinator.phase = .choosing →
      s.coordinator.waiters = s.book.waiters ∧
        s.ledger.dispatched ++ s.coordinator.slot.toList = s.book.dispatches ∧
        s.ledger.calls = s.book.calls) ∧
    (∀ ending, s.coordinator.phase = .ended ending →
      s.coordinator.waiters = s.book.waiters ∧
        s.ledger.dispatched ++ s.coordinator.slot.toList = s.book.dispatches ∧
        ∃ outcome rest, s.ledger.calls ++ fanOut outcome rest = s.book.calls) ∧
    s.ledger.calls <+: s.book.calls ∧
    s.ledger.dispatched ++ s.coordinator.slot.toList <+: s.book.dispatches ∧
    (∀ r, s.coordinator.phase = .resolving r → s.coordinator.slot = none) ∧
    (∀ t, (∀ world', t ≠ .surround world') → ∃ new calls, s.Shows (s.turn t) new calls) ∧
    (∀ world', (s.turn (.surround world')).ledger = s.ledger) ∧
    ∀ (world' : Pipeline) (turns' : List Turn),
      let s' := (Shift.start world').run turns'
      s'.ledger.taken = s.ledger.taken → s.coordinator.phase = .choosing →
        s'.coordinator.phase = .choosing →
        s'.coordinator.waiters = s.coordinator.waiters ∧
          s'.ledger.dispatched ++ s'.coordinator.slot.toList =
            s.ledger.dispatched ++ s.coordinator.slot.toList ∧
          s'.ledger.calls = s.ledger.calls := by
  intro s
  have h : Faithful s.ledger s.coordinator := Shift.faithful_run world turns
  refine ⟨h.level, fun ending hphase => h.level_of_ended hphase, h.behind.1, h.behind.2,
    fun r hphase => h.slot_eq_none hphase, fun t => s.exists_shows_turn, fun _ => rfl, ?_⟩
  intro world' turns' s' htaken hphase hphase'
  have h' : Faithful s'.ledger s'.coordinator := Shift.faithful_run world' turns'
  obtain ⟨hwaiters, hdispatches, hcalls⟩ := h.level hphase
  obtain ⟨hwaiters', hdispatches', hcalls'⟩ := h'.level hphase'
  rw [htaken] at hwaiters' hdispatches' hcalls'
  exact ⟨hwaiters'.trans hwaiters.symm, hdispatches'.trans hdispatches.symm,
    hcalls'.trans hcalls.symm⟩

/-- The surroundings of a coordinator whose dispatch queue has so many places. -/
def Shift.world (places : Nat) (references : List Reference) (dispatched : List Location)
    (completions : List Completion) : Pipeline where
  protocol := {}
  tokens := {}
  latch := { root := 0, run := 0 }
  intake := { queue := { capacity := 2, items := references } }
  dispatch := { capacity := places, items := dispatched }
  completions := { capacity := 1, items := completions }

/-- References to the locations 1 and 2. -/
def Shift.oneTwo : List Reference :=
  [1, 2].map fun n => { id := n, target := .location (.number n) }

/-- A completion of the location 1. -/
def Shift.one : Completion :=
  ⟨.number 1, .content "one"⟩

/-- A coordinator that takes up references to the locations 1 and 2 and then the completion of
1, which stays in the dispatch queue all the time. -/
def Shift.backlog (places : Nat) : Shift :=
  (start (world places oneTwo [] [])).run
    (List.replicate 6 Turn.advance ++ [Turn.surround (world places [] [.number 1] [one])] ++
      List.replicate 7 Turn.advance)

/-- With one place, 2 still stands in the slot when 1 is delivered; with two places, it does
not. Apart from that the two coordinators have done the same. -/
theorem coordinator_refines_book_backlog :
    (Shift.backlog 1).ledger.dispatched = [.number 1] ∧
    (Shift.backlog 1).coordinator.slot = some (.number 2) ∧
    (Shift.backlog 2).ledger.dispatched = [.number 1, .number 2] ∧
    (Shift.backlog 2).coordinator.slot = none ∧
    (Shift.backlog 2).ledger.calls.length = 1 ∧
    (Shift.backlog 2).coordinator.waiters = (Shift.backlog 1).coordinator.waiters ∧
    (Shift.backlog 2).ledger.calls = (Shift.backlog 1).ledger.calls := by
  have hone : (Shift.backlog 1).ledger.taken =
      Shift.oneTwo.map Taking.reference ++ [Taking.completion Shift.one] := by rfl
  have htwo : (Shift.backlog 2).ledger.taken =
      Shift.oneTwo.map Taking.reference ++ [Taking.completion Shift.one] := by rfl
  obtain ⟨hwaiters, -, hcalls⟩ := (coordinator_refines_book _ _).2.2.2.2.2.2.2 _ _
    (htwo.trans hone.symm) (by rfl) (by rfl)
  exact ⟨by rfl, by rfl, by rfl, by rfl, by rfl, hwaiters, hcalls⟩

end SharedFetch
