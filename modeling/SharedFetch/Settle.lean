/-!
# Settling

A machine with steps of its own *settles* by taking them, one after the other, until none is
possible. What went last goes on as long as it can; which of several possible steps comes
after it is decided by a list of candidates. The number of steps is bounded by a budget, which
the machines of this library compute from the work that is left in their state.
-/

namespace SharedFetch

variable {σ ε : Type}

/-- The first of some events that is possible, with the state after it. -/
def firstStep? (advance : σ → ε → Option σ) (s : σ) (events : List ε) : Option (ε × σ) :=
  events.findSome? fun e => (advance s e).map fun next => (e, next)

/-- Takes steps until none is possible or the budget is spent, where `last` is the event that
went last. -/
def settleAfter (advance : σ → ε → Option σ) (candidates : σ → List ε) :
    Nat → Option ε → σ → σ
  | 0, _, s => s
  | budget + 1, last, s =>
    match (firstStep? advance s last.toList).or (firstStep? advance s (candidates s)) with
    | some (e, next) => settleAfter advance candidates budget (some e) next
    | none => s

/-- Takes steps until none is possible or the budget is spent. -/
def settle (advance : σ → ε → Option σ) (candidates : σ → List ε) (budget : Nat) (s : σ) : σ :=
  settleAfter advance candidates budget none s

/-- A state that no step of the machine leaves. -/
def Settled (advance : σ → ε → Option σ) (s : σ) : Prop :=
  ∀ e, advance s e = none

/-- A state from which another is reached by steps in any order. -/
inductive Reaches (advance : σ → ε → Option σ) : σ → σ → Prop where
  | refl (s : σ) : Reaches advance s s
  | step {s t u : σ} (e : ε) : advance s e = some t → Reaches advance t u → Reaches advance s u

/-- A first step is a step of the machine. -/
theorem advance_of_firstStep? {advance : σ → ε → Option σ} {s next : σ} {events : List ε} {e : ε}
    (h : firstStep? advance s events = some (e, next)) : advance s e = some next := by
  obtain ⟨e', -, he'⟩ := List.exists_of_findSome?_eq_some h
  obtain ⟨next', hnext, heq⟩ := Option.map_eq_some_iff.1 he'
  obtain ⟨rfl, rfl⟩ := Prod.mk.inj heq
  exact hnext

theorem reaches_settleAfter (advance : σ → ε → Option σ) (candidates : σ → List ε)
    (budget : Nat) (last : Option ε) (s : σ) :
    Reaches advance s (settleAfter advance candidates budget last s) := by
  induction budget generalizing last s with
  | zero => exact .refl s
  | succ budget ih =>
    unfold settleAfter
    split
    · rename_i e next h
      have hstep : advance s e = some next := by
        rcases Option.or_eq_some_iff.1 h with h | ⟨-, h⟩
        · exact advance_of_firstStep? h
        · exact advance_of_firstStep? h
      exact .step e hstep (ih (some e) next)
    · exact .refl s

/-- Settling only takes steps of the machine. -/
theorem reaches_settle (advance : σ → ε → Option σ) (candidates : σ → List ε) (budget : Nat)
    (s : σ) : Reaches advance s (settle advance candidates budget s) :=
  reaches_settleAfter advance candidates budget none s

end SharedFetch
