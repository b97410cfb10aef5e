import SharedFetch.Proofs.Host.Chronicle

/-!
# Observers of a run

An observer takes notes of a run, as a chronicle keeps its record: it begins anew with each run,
and afterwards compares the pipeline before and after each move. Nothing in the host looks at the
notes, and whoever forgets them is left with the chronicle (`Observed.Reachable.chronicle`).

What holds of the notes, the record and the pipeline at the beginning, and is kept by every change
of the pipeline, holds along every course of moves.

## Main results

* `Observed.Reachable.invariant`, `Chronicle.Reachable.invariant`: what every change keeps holds
  along every course of moves.
-/

namespace SharedFetch

open Pipeline

variable {α : Type}

/-- Somebody who takes notes of a run. -/
structure Observer (α : Type) where
  /-- The notes at the beginning of a run. -/
  blank : Pipeline → α
  /-- The notes after a change from one pipeline to another, within a run. -/
  note : α → Pipeline → Pipeline → α

/-- The notes after a change from one pipeline to another. -/
def Observer.follow (w : Observer α) (notes : α) (p q : Pipeline) : α :=
  if q.intake.era = p.intake.era then w.note notes p q else w.blank q

theorem Observer.follow_of_change {w : Observer α} {notes : α} {p q : Pipeline}
    (h : p.Change q) : w.follow notes p q = w.note notes p q :=
  if_pos h.era

theorem Observer.follow_of_launched {w : Observer α} {notes : α} {p q : Pipeline}
    (h : p.Launched q) : w.follow notes p q = w.blank q :=
  if_neg (by rw [h.era]; exact Nat.succ_ne_self _)

/-- A chronicle, and the notes of an observer. -/
structure Observed (α : Type) where
  chronicle : Chronicle
  notes : α

/-- A pipeline of a host that has never run. -/
def Pipeline.Unused (p : Pipeline) : Prop :=
  ∃ kind settings protocol tokens,
    p = { (Host.make kind settings protocol).pipeline with tokens }

namespace Observed

open Scenario (HostBench)

/-- A host that has never run. -/
def start (w : Observer α) (kind : HostKind) (settings : Settings) (protocol : Protocol)
    (ownToken : Bool) : Observed α where
  chronicle := .start kind settings protocol ownToken
  notes := w.blank (Chronicle.start kind settings protocol ownToken).pipeline

/-- Chronicle and notes after a move. -/
def move (w : Observer α) (o : Observed α) (m : HostBench.Move) : Observed α where
  chronicle := o.chronicle.move m
  notes := w.follow o.notes o.chronicle.pipeline (o.chronicle.move m).pipeline

/-- Chronicle and notes after a list of moves. -/
def run (w : Observer α) (o : Observed α) (moves : List HostBench.Move) : Observed α :=
  moves.foldl (move w) o

/-- A chronicle with notes that some host can come to by some course of moves. -/
def Reachable (w : Observer α) (o : Observed α) : Prop :=
  ∃ kind settings protocol ownToken moves,
    o = (start w kind settings protocol ownToken).run w moves

theorem chronicle_run (w : Observer α) (o : Observed α) (moves : List HostBench.Move) :
    (o.run w moves).chronicle = o.chronicle.run moves := by
  induction moves generalizing o with
  | nil => rfl
  | cons m moves ih => exact ih (o.move w m)

/-- Without the notes a chronicle is left. -/
theorem Reachable.chronicle {w : Observer α} {o : Observed α} (h : o.Reachable w) :
    o.chronicle.Reachable := by
  obtain ⟨kind, settings, protocol, ownToken, moves, rfl⟩ := h
  exact ⟨kind, settings, protocol, ownToken, moves, chronicle_run w _ moves⟩

/-- **What holds at the beginning of each run and is kept by every change holds along every course
of moves.** -/
theorem Reachable.invariant {w : Observer α} {J : α → Record → Pipeline → Prop}
    (hstart : ∀ p : Pipeline, p.Unused → J (w.blank p) {} p)
    (hlaunch : ∀ notes r (p q : Pipeline), p.Launched q → J notes r p →
      J (w.blank q) { since := q.journal.length } q)
    (hchange : ∀ notes r p q, r.Holds p → p.Change q → J notes r p →
      J (w.note notes p q) (r.follow p q) q)
    {o : Observed α} (h : o.Reachable w) : J o.notes o.chronicle.record o.chronicle.pipeline := by
  obtain ⟨kind, settings, protocol, ownToken, moves, rfl⟩ := h
  have hrun : ∀ (moves : List HostBench.Move) (o : Observed α), o.chronicle.Sound →
      J o.notes o.chronicle.record o.chronicle.pipeline →
      J (o.run w moves).notes (o.run w moves).chronicle.record
        (o.run w moves).chronicle.pipeline := by
    intro moves
    induction moves with
    | nil => exact fun o _ ho => ho
    | cons m moves ih =>
        intro o hsound ho
        refine ih (o.move w m) (hsound.move m) ?_
        rcases hsound.change m with hchanged | hlaunched
        · have := hchange _ _ _ _ hsound.holds hchanged ho
          rwa [← Observer.follow_of_change hchanged] at this
        · have := hlaunch _ _ _ _ hlaunched ho
          rwa [← Observer.follow_of_launched hlaunched,
            ← Record.follow_of_launched hlaunched] at this
  refine hrun moves _ (Chronicle.sound_start kind settings protocol ownToken) (hstart _ ?_)
  obtain ⟨tokens, hpipeline⟩ := Chronicle.exists_pipeline_start kind settings protocol ownToken
  exact ⟨kind, settings, protocol, tokens, hpipeline⟩

end Observed

/-- Somebody who notes nothing. -/
def Observer.idle : Observer Unit where
  blank _ := ()
  note _ _ _ := ()

/-- The same without notes. -/
theorem Chronicle.Reachable.invariant {J : Record → Pipeline → Prop}
    (hstart : ∀ p : Pipeline, p.Unused → J {} p)
    (hlaunch : ∀ r (p q : Pipeline), p.Launched q → J r p → J { since := q.journal.length } q)
    (hchange : ∀ r p q, r.Holds p → p.Change q → J r p → J (r.follow p q) q)
    {c : Chronicle} (h : c.Reachable) : J c.record c.pipeline := by
  obtain ⟨kind, settings, protocol, ownToken, moves, rfl⟩ := h
  have := Observed.Reachable.invariant (w := Observer.idle) (J := fun _ => J) hstart
    (fun _ => hlaunch) (fun _ => hchange) ⟨kind, settings, protocol, ownToken, moves, rfl⟩
  rwa [Observed.chronicle_run] at this

end SharedFetch
