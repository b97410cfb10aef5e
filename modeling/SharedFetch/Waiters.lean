/-!
# Waiters

The waiters are the references that wait for a location in flight, in order of arrival. The
first reference for a location opens an entry, and the location has to be dispatched; later
ones join the entry. Completing a location takes its entry away and hands its references
back. Locations are compared by a test that need not be reflexive: a location that differs
from itself opens a new entry each time, and no completion finds it.
-/

namespace SharedFetch

/-- What happens to a reference that is admitted. -/
inductive Admission (L : Type) where
  /-- It is the first for its location, which is to be dispatched. -/
  | dispatch (location : L)
  /-- It joins an entry, which now has so many references. -/
  | coalesced (waiting : Nat)
  deriving DecidableEq, Inhabited, Repr

/-- The locations in flight, each with the references waiting for it. -/
structure Waiters (L R : Type) where
  entries : List (L × List R) := []
  deriving Inhabited, Repr

namespace Waiters

variable {L R : Type}

/-- The number of locations in flight. -/
def size (w : Waiters L R) : Nat :=
  w.entries.length

def isEmpty (w : Waiters L R) : Bool :=
  w.entries.isEmpty

/-- The references that wait, entry by entry. -/
def references (w : Waiters L R) : List R :=
  w.entries.flatMap Prod.snd

/-- The number of references that wait, over all locations. -/
def waiting (w : Waiters L R) : Nat :=
  w.references.length

/-- The locations in flight. -/
def locations (w : Waiters L R) : List L :=
  w.entries.map Prod.fst

variable [BEq L]

/-- Adds a reference to the entry of a location, if there is one, and counts the references
that the entry then has. -/
def join (l : L) (r : R) : List (L × List R) → Option (Nat × List (L × List R))
  | [] => none
  | (k, rs) :: rest =>
    if k == l then some (rs.length + 1, (k, rs ++ [r]) :: rest)
    else (join l r rest).map fun (n, entries) => (n, (k, rs) :: entries)

/-- Takes the entry of a location away, if there is one. -/
def remove (l : L) : List (L × List R) → Option (List R × List (L × List R))
  | [] => none
  | (k, rs) :: rest =>
    if k == l then some (rs, rest)
    else (remove l rest).map fun (found, entries) => (found, (k, rs) :: entries)

/-- Enrolls a reference for a location. -/
def enroll (w : Waiters L R) (l : L) (r : R) : Admission L × Waiters L R :=
  match join l r w.entries with
  | some (n, entries) => (.coalesced n, ⟨entries⟩)
  | none => (.dispatch l, ⟨w.entries ++ [(l, [r])]⟩)

/-- Completes a location: the references that waited for it, and what remains. -/
def complete? (w : Waiters L R) (l : L) : Option (List R × Waiters L R) :=
  (remove l w.entries).map fun (rs, entries) => (rs, ⟨entries⟩)

end Waiters

end SharedFetch
