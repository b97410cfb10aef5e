/-!
# The protocol lock

One fair read/write lock guards the protocol. Whoever wants it takes a turn in line and goes
on when the head of the line and the lock allow it, so a reader behind a waiting writer waits
although the lock is only read. Reading takes no time: a reader is in and out in one step. A
writer keeps the lock until it gives it back. Besides, an outsider may hold a guard of its
own for any time, which it gets only if it need not wait.
-/

namespace SharedFetch

/-- How the lock is wanted or held. -/
inductive Access where
  | read
  | write
  deriving DecidableEq, Inhabited, Repr

/-- The lock: the guard of the outsider, whether someone of the pipeline writes, and the line
of those who wait. -/
structure Lock (π : Type) where
  outsider : Option Access := none
  writing : Bool := false
  line : List (π × Access) := []
  deriving Inhabited, Repr

namespace Lock

variable {π : Type}

/-- Whether the holders of the lock allow one more of the given kind. -/
def allows (l : Lock π) : Access → Bool
  | .read => !l.writing && l.outsider != some .write
  | .write => !l.writing && l.outsider == none

/-- Takes a turn in line. -/
def queueUp (l : Lock π) (p : π) (access : Access) : Lock π :=
  { l with line := l.line ++ [(p, access)] }

/-- Lets the head of the line in, if it is `p` and the lock allows it. A reader is out again
at once. -/
def grant? [DecidableEq π] (l : Lock π) (p : π) : Option (Lock π) :=
  match l.line with
  | [] => none
  | (q, access) :: rest =>
    if q = p ∧ l.allows access then
      some { l with line := rest, writing := l.writing || access == .write }
    else none

/-- The writer gives the lock back. -/
def release (l : Lock π) : Lock π :=
  { l with writing := false }

/-- Whether the outsider gets a guard at once: a writer only past an empty line, a reader only
if no writer is in line. -/
def isFree (l : Lock π) : Access → Bool
  | .read => l.allows .read && l.line.all (fun e => e.2 == .read)
  | .write => l.allows .write && l.line.isEmpty

/-- The outsider asks for a guard; a new guard takes the place of the old one. -/
def guard (l : Lock π) (access : Access) : Bool × Lock π :=
  if l.isFree access then (true, { l with outsider := some access }) else (false, l)

/-- The outsider drops its guard; says whether it had one. -/
def unguard (l : Lock π) : Bool × Lock π :=
  (l.outsider.isSome, { l with outsider := none })

end Lock

end SharedFetch
