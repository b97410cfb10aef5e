/-!
# Activity

How many fetches are in progress, and how many there were at most. A fetch enters when a
worker takes its location and leaves when its outcome is ready.
-/

namespace SharedFetch

/-- The number of fetches in progress and its highest value so far. -/
structure Activity where
  active : Nat := 0
  peak : Nat := 0
  deriving DecidableEq, Inhabited, Repr

namespace Activity

def enter (a : Activity) : Activity :=
  ⟨a.active + 1, max a.peak (a.active + 1)⟩

def leave (a : Activity) : Activity :=
  { a with active := a.active - 1 }

end Activity

/-- Activity together with the guards that keep fetches counted. -/
structure Guards where
  activity : Activity := {}
  live : List Nat := []
  deriving DecidableEq, Inhabited, Repr

namespace Guards

/-- Takes a new guard under the given name. -/
def enter (g : Guards) (name : Nat) : Guards :=
  ⟨g.activity.enter, g.live ++ [name]⟩

/-- Drops a guard; says whether it was alive. -/
def drop (g : Guards) (name : Nat) : Bool × Guards :=
  if g.live.contains name then (true, ⟨g.activity.leave, g.live.erase name⟩) else (false, g)

end Guards

end SharedFetch
