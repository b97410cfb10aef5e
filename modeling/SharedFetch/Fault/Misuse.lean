/-!
# Misuse

What is asked for cannot be, and whoever asks does not get an error to handle but is ended on
the spot. Only the text says why.
-/

namespace SharedFetch

/-- Why something that was asked for cannot be. -/
inductive Misuse where
  /-- An interval has more seconds than 64 bits hold. -/
  | longInterval
  /-- A queue has no places. -/
  | noPlaces
  /-- A queue has more places than can be counted. -/
  | tooManyPlaces
  /-- No references share a location, so that a reference has none. -/
  | noLocation
  deriving DecidableEq, Inhabited, Repr

namespace Misuse

/-- The largest number of places of a queue. -/
def placesLimit : Nat := (UInt64.size - 1) / 8

/-- What is said of a misuse. -/
def message : Misuse → String
  | .longInterval => "overflow in Duration::new"
  | .noPlaces => "mpsc bounded channel requires buffer > 0"
  | .tooManyPlaces =>
      s!"a semaphore may not have more than MAX_PERMITS permits ({placesLimit})"
  | .noLocation => "attempt to divide by zero"

end Misuse

end SharedFetch
