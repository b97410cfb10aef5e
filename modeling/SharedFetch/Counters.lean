/-!
# Counters

What the coordinator and the workers have done so far, as counters of 64 bits that wrap, and
two gauges: the locations in flight, and the size of the worker pool.
-/

namespace SharedFetch

/-- Counters and gauges of a pipeline. -/
structure Counters where
  references : UInt64 := 0
  resolutionFailures : UInt64 := 0
  coalesced : UInt64 := 0
  dispatched : UInt64 := 0
  completions : UInt64 := 0
  fetchFailures : UInt64 := 0
  cancelledFetches : UInt64 := 0
  deliveries : UInt64 := 0
  inFlight : UInt64 := 0
  poolSize : UInt64 := 0
  deriving DecidableEq, Inhabited, Repr

namespace Counters

/-- What can be recorded: seven events that count one, deliveries that count several, and two
readings. -/
inductive Change where
  | reference
  | resolutionFailure
  | coalesced
  | dispatch
  | completion
  | fetchFailure
  | cancelledFetch
  | deliveries (n : UInt64)
  | inFlight (n : UInt64)
  | poolSize (n : UInt64)
  deriving DecidableEq, Inhabited, Repr

/-- Records one change. -/
def record (c : Counters) : Change → Counters
  | .reference => { c with references := c.references + 1 }
  | .resolutionFailure => { c with resolutionFailures := c.resolutionFailures + 1 }
  | .coalesced => { c with coalesced := c.coalesced + 1 }
  | .dispatch => { c with dispatched := c.dispatched + 1 }
  | .completion => { c with completions := c.completions + 1 }
  | .fetchFailure => { c with fetchFailures := c.fetchFailures + 1 }
  | .cancelledFetch => { c with cancelledFetches := c.cancelledFetches + 1 }
  | .deliveries n => { c with deliveries := c.deliveries + n }
  | .inFlight n => { c with inFlight := n }
  | .poolSize n => { c with poolSize := n }

/-- Records one change several times. -/
def recordTimes (c : Counters) (change : Change) (times : Nat) : Counters :=
  Nat.repeat (fun c => c.record change) times c

/-- The counters and the gauge of locations in flight, in the order in which they are shown. -/
def toList (c : Counters) : List UInt64 :=
  [c.references, c.resolutionFailures, c.coalesced, c.dispatched, c.completions,
    c.fetchFailures, c.cancelledFetches, c.deliveries, c.inFlight]

end Counters

end SharedFetch
