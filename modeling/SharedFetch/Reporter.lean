import SharedFetch.Counters
import SharedFetch.Journal
import SharedFetch.Text.Rate

/-!
# The reporter

While a run goes on, a reporter logs the counters at regular times, with the rate of
deliveries since the report before. The first report is due when the reporter begins. A
report that is made late by no more than five milliseconds leaves the times as they are;
after one that is later the next is due a whole interval after it was made.

Time is counted in milliseconds.
-/

namespace SharedFetch

/-- A reporter that has begun. -/
structure Reporter where
  interval : Nat
  /-- When the next report is due. -/
  due : Nat
  /-- When the last report was made, or the reporter begun. -/
  last : Nat
  /-- The deliveries counted then. -/
  deliveries : UInt64
  deriving DecidableEq, Inhabited, Repr

namespace Reporter

/-- How late a report may be without moving those after it. -/
def grace : Nat := 5

/-- The reporter that begins now. -/
def begin (interval now : Nat) (c : Counters) : Reporter :=
  { interval, due := now, last := now, deliveries := c.deliveries }

/-- The deliveries counted since the last report. -/
def delivered (r : Reporter) (c : Counters) : UInt64 :=
  if c.deliveries < r.deliveries then 0 else c.deliveries - r.deliveries

/-- A report. -/
def line (r : Reporter) (now : Nat) (c : Counters) : LogLine where
  level := .info
  message := "runtime metrics snapshot"
  fields :=
    [("throughput", .text (Text.rate (r.delivered c) (now - r.last))),
      ("references", .number c.references.toNat),
      ("coalesced", .number c.coalesced.toNat),
      ("dispatched", .number c.dispatched.toNat),
      ("in_flight", .number c.inFlight.toNat),
      ("deliveries", .number c.deliveries.toNat),
      ("fetch_failures", .number c.fetchFailures.toNat),
      ("resolution_failures", .number c.resolutionFailures.toNat)]

/-- What is logged when the reporter ends. -/
def farewell : LogLine where
  level := .info
  message := "metrics reporter shutting down"

/-- Makes the report that is due. -/
def tick (r : Reporter) (now : Nat) (c : Counters) : LogLine × Reporter :=
  (r.line now c,
    { r with
      due := if r.due + grace < now then now + r.interval else r.due + r.interval
      last := now
      deliveries := c.deliveries })

/-- Makes the reports that are due by a time, at most so many, each at the moment given for
it. -/
def ticks (moment : Reporter → Nat) (time : Nat) (c : Counters) :
    Nat → Reporter → List LogLine × Reporter
  | 0, r => ([], r)
  | n + 1, r =>
    if r.due ≤ time then
      let (first, r) := r.tick (moment r) c
      let (others, r) := ticks moment time c n r
      (first :: others, r)
    else ([], r)

/-- More reports than can fall due by a time. -/
def bound (r : Reporter) (time : Nat) : Nat :=
  (time - r.due) / r.interval + 1

/-- Makes the reports that are due now. -/
def catchUp (r : Reporter) (now : Nat) (c : Counters) : List LogLine × Reporter :=
  ticks (fun _ => now) now c (r.bound now) r

/-- Lets time pass up to a moment: every report is made when it is due. -/
def elapse (r : Reporter) (time : Nat) (c : Counters) : List LogLine × Reporter :=
  ticks Reporter.due time c (r.bound time) r

end Reporter

/-- A reporter from its start on. -/
inductive Reporting where
  | absent
  /-- It was started and has not begun. -/
  | waiting (interval : Nat)
  | active (reporter : Reporter)
  /-- It has ended, by itself or because its interval is no interval. -/
  | over (panicked : Bool)
  deriving DecidableEq, Inhabited, Repr

namespace Reporting

/-- Whether the reporter has still to end. -/
def isAlive : Reporting → Bool
  | .waiting _ | .active _ => true
  | .absent | .over _ => false

/-- A reporter that was started begins, and makes what reports are due. An interval of zero
is none. -/
def wake (r : Reporting) (now : Nat) (c : Counters) : List LogLine × Reporting :=
  match r with
  | .waiting 0 => ([], .over true)
  | .waiting interval =>
    let (lines, r) := (Reporter.begin interval now c).catchUp now c
    (lines, .active r)
  | .active r =>
    let (lines, r) := r.catchUp now c
    (lines, .active r)
  | .absent => ([], .absent)
  | .over panicked => ([], .over panicked)

/-- Lets time pass up to a moment. -/
def elapse (r : Reporting) (time : Nat) (c : Counters) : List LogLine × Reporting :=
  match r with
  | .active r =>
    let (lines, r) := r.elapse time c
    (lines, .active r)
  | r => ([], r)

/-- Ends the reporter. -/
def quit (r : Reporting) : List LogLine × Reporting :=
  match r with
  | .waiting 0 => ([], .over true)
  | .waiting _ | .active _ => ([Reporter.farewell], .over false)
  | .absent => ([], .absent)
  | .over panicked => ([], .over panicked)

end Reporting

end SharedFetch
