import SharedFetch.Reporter
import SharedFetch.Scenario.Basic

/-!
# Scenarios of reporters

Counters with reporters beside them, and a clock that is moved by hand: it passes either
millisecond by millisecond, or all at once. Reporters do not know of each other. What is
watched is the one that was started last.

Reports are made in the order in which they are due, and of reports that are due together that
one comes first whose reporter has waited longest. The list of active reporters is therefore
kept in the order in which they began to wait. When the clock jumps, the reporters that have
waited go before those that only begin then.
-/

namespace SharedFetch.Scenario

/-- What is known of the reporter that was started last. -/
inductive Watch where
  /-- There is none, or its end was told. -/
  | absent
  | running
  | exited
  | panicked
  deriving DecidableEq, Inhabited, Repr

/-- Counters, a clock and reporters. -/
structure MetricsBench where
  counters : Counters := {}
  clock : Nat := 0
  /-- The intervals of the reporters that were started and have not begun. -/
  waiting : List Nat := []
  /-- The reporters that have begun, in the order in which they began to wait. -/
  active : List Reporter := []
  cancelled : Bool := false
  watch : Watch := .absent

namespace MetricsBench

/-- What can be done around reporters. -/
inductive Action where
  | record (change : Counters.Change) (times : Nat)
  | spawn (interval : Nat)
  | sleep (ms : Nat)
  | jump (ms : Nat)
  | cancel
  | look

/-- The reporter whose report is due first and has been waited for longest, if it is due by a
time, and the others. -/
def nextDue? (time : Nat) : List Reporter → Option (Reporter × List Reporter)
  | [] => none
  | r :: rest =>
    match nextDue? time rest with
    | some (s, others) =>
      if s.due < r.due then some (s, r :: others) else some (r, rest)
    | none => if r.due ≤ time then some (r, rest) else none

/-- Makes the reports that are due by a time, at most so many, each when it is due. -/
def pass (time : Nat) (c : Counters) : Nat → List Reporter → List LogLine × List Reporter
  | 0, rs => ([], rs)
  | n + 1, rs =>
    match nextDue? time rs with
    | none => ([], rs)
    | some (r, others) =>
      let (first, r) := r.tick r.due c
      let (later, rs) := pass time c n (others ++ [r])
      (first :: later, rs)

/-- Makes the reports that have become due all at once: each reporter makes its own in a
row. -/
def passAtOnce (now : Nat) (c : Counters) : Nat → List Reporter → List LogLine × List Reporter
  | 0, rs => ([], rs)
  | n + 1, rs =>
    match nextDue? now rs with
    | none => ([], rs)
    | some (r, others) =>
      let (own, r) := r.catchUp now c
      let (later, rs) := passAtOnce now c n (others ++ [r])
      (own ++ later, rs)

/-- The reporter that was started last ends, if it has not begun and its interval is none. -/
def watchBegin (b : MetricsBench) : Watch :=
  if b.waiting.getLast? = some 0 then .panicked else b.watch

/-- The reporters that were started begin, and make the reports that are due then. -/
def begin (b : MetricsBench) : List LogLine × MetricsBench :=
  let begun := b.waiting.filter (· ≠ 0)
  if b.cancelled then
    (begun.map fun _ => Reporter.farewell,
      { b with
        waiting := []
        watch := if b.waiting.isEmpty then b.watch
          else if b.waiting.getLast? = some 0 then .panicked else .exited })
  else
    let first := begun.map fun interval =>
      (Reporter.begin interval b.clock b.counters).catchUp b.clock b.counters
    (first.flatMap Prod.fst,
      { b with
        waiting := []
        active := b.active ++ first.map Prod.snd
        watch := b.watchBegin })

/-- Performs one action, with what is logged by it. -/
def perform (b : MetricsBench) : Action → List LogLine × MetricsBench
  | .record change times => ([], { b with counters := b.counters.recordTimes change times })
  | .spawn interval => ([], { b with waiting := b.waiting ++ [interval], watch := .running })
  | .sleep ms =>
    let (first, b) := b.begin
    let clock := b.clock + ms
    let bound := b.active.foldr (fun r n => r.bound clock + n) 0
    let (later, active) := pass clock b.counters bound b.active
    (first ++ later, { b with clock, active })
  | .jump ms =>
    let clock := b.clock + ms
    let (first, active) := passAtOnce clock b.counters b.active.length b.active
    let (later, b) := { b with clock, active }.begin
    (first ++ later, b)
  | .cancel =>
    let (first, b) := { b with cancelled := true }.begin
    (first ++ b.active.map fun _ => Reporter.farewell,
      { b with active := [], watch := if b.watch = .running then .exited else b.watch })
  | .look => ([], b)

/-- What is seen of reporters after an action. -/
structure Report where
  lines : List LogLine
  watch : Watch

/-- Takes one action. The end of a reporter is told once. -/
def step (_number : Nat) (b : MetricsBench) (action : Action) : Report × MetricsBench :=
  let (lines, b) := b.perform action
  (⟨lines, b.watch⟩, { b with watch := if b.watch = .running then .running else .absent })

/-- The reports of a list of actions. -/
def run (actions : List Action) : List Report :=
  runFrom step 0 {} actions

end MetricsBench

end SharedFetch.Scenario
