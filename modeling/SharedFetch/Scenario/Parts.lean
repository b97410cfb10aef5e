import SharedFetch.Activity
import SharedFetch.Counters
import SharedFetch.Journal
import SharedFetch.Scenario.Basic
import SharedFetch.Waiters

/-!
# Scenarios of single parts

The parts of a pipeline that have no steps of their own: waiters, activity, counters and the
latch. A scenario of one of them is a list of operations, with what can be seen after each.
-/

namespace SharedFetch.Scenario

/-! ### Waiters -/

/-- An operation on waiters. -/
inductive WaitersAction where
  | enroll (l : Location) (r : Nat)
  | complete (l : Location)
  | look

/-- What an operation on waiters gives. -/
inductive WaitersAnswer where
  | admitted (admission : Admission Location)
  | completed (references : List Nat)
  | missing (violation : Violation)
  | nothing

/-- What is seen of waiters after an operation. -/
structure WaitersReport where
  answer : WaitersAnswer
  size : Nat
  isEmpty : Bool
  waiting : Nat

/-- Performs an operation on waiters. -/
def performOnWaiters (w : Waiters Location Nat) :
    WaitersAction → WaitersAnswer × Waiters Location Nat
  | .enroll l r =>
    let (admission, w) := w.enroll l r
    (.admitted admission, w)
  | .complete l =>
    match w.complete? l with
    | some (references, w) => (.completed references, w)
    | none => (.missing (.of l), w)
  | .look => (.nothing, w)

/-- The reports of a list of operations on waiters, from none. -/
def runWaiters (actions : List WaitersAction) : List WaitersReport :=
  runFrom (fun _ w a =>
    let (answer, w) := performOnWaiters w a
    (⟨answer, w.size, w.isEmpty, w.waiting⟩, w)) 0 {} actions

/-! ### Activity -/

/-- An operation on guards. A guard is named by the number of its operation. -/
inductive GuardAction where
  | enter
  | drop (name : Nat)
  | look
  deriving DecidableEq

/-- Performs the operation with the given number on guards: the answer, and the activity then. -/
def stepGuards (number : Nat) (g : Guards) : GuardAction → (Answer × Activity) × Guards
  | .enter =>
    let g := g.enter number
    ((.count number, g.activity), g)
  | .drop name =>
    let (alive, g) := g.drop name
    ((.flag alive, g.activity), g)
  | .look => ((.nothing, g.activity), g)

/-- The reports of a list of operations on guards. -/
def runGuards (actions : List GuardAction) : List (Answer × Activity) :=
  runFrom stepGuards 0 {} actions

/-! ### Counters -/

/-- The counters after each of a list of changes, each made several times. -/
def runCounters (changes : List (Option Counters.Change × Nat)) : List Counters :=
  runFrom (fun _ (c : Counters) (change, times) =>
    let c := match change with
      | some change => c.recordTimes change times
      | none => c
    (c, c)) 0 {} changes

/-! ### The latch -/

/-- How the token of a run stands to the root. -/
inductive Topology where
  | child
  | same
  | separate

/-- An operation on a latch, with the handle that it goes through. -/
inductive LatchAction where
  | raise (alarm : Alarm) (handle : Nat := 0)
  | clone (handle : Nat := 0)
  | cancelRoot (handle : Nat := 0)
  | cancelRun (handle : Nat := 0)
  | look (handle : Nat := 0)

/-- The handle that an operation goes through. -/
def LatchAction.handle : LatchAction → Nat
  | .raise _ handle | .clone handle | .cancelRoot handle | .cancelRun handle | .look handle => handle

/-- Latches and the handles through which they are used. A handle is the place of its latch, and so
is every copy of it. The caller has the tokens as well. -/
structure LatchBench where
  latches : List Latch
  handles : List Nat
  tokens : Tokens
  rootToken : Token
  runToken : Token

/-- What is seen of a latch after an operation. -/
structure LatchReport where
  answer : Answer
  triggered : Bool
  error : Option Fault
  rootCancelled : Bool
  runCancelled : Bool
  logged : Option Alarm

namespace LatchBench

/-- A latch over a root token and a run token, with one handle. -/
def make (topology : Topology) : LatchBench :=
  let (root, tokens) := ({} : Tokens).fresh
  let (run, tokens) := match topology with
    | .child => tokens.child root
    | .same => (root, tokens)
    | .separate => tokens.fresh
  { latches := [{ root, run }], handles := [0], tokens, rootToken := root, runToken := run }

/-- The place of the latch that a handle stands for. A number beyond the last handle is taken for
the last one. -/
def place (b : LatchBench) (handle : Nat) : Nat :=
  b.handles.getD (min handle (b.handles.length - 1)) 0

/-- The latch that is used through a handle. -/
def through (b : LatchBench) (handle : Nat) : Latch :=
  b.latches.getD (b.place handle) default

/-- Performs an operation, with the alarm that it logs. -/
def perform (b : LatchBench) : LatchAction → (Answer × Option Alarm) × LatchBench
  | .raise alarm handle =>
    let effect := (b.through handle).trigger b.tokens alarm
    ((.failed effect.returned, effect.logged),
      { b with latches := b.latches.set (b.place handle) effect.latch, tokens := effect.tokens })
  | .clone handle =>
    ((.count (b.handles.length + 1), none), { b with handles := b.handles ++ [b.place handle] })
  | .cancelRoot _ => ((.nothing, none), { b with tokens := b.tokens.cancel b.rootToken })
  | .cancelRun _ => ((.nothing, none), { b with tokens := b.tokens.cancel b.runToken })
  | .look _ => ((.nothing, none), b)

/-- Performs an operation and looks at the latch through the same handle. -/
def step (b : LatchBench) (action : LatchAction) : LatchReport × LatchBench :=
  let ((answer, logged), b) := b.perform action
  let latch := b.through action.handle
  (⟨answer, latch.isTriggered, latch.error?, b.tokens.isCancelled b.rootToken,
      b.tokens.isCancelled b.runToken, logged⟩, b)

/-- The reports of a list of operations. -/
def run (b : LatchBench) (actions : List LatchAction) : List LatchReport :=
  runFrom (fun _ => step) 0 b actions

end LatchBench

end SharedFetch.Scenario
