import SharedFetch.Protocol
import SharedFetch.Queue
import SharedFetch.Settle
import SharedFetch.Tokens
import SharedFetch.Fault

/-!
# The intake

References enter a pipeline through its intake, a bounded queue with the *producers* at work
on it. A producer either submits one reference, waiting for a place if it must, or forwards a
stream of references until the stream ends, its token is cancelled or the intake closes. A
producer owns one sending end of the queue and gives it up when it has finished.

Every run has an intake queue of its own. The producers of an earlier era, that is, of an
earlier run, find the queue closed.
-/

namespace SharedFetch

/-- A stream of references: those that are there, and whether more may come. -/
structure Supply where
  items : List Reference
  endless : Bool := false
  deriving Inhabited

/-- How a producer ends. -/
inductive Produced where
  | accepted
  | forwarded (count : UInt64)
  | failed (fault : Fault)
  deriving Inhabited

/-- What a producer is about. -/
inductive Task where
  /-- It submits a reference; `queued` once it stands in line. -/
  | submit (r : Reference) (queued : Bool)
  /-- It forwards a stream. `inHand` is the reference that it stands in line with, and `sent`
  counts those that it has put in, in 64 bits. -/
  | forward (token : Token) (supply : Supply) (inHand : Option Reference) (sent : UInt64)
  | finished (result : Produced)
  deriving Inhabited

/-- Someone who puts references into the intake. -/
structure Producer where
  /-- The name under which it stands in line. -/
  id : Nat
  /-- The name under which it was started. -/
  label : Nat
  era : Nat
  task : Task
  /-- Whether it works for the host, which then does not report its end. -/
  hosted : Bool := false
  deriving Inhabited

/-- The result of a producer that has finished. -/
def Producer.result? (p : Producer) : Option Produced :=
  match p.task with
  | .finished result => some result
  | _ => none

/-- The intake of a pipeline. -/
structure Intake where
  queue : Queue Reference
  era : Nat := 0
  producers : List Producer := []
  /-- The number of producers so far. -/
  started : Nat := 0
  deriving Inhabited

namespace Intake

/-- Whether the queue still takes references from someone of the given era. -/
def accepts (i : Intake) (era : Nat) : Bool :=
  era == i.era && !i.queue.closed

/-- Puts a producer in place of the one with the same name. -/
def update (i : Intake) (p : Producer) : Intake :=
  { i with producers := i.producers.map fun q => if q.id = p.id then p else q }

/-- A producer ends: it leaves the line and gives up its sending end. -/
def finish (i : Intake) (p : Producer) (result : Produced) : Intake :=
  let queue := if p.era = i.era then (i.queue.stepOut p.id).dropSender else i.queue
  { i with queue }.update { p with task := .finished result }

/-- What a producer does next, unless it has to wait. The cancellation of its token comes
before anything else that a forwarding producer looks at. -/
def step (i : Intake) (tokens : Tokens) (p : Producer) : Option Intake :=
  match p.task with
  | .finished _ => none
  | .submit r queued =>
    if !i.accepts p.era then some (i.finish p (.failed .refused))
    else if queued then
      (i.queue.enter? p.id r).map fun queue => { i with queue }.finish p .accepted
    else some ({ i with queue := i.queue.queueUp p.id }.update { p with task := .submit r true })
  | .forward token supply inHand sent =>
    if tokens.isCancelled token then some (i.finish p (.forwarded sent))
    else
      match inHand, supply.items with
      | some r, _ =>
        if !i.accepts p.era then some (i.finish p (.failed (.interrupted sent)))
        else
          (i.queue.enter? p.id r).map fun queue =>
            { i with queue }.update { p with task := .forward token supply none (sent + 1) }
      | none, r :: rest =>
        if !i.accepts p.era then some (i.finish p (.failed (.interrupted sent)))
        else
          some ({ i with queue := i.queue.queueUp p.id }.update
            { p with task := .forward token { supply with items := rest } (some r) sent })
      | none, [] => if supply.endless then none else some (i.finish p (.forwarded sent))

/-- The producer with the given name goes on, unless it has to wait. -/
def advance (i : Intake) (tokens : Tokens) (id : Nat) : Option Intake :=
  (i.producers.find? fun p => p.id == id).bind (i.step tokens)

/-- Starts a producer, which takes a sending end of its own. -/
def start (i : Intake) (label era : Nat) (task : Task) (hosted : Bool) : Intake :=
  { i with
    producers := i.producers ++ [{ id := i.started, label, era, task, hosted }]
    started := i.started + 1 }

/-- The names of the producers, those that started first in front. -/
def names (i : Intake) : List Nat :=
  i.producers.map Producer.id

/-- The work that a reference in the queue still brings about in the pipeline. -/
def itemWork : Nat := 12

/-- The work that a producer still has, with what its references bring about. -/
def taskWork : Task → Nat
  | .submit _ queued => itemWork + (if queued then 1 else 2)
  | .forward _ supply inHand _ =>
    supply.items.length * (itemWork + 2) + (if inHand.isSome then itemWork + 1 else 0) + 1
  | .finished _ => 0

/-- The work left in the intake. -/
def work (i : Intake) : Nat :=
  i.queue.items.length * itemWork + i.producers.foldr (fun p n => taskWork p.task + n) 0

/-- Lets the producers go on until each has finished or waits. -/
def settle (i : Intake) (tokens : Tokens) : Intake :=
  SharedFetch.settle (fun i id => i.advance tokens id) names i.work i

/-! ### Streams that are fed

Only the stream of a producer that works for the host can be added to while it is
forwarded. -/

/-- Whether the stream of the producer that was started under the given name is still
there. -/
def isFed (i : Intake) (label : Nat) : Bool :=
  i.producers.any fun p => p.label == label && p.hosted && p.result?.isNone

/-- Changes the stream that a producer forwards for the host. -/
def onSupply (i : Intake) (label : Nat) (f : Supply → Supply) : Intake :=
  { i with producers := i.producers.map fun p =>
      match p.task with
      | .forward token supply inHand sent =>
        if p.label = label ∧ p.hosted then { p with task := .forward token (f supply) inHand sent }
        else p
      | _ => p }

/-- Takes the finished producers out: the results of those that report, by label, in the
order in which they were started. -/
def collect (i : Intake) : List (Nat × Produced) × Intake :=
  (i.producers.filterMap fun p =>
      if p.hosted then none else p.result?.map fun result => (p.label, result),
    { i with producers := i.producers.filter fun p => p.result?.isNone })

end Intake

end SharedFetch
