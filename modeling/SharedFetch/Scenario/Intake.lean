import SharedFetch.Scenario.Basic

/-!
# Scenarios of an intake

Producers and a receiver at one intake. The senders form a stack of sending ends; actions
use the one on top.
-/

namespace SharedFetch.Scenario

/-- An intake and those who hold its ends. -/
structure IntakeBench where
  intake : Intake
  tokens : Tokens
  token : Token
  /-- The sending ends on the stack. -/
  senders : Nat := 1
  /-- Whether the receiving end is still there. -/
  receiver : Bool := true

namespace IntakeBench

/-- An intake of the given capacity with one sender. -/
def make (capacity : Nat) : Except Misuse IntakeBench :=
  let (token, tokens) := ({} : Tokens).fresh
  (Queue.make capacity).map fun queue => { intake := { queue }, tokens, token }

/-- What can be done at an intake. -/
inductive Action where
  | trySubmit (r : Reference)
  | submit (r : Reference)
  | forward (supply : Supply)
  | receive (n : Nat)
  | close
  | dropReceiver
  | clone
  | drop
  | cancel
  | look

/-- Changes the queue of the intake. -/
def onQueue (b : IntakeBench) (f : Queue Reference → Queue Reference) : IntakeBench :=
  { b with intake := { b.intake with queue := f b.intake.queue } }

/-- Performs one action of the step with the given number. -/
def perform (number : Nat) (b : IntakeBench) : Action → Answer × IntakeBench
  | .trySubmit r =>
    if b.senders = 0 then (.noSender, b)
    else
      let (offer, queue) := b.intake.queue.offer r
      (.submitted offer, { b with intake := { b.intake with queue } })
  | .submit r =>
    if b.senders = 0 then (.noSender, b)
    else
      let b := b.onQueue Queue.addSender
      (.started, { b with intake := b.intake.start number b.intake.era (.submit r false) false })
  | .forward supply =>
    if b.senders = 0 then (.noSender, b)
    else
      let task := Task.forward b.token supply none 0
      (.started,
        { b with
          senders := b.senders - 1
          intake := b.intake.start number b.intake.era task false })
  | .receive n =>
    if b.receiver then
      let (receipts, queue) := b.intake.queue.receiveMany n
      (.references receipts, { b with intake := { b.intake with queue } })
    else (.withoutReceiver n, b)
  | .close => (.nothing, if b.receiver then b.onQueue Queue.close else b)
  | .dropReceiver => (.nothing, { b.onQueue Queue.dropReceiver with receiver := false })
  | .clone =>
    if b.senders = 0 then (.count 0, b)
    else (.count (b.senders + 1), { b.onQueue Queue.addSender with senders := b.senders + 1 })
  | .drop =>
    if b.senders = 0 then (.count 0, b)
    else (.count (b.senders - 1), { b.onQueue Queue.dropSender with senders := b.senders - 1 })
  | .cancel => (.nothing, { b with tokens := b.tokens.cancel b.token })
  | .look => (.nothing, b)

/-- What is seen of an intake after a step. -/
structure Report where
  answers : List Answer
  /-- The producers that have finished since, by the number of their step. -/
  finished : List (Nat × Produced)
  /-- Whether the top sender finds the intake closed, and the places it finds if not. -/
  sender : Option (Bool × Option Nat)

/-- What the holder of a sending end sees of a queue. -/
def senderView (queue : Queue Reference) : Bool × Option Nat :=
  (queue.closed, if queue.closed then none else some queue.free)

/-- Takes one step. -/
def step (number : Nat) (b : IntakeBench) (actions : List Action) : Report × IntakeBench :=
  let (answers, b) := performAll (perform number) b actions
  let (finished, intake) := (b.intake.settle b.tokens).collect
  let sender := if b.senders = 0 then none else some (senderView intake.queue)
  (⟨answers, finished, sender⟩, { b with intake })

/-- The reports of a list of steps. -/
def run (b : IntakeBench) (steps : List (List Action)) : List Report :=
  runFrom step 0 b steps

end IntakeBench

end SharedFetch.Scenario
