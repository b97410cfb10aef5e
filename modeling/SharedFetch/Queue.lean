import SharedFetch.Fault.Misuse

/-!
# Bounded queues

A bounded first-in first-out queue with several sending ends and one receiving end. A sender
that must wait takes a turn in line, and a place that becomes free belongs to the head of the
line from that moment on: nobody else can take it, although the item only enters when its
sender goes on. So the places open to a newcomer are those that neither an item nor a waiting
sender claims (`Queue.free`).

A queue is *closed* once its receiving end accepts nothing more; items that were in it stay
there and can still be taken. The places that belonged to waiting senders at that moment are
*reserved*: those senders cannot enter any more, but until they step out the receiving end does
not know. A queue is *exhausted* once it is empty and no item can come any more. If the receiving
end is *dropped*, the queue closes, and the items that nobody has taken are gone with it.
-/

namespace SharedFetch

/-- A bounded queue. `line` holds the senders that wait for a place, by name; the first of them
that `reserved` counts had a place when the queue closed. -/
structure Queue (α : Type) where
  capacity : Nat
  items : List α := []
  line : List Nat := []
  senders : Nat := 1
  closed : Bool := false
  reserved : Nat := 0
  deriving Inhabited, Repr

namespace Queue

variable {α : Type}

/-- Refuses a queue of so many places that cannot be made. -/
def check (capacity : Nat) : Except Misuse Unit :=
  if capacity = 0 then .error .noPlaces
  else if Misuse.placesLimit < capacity then .error .tooManyPlaces
  else .ok ()

/-- An empty queue of so many places with one sending end. -/
def make (capacity : Nat) : Except Misuse (Queue α) :=
  (check capacity).map fun _ => { capacity }

/-- The places that a newcomer finds. -/
def free (q : Queue α) : Nat :=
  q.capacity - (q.items.length + q.line.length)

/-- Whether the sender at the head of the line may enter. -/
def hasRoom (q : Queue α) : Bool :=
  q.items.length < q.capacity

/-- What became of an item offered to a queue. -/
inductive Offer (α : Type) where
  | accepted
  | full (item : α)
  | closed (item : α)
  deriving DecidableEq, Inhabited, Repr

/-- Adds an item at the end. -/
def push (q : Queue α) (a : α) : Queue α :=
  { q with items := q.items ++ [a] }

/-- Offers an item without waiting. -/
def offer (q : Queue α) (a : α) : Offer α × Queue α :=
  if q.closed then (.closed a, q)
  else if 0 < q.free then (.accepted, q.push a)
  else (.full a, q)

/-- Offers items one after the other. -/
def offerAll (q : Queue α) : List α → List (Offer α) × Queue α
  | [] => ([], q)
  | a :: rest =>
    let (first, q) := q.offer a
    let (others, q) := q.offerAll rest
    (first :: others, q)

/-- A sender takes its turn in line. -/
def queueUp (q : Queue α) (sender : Nat) : Queue α :=
  { q with line := q.line ++ [sender] }

/-- A sender leaves the line, and gives back a place that was reserved for it. -/
def stepOut (q : Queue α) (sender : Nat) : Queue α :=
  { q with
    line := q.line.erase sender
    reserved := if (q.line.take q.reserved).contains sender then q.reserved - 1 else q.reserved }

/-- The sender at the head of the line enters its item. -/
def enter? (q : Queue α) (sender : Nat) (a : α) : Option (Queue α) :=
  if q.line.head? = some sender ∧ q.hasRoom then
    some { q with line := q.line.tail, items := q.items ++ [a] }
  else none

/-- Takes the first item. -/
def pop? (q : Queue α) : Option (α × Queue α) :=
  match q.items with
  | [] => none
  | a :: rest => some (a, { q with items := rest })

/-- Whether every sending end is gone and nothing is left to take. -/
def isExhausted (q : Queue α) : Bool :=
  q.items.isEmpty && q.senders == 0

/-- What a look for an item finds. -/
inductive Receipt (α : Type) where
  | item (value : α)
  | empty
  | disconnected
  deriving DecidableEq, Inhabited, Repr

/-- Takes an item without waiting. -/
def receive (q : Queue α) : Receipt α × Queue α :=
  match q.pop? with
  | some (a, q) => (.item a, q)
  | none =>
    (if (q.closed && q.reserved == 0) || q.senders == 0 then .disconnected else .empty, q)

/-- Takes several items without waiting. -/
def receiveMany (q : Queue α) : Nat → List (Receipt α) × Queue α
  | 0 => ([], q)
  | n + 1 =>
    let (first, q) := q.receive
    let (others, q) := q.receiveMany n
    (first :: others, q)

/-- The receiving end accepts nothing more. -/
def close (q : Queue α) : Queue α :=
  if q.closed then q
  else
    { q with
      closed := true
      reserved := min q.line.length (q.capacity - q.items.length) }

/-- The receiving end is gone, and with it every item that was not taken. -/
def dropReceiver (q : Queue α) : Queue α :=
  { q.close with items := [] }

/-- One more sending end. -/
def addSender (q : Queue α) : Queue α :=
  { q with senders := q.senders + 1 }

/-- One sending end less. -/
def dropSender (q : Queue α) : Queue α :=
  { q with senders := q.senders - 1 }

/-! ### Views -/

@[simp] theorem items_push (q : Queue α) (a : α) : (q.push a).items = q.items ++ [a] := rfl

@[simp] theorem items_dropSender (q : Queue α) : q.dropSender.items = q.items := rfl

@[simp] theorem closed_dropSender (q : Queue α) : q.dropSender.closed = q.closed := rfl

@[simp] theorem items_stepOut (q : Queue α) (sender : Nat) :
    (q.stepOut sender).items = q.items := rfl

@[simp] theorem closed_stepOut (q : Queue α) (sender : Nat) :
    (q.stepOut sender).closed = q.closed := rfl

@[simp] theorem items_close (q : Queue α) : q.close.items = q.items := by
  unfold close
  split <;> rfl

@[simp] theorem closed_close (q : Queue α) : q.close.closed = true := by
  unfold close
  split
  · assumption
  · rfl

@[simp] theorem senders_close (q : Queue α) : q.close.senders = q.senders := by
  unfold close
  split <;> rfl

@[simp] theorem items_dropReceiver (q : Queue α) : q.dropReceiver.items = [] := rfl

@[simp] theorem closed_dropReceiver (q : Queue α) : q.dropReceiver.closed = true :=
  closed_close q

@[simp] theorem senders_dropReceiver (q : Queue α) : q.dropReceiver.senders = q.senders :=
  senders_close q

end Queue

end SharedFetch
