import SharedFetch.Pipeline.Step

/-!
# Scenarios

A scenario drives a part of the library from outside by a list of steps. The actions of a
step are performed back to back; then the part settles, and what can be seen of it is
reported. This module holds what the scenarios have in common: the answers of actions, and
the part of a journal that a report has not shown yet.
-/

namespace SharedFetch.Scenario

/-- What an action answers. -/
inductive Answer where
  | nothing
  | accepted
  | started
  | blocked
  | busy
  | refused
  | noSender
  | noReceiver
  | noFeed
  | notRunner
  | flag (value : Bool)
  | count (value : Nat)
  | flags (values : List Bool)
  | failed (fault : Fault)
  | submitted (offer : Queue.Offer Reference)
  | submittedAll (offers : List (Queue.Offer Reference))
  | dispatched (offers : List (Queue.Offer Location))
  | completed (offer : Queue.Offer Completion)
  | references (receipts : List (Queue.Receipt Reference))
  | withoutReceiver (times : Nat)
  | locations (receipts : List (Queue.Receipt Location))
  | completions (receipts : List (Queue.Receipt Completion))
  | releasedFetch (location : Option Location)
  | releasedHook (key : Option String)
  deriving Inhabited

/-- The name of a hook that is held. -/
def hookKey : Stage → Reference → String
  | .process, r => s!"process:{r.id}"
  | .unresolved, r => s!"unresolved:{r.id}"
  | .shutdown, _ => "shutdown"

/-- The name of the coordinator's hook that is held. -/
def heldKey? (p : Pipeline) : Option String :=
  p.heldHook?.map fun (stage, r) => hookKey stage r

/-- Lets a held hook of the coordinator go, if there is one and it has the name asked for. -/
def releaseHook (p : Pipeline) (key : Option String) (mode : HookMode) : Answer × Pipeline :=
  match heldKey? p with
  | none => (.releasedHook none, p)
  | some held =>
    if key.all (· == held) then (.releasedHook (some held), p.releaseHook mode)
    else (.releasedHook none, p)

/-- Lets the oldest held fetch go, of the location asked for by its written form. -/
def releaseFetch (p : Pipeline) (location : Option String) (mode : FetchMode) :
    Answer × Pipeline :=
  match p.heldFetch? location with
  | none => (.releasedFetch none, p)
  | some job => (.releasedFetch (some job.location), p.releaseFetch job mode)

/-- Performs actions back to back and gathers their answers. -/
def performAll {σ α : Type} (perform : σ → α → Answer × σ) (s : σ) :
    List α → List Answer × σ
  | [] => ([], s)
  | a :: rest =>
    let (first, s) := perform s a
    let (others, s) := performAll perform s rest
    (first :: others, s)

/-- Takes the steps of a scenario in turn, each with its number, and gathers the reports. -/
def runFrom {σ α β : Type} (step : Nat → σ → α → β × σ) (number : Nat) (s : σ) :
    List α → List β
  | [] => []
  | a :: rest =>
    let (report, s) := step number s a
    report :: runFrom step (number + 1) s rest

end SharedFetch.Scenario
