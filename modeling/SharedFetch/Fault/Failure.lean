import SharedFetch.Location
import SharedFetch.Fault.Chain

/-!
# Failures of the protocol's own work

The four ways in which resolving, fetching, delivering and completing can fail, each with its
message, the texts of its causes and its one-line written form.
-/

namespace SharedFetch

/-- The hooks that may fail. -/
inductive Stage where
  | process
  | unresolved
  | shutdown
  deriving DecidableEq, Inhabited, Repr

/-- The name of a stage in messages. -/
def Stage.name : Stage → String
  | .process => "Process"
  | .unresolved => "Unresolved"
  | .shutdown => "Shutdown"

/-- A hook reported an error. -/
structure HookFailure where
  stage : Stage
  source : Chain
  deriving DecidableEq, Inhabited, Repr

namespace HookFailure

def message (f : HookFailure) : String :=
  s!"{f.stage.name} protocol error: {f.source.text}"

def texts (f : HookFailure) : List String :=
  f.message :: f.source.texts

def written (f : HookFailure) : String :=
  "ProtocolError \x7b stage: " ++ f.stage.name ++ ", source: " ++ f.source.report ++ " \x7d"

end HookFailure

/-- Why a fetch brought nothing. -/
inductive FetchFailure.Kind where
  | failed
  | cancelled
  deriving DecidableEq, Inhabited, Repr

/-- The name of a kind of failed fetch in messages. -/
def FetchFailure.Kind.name : FetchFailure.Kind → String
  | .failed => "Failed"
  | .cancelled => "Cancelled"

/-- A fetch brought nothing; `location` is the written form of what was fetched. -/
structure FetchFailure where
  kind : FetchFailure.Kind
  location : String
  source : Chain
  deriving DecidableEq, Inhabited, Repr

namespace FetchFailure

/-- The fetch of a location failed with the given error. -/
def failed (l : Location) (source : Chain) : FetchFailure :=
  ⟨.failed, render l, source⟩

/-- The fetch of a location was given up because the run was cancelled. -/
def cancelled (l : Location) : FetchFailure :=
  ⟨.cancelled, render l, ⟨"fetch cancelled by shutdown", []⟩⟩

def isCancelled (f : FetchFailure) : Bool :=
  f.kind == .cancelled

def message (f : FetchFailure) : String :=
  match f.kind with
  | .failed => s!"fetch for {f.location} failed: {f.source.text}"
  | .cancelled => s!"fetch for {f.location} cancelled"

def texts (f : FetchFailure) : List String :=
  f.message :: f.source.texts

def written (f : FetchFailure) : String :=
  "FetchFailure \x7b kind: " ++ f.kind.name ++ ", location: " ++ Text.quote f.location ++
    ", source: " ++ f.source.report ++ " \x7d"

end FetchFailure

/-- A reference could not be resolved to a location. -/
structure ResolutionFailure (ρ : Type) where
  reference : ρ
  source : Chain

namespace ResolutionFailure

variable {ρ : Type} [Render ρ]

def message (f : ResolutionFailure ρ) : String :=
  s!"could not resolve location for {render f.reference}: {f.source.text}"

def texts (f : ResolutionFailure ρ) : List String :=
  f.message :: f.source.texts

def written (f : ResolutionFailure ρ) : String :=
  "ResolutionFailure \x7b reference: " ++ render f.reference ++ ", source: " ++
    f.source.report ++ " \x7d"

end ResolutionFailure

/-- A completion named a location that nothing waits for; `location` is its written form. -/
structure Violation where
  location : String
  deriving DecidableEq, Inhabited, Repr

namespace Violation

def of (l : Location) : Violation :=
  ⟨render l⟩

def message (v : Violation) : String :=
  s!"completion received for {v.location} which was never dispatched or already completed"

def written (v : Violation) : String :=
  "ProtocolViolation \x7b location: " ++ Text.quote v.location ++ " \x7d"

end Violation

/-- What a reference is given in the end: the content fetched, or why there is none. -/
inductive Delivery where
  | content (value : String)
  | failure (reason : FetchFailure)
  deriving DecidableEq, Inhabited, Repr

namespace Delivery

def isSuccess : Delivery → Bool
  | .content _ => true
  | .failure _ => false

/-- Whether the delivery only says that its fetch was given up. -/
def isCancelled : Delivery → Bool
  | .content _ => false
  | .failure reason => reason.isCancelled

end Delivery

end SharedFetch
