import SharedFetch.Fault
import SharedFetch.Protocol
import SharedFetch.Settings
import SharedFetch.Text.Decimal

/-!
# Downloads

A protocol to try the pipeline with. References, locations and contents are numbers, and so
many consecutive references share a location. Nothing is really downloaded; each download
takes its time. The protocol counts the deliveries that it gets.

How it is run is read from three variables of the environment.
-/

namespace SharedFetch

/-- The protocol, with what it has counted. -/
structure Download where
  /-- How many consecutive references share a location. -/
  fanIn : UInt64
  /-- The contents that were delivered. -/
  processed : Nat := 0
  /-- The failures that were delivered. -/
  failed : Nat := 0
  deriving DecidableEq, Inhabited, Repr

namespace Download

/-- A numbered reference. -/
structure Ref where
  number : UInt64
  deriving DecidableEq, Inhabited, Repr

instance : Render Ref := ⟨fun r => s!"Reference({r.number.toNat})"⟩

/-- A numbered location. -/
structure Place where
  number : UInt64
  deriving DecidableEq, Inhabited, Repr

instance : Render Place := ⟨fun p => s!"Location({p.number.toNat})"⟩

/-- What is downloaded from a location. -/
structure Page where
  number : UInt64
  deriving DecidableEq, Inhabited, Repr

instance : Render Page := ⟨fun p => s!"Content({p.number.toNat})"⟩

/-- The location of a reference. There is none if no references share a location. -/
def locate? (d : Download) (r : Ref) : Option Place :=
  if d.fanIn = 0 then none else some ⟨r.number / d.fanIn⟩

/-- What a download brings in. -/
def fetch (p : Place) : Page :=
  ⟨p.number⟩

/-- Counts a delivery. -/
def receive (d : Download) (success : Bool) : Download :=
  if success then { d with processed := d.processed + 1 } else { d with failed := d.failed + 1 }

/-- A reference as the pipeline takes it. -/
def reference (d : Download) (r : Ref) : Reference where
  id := r.number.toNat
  target :=
    match d.locate? r with
    | some place => .location (.number place.number.toNat)
    | none => .panic (.text Misuse.noLocation.message)

/-- The time that a download takes, in milliseconds. -/
def duration : Nat := 10

/-! ### Options -/

/-- How the pipeline is tried. -/
structure Options where
  workers : Nat := 4
  fanIn : Nat := 3
  /-- The milliseconds after which the run is cancelled. -/
  limit : Nat := 3000
  deriving DecidableEq, Inhabited, Repr

/-- The number that a variable holds; one that is not set has a default. -/
def readVariable (name : String) (value : Option String) (default : Nat) : Except Fault Nat :=
  match value with
  | none => .ok default
  | some text =>
    match Text.readWord text with
    | .ok n => .ok n
    | .error e => .error (.within (.reading name text) (.given ⟨e.message, []⟩))

/-- The variables of the environment. -/
inductive Setting where
  | workers
  | fanIn
  | limit
  deriving DecidableEq, Inhabited, Repr

/-- The name of a variable. -/
def Setting.name : Setting → String
  | .workers => "COALESCER_WORKERS"
  | .fanIn => "COALESCER_FAN_IN"
  | .limit => "COALESCER_RUN_MS"

/-- Reads the options. At least one reference goes to a location. -/
def Options.read (value : Setting → Option String) : Except Fault Options := do
  let standard : Options := {}
  let workers ← readVariable Setting.workers.name (value .workers) standard.workers
  let fanIn ← readVariable Setting.fanIn.name (value .fanIn) standard.fanIn
  let limit ← readVariable Setting.limit.name (value .limit) standard.limit
  return { workers, fanIn := max fanIn 1, limit }

/-- The settings of a pipeline with so many workers. -/
def settings (workers : Nat) : Except Settings.Invalid Settings :=
  (({} : Settings.Draft).change (.workers workers)).build

end Download

end SharedFetch
