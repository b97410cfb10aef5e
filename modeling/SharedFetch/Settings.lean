import SharedFetch.Fault.Misuse

/-!
# Settings

The sizes of a pipeline and the interval of its reports. Settings are made in one of three
ways: the default, from five values at once, or by a *draft* that is changed field by field.
A draft leaves the two queues between coordinator and workers as large as the number of
workers unless they are set. Every way checks that no value is zero, and an invalid setting
is named by the first field that is zero, in the order of `Settings.Field.all`.
-/

namespace SharedFetch

/-- A span of time in seconds and nanoseconds. The seconds are a number of 64 bits. -/
structure Interval where
  seconds : Nat
  nanos : Nat
  deriving DecidableEq, Inhabited, Repr

namespace Interval

/-- The interval of so many seconds and nanoseconds, whole seconds carried over. -/
def ofParts (seconds nanos : Nat) : Except Misuse Interval :=
  if seconds + nanos / 1000000000 < UInt64.size then
    .ok ⟨seconds + nanos / 1000000000, nanos % 1000000000⟩
  else .error .longInterval

/-- The interval of so many milliseconds. -/
def ofMillis (ms : Nat) : Interval :=
  ⟨ms / 1000, ms % 1000 * 1000000⟩

/-- The interval in milliseconds, a begun one counted whole. -/
def toMillis (i : Interval) : Nat :=
  i.seconds * 1000 + (i.nanos + 999999) / 1000000

def isZero (i : Interval) : Bool :=
  i.seconds == 0 && i.nanos == 0

end Interval

/-- The sizes of a pipeline and the interval of its reports. -/
structure Settings where
  workers : Nat
  intakeCapacity : Nat
  dispatchCapacity : Nat
  completionCapacity : Nat
  interval : Interval
  deriving DecidableEq, Inhabited, Repr

namespace Settings

/-- Four workers, an intake of 1024 references, queues as large as the pool, and a report
every five seconds. -/
def standard : Settings where
  workers := 4
  intakeCapacity := 1024
  dispatchCapacity := 4
  completionCapacity := 4
  interval := ⟨5, 0⟩

/-- The fields of the settings. -/
inductive Field where
  | workers
  | intakeCapacity
  | dispatchCapacity
  | completionCapacity
  | interval
  deriving DecidableEq, Inhabited, Repr

/-- The fields in the order in which they are checked. -/
def Field.all : List Field :=
  [.workers, .intakeCapacity, .dispatchCapacity, .completionCapacity, .interval]

/-- The name of a field in messages. -/
def Field.name : Field → String
  | .workers => "worker_count"
  | .intakeCapacity => "intake_capacity"
  | .dispatchCapacity => "dispatch_capacity"
  | .completionCapacity => "completion_capacity"
  | .interval => "metrics_interval"

/-- Whether the value of a field is zero. -/
def isZero (s : Settings) : Field → Bool
  | .workers => s.workers == 0
  | .intakeCapacity => s.intakeCapacity == 0
  | .dispatchCapacity => s.dispatchCapacity == 0
  | .completionCapacity => s.completionCapacity == 0
  | .interval => s.interval.isZero

/-- The settings name a zero field. -/
structure Invalid where
  field : Field
  deriving DecidableEq, Inhabited, Repr

/-- What is said of invalid settings. -/
def Invalid.message (e : Invalid) : String :=
  s!"{e.field.name} must be greater than 0"

/-- Refuses settings with a zero field. -/
def validate (s : Settings) : Except Invalid Unit :=
  match Field.all.find? s.isZero with
  | some field => .error ⟨field⟩
  | none => .ok ()

/-- Whether the settings pass the check. -/
def isValid (s : Settings) : Bool :=
  s.validate.isOk

/-- The settings themselves if they pass the check. -/
def checked (s : Settings) : Except Invalid Settings :=
  s.validate.map fun _ => s

/-- One change of a draft. -/
inductive Change where
  | workers (n : Nat)
  | intakeCapacity (n : Nat)
  | dispatchCapacity (n : Nat)
  | completionCapacity (n : Nat)
  | interval (i : Interval)
  deriving DecidableEq, Inhabited, Repr

/-- Settings in the making: the values set so far. -/
structure Draft where
  workers : Option Nat := none
  intakeCapacity : Option Nat := none
  dispatchCapacity : Option Nat := none
  completionCapacity : Option Nat := none
  interval : Option Interval := none
  deriving DecidableEq, Inhabited, Repr

namespace Draft

/-- Sets one field, over what was set before. -/
def change (d : Draft) : Change → Draft
  | .workers n => { d with workers := some n }
  | .intakeCapacity n => { d with intakeCapacity := some n }
  | .dispatchCapacity n => { d with dispatchCapacity := some n }
  | .completionCapacity n => { d with completionCapacity := some n }
  | .interval i => { d with interval := some i }

/-- The draft after a list of changes, in order. -/
def changes (d : Draft) (cs : List Change) : Draft :=
  cs.foldl change d

/-- The values that the draft stands for. A queue between coordinator and workers that is not
set is as large as the pool, but never empty. -/
def values (d : Draft) : Settings :=
  let workers := d.workers.getD standard.workers
  { workers
    intakeCapacity := d.intakeCapacity.getD standard.intakeCapacity
    dispatchCapacity := d.dispatchCapacity.getD (max workers 1)
    completionCapacity := d.completionCapacity.getD (max workers 1)
    interval := d.interval.getD standard.interval }

/-- The settings of the draft, if they pass the check. -/
def build (d : Draft) : Except Invalid Settings :=
  d.values.checked

end Draft

end Settings

end SharedFetch
