import SharedFetch.Fault
import SharedFetch.Tokens

/-!
# The latch

The latch remembers the first fault of a run. The first alarm triggers it: its fault is captured,
and it cancels the run's token and then the root token. Every later alarm finds the latch
triggered, is handed back unchanged and has no effect. Whether the latch is triggered and what it
has captured are kept apart; that the two always agree is a fact about latches that began without
either (`Latch.Coherent`).
-/

namespace SharedFetch

/-- What sets off the latch: a failed hook, or a fault of the pipeline in some context. -/
inductive Alarm where
  | hook (failure : HookFailure)
  | pipeline (context : String) (fault : Fault)
  deriving Inhabited

/-- The fault that an alarm carries. -/
def Alarm.fault : Alarm → Fault
  | .hook failure => .hook failure
  | .pipeline _ fault => fault

/-- The latch of a run: the tokens it cancels, whether an alarm was raised, and the fault it has
captured. -/
structure Latch where
  root : Token
  run : Token
  triggered : Bool := false
  caught : Option Fault := none
  deriving Inhabited

namespace Latch

def isTriggered (l : Latch) : Bool :=
  l.triggered

/-- The captured fault as it is reported. -/
def error? (l : Latch) : Option Fault :=
  l.caught.map .captured

/-- What an alarm brings about. -/
structure Effect where
  /-- The fault handed back to whoever raised the alarm. -/
  returned : Fault
  latch : Latch
  tokens : Tokens
  /-- The alarm, if it is the one that is logged. -/
  logged : Option Alarm

/-- Keeps a fault, unless one is kept already. -/
def capture (l : Latch) (fault : Fault) : Latch :=
  match l.caught with
  | none => { l with caught := some fault }
  | some _ => l

/-- Raises an alarm. -/
def trigger (l : Latch) (tokens : Tokens) (alarm : Alarm) : Effect :=
  if l.triggered then ⟨alarm.fault, l, tokens, none⟩
  else
    ⟨.captured alarm.fault, { l with triggered := true }.capture alarm.fault,
      (tokens.cancel l.run).cancel l.root, some alarm⟩

end Latch

end SharedFetch
