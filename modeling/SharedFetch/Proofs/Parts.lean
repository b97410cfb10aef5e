import Mathlib.Data.List.Induction
import SharedFetch.Proofs.Tokens
import SharedFetch.Scenario.Parts

/-!
# Guards and the latch over a history of operations

Some parts of a pipeline are shared by many and have no steps of their own: the activity, with the
guards that keep fetches counted, and the latch, with its handles. What they are after any list of
operations is read off that list here, which nothing in them looks at.

The guards that are alive are those that were taken and not dropped afterwards (`liveIn`). The peak
is the highest activity at any time, for guards and for everything else that changes activity one
fetch at a time (`Activity.peak_isGreatest`).

Of the alarms in a history (`alarmsIn`) the latch has captured the first. Its handles are copies of
each other and all stand for the one latch there is, so it does not matter through which of them an
alarm is raised, or who looks. Tokens are cancelled by the first alarm, or from outside.

## Main results

* `getElem?_runFrom`: each report of a scenario comes from the state after the operations before it.
* `Activity.peak_isGreatest`: the peak is the highest activity at any time.
* `live_after`: the guards alive after any history, and how many are counted.
* `LatchBench.Traces.perform`: an operation on a latch goes on with its history.
* `LatchBench.first_alarm_wins`: what is seen of a latch after any history.
-/

namespace SharedFetch

/-! ### Activity -/

namespace Activity

/-- What one step may do to activity: a fetch begins, or one that was counted ends. -/
inductive Next (a : Activity) : Activity → Prop where
  | kept : Next a a
  | entered : Next a a.enter
  | left (hactive : 0 < a.active) : Next a a.leave

variable {a a' : Activity}

/-- The peak follows the activity. -/
theorem Next.peak (h : a.Next a') (hpeak : a.active ≤ a.peak) :
    a'.active ≤ a'.peak ∧ a'.peak = max a.peak a'.active := by
  cases h with
  | kept => exact ⟨hpeak, by omega⟩
  | entered => exact ⟨Nat.le_max_right _ _, rfl⟩
  | left hactive =>
      simp only [leave]
      omega

/-- **The peak is the highest activity at any time**, if activity changes one fetch at a time from
none. The history is a list, and `f` says what the activity is after each part of it. -/
theorem peak_isGreatest {α : Type} {f : List α → Activity} (hstart : f [] = {})
    (hnext : ∀ xs x, (f xs).Next (f (xs ++ [x]))) (xs : List α) :
    (∀ before, before <+: xs → (f before).active ≤ (f xs).peak) ∧
      ∃ before, before <+: xs ∧ (f before).active = (f xs).peak := by
  induction xs using List.reverseRecOn with
  | nil =>
      refine ⟨fun before hbefore => ?_, [], List.prefix_refl _, ?_⟩
      · obtain rfl := List.prefix_nil.mp hbefore
        simp [hstart]
      · rw [hstart]
  | append_singleton xs x ih =>
      obtain ⟨hbound, before, hbefore, hreached⟩ := ih
      obtain ⟨-, hpeak⟩ := (hnext xs x).peak (hbound xs (List.prefix_refl xs))
      constructor
      · intro part hpart
        rcases List.prefix_concat_iff.mp hpart with rfl | hpart
        · omega
        · have := hbound part hpart
          omega
      · rcases Nat.le_total (f (xs ++ [x])).active (f xs).peak with hle | hle
        · exact ⟨before, hbefore.trans (List.prefix_append _ _), by omega⟩
        · exact ⟨xs ++ [x], List.prefix_refl _, by omega⟩

end Activity

namespace Scenario

/-! ### Reports and states -/

section Runs

variable {σ α β : Type} (step : Nat → σ → α → β × σ)

/-- The state of a scenario after some steps, of which the first has the given number. -/
def stateFrom (number : Nat) (s : σ) : List α → σ
  | [] => s
  | a :: rest => stateFrom (number + 1) (step number s a).2 rest

theorem stateFrom_concat (number : Nat) (s : σ) (xs : List α) (a : α) :
    stateFrom step number s (xs ++ [a]) =
      (step (number + xs.length) (stateFrom step number s xs) a).2 := by
  induction xs generalizing number s with
  | nil => rfl
  | cons x xs ih =>
      rw [List.cons_append, stateFrom, ih, stateFrom, List.length_cons, Nat.add_right_comm]
      rfl

theorem runFrom_cons (number : Nat) (s : σ) (a : α) (rest : List α) :
    runFrom step number s (a :: rest) =
      (step number s a).1 :: runFrom step (number + 1) (step number s a).2 rest := rfl

/-- One more step adds one more report. -/
theorem runFrom_concat (number : Nat) (s : σ) (xs : List α) (a : α) :
    runFrom step number s (xs ++ [a]) =
      runFrom step number s xs ++
        [(step (number + xs.length) (stateFrom step number s xs) a).1] := by
  induction xs generalizing number s with
  | nil => rfl
  | cons x xs ih =>
      rw [List.cons_append, runFrom_cons, ih, runFrom_cons, stateFrom, List.length_cons,
        Nat.add_right_comm]
      rfl

/-- **Each report comes from the state after the steps before it.** -/
theorem getElem?_runFrom (number : Nat) (s : σ) (xs : List α) (k : Nat) :
    (runFrom step number s xs)[k]? = xs[k]?.map fun a =>
      (step (number + k) (stateFrom step number s (xs.take k)) a).1 := by
  induction xs generalizing number s k with
  | nil => rfl
  | cons x xs ih =>
      cases k with
      | zero => rfl
      | succ k =>
          rw [runFrom_cons, List.getElem?_cons_succ, ih, List.getElem?_cons_succ, List.take_succ_cons,
            stateFrom, Nat.add_right_comm]
          rfl

end Runs

/-! ### Guards -/

/-- The guards that are alive after some operations: taken, and not dropped afterwards. -/
def liveIn (actions : List GuardAction) : List Nat :=
  (List.range actions.length).filter fun name =>
    actions[name]? = some .enter && !(actions.drop (name + 1)).contains (.drop name)

/-- The guards after some operations. -/
def guardsAfter (actions : List GuardAction) : Guards :=
  stateFrom stepGuards 0 {} actions

theorem guardsAfter_concat (actions : List GuardAction) (a : GuardAction) :
    guardsAfter (actions ++ [a]) = (stepGuards actions.length (guardsAfter actions) a).2 := by
  rw [guardsAfter, stateFrom_concat, Nat.zero_add]
  rfl

/-- An operation keeps those alive that it does not drop, and may add its own. -/
theorem liveIn_concat (actions : List GuardAction) (a : GuardAction) :
    liveIn (actions ++ [a]) =
      ((liveIn actions).filter fun name => decide (.drop name ≠ a)) ++
        (if a = .enter then [actions.length] else []) := by
  have hlast : ((actions ++ [a])[actions.length]? = some .enter &&
      !((actions ++ [a]).drop (actions.length + 1)).contains (.drop actions.length)) =
        decide (a = .enter) := by
    simp
  rw [liveIn, List.length_append, List.length_singleton, List.range_succ, List.filter_append,
    List.filter_cons, hlast, List.filter_nil, liveIn, List.filter_filter]
  congr 1
  · refine List.filter_congr fun name hname => ?_
    have hlt : name < actions.length := List.mem_range.mp hname
    rw [List.getElem?_append_left hlt, List.drop_append_of_le_length hlt, List.contains_append]
    simp [Bool.and_comm, Bool.and_assoc]
  · cases a <;> rfl

theorem nodup_liveIn (actions : List GuardAction) : (liveIn actions).Nodup :=
  List.nodup_range.filter _

theorem liveIn_enter (actions : List GuardAction) :
    liveIn (actions ++ [.enter]) = liveIn actions ++ [actions.length] := by
  rw [liveIn_concat, if_pos rfl, List.filter_eq_self.mpr (by simp)]

theorem liveIn_look (actions : List GuardAction) :
    liveIn (actions ++ [.look]) = liveIn actions := by
  rw [liveIn_concat, if_neg (by simp), List.append_nil, List.filter_eq_self.mpr (by simp)]

theorem liveIn_drop (actions : List GuardAction) (name : Nat) :
    liveIn (actions ++ [.drop name]) = (liveIn actions).erase name := by
  rw [liveIn_concat, if_neg (by simp), List.append_nil, (nodup_liveIn actions).erase_eq_filter]
  exact List.filter_congr fun n _ => by simp [bne, Bool.beq_eq_decide_eq]

/-- **The guards that are kept are those alive**, in the order in which they were taken, and as many
are counted. -/
theorem live_after (actions : List GuardAction) :
    (guardsAfter actions).live = liveIn actions ∧
      (guardsAfter actions).activity.active = (liveIn actions).length := by
  induction actions using List.reverseRecOn with
  | nil => exact ⟨rfl, rfl⟩
  | append_singleton actions a ih =>
      obtain ⟨hlive, hactive⟩ := ih
      rw [guardsAfter_concat]
      cases a with
      | enter =>
          rw [liveIn_enter]
          simp [stepGuards, Guards.enter, Activity.enter, hlive, hactive]
      | look =>
          rw [liveIn_look]
          exact ⟨hlive, hactive⟩
      | drop name =>
          rw [liveIn_drop]
          by_cases hmem : name ∈ liveIn actions
          · simp [stepGuards, Guards.drop, Activity.leave, hlive, hactive, hmem]
          · simp [stepGuards, Guards.drop, hlive, hactive, hmem, List.erase_of_not_mem hmem]

/-- A guard that is dropped was counted. -/
theorem active_after_drop {actions : List GuardAction} {name : Nat} (h : name ∈ liveIn actions) :
    (guardsAfter (actions ++ [.drop name])).activity.active + 1 =
      (guardsAfter actions).activity.active := by
  rw [(live_after _).2, (live_after _).2, liveIn_drop, List.length_erase_of_mem h]
  exact Nat.succ_pred_eq_of_pos (List.length_pos_of_mem h)

/-- Each report shows the activity after its operation. -/
theorem activity_runGuards (actions : List GuardAction) {k : Nat} (hk : k < actions.length) :
    (runGuards actions)[k]?.map Prod.snd = some (guardsAfter (actions.take (k + 1))).activity := by
  rw [runGuards, getElem?_runFrom, List.getElem?_eq_getElem hk, List.take_succ_eq_append_getElem hk,
    guardsAfter_concat, List.length_take_of_le (Nat.le_of_lt hk), Nat.zero_add]
  simp only [Option.map_some, guardsAfter]
  cases actions[k] <;> rfl

/-- An operation on guards changes the activity by one fetch at most, and drops none that is not
counted. -/
theorem next_after (actions : List GuardAction) (a : GuardAction) :
    (guardsAfter actions).activity.Next (guardsAfter (actions ++ [a])).activity := by
  obtain ⟨hlive, hactive⟩ := live_after actions
  rw [guardsAfter_concat]
  cases a with
  | enter => exact .entered
  | look => exact .kept
  | drop name =>
      simp only [stepGuards, Guards.drop]
      split
      · rename_i hmem
        rw [hlive, List.contains_iff_mem] at hmem
        exact .left (hactive ▸ List.length_pos_of_mem hmem)
      · exact .kept

/-! ### The latch -/

/-- The token of the run. The root is the first token that is made. -/
def Topology.runToken : Topology → Token
  | .same => 0
  | .child | .separate => 1

/-- The parents of the tokens. -/
def Topology.parents : Topology → List (Option Token)
  | .child => [none, some 0]
  | .same => [none]
  | .separate => [none, none]

/-- The alarm that an operation raises. -/
def LatchAction.alarm? : LatchAction → Option Alarm
  | .raise alarm _ => some alarm
  | _ => none

/-- The tokens that are cancelled after an operation whatever was before. -/
def LatchAction.targets (topology : Topology) : LatchAction → List Token
  | .raise .. => [topology.runToken, 0]
  | .cancelRoot _ => [0]
  | .cancelRun _ => [topology.runToken]
  | .clone _ | .look _ => []

/-- Whether an operation copies a handle. -/
def LatchAction.isClone : LatchAction → Bool
  | .clone _ => true
  | _ => false

/-- The alarms of a history, in order. -/
def alarmsIn (as : List LatchAction) : List Alarm :=
  as.filterMap LatchAction.alarm?

@[simp] theorem alarmsIn_append (as bs : List LatchAction) :
    alarmsIn (as ++ bs) = alarmsIn as ++ alarmsIn bs :=
  List.filterMap_append

@[simp] theorem alarmsIn_singleton (a : LatchAction) : alarmsIn [a] = a.alarm?.toList := by
  cases a <;> rfl

theorem alarmsIn_ne_nil_iff {as : List LatchAction} :
    alarmsIn as ≠ [] ↔ ∃ alarm handle, .raise alarm handle ∈ as := by
  constructor
  · intro hne
    obtain ⟨alarm, halarm⟩ := List.exists_mem_of_ne_nil _ hne
    obtain ⟨a, ha, heq⟩ := List.mem_filterMap.mp halarm
    cases a with
    | raise raised handle => exact ⟨raised, handle, ha⟩
    | clone | cancelRoot | cancelRun | look => cases heq
  · rintro ⟨alarm, handle, hmem⟩
    exact List.ne_nil_of_mem (List.mem_filterMap.mpr ⟨_, hmem, rfl⟩)

/-- The fault that an answer hands back. -/
def Answer.fault? : Answer → Option Fault
  | .failed fault => some fault
  | _ => none

namespace LatchBench

variable {topology : Topology} {as : List LatchAction} {b : LatchBench}

/-- The bench after a list of operations. -/
def after (b : LatchBench) (as : List LatchAction) : LatchBench :=
  stateFrom (fun _ => step) 0 b as

theorem after_concat (b : LatchBench) (as : List LatchAction) (a : LatchAction) :
    b.after (as ++ [a]) = ((b.after as).perform a).2 := by
  rw [after, stateFrom_concat]
  rfl

/-- The latch that a history leaves: it is triggered if there was an alarm, and has captured the
fault of the first one. -/
def latchAfter (topology : Topology) (as : List LatchAction) : Latch where
  root := 0
  run := topology.runToken
  triggered := !(alarmsIn as).isEmpty
  caught := (alarmsIn as).head?.map Alarm.fault

/-- A bench is what a history has made of it: every handle stands for one latch, which has captured
what came first, and those tokens are cancelled that some operation has cancelled. -/
structure Traces (topology : Topology) (as : List LatchAction) (b : LatchBench) : Prop where
  latches : b.latches = [latchAfter topology as]
  handles : ∀ place ∈ b.handles, place = 0
  copies : b.handles.length = 1 + as.countP LatchAction.isClone
  rootToken : b.rootToken = 0
  runToken : b.runToken = topology.runToken
  parents : b.tokens.parents = topology.parents
  fired : ∀ token, token ∈ b.tokens.fired ↔ ∃ a ∈ as, token ∈ a.targets topology

theorem traces_make (topology : Topology) : Traces topology [] (make topology) := by
  cases topology <;> constructor <;> simp [make, latchAfter, alarmsIn, Tokens.fresh, Tokens.child,
    Topology.runToken, Topology.parents]

namespace Traces

/-- Every handle stands for the same latch. -/
theorem place_eq (h : Traces topology as b) (handle : Nat) : b.place handle = 0 := by
  rw [place, List.getD_eq_getElem?_getD]
  cases hplace : b.handles[min handle (b.handles.length - 1)]? with
  | none => rfl
  | some place => exact h.handles place (List.mem_of_getElem? hplace)

theorem through_eq (h : Traces topology as b) (handle : Nat) :
    b.through handle = latchAfter topology as := by
  rw [through, h.place_eq, h.latches]
  rfl

/-- What was cancelled before, and what the last operation cancels. -/
theorem exists_targets_append {a : LatchAction} {token : Token} :
    (∃ c ∈ as ++ [a], token ∈ c.targets topology) ↔
      (∃ c ∈ as, token ∈ c.targets topology) ∨ token ∈ a.targets topology := by
  simp only [List.mem_append, List.mem_singleton, or_and_right, exists_or, exists_eq_left]

/-- Whether the latch is triggered agrees with what it has captured. -/
theorem coherent_latchAfter (topology : Topology) (as : List LatchAction) :
    (latchAfter topology as).Coherent := by
  cases halarms : alarmsIn as <;> simp [Latch.Coherent, latchAfter, halarms]

/-- An operation that raises no alarm leaves the latch alone. -/
theorem latchAfter_append {a : LatchAction} (ha : a.alarm? = none) :
    latchAfter topology (as ++ [a]) = latchAfter topology as := by
  simp [latchAfter, ha]

/-- The first alarm is captured, and cancels both tokens. -/
theorem raise_first (h : Traces topology as b) (hfirst : alarmsIn as = []) (alarm : Alarm)
    (handle : Nat) :
    b.perform (.raise alarm handle) = ((.failed (.captured alarm.fault), some alarm),
      { b with
        latches := [latchAfter topology (as ++ [.raise alarm handle])]
        tokens := (b.tokens.cancel topology.runToken).cancel 0 }) := by
  have hunset : (latchAfter topology as).triggered = false := by simp [latchAfter, hfirst]
  have hlatch : latchAfter topology (as ++ [.raise alarm handle]) =
      { latchAfter topology as with triggered := true }.capture alarm.fault := by
    simp [latchAfter, hfirst, LatchAction.alarm?, Latch.capture]
  simp only [LatchBench.perform, h.through_eq, h.place_eq, h.latches, Latch.trigger, hunset, hlatch]
  rfl

/-- A later alarm is handed back and changes nothing. -/
theorem raise_later (h : Traces topology as b) (hlater : alarmsIn as ≠ []) (alarm : Alarm)
    (handle : Nat) : b.perform (.raise alarm handle) = ((.failed alarm.fault, none), b) := by
  have htriggered : (latchAfter topology as).triggered = true := by simp [latchAfter, hlater]
  have hset : b.latches.set 0 (latchAfter topology as) = b.latches := by rw [h.latches]; rfl
  simp only [LatchBench.perform, h.through_eq, h.place_eq, Latch.trigger, htriggered, hset, if_true]

/-- An alarm goes on with the history. -/
theorem raise (h : Traces topology as b) (alarm : Alarm) (handle : Nat) :
    Traces topology (as ++ [.raise alarm handle]) (b.perform (.raise alarm handle)).2 := by
  by_cases hfirst : alarmsIn as = []
  · rw [h.raise_first hfirst]
    refine ⟨rfl, h.handles, ?_, h.rootToken, h.runToken, ?_, fun token => ?_⟩
    · simpa [LatchAction.isClone] using h.copies
    · rw [Tokens.parents_cancel, Tokens.parents_cancel, h.parents]
    · rw [Tokens.mem_fired_cancel, Tokens.mem_fired_cancel, h.fired, exists_targets_append, or_assoc]
      simp [LatchAction.targets]
  · rw [h.raise_later hfirst]
    obtain ⟨earlier, handle', hmem⟩ := alarmsIn_ne_nil_iff.mp hfirst
    refine ⟨?_, h.handles, ?_, h.rootToken, h.runToken, h.parents, fun token => ?_⟩
    · obtain ⟨first, rest, halarms⟩ := List.exists_cons_of_ne_nil hfirst
      rw [h.latches]
      simp [latchAfter, halarms]
    · simpa [LatchAction.isClone] using h.copies
    · -- an earlier alarm has cancelled what this one would
      rw [h.fired, exists_targets_append]
      exact ⟨.inl, fun htoken => htoken.elim id fun htarget => ⟨_, hmem, htarget⟩⟩

/-- A token is cancelled from outside. -/
theorem cancel (h : Traces topology as b) {a : LatchAction} {token : Token} (halarm : a.alarm? = none)
    (hclone : a.isClone = false) (htargets : a.targets topology = [token]) :
    Traces topology (as ++ [a]) { b with tokens := b.tokens.cancel token } := by
  refine ⟨?_, h.handles, ?_, h.rootToken, h.runToken, ?_, fun other => ?_⟩
  · rw [latchAfter_append halarm]
    exact h.latches
  · simpa [hclone] using h.copies
  · rw [Tokens.parents_cancel, h.parents]
  · rw [Tokens.mem_fired_cancel, h.fired, exists_targets_append, htargets, List.mem_singleton]

/-- **An operation goes on with the history.** -/
theorem perform (h : Traces topology as b) (a : LatchAction) :
    Traces topology (as ++ [a]) (b.perform a).2 := by
  cases a with
  | raise alarm handle => exact h.raise alarm handle
  | clone handle =>
      refine ⟨?_, fun place hplace => ?_, ?_, h.rootToken, h.runToken, h.parents, fun token => ?_⟩
      · rw [latchAfter_append rfl]
        exact h.latches
      · rw [LatchBench.perform, List.mem_append, List.mem_singleton, h.place_eq] at hplace
        exact hplace.elim (h.handles place) id
      · simp [LatchBench.perform, h.copies, LatchAction.isClone, Nat.add_assoc]
      · rw [exists_targets_append, ← h.fired]
        simp [LatchBench.perform, LatchAction.targets]
  | cancelRoot handle =>
      have htraces := h.cancel (a := .cancelRoot handle) rfl rfl rfl
      rwa [← h.rootToken] at htraces
  | cancelRun handle =>
      have htraces := h.cancel (a := .cancelRun handle) rfl rfl rfl
      rwa [← h.runToken] at htraces
  | look handle =>
      refine ⟨?_, h.handles, ?_, h.rootToken, h.runToken, h.parents, fun token => ?_⟩
      · rw [latchAfter_append rfl]
        exact h.latches
      · simpa [LatchBench.perform, LatchAction.isClone] using h.copies
      · rw [exists_targets_append, ← h.fired]
        simp [LatchBench.perform, LatchAction.targets]

/-- What operations cancel a token by itself. -/
theorem exists_targets_iff {token : Token} :
    (∃ a ∈ as, token ∈ a.targets topology) ↔
      (token = topology.runToken ∨ token = 0) ∧ alarmsIn as ≠ [] ∨
      token = 0 ∧ (∃ handle, .cancelRoot handle ∈ as) ∨
      token = topology.runToken ∧ ∃ handle, .cancelRun handle ∈ as := by
  rw [alarmsIn_ne_nil_iff]
  constructor
  · rintro ⟨a, ha, htarget⟩
    cases a with
    | raise alarm handle => exact .inl ⟨by simpa [LatchAction.targets] using htarget, alarm, handle, ha⟩
    | cancelRoot handle => exact .inr (.inl ⟨List.mem_singleton.mp htarget, handle, ha⟩)
    | cancelRun handle => exact .inr (.inr ⟨List.mem_singleton.mp htarget, handle, ha⟩)
    | clone | look => cases htarget
  · rintro (⟨htoken, alarm, handle, ha⟩ | ⟨htoken, handle, ha⟩ | ⟨htoken, handle, ha⟩)
    · exact ⟨_, ha, by simpa [LatchAction.targets] using htoken⟩
    · exact ⟨_, ha, List.mem_singleton.mpr htoken⟩
    · exact ⟨_, ha, List.mem_singleton.mpr htoken⟩

/-- **Who cancels the root**: an alarm, or whoever cancels it directly. -/
theorem isCancelled_root (h : Traces topology as b) :
    b.tokens.isCancelled b.rootToken = true ↔
      alarmsIn as ≠ [] ∨ (∃ handle, .cancelRoot handle ∈ as) ∨
        topology = .same ∧ ∃ handle, .cancelRun handle ∈ as := by
  have hown : b.tokens.isCancelled b.rootToken = true ↔ 0 ∈ b.tokens.fired := by
    rw [h.rootToken, Tokens.isCancelled, Tokens.parent?, h.parents]
    cases topology <;> simp [Topology.parents]
  rw [hown, h.fired, exists_targets_iff]
  cases topology <;> simp [Topology.runToken]

/-- **Who cancels the run**: an alarm, whoever cancels it directly, or whoever cancels a root that
is the same or above it. -/
theorem isCancelled_run (h : Traces topology as b) :
    b.tokens.isCancelled b.runToken = true ↔
      alarmsIn as ≠ [] ∨ (∃ handle, .cancelRun handle ∈ as) ∨
        topology ≠ .separate ∧ ∃ handle, .cancelRoot handle ∈ as := by
  have hown : b.tokens.isCancelled b.runToken = true ↔
      topology.runToken ∈ b.tokens.fired ∨ topology = .child ∧ 0 ∈ b.tokens.fired := by
    rw [h.runToken, Tokens.isCancelled, Tokens.parent?, h.parents]
    cases topology <;> simp [Topology.runToken, Topology.parents]
  rw [hown, h.fired, h.fired, exists_targets_iff, exists_targets_iff]
  cases topology <;> simp [Topology.runToken] <;> grind

end Traces

theorem traces_after (topology : Topology) (as : List LatchAction) :
    Traces topology as ((make topology).after as) := by
  induction as using List.reverseRecOn with
  | nil => exact traces_make topology
  | append_singleton as a ih =>
      rw [after_concat]
      exact ih.perform a

/-! ### What is seen of a latch -/

theorem run_concat (b : LatchBench) (as : List LatchAction) (a : LatchAction) :
    b.run (as ++ [a]) = b.run as ++ [((b.after as).step a).1] := by
  rw [run, runFrom_concat]
  rfl

/-- **Only the first alarm is logged**, and it is handed back as it is captured; later ones are
handed back as they are. -/
theorem logged_run (topology : Topology) (as : List LatchAction) :
    ((make topology).run as).filterMap LatchReport.logged = (alarmsIn as).head?.toList ∧
      (((make topology).run as).filterMap fun r => r.answer.fault?) =
        ((alarmsIn as).head?.toList.map fun first => .captured first.fault) ++
          (alarmsIn as).tail.map Alarm.fault := by
  induction as using List.reverseRecOn with
  | nil => exact ⟨rfl, rfl⟩
  | append_singleton as a ih =>
      have htraces := traces_after topology as
      rw [run_concat, List.filterMap_append, List.filterMap_append, ih.1, ih.2, alarmsIn_append]
      cases a with
      | raise alarm handle =>
          by_cases hfirst : alarmsIn as = []
          · simp [step, htraces.raise_first hfirst, hfirst, LatchAction.alarm?, Answer.fault?]
          · obtain ⟨first, rest, halarms⟩ := List.exists_cons_of_ne_nil hfirst
            simp [step, htraces.raise_later hfirst, halarms, LatchAction.alarm?, Answer.fault?]
      | clone | cancelRoot | cancelRun | look =>
          simp [step, LatchBench.perform, LatchAction.alarm?, Answer.fault?]

/-- What a report shows is seen through some handle after the operations up to it. -/
theorem exists_of_report {as : List LatchAction} {k : Nat} {r : LatchReport} {b : LatchBench}
    (h : (b.run as)[k]? = some r) :
    ∃ handle,
      let c := b.after (as.take (k + 1))
      r.triggered = (c.through handle).isTriggered ∧ r.error = (c.through handle).error? ∧
        r.rootCancelled = c.tokens.isCancelled c.rootToken ∧
        r.runCancelled = c.tokens.isCancelled c.runToken := by
  rw [run, getElem?_runFrom] at h
  obtain ⟨a, ha, rfl⟩ := Option.map_eq_some_iff.mp h
  have hafter : b.after (as.take (k + 1)) = ((b.after (as.take k)).perform a).2 := by
    rw [List.take_add_one, ha, Option.toList_some, after_concat]
  refine ⟨a.handle, ?_⟩
  rw [hafter]
  exact ⟨rfl, rfl, rfl, rfl⟩

/-- **The first alarm wins.** After any history of operations through any handles, whether the run's
token is a child of the root, the root itself or apart from it: there is one handle more than were
copied, and all see the same. Whether the latch is triggered agrees with whether it has captured a
fault; it is triggered, and shows an error, exactly if an alarm was raised; the error is that of the
first alarm, with its text, and the text and the whole chain of that alarm's fault under it. Of all
alarms only the first is logged; it is handed back as captured, the others as they are, and these
change nothing at all. Both tokens are cancelled from the first alarm on. Otherwise the root is
cancelled only directly, or through a run token that is the root itself, and the run's token
directly or by cancelling a root that is the same or above it. The reports of the operations show
these things after each of them. -/
theorem first_alarm_wins (topology : Topology) (as : List LatchAction) :
    let b := (make topology).after as
    let alarms := alarmsIn as
    let reports := (make topology).run as
    b.handles.length = 1 + as.countP LatchAction.isClone ∧
    (∀ handle other, b.through handle = b.through other) ∧
    (∀ handle, (b.through handle).Coherent ∧
      ((b.through handle).isTriggered = true ↔ alarms ≠ []) ∧
      ((b.through handle).error?.isSome = true ↔ alarms ≠ [])) ∧
    (∀ first rest, alarms = first :: rest → ∀ handle, ∃ fault,
      (b.through handle).error? = some fault ∧ fault.message = first.fault.message ∧
        fault.texts = first.fault.message :: first.fault.texts) ∧
    reports.filterMap LatchReport.logged = alarms.head?.toList ∧
    (reports.filterMap fun r => r.answer.fault?) =
      (alarms.head?.toList.map fun first => .captured first.fault) ++ alarms.tail.map Alarm.fault ∧
    (∀ alarm handle, alarms ≠ [] →
      b.perform (.raise alarm handle) = ((.failed alarm.fault, none), b)) ∧
    (b.tokens.isCancelled b.rootToken = true ↔ alarms ≠ [] ∨ (∃ handle, .cancelRoot handle ∈ as) ∨
      topology = .same ∧ ∃ handle, .cancelRun handle ∈ as) ∧
    (b.tokens.isCancelled b.runToken = true ↔ alarms ≠ [] ∨ (∃ handle, .cancelRun handle ∈ as) ∨
      topology ≠ .separate ∧ ∃ handle, .cancelRoot handle ∈ as) ∧
    (∀ k r, reports[k]? = some r → ∃ handle,
      let c := (make topology).after (as.take (k + 1))
      r.triggered = (c.through handle).isTriggered ∧ r.error = (c.through handle).error? ∧
        r.rootCancelled = c.tokens.isCancelled c.rootToken ∧
        r.runCancelled = c.tokens.isCancelled c.runToken) := by
  intro b alarms reports
  have htraces : Traces topology as b := traces_after topology as
  obtain ⟨hlogged, hreturned⟩ := logged_run topology as
  have hthrough := htraces.through_eq
  refine ⟨htraces.copies, ?_, ?_, ?_, hlogged, hreturned, ?_, htraces.isCancelled_root,
    htraces.isCancelled_run, fun k r => exists_of_report⟩
  · intro handle other
    rw [hthrough, hthrough]
  · intro handle
    rw [hthrough]
    refine ⟨Traces.coherent_latchAfter topology as, ?_, ?_⟩
    · simp [alarms, Latch.isTriggered, latchAfter]
    · simp [alarms, Latch.error?, latchAfter]
  · intro first rest halarms handle
    refine ⟨.captured first.fault, ?_, rfl, rfl⟩
    rw [hthrough, Latch.error?, latchAfter, show alarmsIn as = first :: rest from halarms]
    rfl
  · exact fun alarm handle hlater => htraces.raise_later hlater alarm handle

end LatchBench

end Scenario

end SharedFetch
