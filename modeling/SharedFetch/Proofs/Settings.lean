import SharedFetch.Settings

/-!
# Drafts and the settings that they ask for

A draft is changed field by field, and what it comes to is checked like settings that are given at
once. Here the two ways are compared. What a list of changes asks for (`asked`) is read off the list
itself: a field has the value that it was given last, a queue between coordinator and workers that
was given none is as large as the pool, and the other fields are as in the standard settings.

A draft takes such a queue to have at least one place, also for a pool without workers. That makes
no difference to the result, since the number of workers is checked first (`build_changes`).

## Main results

* `validate_eq_error_iff`, `validate_eq_ok_iff`: the check names the first field that is zero.
* `Draft.get_changes`: the last value of a field is the one that counts.
* `Draft.build_agrees`: a draft comes to the settings that its changes ask for, or to the same
  refusal.
-/

namespace SharedFetch

theorem Interval.isZero_iff (i : Interval) : i.isZero = true ↔ i = ⟨0, 0⟩ := by
  cases i
  simp [isZero]

namespace Settings

/-! ### The check -/

theorem Field.mem_all (f : Field) : f ∈ Field.all := by
  cases f <;> decide

variable {s t : Settings} {f : Field}

/-- **The check names the first zero field**, in the order of the fields. -/
theorem validate_eq_error_iff :
    s.validate = .error ⟨f⟩ ↔ ∃ front back, Field.all = front ++ f :: back ∧
      s.isZero f = true ∧ ∀ g ∈ front, s.isZero g = false := by
  have hfind : s.validate = .error ⟨f⟩ ↔ Field.all.find? s.isZero = some f := by
    rw [validate]
    cases Field.all.find? s.isZero <;> simp
  rw [hfind, List.find?_eq_some_iff_append]
  constructor
  · rintro ⟨hzero, front, back, hall, hfront⟩
    exact ⟨front, back, hall, hzero, fun g hg => by simpa using hfront g hg⟩
  · rintro ⟨front, back, hall, hzero, hfront⟩
    exact ⟨hzero, front, back, hall, fun g hg => by simpa using hfront g hg⟩

theorem validate_eq_ok_iff : s.validate = .ok () ↔ ∀ f, s.isZero f = false := by
  have hfind : s.validate = .ok () ↔ Field.all.find? s.isZero = none := by
    rw [validate]
    cases Field.all.find? s.isZero <;> simp
  rw [hfind, List.find?_eq_none]
  exact ⟨fun h f => by simpa using h f f.mem_all, fun h f _ => by simp [h f]⟩

/-- No field is zero. -/
theorem forall_isZero_eq_false_iff :
    (∀ f, s.isZero f = false) ↔ 0 < s.workers ∧ 0 < s.intakeCapacity ∧
      0 < s.dispatchCapacity ∧ 0 < s.completionCapacity ∧ s.interval ≠ ⟨0, 0⟩ := by
  have hinterval : s.interval.isZero = false ↔ s.interval ≠ ⟨0, 0⟩ := by
    rw [← Bool.not_eq_true, Interval.isZero_iff]
  constructor
  · intro h
    have hworkers := h .workers
    have hintake := h .intakeCapacity
    have hdispatch := h .dispatchCapacity
    have hcompletion := h .completionCapacity
    simp only [isZero, beq_eq_false_iff_ne, Nat.ne_zero_iff_zero_lt] at *
    exact ⟨hworkers, hintake, hdispatch, hcompletion, hinterval.mp (h .interval)⟩
  · rintro ⟨hworkers, hintake, hdispatch, hcompletion, hpositive⟩ f
    cases f with
    | interval => exact hinterval.mpr hpositive
    | workers | intakeCapacity | dispatchCapacity | completionCapacity =>
        simp only [isZero, beq_eq_false_iff_ne]
        omega

theorem checked_eq_ok_iff : s.checked = .ok t ↔ t = s ∧ s.validate = .ok () := by
  rw [checked]
  cases s.validate <;> simp [Except.map, eq_comm]

theorem checked_eq_error_iff {e : Invalid} : s.checked = .error e ↔ s.validate = .error e := by
  rw [checked]
  cases s.validate <;> simp [Except.map]

/-- Whatever passes the check passes it again. -/
theorem validate_of_checked (h : s.checked = .ok t) : t.validate = .ok () := by
  obtain ⟨rfl, hvalid⟩ := checked_eq_ok_iff.mp h
  exact hvalid

/-- Without workers nothing else is looked at. -/
theorem checked_of_workers_eq_zero (h : s.workers = 0) : s.checked = .error ⟨.workers⟩ :=
  checked_eq_error_iff.mpr (validate_eq_error_iff.mpr
    ⟨[], _, rfl, by simp [isZero, h], by simp⟩)

/-- The text of a refusal tells which field is refused. -/
theorem eq_of_message_eq {g : Field} (h : Invalid.message ⟨f⟩ = Invalid.message ⟨g⟩) : f = g := by
  cases f <;> cases g <;> simp_all [Invalid.message, Field.name, toString]

/-! ### Changes -/

/-- What the values of a field are. -/
abbrev Field.Value : Field → Type
  | .interval => Interval
  | .workers | .intakeCapacity | .dispatchCapacity | .completionCapacity => Nat

/-- The field that a change sets. -/
def Change.field : Change → Field
  | .workers _ => .workers
  | .intakeCapacity _ => .intakeCapacity
  | .dispatchCapacity _ => .dispatchCapacity
  | .completionCapacity _ => .completionCapacity
  | .interval _ => .interval

/-- The value that a change gives to a field, if that is the one it sets. -/
def Change.value? : (f : Field) → Change → Option f.Value
  | .workers, .workers n => some n
  | .intakeCapacity, .intakeCapacity n => some n
  | .dispatchCapacity, .dispatchCapacity n => some n
  | .completionCapacity, .completionCapacity n => some n
  | .interval, .interval i => some i
  | _, _ => none

/-- The value that a field was given last in a list of changes. -/
def last? (f : Field) (cs : List Change) : Option f.Value :=
  (cs.filterMap (Change.value? f)).getLast?

/-- The settings that a list of changes asks for. -/
def asked (cs : List Change) : Settings :=
  let workers : Nat := (last? .workers cs).getD standard.workers
  { workers
    intakeCapacity := (last? .intakeCapacity cs).getD standard.intakeCapacity
    dispatchCapacity := (last? .dispatchCapacity cs).getD workers
    completionCapacity := (last? .completionCapacity cs).getD workers
    interval := (last? .interval cs).getD standard.interval }

theorem last?_cons (f : Field) (c : Change) (cs : List Change) :
    last? f (c :: cs) = (last? f cs).or (c.value? f) := by
  rw [last?, last?, List.filterMap_cons]
  cases c.value? f with
  | none => rw [Option.or_none]
  | some value =>
      rw [List.getLast?_cons]
      cases (cs.filterMap (Change.value? f)).getLast? <;> rfl

namespace Draft

/-- The value of a field that is set in a draft. -/
def get (d : Draft) : (f : Field) → Option f.Value
  | .workers => d.workers
  | .intakeCapacity => d.intakeCapacity
  | .dispatchCapacity => d.dispatchCapacity
  | .completionCapacity => d.completionCapacity
  | .interval => d.interval

/-- A change sets its field and leaves the others. -/
theorem get_change (d : Draft) (c : Change) (f : Field) :
    (d.change c).get f = (c.value? f).or (d.get f) := by
  cases f <;> cases c <;> rfl

/-- **The last value of a field is the one that counts.** -/
theorem get_changes (d : Draft) (cs : List Change) (f : Field) :
    (d.changes cs).get f = (last? f cs).or (d.get f) := by
  induction cs generalizing d with
  | nil => rfl
  | cons c cs ih =>
      calc (d.changes (c :: cs)).get f
          = (last? f cs).or ((d.change c).get f) := ih (d.change c)
        _ = ((last? f cs).or (c.value? f)).or (d.get f) := by rw [get_change, Option.or_assoc]
        _ = (last? f (c :: cs)).or (d.get f) := by rw [last?_cons]

/-- Changes of different fields can be made in either order. -/
theorem change_comm (d : Draft) {c c' : Change} (h : c.field ≠ c'.field) :
    (d.change c).change c' = (d.change c').change c := by
  cases c <;> cases c' <;> simp_all [Change.field, change]

/-- What a draft stands for after a list of changes. Only without workers is that not what was asked
for: the queues have a place then. -/
theorem values_changes (cs : List Change) :
    (({} : Draft).changes cs).values = { asked cs with
      dispatchCapacity := (last? .dispatchCapacity cs).getD (max (asked cs).workers 1)
      completionCapacity := (last? .completionCapacity cs).getD (max (asked cs).workers 1) } := by
  have hget : ∀ f, (({} : Draft).changes cs).get f = last? f cs := by
    intro f
    rw [get_changes]
    cases f <;> exact Option.or_none
  have hworkers : (({} : Draft).changes cs).workers = last? .workers cs := hget .workers
  have hintake : (({} : Draft).changes cs).intakeCapacity = last? .intakeCapacity cs :=
    hget .intakeCapacity
  have hdispatch : (({} : Draft).changes cs).dispatchCapacity = last? .dispatchCapacity cs :=
    hget .dispatchCapacity
  have hcompletion : (({} : Draft).changes cs).completionCapacity = last? .completionCapacity cs :=
    hget .completionCapacity
  have hinterval : (({} : Draft).changes cs).interval = last? .interval cs := hget .interval
  rw [values, hworkers, hintake, hdispatch, hcompletion, hinterval]
  rfl

/-- **A draft comes to what its changes ask for**, or to the same refusal. -/
theorem build_changes (cs : List Change) :
    (({} : Draft).changes cs).build = (asked cs).checked := by
  rw [build, values_changes]
  by_cases hworkers : (asked cs).workers = 0
  · rw [checked_of_workers_eq_zero (s := asked cs) hworkers]
    exact checked_of_workers_eq_zero hworkers
  · rw [Nat.max_eq_left (Nat.one_le_iff_ne_zero.mpr hworkers)]
    rfl

end Draft

/-- A queue that was not given a size is not what settings are refused for: it is as large as the
pool, which is looked at before. -/
theorem checked_asked_ne_error {cs : List Change} (hunset : last? f cs = none)
    (hqueue : f = .dispatchCapacity ∨ f = .completionCapacity) :
    (asked cs).checked ≠ .error ⟨f⟩ := by
  intro herror
  obtain ⟨front, back, hall, hzero, hfront⟩ :=
    validate_eq_error_iff.mp (checked_eq_error_iff.mp herror)
  have hsame : (asked cs).isZero f = (asked cs).isZero .workers := by
    rcases hqueue with rfl | rfl <;> simp [isZero, asked, hunset]
  have hbefore : Field.workers ∈ front := by
    rcases front with _ | ⟨g, front⟩
    · rcases hqueue with rfl | rfl <;> cases hall
    · rw [Field.all, List.cons_append, List.cons.injEq] at hall
      exact hall.1 ▸ List.mem_cons_self
  cases (hfront _ hbefore).symm.trans (hsame.symm.trans hzero)

namespace Draft

/-- **Draft and direct settings agree.** Whatever list of changes is made to an empty draft, in
whatever order and however often, the draft comes to the same as the settings that the changes ask
for when they are given at once. That is those settings themselves exactly if none of their values
is zero; otherwise the first field that is zero is named, and the text of the refusal tells which it
is. The order of two changes of different fields does not matter, a queue that was not given a size
is never what is refused, and whatever settings are had, from the standard ones, from values at once
or from a draft, pass the check. -/
theorem build_agrees (cs : List Change) :
    let built := (({} : Draft).changes cs).build
    let s := asked cs
    built = s.checked ∧
    ((∃ t, built = .ok t) ↔ 0 < s.workers ∧ 0 < s.intakeCapacity ∧ 0 < s.dispatchCapacity ∧
      0 < s.completionCapacity ∧ s.interval ≠ ⟨0, 0⟩) ∧
    (∀ t, built = .ok t → t = s) ∧
    (∀ f, built = .error ⟨f⟩ ↔ ∃ front back, Field.all = front ++ f :: back ∧
      s.isZero f = true ∧ ∀ g ∈ front, s.isZero g = false) ∧
    (∀ f g, Invalid.message ⟨f⟩ = Invalid.message ⟨g⟩ → f = g) ∧
    (∀ before after c c', cs = before ++ c :: c' :: after → c.field ≠ c'.field →
      (({} : Draft).changes (before ++ c' :: c :: after)) = ({} : Draft).changes cs) ∧
    (∀ f, f = .dispatchCapacity ∨ f = .completionCapacity → last? f cs = none →
      built ≠ .error ⟨f⟩) ∧
    standard.validate = .ok () ∧ (∀ values t : Settings, values.checked = .ok t → t.validate = .ok ()) ∧
    (∀ t, built = .ok t → t.validate = .ok ()) := by
  intro built s
  have hbuilt : built = s.checked := build_changes cs
  have hvalid : (∃ t, built = .ok t) ↔ ∀ f, s.isZero f = false := by
    rw [hbuilt, ← validate_eq_ok_iff]
    constructor
    · rintro ⟨t, ht⟩
      exact (checked_eq_ok_iff.mp ht).2
    · exact fun h => ⟨s, checked_eq_ok_iff.mpr ⟨rfl, h⟩⟩
  refine ⟨hbuilt, hvalid.trans forall_isZero_eq_false_iff, ?_, ?_, ?_, ?_, ?_, rfl, ?_, ?_⟩
  · exact fun t ht => (checked_eq_ok_iff.mp (hbuilt ▸ ht)).1
  · intro f
    rw [hbuilt, checked_eq_error_iff, validate_eq_error_iff]
  · exact fun f g => eq_of_message_eq
  · rintro before after c c' rfl hfields
    simp only [changes, List.foldl_append, List.foldl_cons]
    rw [change_comm _ hfields]
  · exact fun f hqueue hunset => hbuilt ▸ checked_asked_ne_error hunset hqueue
  · exact fun values t => validate_of_checked
  · exact fun t ht => validate_of_checked (hbuilt ▸ ht)

/-- Workers that are first set to none and queues that follow the later number: only the queue that
was given no place is refused, and once it has one nothing is. -/
example :
    (({} : Draft).changes [.workers 0, .dispatchCapacity 0, .workers 9]).build =
        .error ⟨.dispatchCapacity⟩ ∧
      (({} : Draft).changes [.workers 0, .dispatchCapacity 0, .workers 9, .dispatchCapacity 2]).build =
        .ok ⟨9, 1024, 2, 9, ⟨5, 0⟩⟩ :=
  ⟨rfl, rfl⟩

end Draft

end Settings

end SharedFetch
