import SharedFetch.Latch

/-!
# Tokens and the latch over time

Tokens are made and cancelled, and neither is ever undone (`Tokens.Extends`): a token that is
cancelled stays so, whatever tokens are made or cancelled after it. An alarm adds to the tokens
in the same way. The first one is captured and cancels the run; the fault captured by it is
never replaced.

## Main results

* `Tokens.Extends.isCancelled`: cancellation is for good.
* `Latch.isCancelled_trigger`: after an alarm the run is cancelled.
* `Latch.Coherent.trigger`: whether the latch is triggered and whether it has captured a fault is
  the same after every alarm, if it was before.
-/

namespace SharedFetch

namespace Tokens

variable {t u v : Tokens} {token : Token}

/-- Some tokens were made and some were cancelled, and nothing else has happened. -/
structure Extends (t u : Tokens) : Prop where
  parents : t.parents <+: u.parents
  fired : t.fired ⊆ u.fired

/-- Nothing has happened. -/
theorem Extends.refl (t : Tokens) : t.Extends t :=
  ⟨List.prefix_refl _, List.Subset.refl _⟩

/-- What is still so after a while is so after another. -/
theorem Extends.trans (h : t.Extends u) (h' : u.Extends v) : t.Extends v :=
  ⟨h.parents.trans h'.parents, List.Subset.trans h.fired h'.fired⟩

/-- A new token takes nothing away. -/
theorem extends_fresh (t : Tokens) : t.Extends t.fresh.2 :=
  ⟨List.prefix_append _ _, List.Subset.refl _⟩

/-- To cancel a token takes nothing away. -/
theorem extends_cancel (t : Tokens) (token : Token) : t.Extends (t.cancel token) := by
  rw [cancel]
  split
  · exact .refl t
  · exact ⟨List.prefix_refl _, List.subset_append_left _ _⟩

/-- **A token that is cancelled stays so.** -/
theorem Extends.isCancelled (h : t.Extends u) (hcancelled : t.isCancelled token = true) :
    u.isCancelled token = true := by
  simp only [Tokens.isCancelled, Bool.or_eq_true, List.contains_iff_mem, Option.any_eq_true,
    parent?] at hcancelled ⊢
  rcases hcancelled with hown | ⟨parent, hparent, hfired⟩
  · exact .inl (h.fired hown)
  · refine .inr ⟨parent, ?_, h.fired hfired⟩
    -- the token was made before, so its parent is where it was
    rw [Option.join_eq_some_iff] at hparent ⊢
    obtain ⟨made, hmade⟩ := h.parents
    rw [← hmade, List.getElem?_append_left (List.getElem?_eq_some_iff.mp hparent).1]
    exact hparent

@[simp] theorem isCancelled_cancel (t : Tokens) (token : Token) :
    (t.cancel token).isCancelled token = true := by
  rw [cancel]
  split
  · rename_i hfired
    rw [isCancelled, hfired, Bool.true_or]
  · simp [isCancelled]

/-- Cancelling a token adds it to those that are cancelled by themselves. -/
theorem mem_fired_cancel {t : Tokens} {token other : Token} :
    other ∈ (t.cancel token).fired ↔ other ∈ t.fired ∨ other = token := by
  rw [cancel]
  split
  · rename_i hfired
    rw [List.contains_iff_mem] at hfired
    constructor
    · exact .inl
    · rintro (hother | rfl)
      · exact hother
      · exact hfired
  · rw [List.mem_append, List.mem_singleton]

@[simp] theorem parents_cancel (t : Tokens) (token : Token) :
    (t.cancel token).parents = t.parents := by
  rw [cancel]
  split <;> rfl

end Tokens

namespace Latch

/-- A latch is triggered exactly if it has captured a fault. -/
def Coherent (l : Latch) : Prop :=
  l.triggered = l.caught.isSome

/-- No alarm was raised yet. -/
structure Unset (l : Latch) : Prop where
  triggered : l.triggered = false
  caught : l.caught = none

/-- A latch that is unset is coherent. -/
theorem Unset.coherent {l : Latch} (h : l.Unset) : l.Coherent := by
  rw [Coherent, h.triggered, h.caught, Option.isSome_none]

/-- A latch that is not triggered has captured nothing. -/
theorem Coherent.unset {l : Latch} (h : l.Coherent) (htriggered : l.triggered = false) :
    l.Unset :=
  ⟨htriggered, by simpa [Coherent, htriggered] using h⟩

/-- A latch that has captured nothing is not triggered. -/
theorem Coherent.unset_of_caught {l : Latch} (h : l.Coherent) (hcaught : l.caught = none) :
    l.Unset :=
  ⟨by rw [h, hcaught, Option.isSome_none], hcaught⟩

/-- If a latch is triggered, it has captured a fault and cancelled its run. -/
structure Alert (l : Latch) (tokens : Tokens) : Prop where
  coherent : l.Coherent
  cancelled : l.triggered = true → tokens.isCancelled l.run = true

variable (l : Latch) (tokens : Tokens) (alarm : Alarm)

@[simp] theorem run_capture (fault : Fault) : (l.capture fault).run = l.run := by
  rw [capture]
  split <;> rfl

@[simp] theorem root_capture (fault : Fault) : (l.capture fault).root = l.root := by
  rw [capture]
  split <;> rfl

@[simp] theorem triggered_capture (fault : Fault) :
    (l.capture fault).triggered = l.triggered := by
  rw [capture]
  split <;> rfl

/-- The first fault is the one that is kept. -/
@[simp] theorem caught_capture (fault : Fault) :
    (l.capture fault).caught = some (l.caught.getD fault) := by
  rw [capture]
  split
  · rename_i hcaught
    rw [hcaught, Option.getD_none]
  · rename_i kept hcaught
    rw [hcaught, Option.getD_some]

@[simp] theorem run_trigger : (l.trigger tokens alarm).latch.run = l.run := by
  rw [trigger]
  split <;> simp

@[simp] theorem root_trigger : (l.trigger tokens alarm).latch.root = l.root := by
  rw [trigger]
  split <;> simp

@[simp] theorem triggered_trigger : (l.trigger tokens alarm).latch.triggered = true := by
  rw [trigger]
  split
  · assumption
  · simp

/-- An alarm only cancels. -/
theorem extends_trigger : tokens.Extends (l.trigger tokens alarm).tokens := by
  rw [trigger]
  split
  · exact .refl tokens
  · exact (tokens.extends_cancel l.run).trans (Tokens.extends_cancel _ l.root)

/-- **After an alarm the run is cancelled**, provided that an earlier one has cancelled it. -/
theorem isCancelled_trigger (h : l.triggered = true → tokens.isCancelled l.run = true) :
    (l.trigger tokens alarm).tokens.isCancelled l.run = true := by
  rw [trigger]
  split
  · rename_i htriggered
    exact h htriggered
  · exact (Tokens.extends_cancel _ l.root).isCancelled (tokens.isCancelled_cancel l.run)

/-- The same for the root. -/
theorem isCancelled_root_trigger (h : l.triggered = true → tokens.isCancelled l.root = true) :
    (l.trigger tokens alarm).tokens.isCancelled l.root = true := by
  rw [trigger]
  split
  · rename_i htriggered
    exact h htriggered
  · exact Tokens.isCancelled_cancel _ l.root

variable {l}

/-- What the first alarm does. -/
theorem Unset.trigger (h : l.Unset) :
    l.trigger tokens alarm =
      ⟨.captured alarm.fault, { l with triggered := true, caught := some alarm.fault },
        (tokens.cancel l.run).cancel l.root, some alarm⟩ := by
  simp [Latch.trigger, capture, h.triggered, h.caught]

/-- Of several alarms the first has its fault kept. -/
theorem Coherent.caught_trigger (h : l.Coherent) :
    (l.trigger tokens alarm).latch.caught = some (l.caught.getD alarm.fault) := by
  rw [trigger]
  split
  · rename_i htriggered
    obtain ⟨fault, hcaught⟩ := Option.isSome_iff_exists.mp (h.symm.trans htriggered)
    rw [hcaught, Option.getD_some]
  · simp

/-- An alarm keeps what is triggered and what is captured in step. -/
theorem Coherent.trigger (h : l.Coherent) : (l.trigger tokens alarm).latch.Coherent := by
  rw [Coherent, h.caught_trigger, triggered_trigger, Option.isSome_some]

namespace Alert

variable {tokens}

/-- A latch that is unset has nothing to cancel. -/
theorem of_unset (h : l.Unset) : l.Alert tokens :=
  ⟨h.coherent, fun htriggered => by rw [h.triggered] at htriggered; cases htriggered⟩

/-- As long as the run is not cancelled, there was no alarm. -/
theorem unset (h : l.Alert tokens) (hlive : tokens.isCancelled l.run = false) : l.Unset := by
  refine h.coherent.unset (Bool.eq_false_iff.mpr fun htriggered => ?_)
  cases hlive.symm.trans (h.cancelled htriggered)

/-- What has been cancelled stays so. -/
theorem extended {tokens' : Tokens} (h : l.Alert tokens) (htokens : tokens.Extends tokens') :
    l.Alert tokens' :=
  ⟨h.coherent, fun htriggered => htokens.isCancelled (h.cancelled htriggered)⟩

/-- **After an alarm the run is cancelled**, and the flag and the fault are in step. -/
theorem trigger (h : l.Alert tokens) :
    (l.trigger tokens alarm).latch.Alert (l.trigger tokens alarm).tokens := by
  refine ⟨h.coherent.trigger tokens alarm, fun _ => ?_⟩
  rw [run_trigger]
  exact l.isCancelled_trigger tokens alarm h.cancelled

end Alert

end Latch

end SharedFetch
