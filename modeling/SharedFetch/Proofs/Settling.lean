import SharedFetch.Settle

/-!
# Settling in step

Two machines settle in step if what one can do the other can do too, under another name perhaps, and
both try it in the same order. With one budget they stop in related states. With two budgets they do
so as well, provided that each of them is enough, and a budget is enough if it is not less than a
measure that every step lowers.

## Main results

* `rel_settleAfter`: related states settle in related states, with one budget.
* `rel_settleAfter_of_le`: the same with two budgets that are enough.
* `firstStep?_settleAfter_eq_none`: with a budget that is enough, settling goes on to the end.
-/

namespace SharedFetch

section Settling

variable {σ τ ε δ : Type} {R : σ → τ → Prop} {f : ε → δ} {advance : σ → ε → Option σ}
  {advance' : τ → δ → Option τ} {candidates : σ → List ε} {candidates' : τ → List δ} {s : σ} {t : τ}

theorem rel_or {α β : Type} {R : α → β → Prop} {x x' : Option α} {y y' : Option β}
    (h : Option.Rel R x y) (h' : Option.Rel R x' y') : Option.Rel R (x.or x') (y.or y') := by
  cases h with
  | none => exact h'
  | some hxy => exact .some hxy

/-- Related states have the same first step, to related states. -/
theorem rel_firstStep? (hadvance : ∀ s t, R s t → ∀ e, Option.Rel R (advance s e) (advance' t (f e)))
    (h : R s t) (events : List ε) :
    Option.Rel (fun x y => y.1 = f x.1 ∧ R x.2 y.2) (firstStep? advance s events)
      (firstStep? advance' t (events.map f)) := by
  induction events with
  | nil => exact .none
  | cons e rest ih =>
      have hfirst := hadvance s t h e
      rw [firstStep?, firstStep?, List.map_cons, List.findSome?_cons, List.findSome?_cons]
      generalize advance s e = x, advance' t (f e) = y at hfirst ⊢
      cases hfirst with
      | none => exact ih
      | some hnext => exact .some ⟨rfl, hnext⟩

/-- What went last goes on in both or in neither. -/
theorem rel_lastStep? (hadvance : ∀ s t, R s t → ∀ e, Option.Rel R (advance s e) (advance' t (f e)))
    (h : R s t) (last : Option ε) :
    Option.Rel (fun x y => y.1 = f x.1 ∧ R x.2 y.2) (firstStep? advance s last.toList)
      (firstStep? advance' t (last.map f).toList) := by
  have hlast : (last.map f).toList = last.toList.map f := by
    cases last <;> rfl
  rw [hlast]
  exact rel_firstStep? hadvance h _

/-- Related states go on in the same way, after what went last in them. -/
theorem rel_nextStep? (hadvance : ∀ s t, R s t → ∀ e, Option.Rel R (advance s e) (advance' t (f e)))
    (hcandidates : ∀ s t, R s t → candidates' t = (candidates s).map f) (h : R s t)
    (last : Option ε) :
    Option.Rel (fun x y => y.1 = f x.1 ∧ R x.2 y.2)
      ((firstStep? advance s last.toList).or (firstStep? advance s (candidates s)))
      ((firstStep? advance' t (last.map f).toList).or
        (firstStep? advance' t (candidates' t))) := by
  rw [hcandidates s t h]
  exact rel_or (rel_lastStep? hadvance h last) (rel_firstStep? hadvance h _)

/-- Related states settle in related states, if what is tried in them is the same. -/
theorem rel_settleAfter
    (hadvance : ∀ s t, R s t → ∀ e, Option.Rel R (advance s e) (advance' t (f e)))
    (hcandidates : ∀ s t, R s t → candidates' t = (candidates s).map f) (budget : Nat)
    (last : Option ε) (h : R s t) :
    R (settleAfter advance candidates budget last s)
      (settleAfter advance' candidates' budget (last.map f) t) := by
  -- Both take the same event, so both go on with the same last event and one less to spend.
  induction budget generalizing last s t with
  | zero => exact h
  | succ budget ih =>
      have hnext := rel_nextStep? hadvance hcandidates h last
      rw [settleAfter, settleAfter]
      generalize (firstStep? advance s last.toList).or (firstStep? advance s (candidates s)) = x,
        (firstStep? advance' t (last.map f).toList).or (firstStep? advance' t (candidates' t)) = y
        at hnext ⊢
      cases hnext with
      | none => exact h
      | @some x y hnext =>
          obtain ⟨e, next⟩ := x
          obtain ⟨e', next'⟩ := y
          obtain ⟨rfl, hnext⟩ := hnext
          exact ih (some e) hnext

/-! ### Budgets that are enough -/

/-- What goes on next is something that can happen. -/
theorem advance_of_nextStep? {last : Option ε} {e : ε} {next : σ}
    (h : (firstStep? advance s last.toList).or (firstStep? advance s (candidates s)) =
      some (e, next)) : advance s e = some next := by
  rcases Option.or_eq_some_iff.mp h with h | ⟨-, h⟩
  · exact advance_of_firstStep? h
  · exact advance_of_firstStep? h

theorem eq_of_firstStep?_singleton {e e' : ε} {next : σ}
    (h : firstStep? advance s [e] = some (e', next)) : e' = e := by
  obtain ⟨x, hx, hstep⟩ := List.exists_of_findSome?_eq_some h
  obtain ⟨next', -, heq⟩ := Option.map_eq_some_iff.mp hstep
  exact (Prod.mk.inj heq).1.symm.trans (List.mem_singleton.mp hx)

/-- Where nothing can happen, settling does nothing. -/
theorem settleAfter_of_nextStep?_eq_none {last : Option ε}
    (h : (firstStep? advance s last.toList).or (firstStep? advance s (candidates s)) = none)
    (budget : Nat) : settleAfter advance candidates budget last s = s := by
  cases budget with
  | zero => rfl
  | succ budget => rw [settleAfter, h]

/-- Where nothing can happen at all, settling does nothing either. -/
theorem settleAfter_of_settled (h : Settled advance s) (budget : Nat) (last : Option ε) :
    settleAfter advance candidates budget last s = s := by
  have hnone : ∀ events, firstStep? advance s events = none := by
    intro events
    rw [firstStep?, List.findSome?_eq_none_iff]
    intro e _
    rw [h e, Option.map_none]
  refine settleAfter_of_nextStep?_eq_none ?_ budget
  rw [hnone, hnone, Option.or_none]

/-! ### Idle events

The second machine may have events of its own, which change nothing that the relation sees. It stops
in a related state nevertheless, if its other events are tried in the same order. -/

section Idle

variable {idle : δ → Bool}

/-- What comes first, if it is not idle, comes first in the other machine. -/
theorem exists_firstStep? (hadvance : ∀ e, Option.Rel R (advance s e) (advance' t (f e)))
    {events : List ε} {events' : List δ} (hsame : (events'.filter fun d => !idle d) = events.map f)
    {d : δ} {next' : τ} (hfirst : firstStep? advance' t events' = some (d, next'))
    (hseen : idle d = false) :
    ∃ e next, firstStep? advance s events = some (e, next) ∧ d = f e ∧ R next next' := by
  induction events' generalizing events with
  | nil => cases hfirst
  | cons d₀ rest ih =>
      rw [firstStep?, List.findSome?_cons] at hfirst
      cases hd₀ : idle d₀ with
      | true =>
          -- An idle event that comes first would be the one given.
          rw [List.filter_cons_of_neg (by simp [hd₀])] at hsame
          cases hnext : advance' t d₀ with
          | none =>
              rw [hnext] at hfirst
              exact ih hsame hfirst
          | some next =>
              rw [hnext] at hfirst
              obtain ⟨rfl, -⟩ := Prod.mk.inj (Option.some.inj hfirst)
              cases hd₀.symm.trans hseen
      | false =>
          rw [List.filter_cons_of_pos (by simp [hd₀])] at hsame
          obtain ⟨e, events, rfl, rfl, hrest⟩ := List.map_eq_cons_iff.mp hsame.symm
          have hstep := hadvance e
          rw [firstStep?, List.findSome?_cons]
          generalize advance s e = x, advance' t (f e) = y at hstep hfirst ⊢
          cases hstep with
          | none => exact ih hrest.symm hfirst
          | some hnext =>
              obtain ⟨rfl, rfl⟩ := Prod.mk.inj (Option.some.inj hfirst)
              exact ⟨e, _, rfl, rfl, hnext⟩

/-- If nothing comes first, then nothing does in the other machine. -/
theorem firstStep?_eq_none (hadvance : ∀ e, Option.Rel R (advance s e) (advance' t (f e)))
    {events : List ε} {events' : List δ} (hsame : (events'.filter fun d => !idle d) = events.map f)
    (hfirst : firstStep? advance' t events' = none) : firstStep? advance s events = none := by
  rw [firstStep?, List.findSome?_eq_none_iff] at hfirst ⊢
  intro e he
  have hmem : f e ∈ events' := by
    have := List.mem_map_of_mem (f := f) he
    rw [← hsame] at this
    exact (List.mem_filter.mp this).1
  have hnone := Option.map_eq_none_iff.mp (hfirst (f e) hmem)
  have hstep := hadvance e
  rw [hnone] at hstep
  generalize advance s e = x at hstep ⊢
  cases hstep with
  | none => rfl

/-- The second machine is through together with the first, or it goes on idly while what went last
in the first cannot go on, or both go on in the same way. -/
theorem nextStep?_cases
    (hadvance : ∀ s t, R s t → ∀ e, Option.Rel R (advance s e) (advance' t (f e)))
    (hcandidates : ∀ s t, R s t →
      ((candidates' t).filter fun d => !idle d) = (candidates s).map f)
    {last : Option ε} {last' : Option δ} (h : R s t)
    (hlast : last' = last.map f ∨
      (∃ d, last' = some d ∧ idle d = true) ∧ firstStep? advance s last.toList = none) :
    ((firstStep? advance s last.toList).or (firstStep? advance s (candidates s)) = none ∧
      (firstStep? advance' t last'.toList).or (firstStep? advance' t (candidates' t)) = none) ∨
    (∃ d t', idle d = true ∧ firstStep? advance s last.toList = none ∧
      (firstStep? advance' t last'.toList).or (firstStep? advance' t (candidates' t)) =
        some (d, t')) ∨
    ∃ e s' t', R s' t' ∧
      (firstStep? advance s last.toList).or (firstStep? advance s (candidates s)) = some (e, s') ∧
      (firstStep? advance' t last'.toList).or (firstStep? advance' t (candidates' t)) =
        some (f e, t') := by
  -- what went last is tried first in both
  have htried : (∃ e s' t', R s' t' ∧ firstStep? advance s last.toList = some (e, s') ∧
        firstStep? advance' t last'.toList = some (f e, t')) ∨
      firstStep? advance s last.toList = none ∧ ∀ y, firstStep? advance' t last'.toList = some y →
        idle y.1 = true := by
    rcases hlast with rfl | ⟨⟨d, rfl, hd⟩, hnone⟩
    · have hlasts := rel_lastStep? hadvance h last
      generalize firstStep? advance s last.toList = x,
        firstStep? advance' t (last.map f).toList = y at hlasts ⊢
      cases hlasts with
      | none => exact .inr ⟨rfl, by simp⟩
      | @some x y hnext =>
          obtain ⟨e, s'⟩ := x
          obtain ⟨d, t'⟩ := y
          obtain ⟨rfl, hnext⟩ := hnext
          exact .inl ⟨e, s', t', hnext, rfl, rfl⟩
    · refine .inr ⟨hnone, fun y hy => ?_⟩
      rwa [eq_of_firstStep?_singleton hy]
  rcases htried with ⟨e, s', t', hR, hx, hy⟩ | ⟨hnone, hidle⟩
  · exact .inr (.inr ⟨e, s', t', hR, by rw [hx, Option.some_or], by rw [hy, Option.some_or]⟩)
  rw [hnone, Option.none_or]
  cases hy : firstStep? advance' t last'.toList with
  | some y => exact .inr (.inl ⟨y.1, y.2, hidle y hy, rfl, rfl⟩)
  | none =>
      rw [Option.none_or]
      cases hx : firstStep? advance' t (candidates' t) with
      | none => exact .inl ⟨firstStep?_eq_none (hadvance s t h) (hcandidates s t h) hx, rfl⟩
      | some x =>
          obtain ⟨d, t'⟩ := x
          cases hd : idle d with
          | true => exact .inr (.inl ⟨d, t', hd, rfl, rfl⟩)
          | false =>
              obtain ⟨e, s', hfirst, rfl, hR⟩ :=
                exists_firstStep? (hadvance s t h) (hcandidates s t h) hx hd
              exact .inr (.inr ⟨e, s', t', hR, hfirst, rfl⟩)

/-- Related states settle in related states, with two budgets if each of them is enough. -/
theorem rel_settleAfter_of_le {measure : σ → Nat} {measure' : τ → Nat}
    (hadvance : ∀ s t, R s t → ∀ e, Option.Rel R (advance s e) (advance' t (f e)))
    (hidle : ∀ s t, R s t → ∀ d next, idle d = true → advance' t d = some next → R s next)
    (hcandidates : ∀ s t, R s t →
      ((candidates' t).filter fun d => !idle d) = (candidates s).map f)
    (hlower : ∀ s t, R s t → ∀ e next, advance s e = some next → measure next < measure s)
    (hlower' : ∀ s t, R s t → ∀ d next, advance' t d = some next → measure' next < measure' t)
    {budget budget' : Nat} {last : Option ε} {last' : Option δ} (h : R s t)
    (hlast : last' = last.map f ∨
      (∃ d, last' = some d ∧ idle d = true) ∧ firstStep? advance s last.toList = none)
    (hbudget : measure s ≤ budget) (hbudget' : measure' t ≤ budget') :
    R (settleAfter advance candidates budget last s)
      (settleAfter advance' candidates' budget' last' t) := by
  -- The second machine takes a step each time; the first one waits while that is an idle one. What
  -- went last in the first one cannot go on then, so it does not matter that it is tried again.
  induction budget' generalizing budget last last' s t with
  | zero =>
      have hsettled : Settled advance s := by
        intro e
        have hstep := hadvance s t h e
        generalize advance s e = x, hy : advance' t (f e) = y at hstep ⊢
        cases hstep with
        | none => rfl
        | @some _ next _ =>
            have hlt := hlower' s t h (f e) next hy
            omega
      rw [settleAfter, settleAfter_of_settled hsettled]
      exact h
  | succ budget' ih =>
      rcases nextStep?_cases hadvance hcandidates h hlast with
        ⟨hx, hy⟩ | ⟨d, t', hd, hnone, hy⟩ | ⟨e, s', t', hR, hx, hy⟩
      · rw [settleAfter_of_nextStep?_eq_none hx, settleAfter_of_nextStep?_eq_none hy]
        exact h
      · have hstep := advance_of_nextStep? hy
        have hlt := hlower' s t h d t' hstep
        rw [settleAfter, hy]
        exact ih (hidle s t h d t' hd hstep) (.inr ⟨⟨d, rfl, hd⟩, hnone⟩) hbudget (by omega)
      · have hlt := hlower s t h e s' (advance_of_nextStep? hx)
        have hlt' := hlower' s t h (f e) t' (advance_of_nextStep? hy)
        obtain ⟨budget, rfl⟩ : ∃ n, budget = n + 1 := ⟨budget - 1, by omega⟩
        rw [settleAfter, settleAfter, hx, hy]
        exact ih hR (.inl rfl) (by omega) (by omega)

end Idle

/-- After settling with a budget that is enough, nothing of what is tried can happen. Some property
of states may be needed to see that every step lowers the measure. -/
theorem firstStep?_settleAfter_eq_none {P : σ → Prop} {measure : σ → Nat}
    (hstep : ∀ s e next, P s → advance s e = some next → P next ∧ measure next < measure s)
    {budget : Nat} (last : Option ε) (hs : P s) (hbudget : measure s ≤ budget) :
    firstStep? advance (settleAfter advance candidates budget last s)
      (candidates (settleAfter advance candidates budget last s)) = none := by
  induction budget generalizing last s with
  | zero =>
      rw [settleAfter, Option.eq_none_iff_forall_not_mem]
      rintro ⟨e, next⟩ hnext
      have hlt := (hstep s e next hs (advance_of_firstStep? hnext)).2
      omega
  | succ budget ih =>
      rw [settleAfter]
      cases hx : (firstStep? advance s last.toList).or (firstStep? advance s (candidates s)) with
      | none => exact (Option.or_eq_none_iff.mp hx).2
      | some next =>
          obtain ⟨hnext, hlt⟩ := hstep s next.1 next.2 hs (advance_of_nextStep? hx)
          exact ih (some next.1) hnext (by omega)

end Settling

end SharedFetch
