import Mathlib.Data.List.Nodup
import Mathlib.Data.List.Pairwise
import Mathlib.Data.List.Perm.Basic
import SharedFetch.Location
import SharedFetch.Waiters

/-!
# The entries of the waiters

Enrolling and completing look for the first entry whose location is the same as the one
given. This module says once where that entry stands, and what is left of the others; every
later statement about waiters is a computation on the list cut at that place.

## Main results

* `enroll_eq` / `complete?_eq_some_iff`: the two operations, with the entries cut at the place
  of the entry that they change.
* `Distinct.enroll`, `Distinct.complete?`: no two entries ever have the same location.
* `complete?_isSome_of_mem`: a location in flight that is the same as itself is found.
-/

namespace SharedFetch

variable {L : Type} [BEq L]

/-! ### Sameness -/

/-- No two places of a list have the same location. -/
def AllDiffer (ls : List L) : Prop :=
  ls.Pairwise fun k l => (k == l) = false

theorem AllDiffer.sublist {ks ls : List L} (h : AllDiffer ls) (hsub : ks.Sublist ls) :
    AllDiffer ks :=
  List.Pairwise.sublist hsub h

section Sameness

variable [PartialEquivBEq L]

/-- A location that is the same as any is the same as itself. -/
theorem beq_self_of_beq {k l : L} (h : (k == l) = true) : (k == k) = true :=
  BEq.trans h (BEq.symm h)

theorem AllDiffer.perm {ks ls : List L} (h : AllDiffer ls) (hperm : ls.Perm ks) : AllDiffer ks :=
  List.Pairwise.perm h hperm fun hkl => BEq.comm.trans hkl

theorem AllDiffer.subperm {ks ls : List L} (h : AllDiffer ls) (hsub : ks.Subperm ls) :
    AllDiffer ks := by
  obtain ⟨ms, hperm, hsublist⟩ := hsub
  exact (h.sublist hsublist).perm hperm

/-- Of locations none of which is the same as another, two that are the same are one. -/
theorem AllDiffer.eq_of_beq {ls : List L} (h : AllDiffer ls) {k l : L} (hk : k ∈ ls) (hl : l ∈ ls)
    (hkl : (k == l) = true) : k = l := by
  by_contra hne
  have : Std.Symm fun k l : L => (k == l) = false := ⟨fun _ _ hkl => BEq.comm.trans hkl⟩
  have := List.Pairwise.forall h hk hl hne
  rw [hkl] at this
  cases this

end Sameness

namespace Waiters

variable {R : Type}

/-- No entry has the given location. -/
def Lacks (l : L) (entries : List (L × List R)) : Prop :=
  ∀ e ∈ entries, (e.1 == l) = false

theorem Lacks.congr [PartialEquivBEq L] {k l : L} {entries : List (L × List R)}
    (hlacks : Lacks k entries) (h : (k == l) = true) : Lacks l entries :=
  fun e he => BEq.congr_right h ▸ hlacks e he

/-- Every entry lacks a location that is not the same as itself. -/
theorem lacks_of_ne_self [PartialEquivBEq L] {l : L} (hl : (l == l) = false)
    (entries : List (L × List R)) : Lacks l entries := by
  intro e _
  by_contra he
  have hsame := BEq.symm (Bool.not_eq_false _ ▸ he)
  rw [beq_self_of_beq hsame] at hl
  cases hl

/-! ### Where the entry stands -/

/-- Joining fails exactly if there is no entry of the location. -/
theorem join_eq_none_iff {l : L} {r : R} {entries : List (L × List R)} :
    join l r entries = none ↔ Lacks l entries := by
  induction entries with
  | nil => simp [join, Lacks]
  | cons e rest ih =>
      obtain ⟨k, rs⟩ := e
      rw [join]
      by_cases hk : (k == l) = true
      · simp [hk, Lacks]
      · simp only [hk, Bool.false_eq_true, if_false, Option.map_eq_none_iff, ih]
        simp [Lacks, hk]

/-- Joining puts the reference at the end of the first entry of the location. -/
theorem join_eq_some {l : L} {r : R} {entries entries' : List (L × List R)} {n : Nat}
    (h : join l r entries = some (n, entries')) :
    ∃ before k rs after, entries = before ++ (k, rs) :: after ∧ Lacks l before ∧
      (k == l) = true ∧ n = rs.length + 1 ∧ entries' = before ++ (k, rs ++ [r]) :: after := by
  induction entries generalizing n entries' with
  | nil => simp [join] at h
  | cons e rest ih =>
      obtain ⟨k, rs⟩ := e
      rw [join] at h
      by_cases hk : (k == l) = true
      · simp only [hk, if_true, Option.some.injEq, Prod.mk.injEq] at h
        obtain ⟨rfl, rfl⟩ := h
        exact ⟨[], k, rs, rest, rfl, by simp [Lacks], hk, rfl, rfl⟩
      · simp only [hk, Bool.false_eq_true, if_false, Option.map_eq_some_iff, Prod.mk.injEq] at h
        obtain ⟨⟨m, found⟩, hfound, rfl, rfl⟩ := h
        obtain ⟨before, k', rs', after, rfl, hlacks, hk', rfl, rfl⟩ := ih hfound
        refine ⟨(k, rs) :: before, k', rs', after, rfl, ?_, hk', rfl, rfl⟩
        intro e he
        rcases List.mem_cons.mp he with rfl | he
        · simpa using hk
        · exact hlacks e he

/-- Removing takes the first entry of the location away. -/
theorem remove_eq_some_iff {l : L} {entries entries' : List (L × List R)} {rs : List R} :
    remove l entries = some (rs, entries') ↔
      ∃ before k after, entries = before ++ (k, rs) :: after ∧ Lacks l before ∧
        (k == l) = true ∧ entries' = before ++ after := by
  induction entries generalizing entries' with
  | nil => simp [remove]
  | cons e rest ih =>
      obtain ⟨k, ks⟩ := e
      rw [remove]
      by_cases hk : (k == l) = true
      · simp only [hk, if_true, Option.some.injEq, Prod.mk.injEq]
        constructor
        · rintro ⟨rfl, rfl⟩
          exact ⟨[], k, rest, rfl, by simp [Lacks], hk, rfl⟩
        · rintro ⟨before, k', after, heq, hlacks, hk', rfl⟩
          cases before with
          | nil =>
              obtain ⟨⟨rfl, rfl⟩, rfl⟩ := by simpa using heq
              exact ⟨rfl, rfl⟩
          | cons b before =>
              obtain ⟨rfl, -⟩ := by simpa using heq
              have := hlacks (k, ks) List.mem_cons_self
              simp [hk] at this
      · simp only [hk, Bool.false_eq_true, if_false, Option.map_eq_some_iff, Prod.mk.injEq]
        constructor
        · rintro ⟨⟨found, others⟩, hfound, rfl, rfl⟩
          obtain ⟨before, k', after, rfl, hlacks, hk', rfl⟩ := ih.mp hfound
          refine ⟨(k, ks) :: before, k', after, rfl, ?_, hk', rfl⟩
          intro e he
          rcases List.mem_cons.mp he with rfl | he
          · simpa using hk
          · exact hlacks e he
        · rintro ⟨before, k', after, heq, hlacks, hk', rfl⟩
          cases before with
          | nil =>
              obtain ⟨⟨rfl, -⟩, -⟩ := by simpa using heq
              exact absurd hk' hk
          | cons b before =>
              obtain ⟨rfl, rfl⟩ := by simpa using heq
              have hrest : Lacks l before := fun e he => hlacks e (List.mem_cons_of_mem _ he)
              exact ⟨(rs, before ++ after), ih.mpr ⟨before, k', after, rfl, hrest, hk', rfl⟩,
                rfl, rfl⟩

/-- Removing fails exactly if there is no entry of the location. -/
theorem remove_eq_none_iff {l : L} {entries : List (L × List R)} :
    remove l entries = none ↔ Lacks l entries := by
  induction entries with
  | nil => simp [remove, Lacks]
  | cons e rest ih =>
      obtain ⟨k, rs⟩ := e
      rw [remove]
      by_cases hk : (k == l) = true
      · simp [hk, Lacks]
      · simp only [hk, Bool.false_eq_true, if_false, Option.map_eq_none_iff, ih]
        simp [Lacks, hk]

/-! ### The two operations -/

/-- **Enrolling.** Either a reference joins the first entry of its location, or there is no
entry of the location and a new one stands at the end. -/
theorem enroll_eq (w : Waiters L R) (l : L) (r : R) :
    (∃ before k rs after, w.entries = before ++ (k, rs) :: after ∧ Lacks l before ∧
      (k == l) = true ∧
      w.enroll l r = (.coalesced (rs.length + 1), ⟨before ++ (k, rs ++ [r]) :: after⟩)) ∨
    (Lacks l w.entries ∧ w.enroll l r = (.dispatch l, ⟨w.entries ++ [(l, [r])]⟩)) := by
  rw [enroll]
  rcases h : join l r w.entries with _ | ⟨n, entries⟩
  · exact .inr ⟨join_eq_none_iff.mp h, rfl⟩
  · obtain ⟨before, k, rs, after, heq, hlacks, hk, rfl, rfl⟩ := join_eq_some h
    exact .inl ⟨before, k, rs, after, heq, hlacks, hk, rfl⟩

/-- A location that is to be dispatched is the one that was enrolled for, and had no entry. -/
theorem enroll_eq_dispatch {w w' : Waiters L R} {l k : L} {r : R}
    (h : w.enroll l r = (.dispatch k, w')) :
    k = l ∧ Lacks l w.entries ∧ w' = ⟨w.entries ++ [(l, [r])]⟩ := by
  rcases enroll_eq w l r with ⟨_, _, _, _, -, -, -, heq⟩ | ⟨hlacks, heq⟩
  · rw [heq] at h
    simp at h
  · rw [heq] at h
    obtain ⟨h₁, rfl⟩ := Prod.mk.inj h
    exact ⟨(Admission.dispatch.inj h₁).symm, hlacks, rfl⟩

/-- A reference that coalesces joins the first entry of its location. -/
theorem enroll_eq_coalesced {w w' : Waiters L R} {l : L} {r : R} {n : Nat}
    (h : w.enroll l r = (.coalesced n, w')) :
    ∃ before k rs after, w.entries = before ++ (k, rs) :: after ∧ Lacks l before ∧
      (k == l) = true ∧ n = rs.length + 1 ∧ w' = ⟨before ++ (k, rs ++ [r]) :: after⟩ := by
  rcases enroll_eq w l r with ⟨before, k, rs, after, hw, hlacks, hk, heq⟩ | ⟨-, heq⟩
  · rw [heq] at h
    obtain ⟨h₁, rfl⟩ := Prod.mk.inj h
    exact ⟨before, k, rs, after, hw, hlacks, hk, (Admission.coalesced.inj h₁).symm, rfl⟩
  · rw [heq] at h
    simp at h

/-- **Completing.** The references of the first entry of the location are handed back, and the
other entries stay as they are. -/
theorem complete?_eq_some_iff {w w' : Waiters L R} {l : L} {rs : List R} :
    w.complete? l = some (rs, w') ↔
      ∃ before k after, w.entries = before ++ (k, rs) :: after ∧ Lacks l before ∧
        (k == l) = true ∧ w' = ⟨before ++ after⟩ := by
  simp only [complete?, Option.map_eq_some_iff, Prod.mk.injEq]
  constructor
  · rintro ⟨⟨found, others⟩, hfound, rfl, rfl⟩
    obtain ⟨before, k, after, heq, hlacks, hk, rfl⟩ := remove_eq_some_iff.mp hfound
    exact ⟨before, k, after, heq, hlacks, hk, rfl⟩
  · rintro ⟨before, k, after, heq, hlacks, hk, rfl⟩
    exact ⟨(rs, before ++ after),
      remove_eq_some_iff.mpr ⟨before, k, after, heq, hlacks, hk, rfl⟩, rfl, rfl⟩

/-- Completing fails exactly if there is no entry of the location. -/
theorem complete?_eq_none_iff {w : Waiters L R} {l : L} :
    w.complete? l = none ↔ Lacks l w.entries := by
  rw [complete?, Option.map_eq_none_iff, remove_eq_none_iff]

/-- A location in flight that is the same as itself is found. -/
theorem complete?_isSome_of_mem {w : Waiters L R} {l : L} (hmem : l ∈ w.locations)
    (hl : (l == l) = true) : (w.complete? l).isSome = true := by
  rw [← Option.ne_none_iff_isSome, Ne, complete?_eq_none_iff]
  intro hlacks
  obtain ⟨e, he, rfl⟩ := List.mem_map.mp hmem
  rw [hlacks e he] at hl
  exact Bool.false_ne_true hl

/-! ### How many wait -/

/-- A location that is new is one more in flight, with one reference. -/
theorem size_of_dispatch {w w' : Waiters L R} {l k : L} {r : R}
    (h : w.enroll l r = (.dispatch k, w')) :
    w'.size = w.size + 1 ∧ w'.waiting = w.waiting + 1 := by
  obtain ⟨-, -, rfl⟩ := enroll_eq_dispatch h
  simp [size, waiting, references]

/-- A reference that coalesces is one more that waits. -/
theorem size_of_coalesced {w w' : Waiters L R} {l : L} {r : R} {n : Nat}
    (h : w.enroll l r = (.coalesced n, w')) : w'.size = w.size ∧ w'.waiting = w.waiting + 1 := by
  obtain ⟨before, k, rs, after, hw, -, -, -, rfl⟩ := enroll_eq_coalesced h
  constructor
  · simp [size, hw]
  · simp [waiting, references, hw]
    omega

/-- A completed location is no longer in flight, and its references wait no longer. -/
theorem size_of_complete? {w w' : Waiters L R} {l : L} {rs : List R}
    (h : w.complete? l = some (rs, w')) :
    w.size = w'.size + 1 ∧ w.waiting = w'.waiting + rs.length := by
  obtain ⟨before, k, after, hw, -, -, rfl⟩ := complete?_eq_some_iff.mp h
  constructor
  · simp [size, hw]
    omega
  · simp [waiting, references, hw]
    omega

/-! ### Distinct locations -/

/-- No entry has the same location as a later one. -/
def Distinct (w : Waiters L R) : Prop :=
  AllDiffer w.locations

theorem Distinct.empty : Distinct (L := L) (R := R) {} :=
  List.Pairwise.nil

/-- The entries behind that of a location lack it. -/
theorem Distinct.lacks_behind [PartialEquivBEq L] {w : Waiters L R} {l : L} {rs : List R}
    {before after : List (L × List R)} (h : w.Distinct)
    (hentries : w.entries = before ++ (l, rs) :: after) : Lacks l after := by
  intro e he
  simp only [Distinct, AllDiffer, locations, hentries, List.map_append, List.map_cons,
    List.pairwise_append, List.pairwise_cons] at h
  have := h.2.1.1 e.1 (List.mem_map_of_mem he)
  rwa [BEq.comm] at this

/-- Enrolling keeps the locations distinct. -/
theorem Distinct.enroll {w : Waiters L R} (h : w.Distinct) (l : L) (r : R) :
    (w.enroll l r).2.Distinct := by
  rcases enroll_eq w l r with ⟨before, k, rs, after, hw, -, -, heq⟩ | ⟨hlacks, heq⟩
  · rw [heq]
    simpa [Distinct, locations, hw] using h
  · rw [heq]
    simp only [Distinct, locations, List.map_append, List.map_cons, List.map_nil]
    refine List.pairwise_append.mpr ⟨h, List.pairwise_singleton _ _, ?_⟩
    intro k hk m hm
    obtain ⟨e, he, rfl⟩ := List.mem_map.mp hk
    rw [List.mem_singleton.mp hm]
    exact hlacks e he

/-- Completing keeps the locations distinct. -/
theorem Distinct.complete? {w w' : Waiters L R} {l : L} {rs : List R} (h : w.Distinct)
    (hc : w.complete? l = some (rs, w')) : w'.Distinct := by
  obtain ⟨before, k, after, hw, -, -, rfl⟩ := complete?_eq_some_iff.mp hc
  simp only [Distinct, locations, hw, List.map_append, List.map_cons] at h ⊢
  exact h.sublist ((List.sublist_cons_self _ _).append_left _)

end Waiters

end SharedFetch
