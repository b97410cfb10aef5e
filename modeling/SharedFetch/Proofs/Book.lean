import Mathlib.Data.List.Induction
import Mathlib.Algebra.Order.Group.Multiset
import Mathlib.Tactic.Abel
import SharedFetch.Protocol
import SharedFetch.Proofs.Waiters

/-!
# The book of a run

A coordinator takes up references and completions, one after the other. The *book* is what
comes of them if each is dealt with on the spot: a reference is resolved and enrolled, or
reported; a completion is served to the references that wait for its location. There is no
slot, no lock, no queue that could be full and no hook that could fail. The book is the
standard that the coordinator is measured by.

## Convention

A location counts as the same as another if the test `==` says so, and a reference leads to
a location if its own is the same as that one. A location with a broken part therefore has no
references that lead to it.

## Main results

* `filter_leadsTo_references`: **first in, first out.** For each location, the references
  taken up are those that were served, followed by those that wait.
* `unresolved_ofTaken`: the references reported are those taken up that lead nowhere.
* `references_perm`: every reference taken up was served, reported, waits, or panicked when it
  was resolved, and counts once.
-/

namespace SharedFetch

/-- What a coordinator takes up. -/
inductive Taking where
  | reference (r : Reference)
  | completion (c : Completion)

/-- A call of one of the two hooks that references come to. -/
inductive Call where
  | process (r : Reference) (delivery : Delivery)
  | unresolved (r : Reference) (cause : Chain)

/-- The reference taken up. -/
def Taking.reference? : Taking → Option Reference
  | .reference r => some r
  | .completion _ => none

/-- The reference that is given its delivery. -/
def Call.processed? : Call → Option Reference
  | .process r _ => some r
  | .unresolved .. => none

/-- The reference that is reported as unresolvable. -/
def Call.unresolved? : Call → Option Reference
  | .process .. => none
  | .unresolved r _ => some r

/-- The references among what was taken up, in order. -/
def references (taken : List Taking) : List Reference :=
  taken.filterMap Taking.reference?

/-- The references given their delivery, in order. -/
def processed (calls : List Call) : List Reference :=
  calls.filterMap Call.processed?

/-- The references reported as unresolvable, in order. -/
def unresolved (calls : List Call) : List Reference :=
  calls.filterMap Call.unresolved?

namespace Reference

/-- Whether a reference leads to a location that is the same as the given one. -/
def leadsTo (l : Location) (r : Reference) : Bool :=
  match r.target with
  | .location k => k == l
  | _ => false

/-- Whether a reference cannot be resolved. -/
def leadsNowhere (r : Reference) : Bool :=
  match r.target with
  | .nowhere _ => true
  | _ => false

/-- Whether resolving a reference panics. -/
def panics (r : Reference) : Bool :=
  match r.target with
  | .panic _ => true
  | _ => false

/-- Where the reference leads, if to a location, is the same as itself. -/
def IsWhole (r : Reference) : Prop :=
  ∀ l, r.target = .location l → (l == l) = true

/-- The call that a reference without a location brings about. -/
def failure (r : Reference) : List Call :=
  match r.target with
  | .nowhere cause => [.unresolved r cause]
  | _ => []

end Reference

/-- The deliveries of an outcome to references, in order. -/
def fanOut (outcome : Delivery) (rs : List Reference) : List Call :=
  rs.map fun r => .process r outcome

@[simp] theorem processed_fanOut (outcome : Delivery) (rs : List Reference) :
    processed (fanOut outcome rs) = rs := by
  rw [processed, fanOut, List.filterMap_map]
  exact List.filterMap_some

@[simp] theorem unresolved_fanOut (outcome : Delivery) (rs : List Reference) :
    unresolved (fanOut outcome rs) = [] := by
  rw [unresolved, fanOut, List.filterMap_map]
  exact List.filterMap_eq_nil_iff.mpr fun r _ => rfl

@[simp] theorem references_reference (r : Reference) : references [.reference r] = [r] := rfl

@[simp] theorem references_completion (c : Completion) : references [.completion c] = [] := rfl

@[simp] theorem processed_unresolved (r : Reference) (cause : Chain) :
    processed [.unresolved r cause] = [] := rfl

@[simp] theorem unresolved_unresolved (r : Reference) (cause : Chain) :
    unresolved [.unresolved r cause] = [r] := rfl

@[simp] theorem references_append (a b : List Taking) :
    references (a ++ b) = references a ++ references b :=
  List.filterMap_append

@[simp] theorem processed_append (a b : List Call) :
    processed (a ++ b) = processed a ++ processed b :=
  List.filterMap_append

@[simp] theorem unresolved_append (a b : List Call) :
    unresolved (a ++ b) = unresolved a ++ unresolved b :=
  List.filterMap_append

/-- What comes of the references and completions taken up so far. -/
structure Book where
  waiters : Waiters Location Reference := {}
  /-- The locations that were to be dispatched, in order. -/
  dispatches : List Location := []
  /-- The calls of hooks, in order. -/
  calls : List Call := []

/-- The location that an admission asks to dispatch. -/
def Admission.dispatches {L : Type} : Admission L → List L
  | .dispatch l => [l]
  | .coalesced _ => []

namespace Book

/-- Deals with a reference or a completion. -/
def take (b : Book) : Taking → Book
  | .reference r =>
    match r.target with
    | .location l =>
      let (admission, waiters) := b.waiters.enroll l r
      { b with waiters, dispatches := b.dispatches ++ admission.dispatches }
    | _ => { b with calls := b.calls ++ r.failure }
  | .completion c =>
    match b.waiters.complete? c.location with
    | some (rs, waiters) => { b with waiters, calls := b.calls ++ fanOut c.outcome rs }
    | none => b

/-- The book of a list of references and completions. -/
def ofTaken (taken : List Taking) : Book :=
  taken.foldl take {}

@[simp] theorem ofTaken_append (taken : List Taking) (t : Taking) :
    ofTaken (taken ++ [t]) = (ofTaken taken).take t := by
  simp [ofTaken]

/-- What taking up a reference or a completion can come to, with the waiters cut at the place
of the entry that changes. -/
inductive Takes (b : Book) : Taking → Book → Prop where
  /-- The reference joins an entry. -/
  | joined {r : Reference} {k l : Location} {before after : List (Location × List Reference)}
      {rs : List Reference} (htarget : r.target = .location l)
      (hentries : b.waiters.entries = before ++ (k, rs) :: after)
      (hlacks : Waiters.Lacks l before) (hsame : (k == l) = true) :
      Takes b (.reference r) { b with waiters := ⟨before ++ (k, rs ++ [r]) :: after⟩ }
  /-- The reference opens an entry. -/
  | opened {r : Reference} {l : Location} (htarget : r.target = .location l)
      (hlacks : Waiters.Lacks l b.waiters.entries) :
      Takes b (.reference r)
        { b with
          waiters := ⟨b.waiters.entries ++ [(l, [r])]⟩
          dispatches := b.dispatches ++ [l] }
  /-- The reference is reported. -/
  | reported {r : Reference} {cause : Chain} (htarget : r.target = .nowhere cause) :
      Takes b (.reference r) { b with calls := b.calls ++ [.unresolved r cause] }
  /-- Resolving the reference panics. -/
  | panicked {r : Reference} {payload : Payload} (htarget : r.target = .panic payload) :
      Takes b (.reference r) b
  /-- The completion is served to the references of its entry. -/
  | served {c : Completion} {k : Location} {before after : List (Location × List Reference)}
      {rs : List Reference}
      (hentries : b.waiters.entries = before ++ (k, rs) :: after)
      (hlacks : Waiters.Lacks c.location before) (hsame : (k == c.location) = true) :
      Takes b (.completion c)
        { b with
          waiters := ⟨before ++ after⟩
          calls := b.calls ++ fanOut c.outcome rs }
  /-- Nothing waits for the completion. -/
  | stray {c : Completion} (hlacks : Waiters.Lacks c.location b.waiters.entries) :
      Takes b (.completion c) b

/-- The list of cases is complete. -/
theorem takes_take (b : Book) (t : Taking) : Takes b t (b.take t) := by
  cases t with
  | reference r =>
      cases htarget : r.target with
      | location l =>
          rcases b.waiters.enroll_eq l r with
            ⟨before, k, rs, after, hentries, hlacks, hk, heq⟩ | ⟨hlacks, heq⟩
          · have := Takes.joined htarget hentries hlacks hk
            simpa [take, htarget, heq, Admission.dispatches] using this
          · have := Takes.opened htarget hlacks
            simpa [take, htarget, heq, Admission.dispatches] using this
      | nowhere cause =>
          have := Takes.reported (b := b) htarget
          simpa [take, htarget, Reference.failure] using this
      | panic payload =>
          have := Takes.panicked (b := b) htarget
          simpa [take, htarget, Reference.failure] using this
  | completion c =>
      rcases hfound : b.waiters.complete? c.location with _ | ⟨rs, waiters⟩
      · have := Takes.stray (Waiters.complete?_eq_none_iff.mp hfound)
        simpa [take, hfound] using this
      · obtain ⟨before, k, after, hentries, hlacks, hk, rfl⟩ :=
          Waiters.complete?_eq_some_iff.mp hfound
        have := Takes.served hentries hlacks hk
        simpa [take, hfound] using this

/-- The calls and the dispatches of a book only grow. -/
theorem Takes.grows {b b' : Book} {t : Taking} (h : Takes b t b') :
    b.calls <+: b'.calls ∧ b.dispatches <+: b'.dispatches := by
  cases h with
  | joined htarget hentries hlacks hsame => exact ⟨List.prefix_rfl, List.prefix_rfl⟩
  | opened htarget hlacks => exact ⟨List.prefix_rfl, List.prefix_append _ _⟩
  | reported htarget => exact ⟨List.prefix_append _ _, List.prefix_rfl⟩
  | panicked htarget => exact ⟨List.prefix_rfl, List.prefix_rfl⟩
  | served hentries hlacks hsame => exact ⟨List.prefix_append _ _, List.prefix_rfl⟩
  | stray hlacks => exact ⟨List.prefix_rfl, List.prefix_rfl⟩

/-! ### Entries -/

/-- Every reference stands in an entry that has a location the same as its own. -/
def Sorted (entries : List (Location × List Reference)) : Prop :=
  ∀ e ∈ entries, ∀ r ∈ e.2, ∀ l, Reference.leadsTo l r = (e.1 == l)

/-- Every entry has the location of one of its references. -/
def Opened (entries : List (Location × List Reference)) : Prop :=
  ∀ e ∈ entries, ∃ r ∈ e.2, r.target = .location e.1

/-- The entries of a book are in order: no two have the same location, and each has references,
which lead to its location. -/
structure Filed (b : Book) : Prop where
  distinct : b.waiters.Distinct
  sorted : Sorted b.waiters.entries
  opened : Opened b.waiters.entries

/-- No two entries have the same location, whatever is taken up. -/
theorem distinct_take {b : Book} (h : b.waiters.Distinct) (t : Taking) :
    (b.take t).waiters.Distinct := by
  cases t with
  | reference r =>
      cases htarget : r.target with
      | location l => simpa only [take, htarget] using h.enroll l r
      | nowhere cause => simpa only [take, htarget] using h
      | panic payload => simpa only [take, htarget] using h
  | completion c =>
      rcases hfound : b.waiters.complete? c.location with _ | ⟨rs, waiters⟩
      · simpa only [take, hfound] using h
      · simpa only [take, hfound] using h.complete? hfound

/-- A reference joins the entry of a location that is the same as its own. -/
theorem Sorted.join {before after : List (Location × List Reference)} {k l : Location}
    {rs : List Reference} {r : Reference} (h : Sorted (before ++ (k, rs) :: after))
    (htarget : r.target = .location l) (hsame : (k == l) = true) :
    Sorted (before ++ (k, rs ++ [r]) :: after) := by
  simp only [Sorted, List.forall_mem_append, List.forall_mem_cons] at h ⊢
  obtain ⟨hbefore, hrs, hafter⟩ := h
  refine ⟨hbefore, ⟨hrs, fun m => ?_, fun _ h => absurd h List.not_mem_nil⟩, hafter⟩
  rw [Reference.leadsTo, htarget, BEq.congr_left hsame]

/-- A reference opens an entry of its own location. -/
theorem Sorted.add {entries : List (Location × List Reference)} {l : Location} {r : Reference}
    (h : Sorted entries) (htarget : r.target = .location l) : Sorted (entries ++ [(l, [r])]) := by
  simp only [Sorted, List.forall_mem_append, List.forall_mem_singleton]
  exact ⟨h, fun m => by rw [Reference.leadsTo, htarget]⟩

/-- An entry is taken out. -/
theorem Sorted.remove {before after : List (Location × List Reference)}
    {e : Location × List Reference} (h : Sorted (before ++ e :: after)) :
    Sorted (before ++ after) := by
  simp only [Sorted, List.forall_mem_append, List.forall_mem_cons] at h ⊢
  exact ⟨h.1, h.2.2⟩

/-- Taking up a reference or a completion keeps every reference in the entry of its own
location. -/
theorem Takes.sorted {b b' : Book} {t : Taking} (h : Takes b t b')
    (hsorted : Sorted b.waiters.entries) : Sorted b'.waiters.entries := by
  cases h with
  | joined htarget hentries hlacks hsame => exact (hentries ▸ hsorted).join htarget hsame
  | opened htarget hlacks => exact hsorted.add htarget
  | served hentries hlacks hsame => exact (hentries ▸ hsorted).remove
  | reported htarget => exact hsorted
  | panicked htarget => exact hsorted
  | stray hlacks => exact hsorted

/-- Every entry goes on having the reference that has opened it. -/
theorem Takes.opened_entries {b b' : Book} {t : Taking} (h : Takes b t b')
    (hopened : Opened b.waiters.entries) : Opened b'.waiters.entries := by
  cases h with
  | joined htarget hentries hlacks hsame =>
      rw [hentries] at hopened
      simp only [Opened, List.forall_mem_append, List.forall_mem_cons] at hopened ⊢
      obtain ⟨hbefore, ⟨r, hr, hfirst⟩, hafter⟩ := hopened
      exact ⟨hbefore, ⟨r, List.mem_append_left _ hr, hfirst⟩, hafter⟩
  | opened htarget hlacks =>
      simp only [Opened, List.forall_mem_append, List.forall_mem_singleton]
      exact ⟨hopened, _, List.mem_singleton_self _, htarget⟩
  | served hentries hlacks hsame =>
      rw [hentries] at hopened
      simp only [Opened, List.forall_mem_append, List.forall_mem_cons] at hopened ⊢
      exact ⟨hopened.1, hopened.2.2⟩
  | reported htarget => exact hopened
  | panicked htarget => exact hopened
  | stray hlacks => exact hopened

/-- The entries of every book are in order. -/
theorem filed_ofTaken (taken : List Taking) : Filed (ofTaken taken) := by
  induction taken using List.reverseRecOn with
  | nil => exact ⟨Waiters.Distinct.empty, by simp [ofTaken, Sorted], by simp [ofTaken, Opened]⟩
  | append_singleton taken t ih =>
      have htakes := takes_take (ofTaken taken) t
      rw [ofTaken_append]
      exact ⟨distinct_take ih.distinct t, htakes.sorted ih.sorted, htakes.opened_entries ih.opened⟩

/-! ### First in, first out -/

/-- Entries that lack a location hold no reference that leads to it. -/
theorem filter_leadsTo_eq_nil {entries : List (Location × List Reference)} {l : Location}
    (hsorted : Sorted entries) (hlacks : Waiters.Lacks l entries) :
    (entries.flatMap Prod.snd).filter (Reference.leadsTo l) = [] := by
  refine List.filter_eq_nil_iff.mpr ?_
  intro r hr
  obtain ⟨e, he, hre⟩ := List.mem_flatMap.mp hr
  simp [hsorted e he r hre, hlacks e he]

/-- Whoever is served leads to a location that is the same as itself. -/
theorem Takes.leadsTo_of_mem_processed {b b' : Book} {t : Taking} (h : Takes b t b')
    (hsorted : Sorted b.waiters.entries)
    (hserved : ∀ r ∈ processed b.calls, ∃ l, Reference.leadsTo l r = true) :
    ∀ r ∈ processed b'.calls, ∃ l, Reference.leadsTo l r = true := by
  cases h with
  | joined htarget hentries hlacks hsame => exact hserved
  | opened htarget hlacks => exact hserved
  | reported htarget => simpa using hserved
  | panicked htarget => exact hserved
  | @served c k before after rs hentries hlacks hsame =>
      simp only [processed_append, processed_fanOut, List.forall_mem_append]
      exact ⟨hserved, fun r hr =>
        ⟨c.location, (hsorted (k, rs) (by simp [hentries]) r hr _).trans hsame⟩⟩
  | stray hlacks => exact hserved

/-- In one taking, what is served and what waits for a location grows by the reference taken
up, at the end. -/
theorem Takes.filter_leadsTo {b b' : Book} {t : Taking} (h : Takes b t b') (hfiled : Filed b)
    (l : Location) :
    (processed b'.calls ++ b'.waiters.references).filter (Reference.leadsTo l) =
      (processed b.calls ++ b.waiters.references).filter (Reference.leadsTo l) ++
        (references [t]).filter (Reference.leadsTo l) := by
  obtain ⟨hdistinct, hsorted, -⟩ := hfiled
  cases h with
  | @joined r k m before after rs htarget hentries hlacks hsame =>
      rw [hentries] at hsorted
      have hr : Reference.leadsTo l r = (k == l) := by
        rw [Reference.leadsTo, htarget, BEq.congr_left hsame]
      simp only [Waiters.references, hentries, List.flatMap_append, List.flatMap_cons,
        List.filter_append, List.append_assoc, references_reference]
      by_cases hkl : (k == l) = true
      · -- the entries behind the one that is joined hold nothing for its location
        have hbehind := (hdistinct.lacks_behind hentries).congr hkl
        have hafter := filter_leadsTo_eq_nil (fun e he => hsorted e (by simp [he])) hbehind
        simp [hafter]
      · simp [hr, hkl]
  | opened htarget hlacks =>
      simp [Waiters.references]
  | @served c k before after rs hentries hlacks hsame =>
      rw [hentries] at hsorted
      have hrs : ∀ r ∈ rs, Reference.leadsTo l r = (c.location == l) := fun r hr =>
        (hsorted (k, rs) (by simp) r hr l).trans (BEq.congr_left hsame)
      simp only [Waiters.references, hentries, List.flatMap_append, List.flatMap_cons,
        List.filter_append, List.append_assoc, processed_append, processed_fanOut,
        references_completion, List.filter_nil, List.append_nil]
      by_cases hkl : (c.location == l) = true
      · -- the entries before the one that is served hold nothing for its location
        have hbefore := filter_leadsTo_eq_nil (fun e he => hsorted e (by simp [he]))
          (hlacks.congr hkl)
        simp [hbefore]
      · have hnone : rs.filter (Reference.leadsTo l) = [] := by
          refine List.filter_eq_nil_iff.mpr fun r hr => ?_
          simp [hrs r hr, hkl]
        simp [hnone]
  | reported htarget => simp [Reference.leadsTo, htarget]
  | panicked htarget => simp [Reference.leadsTo, htarget]
  | stray hlacks => simp

/-- **First in, first out.** For each location, the references taken up are those that were
served, followed by those that wait. -/
theorem filter_leadsTo_references (taken : List Taking) (l : Location) :
    (references taken).filter (Reference.leadsTo l) =
      (processed (ofTaken taken).calls ++ (ofTaken taken).waiters.references).filter
        (Reference.leadsTo l) := by
  induction taken using List.reverseRecOn with
  | nil => rfl
  | append_singleton taken t ih =>
      rw [ofTaken_append, (takes_take _ t).filter_leadsTo (filed_ofTaken taken) l,
        references_append, List.filter_append, ih]

/-! ### Every reference once -/

/-- Whoever was served leads to a location that is the same as itself. -/
theorem exists_leadsTo_of_mem_processed (taken : List Taking) :
    ∀ r ∈ processed (ofTaken taken).calls, ∃ l, Reference.leadsTo l r = true := by
  induction taken using List.reverseRecOn with
  | nil => simp [ofTaken, processed]
  | append_singleton taken t ih =>
      rw [ofTaken_append]
      exact (takes_take _ t).leadsTo_of_mem_processed (filed_ofTaken taken).sorted ih

/-- In one taking, the references reported grow by the one taken up, if it leads nowhere. -/
theorem Takes.unresolved {b b' : Book} {t : Taking} (h : Takes b t b') :
    unresolved b'.calls =
      unresolved b.calls ++ (references [t]).filter Reference.leadsNowhere := by
  cases h with
  | joined htarget hentries hlacks hsame => simp [Reference.leadsNowhere, htarget]
  | opened htarget hlacks => simp [Reference.leadsNowhere, htarget]
  | reported htarget => simp [Reference.leadsNowhere, htarget]
  | panicked htarget => simp [Reference.leadsNowhere, htarget]
  | served hentries hlacks hsame => simp
  | stray hlacks => simp

/-- The references reported are those taken up that lead nowhere. -/
theorem unresolved_ofTaken (taken : List Taking) :
    unresolved (ofTaken taken).calls = (references taken).filter Reference.leadsNowhere := by
  induction taken using List.reverseRecOn with
  | nil => rfl
  | append_singleton taken t ih =>
      rw [ofTaken_append, (takes_take _ t).unresolved, references_append, List.filter_append, ih]

/-- The references of a book: served, reported, and waiting. -/
def everyone (b : Book) : List Reference :=
  processed b.calls ++ SharedFetch.unresolved b.calls ++ b.waiters.references

/-- In one taking, the references of a book grow by the one taken up, unless it panics. -/
theorem Takes.everyone_perm {b b' : Book} {t : Taking} (h : Takes b t b') :
    (b'.everyone ++ (references [t]).filter Reference.panics).Perm
      (b.everyone ++ references [t]) := by
  cases h with
  | @joined r k l before after rs htarget hentries hlacks hsame =>
      have hpanics : Reference.panics r = false := by rw [Reference.panics, htarget]
      rw [← Multiset.coe_eq_coe]
      simp only [everyone, Waiters.references, hentries, references_reference, hpanics,
        List.filter_cons, Bool.false_eq_true, if_false, List.filter_nil, List.flatMap_append,
        List.flatMap_cons, List.append_nil, ← Multiset.coe_add]
      abel
  | @opened r l htarget hlacks =>
      have hpanics : Reference.panics r = false := by rw [Reference.panics, htarget]
      simp [everyone, Waiters.references, hpanics]
  | @reported r cause htarget =>
      have hpanics : Reference.panics r = false := by rw [Reference.panics, htarget]
      rw [← Multiset.coe_eq_coe]
      simp only [everyone, references_reference, hpanics, List.filter_cons, Bool.false_eq_true,
        if_false, List.filter_nil, List.append_nil, processed_append, unresolved_append,
        processed_unresolved, unresolved_unresolved, ← Multiset.coe_add]
      abel
  | panicked htarget => simp [Reference.panics, htarget]
  | served hentries hlacks hsame =>
      rw [← Multiset.coe_eq_coe]
      simp only [everyone, Waiters.references, hentries, references_completion, List.filter_nil,
        List.flatMap_append, List.flatMap_cons, List.append_nil, processed_append,
        unresolved_append, processed_fanOut, unresolved_fanOut, ← Multiset.coe_add]
      abel
  | stray hlacks => simp

/-- **Every reference once.** A reference taken up was served, reported, waits, or panicked
when it was resolved. -/
theorem references_perm (taken : List Taking) :
    ((ofTaken taken).everyone ++ (references taken).filter Reference.panics).Perm
      (references taken) := by
  induction taken using List.reverseRecOn with
  | nil => exact List.Perm.nil
  | append_singleton taken t ih =>
      have hstep := (takes_take (ofTaken taken) t).everyone_perm
      rw [← Multiset.coe_eq_coe] at hstep ih ⊢
      simp only [ofTaken_append, references_append, List.filter_append, ← Multiset.coe_add]
        at hstep ih ⊢
      calc (((ofTaken taken).take t).everyone : Multiset Reference) +
            (((references taken).filter Reference.panics : List Reference) +
              ((references [t]).filter Reference.panics : List Reference))
          = ((references taken).filter Reference.panics : List Reference) +
              (((ofTaken taken).take t).everyone +
                ((references [t]).filter Reference.panics : List Reference)) := by abel
        _ = ((references taken).filter Reference.panics : List Reference) +
              ((ofTaken taken).everyone + (references [t] : List Reference)) := by rw [hstep]
        _ = (ofTaken taken).everyone + ((references taken).filter Reference.panics) +
              (references [t] : List Reference) := by abel
        _ = (references taken : List Reference) + (references [t] : List Reference) := by rw [ih]

/-- A location in flight is the location of a reference taken up. -/
theorem exists_of_mem_locations {taken : List Taking} {l : Location}
    (h : l ∈ (ofTaken taken).waiters.locations) :
    ∃ r ∈ references taken, r.target = .location l := by
  obtain ⟨e, he, rfl⟩ := List.mem_map.mp h
  obtain ⟨r, hr, htarget⟩ := (filed_ofTaken taken).opened e he
  refine ⟨r, (references_perm taken).subset ?_, htarget⟩
  have : r ∈ (ofTaken taken).waiters.references := List.mem_flatMap.mpr ⟨e, he, hr⟩
  simp [everyone, this]

end Book

end SharedFetch
