import Mathlib.Data.List.Induction
import SharedFetch.Proofs.Waiters
import SharedFetch.Scenario.Parts

/-!
# Waiters and their history

Waiters are used by enrolling references and completing locations. Whoever has followed all of it
from the start, with what each use was answered, can tell what the next one will be answered: the
references enrolled for a location since it was last completed are those that wait for it.

## Convention

The history is told by the uses and their replies alone (`sinceCompleted`, `strays`, `enrolled`,
`returned`), without a look at the entries. Sameness of locations is taken to be symmetric and
transitive. A location that is not the same as itself then is the same as none, so nothing is ever
said to wait for it; what was enrolled for it are the strays, of which each has an entry of its own.

## Main results

* `Told.use`, `told_follow`: every use keeps history and entries together, and so does a history.
* `waiters_follow_history`: what every use is answered after any history, and the counts.
-/

namespace SharedFetch.Waiters

/-- What can be done with waiters. -/
inductive Use (L R : Type) where
  | enroll (l : L) (r : R)
  | complete (l : L)

/-- What a use of waiters is answered. -/
inductive Reply (L R : Type) where
  | admitted (admission : Admission L)
  | completed (references : List R)
  | missing (violation : Violation)

variable {L R : Type}

/-- The location that a use is about. -/
@[simp] def Use.location : Use L R → L
  | .enroll l _ => l
  | .complete l => l

/-- The references that a reply gives back. -/
@[simp] def Reply.references : Reply L R → List R
  | .completed rs => rs
  | _ => []

/-- All references that were enrolled. -/
def enrolled (history : List (Use L R)) : List R :=
  history.filterMap fun
    | .enroll _ r => some r
    | .complete _ => none

/-- All references that were given back. -/
def returned (told : List (Use L R × Reply L R)) : List R :=
  told.flatMap fun e => e.2.references

/-- Waiters without an empty entry are empty exactly if nothing waits. -/
theorem isEmpty_iff {w : Waiters L R} (hfilled : ∀ e ∈ w.entries, e.2 ≠ []) :
    (w.isEmpty = true ↔ w.size = 0) ∧ (w.size = 0 ↔ w.waiting = 0) := by
  refine ⟨by simp [isEmpty, size], ?_⟩
  rw [size, waiting, references, List.length_eq_zero_iff, List.length_eq_zero_iff,
    List.flatMap_eq_nil_iff]
  constructor
  · intro hnil
    simp [hnil]
  · intro hempty
    rw [List.eq_nil_iff_forall_not_mem]
    exact fun e he => hfilled e he (hempty e he)

variable [BEq L]

section Using

variable [Render L]

/-- Enrolls a reference, or completes a location. -/
def use (w : Waiters L R) : Use L R → Reply L R × Waiters L R
  | .enroll l r => (.admitted (w.enroll l r).1, (w.enroll l r).2)
  | .complete l =>
    match w.complete? l with
    | some (rs, w) => (.completed rs, w)
    | none => (.missing ⟨render l⟩, w)

/-- A history from no waiters at all: each use with its reply, and the waiters in the end. -/
def follow (history : List (Use L R)) : List (Use L R × Reply L R) × Waiters L R :=
  history.foldl (fun (told, w) u => (told ++ [(u, (w.use u).1)], (w.use u).2)) ([], {})

/-- The uses of a history with their replies. -/
def told (history : List (Use L R)) : List (Use L R × Reply L R) :=
  (follow history).1

/-- The waiters after a history. -/
def after (history : List (Use L R)) : Waiters L R :=
  (follow history).2

theorem told_concat (history : List (Use L R)) (u : Use L R) :
    told (history ++ [u]) = told history ++ [(u, ((after history).use u).1)] := by
  simp [told, after, follow]

theorem after_concat (history : List (Use L R)) (u : Use L R) :
    after (history ++ [u]) = ((after history).use u).2 := by
  simp [after, follow]

end Using

/-! ### What a history tells -/

/-- Whether a use has completed a location. -/
def completes (l : L) : Use L R × Reply L R → Bool
  | (.complete k, .completed _) => k == l
  | _ => false

/-- The reference that a use has enrolled for a location. -/
def enrolledFor? (l : L) : Use L R × Reply L R → Option R
  | (.enroll k r, _) => if k == l then some r else none
  | _ => none

/-- The references enrolled for a location since it was last completed, in order. -/
def sinceCompleted (l : L) (told : List (Use L R × Reply L R)) : List R :=
  (told.reverse.takeWhile fun e => !completes l e).reverse.filterMap (enrolledFor? l)

/-- The entries of locations that are not the same as themselves. -/
def strays (history : List (Use L R)) : List (L × List R) :=
  history.filterMap fun
    | .enroll l r => if l == l then none else some (l, [r])
    | .complete _ => none

@[simp] theorem sinceCompleted_enroll (told : List (Use L R × Reply L R)) (l k : L) (r : R)
    (reply : Reply L R) :
    sinceCompleted l (told ++ [(.enroll k r, reply)]) =
      sinceCompleted l told ++ if k == l then [r] else [] := by
  by_cases hk : (k == l) = true <;> simp [sinceCompleted, completes, enrolledFor?, hk]

@[simp] theorem sinceCompleted_missing (told : List (Use L R × Reply L R)) (l k : L)
    (violation : Violation) :
    sinceCompleted l (told ++ [(.complete k, .missing violation)]) = sinceCompleted l told := by
  simp [sinceCompleted, completes, enrolledFor?]

@[simp] theorem sinceCompleted_completed (told : List (Use L R × Reply L R)) (l k : L)
    (rs : List R) :
    sinceCompleted l (told ++ [(.complete k, .completed rs)]) =
      if k == l then [] else sinceCompleted l told := by
  by_cases hk : (k == l) = true <;> simp [sinceCompleted, completes, enrolledFor?, hk]

/-! ### History and entries -/

/-- The references that wait for a location. -/
def waitingFor (w : Waiters L R) (l : L) : List R :=
  ((w.entries.find? fun e => e.1 == l).map Prod.snd).getD []

/-- The references that wait for a location are those of its first entry. -/
theorem waitingFor_of_entries {w : Waiters L R} {l k : L} {rs : List R}
    {before after : List (L × List R)} (hw : w.entries = before ++ (k, rs) :: after)
    (hlacks : Lacks l before) (hk : (k == l) = true) : w.waitingFor l = rs := by
  have hbefore : before.find? (fun e => e.1 == l) = none :=
    List.find?_eq_none.mpr fun e he => by simp [hlacks e he]
  simp [waitingFor, hw, List.find?_append, hbefore, hk]

/-- Nothing waits for a location without an entry. -/
theorem waitingFor_of_lacks {w : Waiters L R} {l : L} (hlacks : Lacks l w.entries) :
    w.waitingFor l = [] := by
  have hnone : w.entries.find? (fun e => e.1 == l) = none :=
    List.find?_eq_none.mpr fun e he => by simp [hlacks e he]
  simp [waitingFor, hnone]

/-- What has become of an entry is nothing to other locations. -/
theorem waitingFor_of_other {w w' : Waiters L R} {l k : L} {rs : List R}
    {before after : List (L × List R)} (new : List (L × List R))
    (hw : w.entries = before ++ (k, rs) :: after) (hw' : w'.entries = before ++ new ++ after)
    (hnew : Lacks l new) (hk : (k == l) = false) :
    w'.waitingFor l = w.waitingFor l := by
  have hnone : new.find? (fun e => e.1 == l) = none :=
    List.find?_eq_none.mpr fun e he => by simp [hnew e he]
  simp [waitingFor, hw, hw', List.find?_append, hnone, hk]

/-- What a use can come to, with the entries cut at the place of the one that it changes. -/
inductive Used [Render L] (w : Waiters L R) : Use L R → Reply L R → Waiters L R → Prop where
  | joined {l k : L} {r : R} {rs : List R} {before after : List (L × List R)}
      (hw : w.entries = before ++ (k, rs) :: after) (hlacks : Lacks l before)
      (hk : (k == l) = true) :
      Used w (.enroll l r) (.admitted (.coalesced (rs.length + 1)))
        ⟨before ++ (k, rs ++ [r]) :: after⟩
  | opened {l : L} {r : R} (hlacks : Lacks l w.entries) :
      Used w (.enroll l r) (.admitted (.dispatch l)) ⟨w.entries ++ [(l, [r])]⟩
  | completed {l k : L} {rs : List R} {before after : List (L × List R)}
      (hw : w.entries = before ++ (k, rs) :: after) (hlacks : Lacks l before)
      (hk : (k == l) = true) :
      Used w (.complete l) (.completed rs) ⟨before ++ after⟩
  | missed {l : L} (hlacks : Lacks l w.entries) :
      Used w (.complete l) (.missing ⟨render l⟩) w

theorem used_use [Render L] (w : Waiters L R) (u : Use L R) :
    w.Used u (w.use u).1 (w.use u).2 := by
  cases u with
  | enroll l r =>
      rw [use]
      rcases enroll_eq w l r with ⟨before, k, rs, after, hw, hlacks, hk, heq⟩ | ⟨hlacks, heq⟩
      · rw [heq]
        exact .joined hw hlacks hk
      · rw [heq]
        exact .opened hlacks
  | complete l =>
      rw [use]
      rcases hcomplete : w.complete? l with _ | ⟨rs, w'⟩
      · exact .missed (complete?_eq_none_iff.mp hcomplete)
      · obtain ⟨before, k, after, hw, hlacks, hk, rfl⟩ := complete?_eq_some_iff.mp hcomplete
        exact .completed hw hlacks hk

/-- The entries `w` are those that the history tells of. -/
structure Told (history : List (Use L R)) (told : List (Use L R × Reply L R))
    (w : Waiters L R) : Prop where
  distinct : w.Distinct
  filled : ∀ e ∈ w.entries, e.2 ≠ []
  since : ∀ l, w.waitingFor l = sinceCompleted l told
  strays : (w.entries.filter fun e => !(e.1 == e.1)) = strays history
  balance : (enrolled history).Perm (returned told ++ w.references)

namespace Used

variable [Render L] {w w' : Waiters L R} {u : Use L R} {reply : Reply L R}

theorem distinct (h : w.Used u reply w') (hdistinct : w.Distinct) : w'.Distinct := by
  cases h with
  | joined hw hlacks hk => simpa [Distinct, locations, hw] using hdistinct
  | @opened l r hlacks =>
      have henroll := hdistinct.enroll l r
      rcases enroll_eq w l r with ⟨before, k, rs, after, hw, -, hk, -⟩ | ⟨-, heq⟩
      · have := hlacks (k, rs) (by simp [hw])
        simp [hk] at this
      · rwa [heq] at henroll
  | completed hw hlacks hk =>
      exact hdistinct.complete? (complete?_eq_some_iff.mpr ⟨_, _, _, hw, hlacks, hk, rfl⟩)
  | missed hlacks => exact hdistinct

theorem filled (h : w.Used u reply w') (hfilled : ∀ e ∈ w.entries, e.2 ≠ []) :
    ∀ e ∈ w'.entries, e.2 ≠ [] := by
  cases h with
  | joined hw hlacks hk =>
      simp only [hw, List.mem_append, List.mem_cons] at hfilled
      intro e he
      simp only [List.mem_append, List.mem_cons] at he
      rcases he with he | rfl | he
      · exact hfilled e (.inl he)
      · simp
      · exact hfilled e (.inr (.inr he))
  | opened hlacks =>
      intro e he
      rcases List.mem_append.mp he with he | he
      · exact hfilled e he
      · rw [List.mem_singleton.mp he]
        exact List.cons_ne_nil _ _
  | completed hw hlacks hk =>
      intro e he
      refine hfilled e ?_
      rw [hw]
      exact (List.sublist_cons_self _ _).append_left _ |>.subset he
  | missed hlacks => exact hfilled

/-- A reference that is enrolled waits until it is given back. -/
theorem references_perm (h : w.Used u reply w') :
    (enrolled [u] ++ w.references).Perm (reply.references ++ w'.references) := by
  cases h with
  | @joined l k r rs before after hw hlacks hk =>
      have hlast : (before.flatMap Prod.snd ++ rs ++ r :: after.flatMap Prod.snd).Perm
          (r :: (before.flatMap Prod.snd ++ rs ++ after.flatMap Prod.snd)) := List.perm_middle
      simpa [enrolled, references, hw] using hlast.symm
  | opened hlacks =>
      simpa [enrolled, references] using (List.perm_append_singleton _ _).symm
  | completed hw hlacks hk =>
      simpa [enrolled, references, hw] using List.perm_append_comm_assoc _ _ _
  | missed hlacks => exact .refl _

section Sameness

variable [PartialEquivBEq L]

/-- What waits for a location after a use is what the use has left of it. -/
theorem waitingFor (h : w.Used u reply w') (hdistinct : w.Distinct)
    (told : List (Use L R × Reply L R)) (l : L)
    (hsince : w.waitingFor l = sinceCompleted l told) :
    w'.waitingFor l = sinceCompleted l (told ++ [(u, reply)]) := by
  have hother : ∀ {k m : L}, (k == m) = true → ¬(m == l) = true → (k == l) = false := by
    intro k m hk hm
    rw [Bool.eq_false_iff]
    exact fun hkl => hm (PartialEquivBEq.trans (PartialEquivBEq.symm hk) hkl)
  cases h with
  | @joined m k r rs before after hw hlacks hk =>
      rw [sinceCompleted_enroll, ← hsince]
      by_cases hm : (m == l) = true
      · have hkl := PartialEquivBEq.trans hk hm
        rw [waitingFor_of_entries rfl (hlacks.congr hm) hkl,
          waitingFor_of_entries hw (hlacks.congr hm) hkl, if_pos hm]
      · rw [if_neg hm, List.append_nil]
        refine waitingFor_of_other [(k, rs ++ [r])] hw (by simp) ?_ (hother hk hm)
        simpa [Lacks] using hother hk hm
  | @opened m r hlacks =>
      rw [sinceCompleted_enroll, ← hsince]
      by_cases hm : (m == l) = true
      · rw [waitingFor_of_entries rfl (hlacks.congr hm) hm,
          waitingFor_of_lacks (hlacks.congr hm), if_pos hm, List.nil_append]
      · simp [Waiters.waitingFor, List.find?_append, hm]
  | @completed m k rs before after hw hlacks hk =>
      rw [sinceCompleted_completed, ← hsince]
      by_cases hm : (m == l) = true
      · -- no other entry has the location
        have hbehind := ((hdistinct.lacks_behind hw).congr hk).congr hm
        rw [if_pos hm]
        refine waitingFor_of_lacks fun e he => ?_
        rcases List.mem_append.mp he with he | he
        · exact hlacks.congr hm e he
        · exact hbehind e he
      · rw [if_neg hm]
        exact waitingFor_of_other [] hw (by simp) (by simp [Lacks]) (hother hk hm)
  | missed hlacks => rw [sinceCompleted_missing, hsince]

/-- An entry of a location that is not the same as itself is never changed. -/
theorem strays (h : w.Used u reply w') :
    (w'.entries.filter fun e => !(e.1 == e.1)) =
      (w.entries.filter fun e => !(e.1 == e.1)) ++ Waiters.strays [u] := by
  cases h with
  | joined hw hlacks hk =>
      simp [hw, Waiters.strays, beq_self_of_beq hk, beq_self_of_beq (PartialEquivBEq.symm hk)]
  | completed hw hlacks hk => simp [hw, Waiters.strays, beq_self_of_beq hk]
  | @opened l r hlacks =>
      by_cases hl : (l == l) = true <;> simp [Waiters.strays, hl]
  | missed hlacks => simp [Waiters.strays]

/-- The entries of other locations stay as they are, and all that can come behind them is an entry
of a location that is not the same as itself. -/
theorem others (h : w.Used u reply w') :
    (w'.entries.filter fun e => !(e.1 == u.location)) =
      (w.entries.filter fun e => !(e.1 == u.location)) ++ Waiters.strays [u] := by
  cases h with
  | joined hw hlacks hk =>
      simp [hw, hk, Waiters.strays, beq_self_of_beq (PartialEquivBEq.symm hk)]
  | @opened l r hlacks =>
      by_cases hl : (l == l) = true <;> simp [Waiters.strays, hl]
  | completed hw hlacks hk => simp [hw, hk, Waiters.strays]
  | missed hlacks => simp [Waiters.strays]

end Sameness

end Used

/-! ### What is answered -/

section Replies

variable [Render L] {w : Waiters L R}

/-- A reference is the first for its location exactly if nothing waits for it. -/
theorem use_enroll_reply (hfilled : ∀ e ∈ w.entries, e.2 ≠ []) (l : L) (r : R) :
    (w.use (.enroll l r)).1 = .admitted
      (if w.waitingFor l = [] then .dispatch l else .coalesced ((w.waitingFor l).length + 1)) := by
  rcases enroll_eq w l r with ⟨before, k, rs, after, hw, hlacks, hk, heq⟩ | ⟨hlacks, heq⟩
  · have hrs : rs ≠ [] := hfilled (k, rs) (by simp [hw])
    rw [waitingFor_of_entries hw hlacks hk, if_neg hrs, use, heq]
  · rw [waitingFor_of_lacks hlacks, if_pos rfl, use, heq]

/-- Completing gives back what waits. -/
theorem use_complete_reply {l : L} (hl : w.waitingFor l ≠ []) :
    (w.use (.complete l)).1 = .completed (w.waitingFor l) := by
  rw [use]
  rcases hcomplete : w.complete? l with _ | ⟨rs, w'⟩
  · exact absurd (waitingFor_of_lacks (complete?_eq_none_iff.mp hcomplete)) hl
  · obtain ⟨before, k, after, hw, hlacks, hk, -⟩ := complete?_eq_some_iff.mp hcomplete
    rw [waitingFor_of_entries hw hlacks hk]

/-- Completing fails without effect if nothing waits. -/
theorem use_complete_eq_missing (hfilled : ∀ e ∈ w.entries, e.2 ≠ []) {l : L}
    (hl : w.waitingFor l = []) : w.use (.complete l) = (.missing ⟨render l⟩, w) := by
  rw [use]
  rcases hcomplete : w.complete? l with _ | ⟨rs, w'⟩
  · rfl
  · obtain ⟨before, k, after, hw, hlacks, hk, -⟩ := complete?_eq_some_iff.mp hcomplete
    rw [waitingFor_of_entries hw hlacks hk] at hl
    exact absurd hl (hfilled (k, rs) (by simp [hw]))

/-- The same of a location that is not the same as itself. -/
theorem use_of_ne_self [PartialEquivBEq L] {l : L} (hl : (l == l) = false) :
    (∀ r, w.use (.enroll l r) = (.admitted (.dispatch l), ⟨w.entries ++ [(l, [r])]⟩)) ∧
      w.use (.complete l) = (.missing ⟨render l⟩, w) := by
  have hlacks := lacks_of_ne_self hl w.entries
  constructor
  · intro r
    rw [use, enroll, join_eq_none_iff.mpr hlacks]
  · rw [use, complete?_eq_none_iff.mpr hlacks]

end Replies

section History

variable [Render L] [PartialEquivBEq L]

/-- **A use** keeps history and entries together. -/
theorem Told.use {history : List (Use L R)} {told : List (Use L R × Reply L R)}
    {w w' : Waiters L R} {u : Use L R} {reply : Reply L R} (h : Told history told w)
    (hused : w.Used u reply w') : Told (history ++ [u]) (told ++ [(u, reply)]) w' := by
  refine ⟨hused.distinct h.distinct, hused.filled h.filled,
    fun l => hused.waitingFor h.distinct told l (h.since l), ?_, ?_⟩
  · rw [hused.strays, h.strays, Waiters.strays, Waiters.strays, Waiters.strays,
      List.filterMap_append]
  · rw [enrolled, List.filterMap_append, returned, List.flatMap_append, List.flatMap_singleton,
      List.append_assoc]
    calc
      _ = enrolled history ++ enrolled [u] := rfl
      _ |>.Perm (returned told ++ w.references ++ enrolled [u]) := h.balance.append_right _
      _ |>.Perm (returned told ++ (enrolled [u] ++ w.references)) := by
        rw [List.append_assoc]
        exact List.perm_append_comm.append_left _
      _ |>.Perm (returned told ++ (reply.references ++ w'.references)) :=
        hused.references_perm.append_left _

/-- **Every history** is told by its uses and their replies. -/
theorem told_follow (history : List (Use L R)) :
    Told history (told history) (after history) := by
  induction history using List.reverseRecOn with
  | nil => exact ⟨.empty, fun _ he => (List.not_mem_nil he).elim, fun _ => rfl, rfl, .refl _⟩
  | append_singleton history u ih =>
      rw [told_concat, after_concat]
      exact ih.use (used_use _ u)

/-- **Waiters follow their history.** After any history of enrolling and completing, for a location
that is the same as itself: a reference is admitted as the first exactly if none was enrolled since
the location was last completed, and else joins these; completing gives back these, in order, and
fails, with the written form of the location and without effect, exactly if there are none. The
entries of other locations stay as they are. For a location that is not the same as itself every
reference has an entry of its own, which no history takes away, and completing fails without
effect. Whatever was enrolled waits or was given back; no two entries have the same location, none
is empty, and there are no entries exactly if nothing waits. -/
theorem waiters_follow_history (history : List (Use L R)) :
    let w : Waiters L R := after history
    (∀ l : L, (l == l) = true →
      let rs := sinceCompleted l (told history)
      (∀ r, (w.use (.enroll l r)).1 =
        .admitted (if rs = [] then .dispatch l else .coalesced (rs.length + 1))) ∧
      (rs ≠ [] → (w.use (.complete l)).1 = .completed rs) ∧
      (rs = [] → w.use (.complete l) = (.missing ⟨render l⟩, w))) ∧
    (∀ l : L, (l == l) = false →
      (∀ r, w.use (.enroll l r) = (.admitted (.dispatch l), ⟨w.entries ++ [(l, [r])]⟩)) ∧
      w.use (.complete l) = (.missing ⟨render l⟩, w)) ∧
    (w.entries.filter fun e => !(e.1 == e.1)) = strays history ∧
    (∀ u : Use L R, (w.entries.filter fun e => !(e.1 == u.location)) <+:
      ((w.use u).2.entries.filter fun e => !(e.1 == u.location))) ∧
    (enrolled history).Perm (returned (told history) ++ w.references) ∧
    w.waiting = (enrolled history).length - (returned (told history)).length ∧
    w.size = w.entries.length ∧ w.Distinct ∧ (∀ e ∈ w.entries, e.2 ≠ []) ∧
    (w.isEmpty = true ↔ w.size = 0) ∧ (w.size = 0 ↔ w.waiting = 0) := by
  intro w
  have h : Told history (told history) w := told_follow history
  refine ⟨fun l _ => ?_, fun l hl => use_of_ne_self hl, h.strays, fun u => ?_, h.balance, ?_, rfl,
    h.distinct, h.filled, isEmpty_iff h.filled⟩
  · simp only [← h.since l]
    exact ⟨use_enroll_reply h.filled l, use_complete_reply, use_complete_eq_missing h.filled⟩
  · exact ⟨_, (used_use w u).others.symm⟩
  · have hlength := h.balance.length_eq
    rw [List.length_append] at hlength
    rw [waiting, hlength, Nat.add_sub_cancel_left]

end History

/-- References for two locations and for one that is not the same as itself. The first location is
completed and enrolled for again, the second is completed, and the third cannot be. -/
def mixedHistory : List (Use Location Nat) :=
  [.enroll (.text "a") 1, .enroll (.broken "x") 2, .enroll (.text "a") 3, .complete (.text "a"),
    .complete (.broken "x"), .enroll (.text "a") 4, .enroll (.text "b") 5, .complete (.text "b"),
    .enroll (.broken "x") 6, .enroll (.text "a") 7]

/-- After that history the two references that came last wait for the first location, nothing waits
for the second, and the third has two entries. -/
theorem waiters_follow_mixedHistory :
    let w : Waiters Location Nat := after mixedHistory
    (w.use (.enroll (.text "a") 8)).1 = .admitted (.coalesced 3) ∧
    (w.use (.complete (.text "a"))).1 = .completed [4, 7] ∧
    (w.use (.enroll (.text "b") 8)).1 = .admitted (.dispatch (.text "b")) ∧
    w.use (.complete (.text "b")) = (.missing ⟨"\"b\""⟩, w) ∧
    w.use (.complete (.broken "x")) = (.missing ⟨"Broken(\"x\")"⟩, w) ∧
    (w.entries.filter fun e => !(e.1 == e.1)) = [(.broken "x", [2]), (.broken "x", [6])] ∧
    w.waiting = 4 := by
  obtain ⟨hsame, hother, hstrays, -, -, hwaiting, -⟩ := waiters_follow_history mixedHistory
  obtain ⟨hadmitted, hcompleted, -⟩ := hsame (.text "a") rfl
  obtain ⟨hadmitted', -, hmissing⟩ := hsame (.text "b") rfl
  exact ⟨hadmitted 8, hcompleted (by rw [Ne]; exact List.cons_ne_nil 4 [7]), hadmitted' 8,
    hmissing rfl, (hother (.broken "x") rfl).2, hstrays, hwaiting⟩

/-! ### Scenarios -/

/-- The operation of a scenario that a use is. -/
def Use.action : Use Location Nat → Scenario.WaitersAction
  | .enroll l r => .enroll l r
  | .complete l => .complete l

/-- What a scenario shows of a reply. -/
def Reply.answer : Reply Location Nat → Scenario.WaitersAnswer
  | .admitted admission => .admitted admission
  | .completed rs => .completed rs
  | .missing violation => .missing violation

/-- The operations of a scenario are uses of the waiters. -/
theorem performOnWaiters_action (w : Waiters Location Nat) (u : Use Location Nat) :
    Scenario.performOnWaiters w u.action = ((w.use u).1.answer, (w.use u).2) := by
  cases u with
  | enroll l r => rfl
  | complete l =>
      rw [Use.action, Scenario.performOnWaiters, use]
      cases w.complete? l <;> rfl

/-- Steps that use the waiters, and report the reply, tell on and on what a history tells. -/
theorem told_append {step : Nat → Waiters Location Nat → Scenario.WaitersAction →
      Scenario.WaitersReport × Waiters Location Nat}
    (hstep : ∀ number w u, (step number w (Use.action u)).1.answer = (w.use u).1.answer ∧
      (step number w u.action).2 = (w.use u).2) (before history : List (Use Location Nat))
    (number : Nat) :
    (told (before ++ history)).map (fun e => e.2.answer) =
      (told before).map (fun e => e.2.answer) ++
        (Scenario.runFrom step number (after before) (history.map Use.action)).map
          Scenario.WaitersReport.answer := by
  induction history generalizing before number with
  | nil => simp [Scenario.runFrom]
  | cons u rest ih =>
      obtain ⟨hanswer, hafter⟩ := hstep number (after before) u
      rw [List.append_cons, ih (before ++ [u]) (number + 1), told_concat, after_concat]
      simp [Scenario.runFrom, hanswer, hafter]

/-- The answers that a scenario of waiters shows are the replies of its history. -/
theorem runWaiters_eq (history : List (Use Location Nat)) :
    (Scenario.runWaiters (history.map Use.action)).map Scenario.WaitersReport.answer =
      (told history).map fun e => e.2.answer := by
  refine (told_append ?_ [] history 0).symm
  intro number w u
  rw [performOnWaiters_action]
  exact ⟨rfl, rfl⟩

end SharedFetch.Waiters
