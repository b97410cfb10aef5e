import Mathlib.Data.List.Induction
import SharedFetch.Journal

/-!
# Marks in the life of a fetcher

What a fetcher goes through is written down as a list of marks: a run is launched, an operation
begins that stops the run or drains it, the protocol is called, it is told of the end of a run, the
operation returns. An automaton of five stretches reads such a list (`Stretch.next?`), and of every
list that it reads through it is known how the marks lie to one another: an operation that has found
a run tells the protocol of its end once, and last; one that has found none calls nothing; and from
the end of a run to the launch of the next there is silence.

## Main results

* `Stretch.middle_of_read?`: what an operation does until it returns.
* `Stretch.exists_begun_of_read?`: only an operation that has found a run tells of its end.
* `Stretch.silent_of_read?`: from the end of a run to the next launch there is silence.
-/

namespace SharedFetch

/-- What is written down of the life of a fetcher. -/
inductive Mark where
  /-- A run is launched. -/
  | started
  /-- The fetcher is stopped or drained, and is found running or not. -/
  | begun (found : Bool)
  /-- The protocol is called, to resolve a reference, to fetch a location, or for a reference that
  has come to its end. -/
  | called (entry : Entry)
  /-- The hook for the end of a run is called. -/
  | shutdown
  /-- The operation returns. -/
  | returned

/-- Whether the entry is only logged. -/
def Entry.isNote : Entry → Bool
  | .note _ => true
  | _ => false

namespace Mark

/-- Whether the protocol is called before the end of a run. -/
@[simp] def isCall : Mark → Bool
  | .called _ => true
  | _ => false

/-- The mark that an entry of the journal leaves. The end of a run leaves its own. -/
def ofEntry? : Entry → Option Mark
  | .note _ | .shutdown => none
  | e => some (.called e)

/-- The entry that the journal of a protocol with hooks has for a mark. -/
def entry? : Mark → Option Entry
  | .called e => some e
  | .shutdown => some .shutdown
  | .started | .begun _ | .returned => none

theorem isCall_of_ofEntry? {e : Entry} {m : Mark} (h : ofEntry? e = some m) : m.isCall = true := by
  cases e with
  | note | shutdown => cases h
  | _ =>
      obtain rfl := Option.some.inj h
      rfl

end Mark

/-- The stretches in the life of a fetcher. -/
inductive Stretch where
  /-- There is no run. -/
  | idle
  /-- There is a run. -/
  | running
  /-- An operation has found a run, and has not told the protocol of its end. -/
  | ending
  /-- An operation has told the protocol of the end of the run. -/
  | told
  /-- An operation has found no run. -/
  | passing
  deriving DecidableEq, Repr

namespace Stretch

variable {s t : Stretch} {m : Mark} {marks front rest : List Mark}

/-- The stretch after a mark, if the mark can stand there. -/
def next? : Stretch → Mark → Option Stretch
  | .idle, .started => some .running
  | .idle, .begun false => some .passing
  | .running, .called _ => some .running
  | .running, .begun true => some .ending
  | .ending, .called _ => some .ending
  | .ending, .shutdown => some .told
  | .told, .returned => some .idle
  | .passing, .returned => some .idle
  | _, _ => none

/-- The stretch after a list of marks, if they can stand there one after the other. -/
def read? (s : Stretch) (marks : List Mark) : Option Stretch :=
  marks.foldlM next? s

@[simp] theorem read?_nil (s : Stretch) : s.read? [] = some s := rfl

@[simp] theorem read?_cons (s : Stretch) (m : Mark) (marks : List Mark) :
    s.read? (m :: marks) = (s.next? m).bind fun t => t.read? marks := rfl

theorem read?_append (s : Stretch) (front rest : List Mark) :
    s.read? (front ++ rest) = (s.read? front).bind fun t => t.read? rest :=
  List.foldlM_append

/-- Whether the protocol is not called. -/
@[simp] def isQuiet : Stretch → Bool
  | .idle | .told | .passing => true
  | .running | .ending => false

/-- In a stretch in which the protocol is called it may be called any number of times. -/
theorem read?_of_calls (hloud : s.isQuiet = false) (hcalls : ∀ m ∈ marks, m.isCall = true) :
    s.read? marks = some s := by
  induction marks with
  | nil => rfl
  | cons m marks ih =>
      have hnext : s.next? m = some s := by
        have hm := hcalls m List.mem_cons_self
        cases m with
        | called e => cases s <;> first | rfl | cases hloud
        | _ => cases hm
      rw [read?_cons, hnext]
      exact ih fun m hm => hcalls m (List.mem_cons_of_mem _ hm)

/-- In a quiet stretch the protocol is not called until a run is launched. -/
theorem silent_of_isQuiet (hquiet : s.isQuiet = true) (hread : s.read? marks = some t)
    (hstarted : .started ∉ marks) : ∀ m ∈ marks, m.isCall = false := by
  induction marks generalizing s with
  | nil => intro m hm; cases hm
  | cons m marks ih =>
      obtain ⟨hm, hmarks⟩ := not_or.mp (mt List.mem_cons.mpr hstarted)
      rw [read?_cons] at hread
      obtain ⟨u, hnext, hread⟩ := Option.bind_eq_some_iff.mp hread
      -- every mark but a launch leads from a quiet stretch to another
      have hkept : m.isCall = false ∧ u.isQuiet = true := by
        cases s <;> cases m with
        | started => exact absurd rfl hm
        | begun found => cases found <;> cases hnext <;> first | exact ⟨rfl, rfl⟩ | cases hquiet
        | _ => cases hnext <;> first | exact ⟨rfl, rfl⟩ | cases hquiet
      intro m' hm'
      rcases List.mem_cons.mp hm' with rfl | hm'
      · exact hkept.1
      · exact ih hkept.2 hread hmarks m' hm'

/-- From where the protocol has been told of the end of a run, or there is none, the operation can
only return. -/
theorem eq_nil_of_read? (hs : s = .told ∨ s = .passing) (hread : s.read? marks = some t)
    (hreturned : .returned ∉ marks) : marks = [] ∧ t = s := by
  cases marks with
  | nil => exact ⟨rfl, (Option.some.inj hread).symm⟩
  | cons m marks =>
      obtain ⟨hm, -⟩ := not_or.mp (mt List.mem_cons.mpr hreturned)
      rw [read?_cons] at hread
      obtain ⟨u, hnext, -⟩ := Option.bind_eq_some_iff.mp hread
      rcases hs with rfl | rfl <;> cases m with
      | returned => exact absurd rfl hm
      | _ => cases hnext

/-- An operation that has found a run either only lets the protocol be called, or also tells it of
the end. -/
theorem calls_of_read? (hread : ending.read? marks = some t) (hreturned : .returned ∉ marks) :
    (t = .ending ∧ ∀ m ∈ marks, m.isCall = true) ∨
      (t = .told ∧ ∃ calls, marks = calls ++ [.shutdown] ∧ ∀ m ∈ calls, m.isCall = true) := by
  induction marks with
  | nil => exact .inl ⟨(Option.some.inj hread).symm, by simp⟩
  | cons m marks ih =>
      obtain ⟨hm, hmarks⟩ := not_or.mp (mt List.mem_cons.mpr hreturned)
      rw [read?_cons] at hread
      obtain ⟨u, hnext, hread⟩ := Option.bind_eq_some_iff.mp hread
      cases m with
      | started | begun | returned => cases hnext
      | shutdown =>
          obtain rfl := Option.some.inj hnext
          obtain ⟨rfl, rfl⟩ := eq_nil_of_read? (.inl rfl) hread hmarks
          exact .inr ⟨rfl, [], rfl, by simp⟩
      | called e =>
          obtain rfl := Option.some.inj hnext
          rcases ih hread hmarks with ⟨ht, hcalls⟩ | ⟨ht, calls, rfl, hcalls⟩
          · exact .inl ⟨ht, List.forall_mem_cons.mpr ⟨rfl, hcalls⟩⟩
          · exact .inr ⟨ht, .called e :: calls, rfl, List.forall_mem_cons.mpr ⟨rfl, hcalls⟩⟩

/-- A list that can be read can be read up to any of its marks, and on from there. -/
theorem exists_of_read? (hread : s.read? (front ++ m :: rest) = some t) :
    ∃ u v, s.read? front = some u ∧ u.next? m = some v ∧ v.read? rest = some t := by
  rw [read?_append] at hread
  obtain ⟨u, hfront, hread⟩ := Option.bind_eq_some_iff.mp hread
  rw [read?_cons] at hread
  obtain ⟨v, hnext, hrest⟩ := Option.bind_eq_some_iff.mp hread
  exact ⟨u, v, hfront, hnext, hrest⟩

/-- **What an operation does until it returns**: one that has found a run lets the protocol be
called and then tells it of the end; one that has found none does nothing. -/
theorem middle_of_read? {found : Bool} {middle : List Mark}
    (hread : s.read? (front ++ .begun found :: (middle ++ .returned :: rest)) = some t)
    (hreturned : .returned ∉ middle) :
    if found then ∃ calls, middle = calls ++ [.shutdown] ∧ ∀ m ∈ calls, m.isCall = true
    else middle = [] := by
  obtain ⟨r, u, -, hbegun, hread⟩ := exists_of_read? hread
  obtain ⟨v, w, hmiddle, hnext, -⟩ := exists_of_read? hread
  cases found with
  | false =>
      obtain rfl : u = .passing := by
        cases r with
        | idle => exact (Option.some.inj hbegun).symm
        | _ => cases hbegun
      exact (eq_nil_of_read? (.inr rfl) hmiddle hreturned).1
  | true =>
      obtain rfl : u = .ending := by
        cases r with
        | running => exact (Option.some.inj hbegun).symm
        | _ => cases hbegun
      rcases calls_of_read? hmiddle hreturned with ⟨rfl, -⟩ | ⟨-, hcalls⟩
      · cases hnext
      · exact hcalls

/-- An operation that comes to the end of a run has found it, and from its beginning the protocol
has at most been called. -/
theorem exists_begun (hread : idle.read? marks = some .ending) :
    ∃ front calls, marks = front ++ .begun true :: calls ∧ ∀ m ∈ calls, m.isCall = true := by
  induction marks using List.reverseRecOn with
  | nil => cases hread
  | append_singleton marks m ih =>
      rw [read?_append] at hread
      obtain ⟨u, hmarks, hread⟩ := Option.bind_eq_some_iff.mp hread
      rw [read?_cons] at hread
      obtain ⟨v, hnext, hread⟩ := Option.bind_eq_some_iff.mp hread
      obtain rfl := Option.some.inj hread
      cases m with
      | started | shutdown | returned => cases u <;> cases hnext
      | begun found =>
          cases found with
          | true => exact ⟨marks, [], rfl, by simp⟩
          | false => cases u <;> cases hnext
      | called e =>
          obtain rfl : u = .ending := by
            cases u with
            | ending => rfl
            | _ => cases hnext
          obtain ⟨front, calls, rfl, hcalls⟩ := ih hmarks
          exact ⟨front, calls ++ [.called e], by simp,
            List.forall_mem_append.mpr ⟨hcalls, by simp⟩⟩

/-- **Only an operation that has found a run tells the protocol of its end.** -/
theorem exists_begun_of_read? (hread : idle.read? (front ++ .shutdown :: rest) = some t) :
    ∃ before calls, front = before ++ .begun true :: calls ∧ ∀ m ∈ calls, m.isCall = true := by
  obtain ⟨u, v, hfront, hnext, -⟩ := exists_of_read? hread
  cases u with
  | ending => exact exists_begun hfront
  | _ => cases hnext

/-- **From the end of a run to the next launch the protocol is not called.** -/
theorem silent_of_read? {middle : List Mark}
    (hread : s.read? (front ++ .shutdown :: (middle ++ rest)) = some t)
    (hstarted : .started ∉ middle) : ∀ m ∈ middle, m.isCall = false := by
  obtain ⟨u, v, -, hnext, hread⟩ := exists_of_read? hread
  rw [read?_append] at hread
  obtain ⟨w, hmiddle, -⟩ := Option.bind_eq_some_iff.mp hread
  refine silent_of_isQuiet ?_ hmiddle hstarted
  cases u with
  | ending =>
      obtain rfl := Option.some.inj hnext
      rfl
  | _ => cases hnext

end Stretch

end SharedFetch
