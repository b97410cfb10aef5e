import SharedFetch.Proofs.Host.Stop
import SharedFetch.Proofs.Host.Work
import SharedFetch.Proofs.Settling

/-!
# A host settles

What happens in a host by itself comes to an end, whatever happens first and whatever the protocol
answers. What a hook answers is part of the reference that it is called for, so that the references
in a host may have any answers at all; and here a fetch and the hook for the end of a run may answer
in a new way every time (`Goes`). Time does not pass meanwhile: a report that falls due is nothing
that a host does by itself.

The work of a host is lowered by every event as long as no two workers and no two producers have one
name. That is so in every host that goes with a sound record (`Regular`), and neither events nor
other answers change that.

## Main results

* `Host.Regular.length_le_work`: a course of events is no longer than the work of the host.
* `Host.Regular.settled_settle`: the budget with which a host settles is enough.
* `Chronicle.settling_terminates`: every course of events from a host that is reached is finite.
-/

namespace SharedFetch

/-- What a protocol is still to answer, to fetches and to the ends of runs. -/
structure Protocol.Answers where
  fetches : List (String × FetchMode) := []
  otherwise : FetchMode := .hold
  shutdowns : List HookMode := []

namespace Host

variable {h h' : Host}

/-- The host with other answers of the protocol still to come. -/
def answering (h : Host) (a : Protocol.Answers) : Host :=
  let protocol := { h.pipeline.protocol with
    fetches := a.fetches, otherwise := a.otherwise, shutdowns := a.shutdowns }
  { h with pipeline := { h.pipeline with protocol } }

/-- Something happens in a host, and what the protocol is asked then it may answer in any way. -/
def Goes (h h' : Host) : Prop :=
  ∃ a e, (h.answering a).advance e = some h'

/-- A host that goes with a sound record. -/
def Regular (h : Host) : Prop :=
  ∃ c : Chronicle, c.Sound ∧ c.bench.host = h

namespace Regular

theorem answering (hregular : h.Regular) (a : Protocol.Answers) : (h.answering a).Regular := by
  obtain ⟨c, hsound, rfl⟩ := hregular
  refine ⟨{ c with bench := { c.bench with host := c.bench.host.answering a } }, ?_, rfl⟩
  refine ⟨hsound.accounted, { hsound.holds with owned := ?_ }, ?_⟩
  · exact hsound.holds.owned.sameTasks (by constructor <;> rfl)
  · exact hsound.orderly.congr (by constructor <;> rfl) rfl

theorem advance {e : HostEvent} (hregular : h.Regular) (hstep : h.advance e = some h') :
    h'.Regular := by
  obtain ⟨c, hsound, rfl⟩ := hregular
  refine ⟨c.move (.event e), hsound.move _, ?_⟩
  rw [Chronicle.move, Scenario.HostBench.move, hstep]
  rfl

theorem wakeReporter (hregular : h.Regular) : h.wakeReporter.Regular := by
  obtain ⟨c, hsound, rfl⟩ := hregular
  exact ⟨c.move .wake, hsound.move _, rfl⟩

theorem work_lt {e : HostEvent} (hregular : h.Regular) (hstep : h.advance e = some h') :
    h'.work < h.work := by
  obtain ⟨c, hsound, rfl⟩ := hregular
  exact work_lt_of_advance hsound.holds.owned.workers hsound.accounted.names hstep

/-- Whatever the protocol answers, what happens lowers the work. -/
theorem goes (hregular : h.Regular) (hgoes : h.Goes h') : h'.Regular ∧ h'.work < h.work := by
  obtain ⟨a, e, hstep⟩ := hgoes
  have hanswering := hregular.answering a
  exact ⟨hanswering.advance hstep, hanswering.work_lt hstep⟩

/-- A course of events is no longer than the work of the host. -/
theorem length_le_work {course : List Host} (hregular : h.Regular)
    (hcourse : (h :: course).IsChain Goes) : course.length ≤ h.work := by
  induction course generalizing h with
  | nil => exact Nat.zero_le _
  | cons next course ih =>
      obtain ⟨hgoes, hrest⟩ := List.isChain_cons_cons.mp hcourse
      obtain ⟨hnext, hlt⟩ := hregular.goes hgoes
      exact Nat.succ_le_of_lt (Nat.lt_of_le_of_lt (ih hnext hrest) hlt)

/-- No course of events goes on for ever. -/
theorem exists_not_goes (hregular : h.Regular) {course : Nat → Host} (hfirst : course 0 = h) :
    ∃ n, ¬ (course n).Goes (course (n + 1)) := by
  by_contra hendless
  simp only [not_exists, not_not] at hendless
  -- After `n` events at least `n` of the work is gone.
  have hcourse : ∀ n, (course n).Regular ∧ (course n).work + n ≤ h.work := by
    intro n
    induction n with
    | zero => exact ⟨hfirst ▸ hregular, Nat.le_of_eq (by rw [hfirst, Nat.add_zero])⟩
    | succ n ih =>
        obtain ⟨hnext, hlt⟩ := ih.1.goes (hendless n)
        exact ⟨hnext, by omega⟩
  have := (hcourse (h.work + 1)).2
  omega

/-- **A host that is let go on goes on until nothing more can happen.** -/
theorem settled_settle (hregular : h.Regular) : Settled Host.advance h.settle :=
  settled_of_candidates (firstStep?_settleAfter_eq_none (P := Regular)
    (fun _ _ _ hregular hstep => ⟨hregular.advance hstep, hregular.work_lt hstep⟩) none
    hregular.wakeReporter (Nat.le_refl _))

end Regular

end Host

namespace Chronicle

open Scenario (HostBench)

variable {c : Chronicle}

/-- **Settling terminates.** From every host that is reached, a course of events has at most as many
events as the host has work, in whatever order they come and whatever is answered, so that none goes
on for ever; and settling is such a course, which ends where nothing more can happen. -/
theorem settling_terminates (hc : c.Reachable) :
    (∀ course : List Host, (c.bench.host :: course).IsChain Host.Goes →
      course.length ≤ c.bench.host.work) ∧
    (∀ course : Nat → Host, course 0 = c.bench.host → ∃ n, ¬ (course n).Goes (course (n + 1))) ∧
    Reaches Host.advance c.bench.host.wakeReporter c.bench.host.settle ∧
    Settled Host.advance c.bench.host.settle := by
  have hregular : c.bench.host.Regular := ⟨c, hc.sound, rfl⟩
  exact ⟨fun _ => hregular.length_le_work, fun _ => hregular.exists_not_goes,
    reaches_settle _ _ _ _, hregular.settled_settle⟩

/-- A run that is being stopped while a completion waits for its coordinator. Of the three
references to that location two are waiting for it, the first of which would not take it, and one is
still in the intake. -/
def faltering : Chronicle :=
  let reference (id : Nat) (process : HookMode) : Reference :=
    { id, target := .location (.number 7), process }
  let references : List Reference :=
    [reference 1 (.fail none ⟨"refused", []⟩), reference 2 .succeed, reference 3 .succeed]
  let coordinate : HostBench.Move := .event (.inside .coordinate)
  let work : HostBench.Move := .event (.inside (.work 0))
  (start .fetcher ⟨1, 4, 1, 1, ⟨5, 0⟩⟩ { otherwise := .content none } false).run
    ([.act 0 .start, .act 1 (.trySubmit references)] ++ List.replicate 5 coordinate ++
      [work, work, work, work, .act 2 .stop])

theorem settling_terminates_faltering :
    faltering.Reachable ∧ faltering.bench.host.work = 29 ∧
    (∃ h, faltering.bench.host.Goes h) ∧
    ∀ course : List Host, (faltering.bench.host :: course).IsChain Host.Goes →
      course.length ≤ 29 := by
  have hreachable : faltering.Reachable := ⟨_, _, _, _, _, rfl⟩
  have hwork : faltering.bench.host.work = 29 := by rfl
  have hgoes := (settling_terminates hreachable).1
  rw [hwork] at hgoes
  exact ⟨hreachable, hwork, ⟨_, {}, .inside .coordinate, by rfl⟩, hgoes⟩

end Chronicle

end SharedFetch
