import SharedFetch.Proofs.Host.Progress
import SharedFetch.Proofs.Pipeline.Compliance

/-!
# Schedule independence

Consider a quiescent host, and let one thing happen outside: references are offered back to back, or
a fetch that is held is answered. Coordinator and workers then go on, and the order in which they do
is not determined. As long as every further fetch is held and every hook succeeds, it makes no
difference: each run comes to an end, and what one sees then is the same (`schedule_independence`).
After references were offered the pipeline is as in `Prompt` at once. After an answer it is so as
soon as the completion is handed in, unless the coordinator has panicked, and then the run disbands.

Somebody outside who reads under the protocol lock makes a difference: the coordinator then waits to
write, and who gets in line behind it waits too. A worker that gets there before it calls its fetch.
So does a broken location, whose completion ends the run (`order_matters`).

## Main results

* `Chronicle.Reachable.exists_runs_quiescent`, `Chronicle.Reachable.length_runs_le`: every run can
  be brought to its end, and there is a bound on its length.
* `Chronicle.Reachable.outlook_of_prompt`, `Chronicle.Reachable.outlook_of_disbanding`: what one
  sees at the end is what was foreseen.
* `Chronicle.schedule_independence`: every run comes to the same.
-/

namespace SharedFetch

namespace Pipeline

variable {p : Pipeline}

/-- What the coordinator had before it, it has done. -/
theorem Engaged.prospect_eq (h : p.Engaged) (hquiescent : p.Quiescent)
    (hphase : p.coordinator.phase = .choosing) :
    p.prospect = ({ p.desk with coordinator := p.coordinator }, p.intake.queue.items) := by
  have hcoordinator : { p.coordinator with phase := .choosing } = p.coordinator := by rw [← hphase]
  have hdesk : { p.desk with coordinator := p.coordinator } = p.desk := by
    rw [desk, hcoordinator]
  rw [hdesk, prospect_of_choosing hphase h.completions]
  cases hslot : p.coordinator.slot with
  | some l =>
      -- no place is free
      obtain ⟨hfull, hidle⟩ := h.filled (by rw [hslot]; rfl)
      have hplace : p.desk.place = p.desk := by
        have hlimit : ¬ p.desk.queue.length < p.desk.limit := by
          simp only [Queue.hasRoom, decide_eq_false_iff_not] at hfull
          simp only [desk, Pool.alive, hidle, List.length_append, List.length_map, List.length_nil]
          omega
        simp only [Desk.place, if_neg hlimit]
        split <;> rfl
      have hfilled : p.desk.coordinator.slot.isSome = true := by
        rw [desk]
        exact hslot ▸ rfl
      cases p.intake.queue.items with
      | nil => rw [Desk.go, hplace, Desk.close, if_pos hfilled]
      | cons r rest => rw [Desk.go, hplace, if_pos hfilled]
  | none =>
      have hnil : p.intake.queue.items = [] := by
        by_contra hitems
        have hsome := h.taken hitems
        rw [hslot] at hsome
        cases hsome
      have hnone := hquiescent.choose?_eq_none hphase
      have hclose : p.desk.close = p.desk := by
        cases hdone : p.coordinator.intakeDone with
        | true =>
            -- it has not drained, so something is in flight
            have hwaiting : p.coordinator.waiters.isEmpty = false := by
              rw [← Bool.not_eq_true]
              intro hempty
              simp [choose?, isDrained, hdone, hempty, hslot] at hnone
            simp [Desk.close, desk, hslot, hdone, hwaiting]
        | false =>
            -- it has not seen the end of the intake, so somebody may send
            have hreference := (eq_none_of_choose? hnone).2.2.2
            have hsenders : (p.intake.queue.senders == 0) = false := by
              simpa [takeReference?, hslot, hdone, Queue.pop?, Queue.isExhausted, hnil]
                using hreference
            simp [Desk.close, desk, hslot, hdone, hsenders]
      rw [hnil, Desk.go, Desk.place_of_free hslot, hclose]

end Pipeline

namespace Chronicle

open Pipeline
open Scenario (HostBench)

variable {c : Chronicle} {e : Event} {es : List Event} {q : Pipeline}

/-! ### Runs -/

/-- What coordinator and workers do are moves. -/
theorem Reachable.exists_advance (hc : c.Reachable) (hown : e.isOwn = true)
    (hadvance : c.pipeline.advance e = some q) : ∃ c' : Chronicle, c'.Reachable ∧ c'.pipeline = q := by
  refine ⟨c.run [.event (.inside e)], hc.run _, ?_⟩
  have hallowed : c.bench.host.advance (.inside e) = some { c.bench.host with pipeline := q } := by
    have hinside : c.bench.host.pipeline.advance e = some q := hadvance
    cases e with
    | produce id => cases hown
    | _ => simp [Host.advance, hinside]
  have hmove : c.bench.move (.event (.inside e)) =
      { c.bench with host := { c.bench.host with pipeline := q } } := by
    rw [HostBench.move, hallowed]
    rfl
  exact congrArg HostBench.pipeline hmove

/-- **There is a bound on the length of a run.** -/
theorem Reachable.length_runs_le (hc : c.Reachable) (hruns : c.pipeline.Runs es q) :
    es.length + q.work ≤ c.pipeline.work := by
  generalize hp : c.pipeline = p at hruns
  induction hruns generalizing c with
  | done p => simp
  | step hown hadvance hrest ih =>
      obtain ⟨c', hc', hp'⟩ := hc.exists_advance hown (hp ▸ hadvance)
      have hlt := work_lt_of_advance (hp ▸ hc.sound.holds.owned.workers)
        (hp ▸ hc.sound.accounted.names) hadvance
      have hle := ih hc' hp'
      rw [List.length_cons]
      omega

/-- **Every run can be brought to its end.** -/
theorem Reachable.exists_runs_quiescent (hc : c.Reachable) :
    ∃ es q, c.pipeline.Runs es q ∧ q.Quiescent := by
  induction hn : c.pipeline.work using Nat.strong_induction_on generalizing c with
  | _ n ih =>
      by_cases hquiescent : c.pipeline.Quiescent
      · exact ⟨[], _, .done _, hquiescent⟩
      · obtain ⟨e, q, hown, hadvance⟩ := exists_of_not_quiescent hquiescent
        obtain ⟨c', hc', rfl⟩ := hc.exists_advance hown hadvance
        have hlt := work_lt_of_advance hc.sound.holds.owned.workers hc.sound.accounted.names hadvance
        obtain ⟨es, q, hruns, hq⟩ := ih _ (hn ▸ hlt) hc' rfl
        exact ⟨e :: es, q, .step hown hadvance hruns, hq⟩

/-- What coordinator and workers have come to is reachable. -/
theorem Reachable.exists_of_runs (hc : c.Reachable) (hruns : c.pipeline.Runs es q) :
    ∃ c' : Chronicle, c'.Reachable ∧ c'.pipeline = q := by
  generalize hp : c.pipeline = p at hruns
  induction hruns generalizing c with
  | done p => exact ⟨c, hc, hp⟩
  | step hown hadvance hrest ih =>
      obtain ⟨c', hc', hp'⟩ := hc.exists_advance hown (hp ▸ hadvance)
      exact ih hc' hp'

/-! ### The end of a run -/

/-- A run whose coordinator goes on has its workers and its places. -/
theorem Reachable.equipped_of_running (hc : c.Reachable) (hrunning : c.pipeline.isOver = false) :
    c.bench.host.Equipped := by
  refine hc.equipped ?_
  rw [← Bool.not_eq_false]
  intro hrests
  cases hrunning.symm.trans (hc.sound.orderly.rests hrests).ended

/-- A coordinator that goes on in a quiescent host has done what it can, without a hook that is
held and without an outsider. -/
theorem Reachable.engaged (hc : c.Reachable) (hquiescent : c.pipeline.Quiescent)
    (hhook : c.pipeline.heldHook? = none) (houtsider : c.pipeline.lock.outsider = none)
    (hrunning : c.pipeline.isOver = false) :
    c.pipeline.coordinator.phase = .choosing ∧ c.pipeline.Engaged := by
  have hsound := hc.sound
  have hbusy : ¬ c.pipeline.Finished := fun hfinished => by
    cases hrunning.symm.trans hfinished.ended
  have hequipped := hc.equipped_of_running hrunning
  obtain ⟨hphase, hturns⟩ := hquiescent.between_events hsound.holds.owned.workers
    (hsound.orderly.inLine hbusy) hhook (.inl houtsider) hrunning
  exact ⟨hphase, hquiescent.engaged hphase hturns hsound.holds.owned hc.flowing hc.staffed
    hequipped.completions hequipped.dispatch fun hdone => (hsound.holds.closed hdone).1⟩

/-- In a quiescent host, without a hook that is held and without an outsider, every busy worker
waits for a fetch that is held. -/
theorem Reachable.resting (hc : c.Reachable) (hquiescent : c.pipeline.Quiescent)
    (hlive : c.pipeline.isCancelled = false) (hhook : c.pipeline.heldHook? = none)
    (houtsider : c.pipeline.lock.outsider = none) : c.pipeline.Resting := by
  have hsound := hc.sound
  have hworkers := hsound.holds.owned.workers
  cases hover : c.pipeline.isOver with
  | false =>
      obtain ⟨hphase, hengaged⟩ := hc.engaged hquiescent hhook houtsider hover
      exact ⟨hquiescent, hlive, .inl hphase, hengaged.fetching⟩
  | true =>
      refine ⟨hquiescent, hlive, .inr hover, fun j hj => ?_⟩
      obtain ⟨ending, hphase⟩ := exists_of_isOver hover
      have hbusy : ¬ c.pipeline.Finished := fun hfinished => by
        rw [hfinished.nobody.2] at hj
        cases hj
      have hturns := hquiescent.turns_eq_nil_of_wants (hsound.orderly.inLine hbusy) hworkers
        (by rw [hphase]; rfl) (by rw [hphase]; rfl) fun _ => by simp [houtsider]
      have hdepositors : c.pipeline.pool.depositors = [] := by
        refine List.eq_nil_iff_forall_not_mem.mpr fun id hid => ?_
        -- an outcome that nobody takes is not kept
        obtain ⟨k, hk, hactive, -⟩ := Pool.mem_depositors.mp hid
        have hnone := hquiescent.work k.worker
        cases hstage : k.stage with
        | handingIn outcome =>
            simp [workOn?, Pool.job?_of_mem hworkers hk, doJob?, hstage, deposit?,
              hc.tidy.completions hover] at hnone
        | _ => simp [Job.isActive, hstage] at hactive
      exact hquiescent.isHeld hworkers hturns hdepositors hj

/-- Where nobody can go on, the forecast has come true. -/
theorem Reachable.forecast_of_quiescent (hc : c.Reachable) (hprompt : c.pipeline.Prompt)
    (hsmooth : c.pipeline.Smooth) (houtsider : c.pipeline.lock.outsider = none)
    (hquiescent : c.pipeline.Quiescent) :
    c.pipeline.forecast = c.pipeline.outlook := by
  cases hover : c.pipeline.isOver with
  | true =>
      have hleft : c.pipeline.pool.busy = [] ∧
          (c.pipeline.dispatch.items = [] ∨ c.pipeline.pool.idle = []) := by
        rcases hc.staffed.left hover with hcancelled | ⟨payload, hpanicked⟩ | hleft
        · cases hprompt.live.symm.trans hcancelled
        · exact absurd hpanicked (hprompt.calm payload)
        · exact hleft
      refine forecast_eq_outlook ?_ (by simp [hleft.1]) hleft.2.symm
      rw [prospect, hover]
      rfl
  | false =>
      have hhook : c.pipeline.heldHook? = none := by
        have hphase := hsmooth.phase
        rw [heldHook?]
        split
        · rename_i heq
          rw [heq] at hphase
          cases hphase
        · rename_i heq
          rw [heq] at hphase
          cases hphase
        · rfl
      obtain ⟨hphase, hengaged⟩ := hc.engaged hquiescent hhook houtsider hover
      refine forecast_eq_outlook ?_ hengaged.fetching ?_
      · exact hengaged.prospect_eq hquiescent hphase
      · by_cases hidle : c.pipeline.pool.idle = []
        · exact .inl hidle
        · exact .inr (hengaged.idle hidle).1

/-- **Where every hook succeeds and every fetch is held, one sees at the end what was foreseen.** -/
theorem Reachable.outlook_of_prompt (hc : c.Reachable) (hprompt : c.pipeline.Prompt)
    (hsmooth : ∀ es q, c.pipeline.Runs es q → q.Smooth)
    (houtsider : c.pipeline.lock.outsider = none) (hruns : c.pipeline.Runs es q)
    (hq : q.Quiescent) : q.outlook = c.pipeline.forecast := by
  generalize hp : c.pipeline = p at hruns
  induction hruns generalizing c with
  | done p =>
      subst hp
      exact (hc.forecast_of_quiescent hprompt (hsmooth [] _ (.done _)) houtsider hq).symm
  | @step p p' r e es hown hadvance hrest ih =>
      subst hp
      have hholds := hc.sound.holds
      have hnow := hsmooth [] _ (.done _)
      obtain ⟨c', hc', rfl⟩ := hc.exists_advance hown hadvance
      have hsmooth' : ∀ es q, c'.pipeline.Runs es q → q.Smooth := fun es q hruns =>
        hsmooth _ q (.step hown hadvance hruns)
      rcases step_of_advance hown hadvance with hstep | hstep
      · obtain ⟨hprompt', hforecast⟩ := hprompt.coordinatorStep hnow hholds.owned hc.staffed
          hc.flowing (fun hdone => (hholds.closed hdone).1) hstep
        rw [← hforecast]
        exact ih hc' hprompt' hsmooth' (hstep.outsider.trans houtsider) hq rfl
      · obtain ⟨hprompt', hforecast⟩ :=
          hprompt.workerStep hnow hholds.owned.workers hc.staffed hstep
        rw [← hforecast]
        exact ih hc' hprompt' hsmooth' (hstep.outsider.trans houtsider) hq rfl

/-- **Of a run that disbands, one sees at the end what was foreseen.** -/
theorem Reachable.outlook_of_disbanding (hc : c.Reachable) (hdisbanding : c.pipeline.Disbanding)
    (hruns : c.pipeline.Runs es q) (hq : q.Quiescent) : q.outlook = c.pipeline.remains := by
  generalize hp : c.pipeline = p at hruns
  induction hruns generalizing c with
  | done p =>
      subst hp
      exact (hdisbanding.remains_of_quiescent hc.sound.holds.owned.workers hq).symm
  | @step p p' r e es hown hadvance hrest ih =>
      subst hp
      obtain ⟨c', hc', rfl⟩ := hc.exists_advance hown hadvance
      rcases step_of_advance hown hadvance with hstep | hstep
      · cases hdisbanding.ended.symm.trans hstep.running
      · obtain ⟨hdisbanding', hremains⟩ :=
          hdisbanding.workerStep hc.sound.holds.owned.workers hstep
        rw [← hremains]
        exact ih hc' hdisbanding' hq rfl

/-! ### Something happens outside -/

/-- What coordinator and workers answer to: references are offered back to back, or a fetch that is
held is answered with a content or a failure. -/
inductive Stimulus : HostBench.Action → Prop where
  | offer (refs : List Reference) : Stimulus (.trySubmit refs)
  | answer (location : Option String) {mode : FetchMode} (hanswer : mode.isAnswer = true) :
      Stimulus (.release location mode)

/-- References that are offered come into the intake queue, if it is open. -/
theorem exists_pipeline_offer (c : Chronicle) (number : Nat) (refs : List Reference) :
    ∃ queue, (c.move (.act number (.trySubmit refs))).pipeline =
        { c.pipeline with intake := { c.pipeline.intake with queue } } ∧
      (c.pipeline.intake.queue.closed = true → queue = c.pipeline.intake.queue) := by
  have hmove : (c.move (.act number (.trySubmit refs))).pipeline =
      (c.bench.perform number (.trySubmit refs)).2.pipeline := rfl
  rw [hmove, HostBench.perform]
  cases c.bench.senders with
  | nil => exact ⟨_, rfl, fun _ => rfl⟩
  | cons era senders =>
      simp only [HostBench.onIntake, HostBench.onPipeline, HostBench.offerAll]
      split
      · exact ⟨_, rfl, fun hclosed => congrArg Prod.snd (Queue.offerAll_of_closed hclosed refs)⟩
      · exact ⟨_, rfl, fun _ => rfl⟩

/-- An answer goes to a fetch that is held, if there is one. -/
theorem exists_pipeline_answer (c : Chronicle) (number : Nat) (location : Option String)
    (mode : FetchMode) :
    (c.move (.act number (.release location mode))).pipeline = c.pipeline ∨
      ∃ j ∈ c.pipeline.pool.busy, j.isHeld = true ∧
        (c.move (.act number (.release location mode))).pipeline = c.pipeline.releaseFetch j mode := by
  have hmove : (c.move (.act number (.release location mode))).pipeline =
      (Scenario.releaseFetch c.pipeline location mode).2 := rfl
  rw [hmove, Scenario.releaseFetch]
  cases hfound : c.pipeline.heldFetch? location with
  | none => exact .inl rfl
  | some j =>
      have hj := List.find?_some hfound
      rw [Bool.and_eq_true] at hj
      exact .inr ⟨j, List.mem_of_find?_eq_some hfound, hj.1, rfl⟩

/-- What one sees at the end of a run after references were offered is settled beforehand. -/
theorem Reachable.exists_outlook_of_offer (hc : c.Reachable) (hrest : c.pipeline.Resting)
    (houtsider : c.pipeline.lock.outsider = none) (number : Nat) (refs : List Reference)
    (hsmooth : ∀ es q, (c.move (.act number (.trySubmit refs))).pipeline.Runs es q → q.Smooth) :
    ∃ o : Outlook, ∀ es q, (c.move (.act number (.trySubmit refs))).pipeline.Runs es q →
      q.Quiescent → q.outlook = o := by
  have hc' : (c.move (.act number (.trySubmit refs))).Reachable := hc.move _
  obtain ⟨queue, hpipeline, hclosed⟩ := c.exists_pipeline_offer number refs
  cases hover : c.pipeline.isOver with
  | true =>
      -- nobody takes references any more
      rw [hpipeline, hclosed (hc.tidy.intake hover)]
      exact ⟨_, fun es q hruns _ => by rw [hruns.eq_of_quiescent hrest.quiescent]⟩
  | false =>
      have hphase : c.pipeline.coordinator.phase = .choosing :=
        hrest.phase.resolve_right (by rw [hover]; exact Bool.false_ne_true)
      have hprompt : (c.move (.act number (.trySubmit refs))).pipeline.Prompt := by
        refine ⟨?_, ?_, ?_⟩
        · rw [hpipeline]
          exact hrest.live
        · rw [hpipeline, hphase]
          intro payload hended
          cases hended
        · rw [hpipeline]
          exact fun j hj => .inl (hrest.held j hj)
      exact ⟨_, fun es q =>
        hc'.outlook_of_prompt hprompt hsmooth (by rw [hpipeline]; exact houtsider)⟩

/-- What one sees at the end of a run after a fetch was answered is settled beforehand. -/
theorem Reachable.exists_outlook_of_answer (hc : c.Reachable) (hrest : c.pipeline.Resting)
    (houtsider : c.pipeline.lock.outsider = none) (number : Nat) (location : Option String)
    {mode : FetchMode} (hanswer : mode.isAnswer = true)
    (hsmooth : ∀ es q, (c.move (.act number (.release location mode))).pipeline.Runs es q →
      q.Smooth) :
    ∃ o : Outlook, ∀ es q, (c.move (.act number (.release location mode))).pipeline.Runs es q →
      q.Quiescent → q.outlook = o := by
  have hc' : (c.move (.act number (.release location mode))).Reachable := hc.move _
  have hholds := hc.sound.holds
  rcases c.exists_pipeline_answer number location mode with hsame | ⟨j, hj, hheld, hpipeline⟩
  · rw [hsame]
    exact ⟨_, fun es q hruns _ => by rw [hruns.eq_of_quiescent hrest.quiescent]⟩
  obtain ⟨n, hstage⟩ : ∃ n, j.stage = .fetching n .hold := by
    cases hstage : j.stage with
    | fetching n mode =>
        cases mode with
        | hold => exact ⟨n, rfl⟩
        | _ => simp [Job.isHeld, hstage] at hheld
    | _ => simp [Job.isHeld, hstage] at hheld
  cases hover : c.pipeline.isOver with
  | true =>
      obtain ⟨p, hdisbanding, hruns, hforced⟩ := hrest.exists_disbanding hholds.owned.workers hover
        ⟨hj, hstage⟩ hanswer (hc.tidy.completions hover) hc.staffed
      rw [← hpipeline] at hruns hforced
      obtain ⟨c'', hc'', rfl⟩ := hc'.exists_of_runs hruns
      refine ⟨c''.pipeline.remains, fun es q hruns hq => ?_⟩
      obtain ⟨es', hruns⟩ := hforced es q hruns hq
      exact hc''.outlook_of_disbanding hdisbanding hruns hq
  | false =>
      have hphase : c.pipeline.coordinator.phase = .choosing :=
        hrest.phase.resolve_right (by rw [hover]; exact Bool.false_ne_true)
      obtain ⟨-, hengaged⟩ := hc.engaged hrest.quiescent (by rw [heldHook?, hphase]) houtsider hover
      have hroom : c.pipeline.completions.hasRoom = true := by
        have hplaces : 0 < c.pipeline.completions.capacity := (hc.equipped_of_running hover).completions
        simp [Queue.hasRoom, hengaged.completions, hplaces]
      have hline : c.pipeline.completions.line = [] := by
        have hnobody :=
          hrest.quiescent.depositors_eq_nil hholds.owned.workers hc.flowing.waiting hroom
        exact List.Perm.eq_nil (hnobody ▸ hc.flowing.waiting)
      obtain ⟨p, hprompt, hruns, hforced⟩ := hrest.exists_prompt hholds.owned hphase ⟨hj, hstage⟩
        hanswer hline hroom
      rw [← hpipeline] at hruns hforced
      have hfree : p.lock.outsider = none := by
        rw [hruns.outsider, hpipeline, releaseFetch, hstage]
        exact houtsider
      obtain ⟨c'', hc'', rfl⟩ := hc'.exists_of_runs hruns
      have hsmooth' : ∀ es q, c''.pipeline.Runs es q → q.Smooth := fun es q hrest =>
        hsmooth _ q (hruns.trans hrest)
      refine ⟨c''.pipeline.forecast, fun es q hruns hq => ?_⟩
      obtain ⟨es', hruns⟩ := hforced es q hruns hq
      exact hc''.outlook_of_prompt hprompt hsmooth' hfree hruns hq

/-- **Schedule independence.** Consider a quiescent host, with a run that is not cancelled, without
a hook that is held, and with nobody outside who has the lock. References are offered back to back,
or a fetch that is held is answered with a content or a failure. Coordinator and workers then go on
in any order, and in whatever order they do, every fetch that is called is held, every hook succeeds
at once, nothing panics, and the locations in flight are the same as themselves. Then every run has
an end, which it reaches after a bounded number of steps, and at the end of every run one sees the
same: waiters, slot and phase of the coordinator, what is in the intake and in the dispatch queue,
the locations that are held, counters and activity, the calls of `resolve` and of the hooks in their
order, and how often each location was fetched. -/
theorem schedule_independence (hc : c.Reachable) (hquiescent : c.pipeline.Quiescent)
    (hlive : c.pipeline.isCancelled = false) (hhook : c.pipeline.heldHook? = none)
    (houtsider : c.pipeline.lock.outsider = none) (number : Nat) {action : HostBench.Action}
    (haction : Stimulus action)
    (hsmooth : ∀ es q, (c.move (.act number action)).pipeline.Runs es q → q.Smooth) :
    let p := (c.move (.act number action)).pipeline
    (∀ es q, p.Runs es q → es.length ≤ p.work ∧ ∃ es' q', q.Runs es' q' ∧ q'.Quiescent) ∧
    ∃ o : Outlook, ∀ es q, p.Runs es q → q.Quiescent → q.outlook = o := by
  intro p
  have hc' : (c.move (.act number action)).Reachable := hc.run [_]
  refine ⟨fun es q hruns => ⟨Nat.le_of_add_right_le (hc'.length_runs_le hruns), ?_⟩, ?_⟩
  · obtain ⟨c'', hc'', rfl⟩ := hc'.exists_of_runs hruns
    exact hc''.exists_runs_quiescent
  · have hrest := hc.resting hquiescent hlive hhook houtsider
    cases haction with
    | offer refs => exact hc.exists_outlook_of_offer hrest houtsider number refs hsmooth
    | answer location hanswer =>
        exact hc.exists_outlook_of_answer hrest houtsider number location hanswer hsmooth

/-- A reference to a location that is a number. -/
def toNumber (id n : Nat) : Reference :=
  { id, target := .location (.number n) }

/-- A run with one worker and one place in the dispatch queue. The fetch of 1 is held, 2 stands in
the dispatch queue and 3 in the slot, and another reference to 1 waits in the intake. -/
def backlog : Chronicle :=
  let coordinate : HostBench.Move := .event (.inside .coordinate)
  let work : HostBench.Move := .event (.inside (.work 0))
  (start .fetcher ⟨1, 4, 1, 1, ⟨5, 0⟩⟩ {} false).run
    ([.act 0 .start,
        .act 1 (.trySubmit [toNumber 1 1, toNumber 2 2, toNumber 3 3, toNumber 4 1])] ++
      List.replicate 3 coordinate ++ [work, work] ++ List.replicate 5 coordinate)

/-- The fetch of 1 is answered. In every run its completion is taken before the other reference to
it is resolved, which therefore does not join it but ends up in the slot. -/
theorem schedule_independence_backlog :
    let p := (backlog.move (.act 2 (.release none (.content none)))).pipeline
    (backlog.Reachable ∧ backlog.pipeline.Quiescent ∧ backlog.pipeline.isCancelled = false ∧
      backlog.pipeline.heldHook? = none ∧ backlog.pipeline.lock.outsider = none ∧
      backlog.pipeline.intake.queue.items = [toNumber 4 1] ∧
      ∀ es q, p.Runs es q → q.Smooth) ∧
    (∀ es q, p.Runs es q → es.length ≤ p.work ∧ ∃ es' q', q.Runs es' q' ∧ q'.Quiescent) ∧
    ∀ es q, p.Runs es q → q.Quiescent → q.coordinator.slot = some (.number 1) ∧
      q.dispatch.items = [.number 3] ∧ q.pool.held = [.number 2] := by
  intro p
  have hreachable : backlog.Reachable := ⟨_, _, _, _, _, rfl⟩
  have hquiescent : backlog.pipeline.Quiescent := quiescent_of_candidates (by rfl)
  have hcompliant : p.Compliant := by
    have hreferences : p.coordinator.waiters.references =
        [toNumber 1 1, toNumber 2 2, toNumber 3 3] := by rfl
    have hlocations : p.coordinator.waiters.locations =
        [.number 1, .number 2, .number 3] := by rfl
    have hintake : p.intake.queue.items = [toNumber 4 1] := by rfl
    have hmode : ∀ l, p.protocol.fetchMode l = .hold := by intro l; rfl
    refine ⟨trivial, ?_, ?_, ?_, fun l _ => hmode l, fun j _ _ => hmode j.location⟩
    · simp [hreferences, toNumber]
    · simp only [hlocations, List.mem_cons, List.not_mem_nil, or_false]
      rintro l (rfl | rfl | rfl) <;> rfl
    · simp only [hintake, List.mem_singleton, forall_eq]
      refine ⟨by simp [toNumber], fun l hl => ?_, rfl, rfl⟩
      cases hl
      exact ⟨rfl, hmode _⟩
  have hsmooth : ∀ es q, p.Runs es q → q.Smooth := fun es q => hcompliant.smooth_of_runs
  obtain ⟨hends, o, hsame⟩ := schedule_independence hreachable hquiescent (by rfl) (by rfl) (by rfl)
    2 (.answer none rfl) hsmooth
  refine ⟨⟨hreachable, hquiescent, by rfl, by rfl, by rfl, by rfl, hsmooth⟩, hends,
    fun es q hruns hq => ?_⟩
  -- what one run comes to, all do
  let once : List Event := [.work 0, .work 0] ++ List.replicate 5 .coordinate ++
    [.work 0, .work 0] ++ List.replicate 3 .coordinate
  have honce := hsame once _ (runs_after (by rfl) (by rfl)) (quiescent_of_candidates (by rfl))
  have heq : q.outlook = (p.after once).outlook := (hsame es q hruns hq).trans honce.symm
  have hslot : q.coordinator.slot = (p.after once).coordinator.slot :=
    congrArg (fun o : Outlook => o.coordinator.slot) heq
  exact ⟨hslot.trans (by rfl), (congrArg Outlook.dispatch heq).trans (by rfl),
    (congrArg Outlook.taken heq).trans (by rfl)⟩

/-- Coordinator and workers come to different fetches in different runs. -/
def Diverges (p : Pipeline) : Prop :=
  ∃ es es' q q', p.Runs es q ∧ q.Quiescent ∧ p.Runs es' q' ∧ q'.Quiescent ∧
    q.outlook.fetches ≠ q'.outlook.fetches

theorem diverges_of_length {p : Pipeline} (es es' : List Event)
    (hown : es.all Event.isOwn = true) (hown' : es'.all Event.isOwn = true)
    (hsome : (es.foldlM advance p).isSome = true) (hsome' : (es'.foldlM advance p).isSome = true)
    (hquiescent : (p.after es).Quiescent) (hquiescent' : (p.after es').Quiescent)
    (hlength : (fetchedIn (p.after es).journal).length ≠
      (fetchedIn (p.after es').journal).length) : Diverges p := by
  refine ⟨es, es', _, _, runs_after hown hsome, hquiescent, runs_after hown' hsome', hquiescent',
    ?_⟩
  intro heq
  exact hlength (congrArg Multiset.card heq)

/-- A run with one worker, of which the fetch of 7 is held while 8 stands in the dispatch queue and
somebody outside reads under the lock. -/
def behindReader : Chronicle :=
  let coordinate : HostBench.Move := .event (.inside .coordinate)
  let work : HostBench.Move := .event (.inside (.work 0))
  (start .fetcher ⟨1, 4, 2, 2, ⟨5, 0⟩⟩ {} false).run
    ([.act 0 .start, .act 1 (.trySubmit [toNumber 1 7, toNumber 2 8])] ++
      List.replicate 6 coordinate ++ [work, work, .act 2 (.guard .read)])

/-- A run with one worker, of which the fetch of a broken location is held while 8 stands in the
dispatch queue. -/
def besideBroken : Chronicle :=
  let coordinate : HostBench.Move := .event (.inside .coordinate)
  let work : HostBench.Move := .event (.inside (.work 0))
  (start .fetcher ⟨1, 4, 2, 2, ⟨5, 0⟩⟩ {} false).run
    ([.act 0 .start,
        .act 1 (.trySubmit [{ id := 1, target := .location (.broken "x") }, toNumber 2 8])] ++
      List.replicate 6 coordinate ++ [work, work])

/-- **Behind an outsider who reads, and beside a broken location, the order matters.** Both hosts
are settled, with a run that is not cancelled and without a hook that is held, every fetch is held
and every hook succeeds. The fetch that is held is answered. If the worker goes first, then it takes
8 and fetches it. If the coordinator goes first, then it stands in line to write and the worker
waits behind it; or it ends the run, because nothing is the same as a broken location. -/
theorem order_matters :
    let p := (behindReader.move (.act 3 (.release none (.content none)))).pipeline
    let q := (besideBroken.move (.act 2 (.release none (.content none)))).pipeline
    (behindReader.Reachable ∧ Settled Host.advance behindReader.bench.host ∧
      behindReader.pipeline.isCancelled = false ∧ behindReader.pipeline.heldHook? = none ∧
      behindReader.pipeline.lock.outsider = some .read ∧ Diverges p) ∧
    besideBroken.Reachable ∧ Settled Host.advance besideBroken.bench.host ∧
      besideBroken.pipeline.isCancelled = false ∧ besideBroken.pipeline.heldHook? = none ∧
      besideBroken.pipeline.lock.outsider = none ∧ Diverges q := by
  intro p q
  refine ⟨⟨⟨_, _, _, _, _, rfl⟩, Host.settled_of_candidates (by rfl), by rfl, by rfl, by rfl, ?_⟩,
    ⟨_, _, _, _, _, rfl⟩, Host.settled_of_candidates (by rfl), by rfl, by rfl, by rfl, ?_⟩
  · exact diverges_of_length [.work 0, .work 0, .work 0, .work 0, .coordinate]
      [.work 0, .work 0, .coordinate, .work 0] (by rfl) (by rfl) (by rfl) (by rfl)
      (quiescent_of_candidates (by rfl)) (quiescent_of_candidates (by rfl)) (by decide +kernel)
  · exact diverges_of_length
      [.work 0, .work 0, .work 0, .work 0, .coordinate, .dropFetch 0, .work 0]
      [.work 0, .work 0, .coordinate, .work 0] (by rfl) (by rfl) (by rfl) (by rfl)
      (quiescent_of_candidates (by rfl)) (quiescent_of_candidates (by rfl)) (by decide +kernel)

end Chronicle

end SharedFetch
