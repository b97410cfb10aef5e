import Mathlib.Data.Multiset.AddSub
import SharedFetch.Proofs.Pipeline.Flow

/-!
# What a pipeline will come to

As long as every hook succeeds at once, every fetch that is called is held and nothing panics, it is
settled beforehand what a pipeline comes to, whoever of coordinator and workers goes first. The
coordinator ends what it is at, takes the completions that are there, and then takes references
until its slot is filled and no place is free for the location in it. A place is free as long as
fewer locations are on their way than there are workers and places in the dispatch queue together;
the lock and the moment at which a worker takes a location have no part in it. So the outcome can be
read off from the pipeline at any time (`Pipeline.forecast`), no step changes it, and in a pipeline
in which nobody can go on it is what one sees.

This is why a completion is handed in before its worker is idle: a reference that waits in the
intake then finds the completion taken, and its location no longer in flight.

## Main results

* `Prompt.coordinatorStep`, `Prompt.workerStep`: no step changes the forecast.
* `forecast_eq_outlook`: where everything has come to rest, the forecast has come true.
-/

namespace SharedFetch

/-- Whether the worker has a location and has not called its fetch. -/
def Job.awaitsLock (j : Job) : Bool :=
  match j.stage with
  | .awaitingLock => true
  | _ => false

namespace Pipeline

/-! ### The coordinator by itself -/

/-- What a coordinator has before it, if it never has to wait for the lock. -/
structure Desk where
  coordinator : Coordinator
  /-- The locations on their way, those that workers have first. -/
  queue : List Location
  /-- How many may be on their way. -/
  limit : Nat
  counters : Counters
  /-- The calls of `resolve` and of hooks so far, the latest in front. -/
  calls : List Entry
  /-- Whether the hook for unresolved references is left as it is. -/
  plain : Bool
  /-- Whether nobody can put references in any more. -/
  closing : Bool

namespace Desk

/-- The location in the slot is sent on its way, if there is a place for it. -/
def place (d : Desk) : Desk :=
  match d.coordinator.slot with
  | some l =>
    if d.queue.length < d.limit then
      { d with
        coordinator := { d.coordinator with slot := none }
        queue := d.queue ++ [l]
        counters := d.counters.record .dispatch }
    else d
  | none => d

/-- A reference that leads nowhere is reported. -/
def report (d : Desk) (r : Reference) (cause : Chain) : Desk :=
  if d.plain then d else { d with calls := .unresolved r (unresolvedText r cause) :: d.calls }

/-- A reference is resolved, and admitted or reported. -/
def resolve (d : Desk) (r : Reference) : Desk :=
  let d := { d with calls := .resolve r :: d.calls }
  match r.target with
  | .location l =>
    match d.coordinator.waiters.enroll l r with
    | (.dispatch l, waiters) =>
      { d with
        coordinator := { d.coordinator with waiters, slot := some l }
        counters := d.counters.record (.inFlight (UInt64.ofNat waiters.size)) }
    | (.coalesced _, waiters) =>
      { d with
        coordinator := { d.coordinator with waiters }
        counters := d.counters.record .coalesced }
  | .nowhere cause => { d with counters := d.counters.record .resolutionFailure }.report r cause
  | .panic _ => d

/-- A reference is taken and resolved. -/
def take (d : Desk) (r : Reference) : Desk :=
  { d with counters := d.counters.record .reference }.resolve r

/-- An outcome is delivered to references, after some were served. -/
def deliver (d : Desk) (outcome : Delivery) (rest : List Reference) (delivered : Nat) : Desk :=
  { d with
    calls := (rest.map fun r => .process r outcome).reverse ++ d.calls
    counters := d.counters.record (.deliveries (UInt64.ofNat (delivered + rest.length))) }

/-- A completion is taken and delivered. -/
def complete (d : Desk) (c : Completion) : Desk :=
  match d.coordinator.waiters.complete? c.location with
  | some (references, waiters) =>
    { d with
      coordinator := { d.coordinator with waiters }
      counters := (d.counters.record .completion).record
        (.inFlight (UInt64.ofNat waiters.size)) }.deliver c.outcome references 0
  | none => d

/-- A coordinator that has nothing in its slot and nothing to take looks for the end of the intake,
and stops if nothing is in flight. -/
def close (d : Desk) : Desk :=
  if d.coordinator.slot.isSome then d
  else if d.coordinator.intakeDone || d.closing then
    let coordinator := { d.coordinator with intakeDone := true }
    if coordinator.waiters.isEmpty then
      { d with coordinator := { coordinator with phase := .ended .done } }
    else { d with coordinator }
  else d

/-- References are taken as long as the slot can be emptied. -/
def go (d : Desk) : List Reference → Desk × List Reference
  | [] => (d.place.close, [])
  | r :: rest =>
    if d.place.coordinator.slot.isSome then (d.place, r :: rest) else (d.place.take r).go rest

/-- What the coordinator is at is brought to its end. -/
def conclude (d : Desk) : Phase → Desk
  | .resolving r => d.resolve r
  | .reporting r cause => d.report r cause
  | .fanningOut outcome rest => d.deliver outcome rest 0
  | .delivering outcome rest delivered => d.deliver outcome rest delivered
  | .inProcess _ _ outcome rest delivered => d.deliver outcome rest (delivered + 1)
  | .choosing | .inUnresolved .. | .ended _ => d

theorem place_of_free {d : Desk} (hslot : d.coordinator.slot = none) : d.place = d := by
  rw [place, hslot]

theorem slot_place {d : Desk} {l : Location} (hslot : d.coordinator.slot = some l)
    (hroom : d.queue.length < d.limit) :
    d.place = { d with
      coordinator := { d.coordinator with slot := none }
      queue := d.queue ++ [l]
      counters := d.counters.record .dispatch } := by
  rw [place, hslot]
  exact if_pos hroom

/-- What can be placed may as well be placed before. -/
theorem go_place {d : Desk} (hroom : d.queue.length < d.limit) (references : List Reference) :
    d.place.go references = d.go references := by
  have htwice : d.place.place = d.place := by
    cases hslot : d.coordinator.slot with
    | none => rw [place_of_free hslot, place_of_free hslot]
    | some l => exact place_of_free (by rw [slot_place hslot hroom])
  cases references with
  | nil => rw [go, go, htwice]
  | cons r rest => rw [go, go, htwice]

/-- What is on its way stays on its way, and more may come behind it. -/
theorem exists_queue_place (d : Desk) : ∃ more, d.place.queue = d.queue ++ more := by
  rw [place]
  split
  · split
    · exact ⟨_, rfl⟩
    · exact ⟨[], (List.append_nil _).symm⟩
  · exact ⟨[], (List.append_nil _).symm⟩

theorem queue_report (d : Desk) (r : Reference) (cause : Chain) :
    (d.report r cause).queue = d.queue := by
  rw [report]
  split <;> rfl

theorem queue_resolve (d : Desk) (r : Reference) : (d.resolve r).queue = d.queue := by
  rw [resolve]
  cases r.target with
  | location l => simp only; split <;> rfl
  | nowhere cause => exact queue_report _ _ _
  | panic payload => rfl

theorem queue_complete (d : Desk) (c : Completion) : (d.complete c).queue = d.queue := by
  rw [complete]
  split <;> rfl

theorem queue_completes (d : Desk) (cs : List Completion) :
    (cs.foldl complete d).queue = d.queue := by
  induction cs generalizing d with
  | nil => rfl
  | cons c cs ih => rw [List.foldl_cons, ih, queue_complete]

theorem queue_conclude (d : Desk) (phase : Phase) : (d.conclude phase).queue = d.queue := by
  cases phase with
  | resolving r => exact queue_resolve _ _
  | reporting r cause => exact queue_report _ _ _
  | _ => rfl

theorem queue_close (d : Desk) : d.close.queue = d.queue := by
  unfold close
  split
  · rfl
  · split
    · simp only; split <;> rfl
    · rfl

theorem exists_queue_go (d : Desk) (references : List Reference) :
    ∃ more, (d.go references).1.queue = d.queue ++ more := by
  induction references generalizing d with
  | nil =>
      rw [go, queue_close]
      exact d.exists_queue_place
  | cons r rest ih =>
      obtain ⟨placed, hplaced⟩ := d.exists_queue_place
      rw [go]
      split
      · exact ⟨placed, hplaced⟩
      · obtain ⟨more, hmore⟩ := ih (d.place.take r)
        refine ⟨placed ++ more, ?_⟩
        rw [hmore, take, queue_resolve, hplaced, List.append_assoc]

end Desk

/-! ### The forecast -/

/-- What one sees of a pipeline. -/
structure Outlook where
  coordinator : Coordinator
  intake : List Reference
  dispatch : List Location
  /-- The locations that workers have, in the order in which they were taken. -/
  taken : List Location
  counters : Counters
  activity : Activity
  /-- The calls of `resolve` and of hooks, the latest in front. -/
  calls : List Entry
  /-- The locations fetched, in no order. -/
  fetches : Multiset Location

variable {p q : Pipeline}

/-- What one sees of a pipeline now. -/
def outlook (p : Pipeline) : Outlook where
  coordinator := p.coordinator
  intake := p.intake.queue.items
  dispatch := p.dispatch.items
  taken := p.pool.held
  counters := p.counters
  activity := p.activity
  calls := p.journal.filter Entry.isCall
  fetches := fetchedIn p.journal

/-- What the coordinator has before it. -/
def desk (p : Pipeline) : Desk where
  coordinator := { p.coordinator with phase := .choosing }
  queue := p.pool.busy.map Job.location ++ p.dispatch.items
  limit := p.dispatch.capacity + p.pool.alive
  counters := p.counters
  calls := p.journal.filter Entry.isCall
  plain := p.protocol.plain
  closing := p.intake.queue.senders == 0

/-- What the coordinator will have before it in the end, and what it leaves in the intake. -/
def prospect (p : Pipeline) : Desk × List Reference :=
  if p.isOver then ({ p.desk with coordinator := p.coordinator }, p.intake.queue.items)
  else
    (p.completions.items.foldl Desk.complete (p.desk.conclude p.coordinator.phase)).go
      p.intake.queue.items

/-- The locations that workers will have. -/
def takings (p : Pipeline) : List Location :=
  p.prospect.1.queue.take p.pool.alive

/-- What one will see of a pipeline in which every hook succeeds and every fetch is held. -/
def forecast (p : Pipeline) : Outlook where
  coordinator := p.prospect.1.coordinator
  intake := p.prospect.2
  dispatch := p.prospect.1.queue.drop p.pool.alive
  taken := p.takings
  counters := p.prospect.1.counters
  activity := Activity.enter^[p.takings.length - p.pool.busy.length] p.activity
  calls := p.prospect.1.calls
  fetches := fetchedIn p.journal + (p.pool.busy.filter Job.awaitsLock).map Job.location +
    p.takings.drop p.pool.busy.length

/-- Workers are as they were, and what is before the coordinator comes to the same. -/
theorem forecast_congr (hpool : q.pool = p.pool) (hactivity : q.activity = p.activity)
    (hfetched : fetchedIn q.journal = fetchedIn p.journal) (hprospect : q.prospect = p.prospect) :
    q.forecast = p.forecast := by
  rw [forecast, forecast, takings, takings, hpool, hactivity, hfetched, hprospect]

theorem prospect_of_running (hrunning : p.isOver = false) :
    p.prospect =
      (p.completions.items.foldl Desk.complete (p.desk.conclude p.coordinator.phase)).go
        p.intake.queue.items := by
  rw [prospect, hrunning]
  rfl

/-- A coordinator that is between two events, with no completion to take, turns to the intake. -/
theorem prospect_of_choosing (hphase : p.coordinator.phase = .choosing)
    (hcompletions : p.completions.items = []) : p.prospect = p.desk.go p.intake.queue.items := by
  rw [prospect_of_running (by rw [isOver, hphase]), hcompletions, hphase]
  rfl

/-- What is before the coordinator comes to the same if it is the same after the phase. -/
theorem prospect_congr (hrunning : p.isOver = false) (hrunning' : q.isOver = false)
    (hdesk : q.desk.conclude q.coordinator.phase = p.desk.conclude p.coordinator.phase)
    (hcompletions : q.completions.items = p.completions.items)
    (hintake : q.intake.queue.items = p.intake.queue.items) : q.prospect = p.prospect := by
  rw [prospect_of_running hrunning, prospect_of_running hrunning', hdesk, hcompletions, hintake]

/-- What is before the coordinator comes to the same if it is the same. -/
theorem prospect_eq_of_desk (hdesk : q.desk = p.desk) (hcoordinator : q.coordinator = p.coordinator)
    (hcompletions : q.completions.items = p.completions.items)
    (hintake : q.intake.queue.items = p.intake.queue.items) : q.prospect = p.prospect := by
  rw [prospect, prospect, isOver, isOver, hdesk, hcoordinator, hcompletions, hintake]

/-- Workers go on, and what is on its way stays in its order. -/
theorem forecast_eq_of_desk (hdesk : q.desk = p.desk)
    (hcoordinator : q.coordinator = p.coordinator)
    (hcompletions : q.completions.items = p.completions.items)
    (hintake : q.intake.queue.items = p.intake.queue.items) (halive : q.pool.alive = p.pool.alive)
    (hactivity : Activity.enter^[p.takings.length - q.pool.busy.length] q.activity =
      Activity.enter^[p.takings.length - p.pool.busy.length] p.activity)
    (hfetches : (fetchedIn q.journal + (q.pool.busy.filter Job.awaitsLock).map Job.location +
      p.takings.drop q.pool.busy.length : Multiset Location) =
        fetchedIn p.journal + (p.pool.busy.filter Job.awaitsLock).map Job.location +
          p.takings.drop p.pool.busy.length) : q.forecast = p.forecast := by
  have hprospect := prospect_eq_of_desk hdesk hcoordinator hcompletions hintake
  have htakings : q.takings = p.takings := by rw [takings, takings, hprospect, halive]
  rw [forecast, forecast, htakings, hprospect, halive, hactivity, hfetches]

/-- What is on its way stays on its way. -/
theorem exists_queue_prospect (p : Pipeline) :
    ∃ more, p.prospect.1.queue = p.pool.busy.map Job.location ++ p.dispatch.items ++ more := by
  cases hover : p.isOver with
  | true =>
      rw [prospect, hover]
      exact ⟨[], (List.append_nil _).symm⟩
  | false =>
      rw [prospect_of_running hover]
      obtain ⟨more, hmore⟩ := Desk.exists_queue_go
        (p.completions.items.foldl Desk.complete (p.desk.conclude p.coordinator.phase))
        p.intake.queue.items
      rw [Desk.queue_completes, Desk.queue_conclude] at hmore
      exact ⟨more, hmore⟩

/-- If a worker can take a location, then it will be the next that is taken. -/
theorem takings_of_took {l : Location} {items : List Location} (hidle : p.pool.idle ≠ [])
    (hitems : p.dispatch.items = l :: items) :
    p.takings.drop p.pool.busy.length = l :: p.takings.drop (p.pool.busy.length + 1) := by
  obtain ⟨more, hmore⟩ := p.exists_queue_prospect
  have hlength : (p.pool.busy.map Job.location).length = p.pool.busy.length := List.length_map _
  have halive : ∃ n, p.pool.alive = p.pool.busy.length + (n + 1) := by
    have hpos := List.length_pos_of_ne_nil hidle
    exact ⟨p.pool.idle.length - 1, by rw [Pool.alive]; omega⟩
  obtain ⟨n, halive⟩ := halive
  have htakings : p.takings = p.pool.busy.map Job.location ++ l :: (items ++ more).take n := by
    rw [takings, hmore, hitems, halive, List.append_assoc, List.take_append, hlength,
      List.take_of_length_le (by rw [hlength]; omega), Nat.add_sub_cancel_left, List.cons_append,
      List.take_succ_cons]
  rw [htakings, ← hlength, List.drop_left, ← List.drop_drop, List.drop_left, List.drop_one,
    List.tail_cons]

/-- Where everything has come to rest, the forecast has come true. -/
theorem forecast_eq_outlook
    (hprospect : p.prospect = ({ p.desk with coordinator := p.coordinator }, p.intake.queue.items))
    (hheld : ∀ j ∈ p.pool.busy, j.isHeld = true)
    (hidle : p.pool.idle = [] ∨ p.dispatch.items = []) : p.forecast = p.outlook := by
  have hqueue : p.prospect.1.queue = p.pool.busy.map Job.location ++ p.dispatch.items := by
    rw [hprospect]
    rfl
  have hlength : (p.pool.busy.map Job.location).length = p.pool.busy.length := List.length_map _
  have htakings : p.takings = p.pool.busy.map Job.location ∧
      p.prospect.1.queue.drop p.pool.alive = p.dispatch.items := by
    rw [takings, hqueue]
    rcases hidle with hidle | hitems
    · have halive : p.pool.alive = (p.pool.busy.map Job.location).length := by
        rw [Pool.alive, hidle, hlength, List.length_nil, Nat.zero_add]
      rw [halive]
      exact ⟨List.take_left, List.drop_left⟩
    · have halive : (p.pool.busy.map Job.location).length ≤ p.pool.alive := by
        rw [Pool.alive, hlength]
        exact Nat.le_add_left _ _
      rw [hitems, List.append_nil]
      exact ⟨List.take_of_length_le halive, List.drop_of_length_le halive⟩
  have hwaiting : p.pool.busy.filter Job.awaitsLock = [] := by
    rw [List.filter_eq_nil_iff]
    intro j hj
    have := hheld j hj
    cases hstage : j.stage with
    | awaitingLock => simp [Job.isHeld, hstage] at this
    | _ => simp [Job.awaitsLock, hstage]
  rw [forecast, outlook, htakings.1, htakings.2, hprospect, hwaiting, Pool.held,
    List.filter_eq_self.mpr hheld, hlength, Nat.sub_self, List.drop_of_length_le (Nat.le_of_eq hlength)]
  simp [desk]

end Pipeline

/-! ### Hooks that succeed and fetches that are held -/

/-- What the coordinator is at succeeds at once. -/
def Phase.Succeeds : Phase → Prop
  | .resolving r => ∀ payload, r.target ≠ .panic payload
  | .inUnresolved _ mode | .inProcess _ mode _ _ _ => mode = .succeed
  | _ => True

namespace Pipeline

variable {p q : Pipeline}

/-- What is called now succeeds at once, or is held if it is a fetch; and every location in flight
is the same as itself. -/
structure Smooth (p : Pipeline) : Prop where
  phase : p.coordinator.phase.Succeeds
  fetches : ∀ j ∈ p.pool.busy, j.stage = .awaitingLock → p.protocol.fetchMode j.location = .hold
  whole : ∀ l ∈ p.coordinator.waiters.locations, (l == l) = true

/-- The run is not cancelled, its coordinator has not panicked, and every busy worker waits for the
lock or for a fetch that is held. -/
structure Prompt (p : Pipeline) : Prop where
  live : p.isCancelled = false
  calm : ∀ payload, p.coordinator.phase ≠ .ended (.panicked payload)
  jobs : ∀ j ∈ p.pool.busy, j.isHeld = true ∨ j.stage = .awaitingLock

/-- A completion that is there is waited for. -/
theorem Smooth.isSome_complete? (h : p.Smooth) {dropped : List Location} (howned : p.Owned dropped)
    {c : Completion} (hc : c ∈ p.completions.items) :
    (p.coordinator.waiters.complete? c.location).isSome = true := by
  obtain ⟨lost, hperm, -⟩ := howned.locations
  have hmem : c.location ∈ p.coordinator.waiters.locations := by
    refine hperm.mem_iff.mpr (List.mem_append_left _ (List.mem_append_left _ ?_))
    exact List.mem_append_right _ (List.mem_map_of_mem hc)
  exact Waiters.complete?_isSome_of_mem hmem (h.whole _ hmem)

namespace Prompt

/-- The coordinator turns to something else. -/
theorem turned (h : p.Prompt) (hlive : q.isCancelled = p.isCancelled) (hpool : q.pool = p.pool)
    (hcalm : ∀ payload, q.coordinator.phase ≠ .ended (.panicked payload)) : q.Prompt :=
  ⟨hlive.trans h.live, hcalm, hpool ▸ h.jobs⟩

/-- **No step of the coordinator changes the forecast.** -/
theorem coordinatorStep (h : p.Prompt) (hsmooth : p.Smooth) {dropped : List Location}
    (howned : p.Owned dropped) (hstaffed : p.Staffed) (hflowing : p.Flowing)
    (hclosed : p.coordinator.intakeDone = true → p.intake.queue.items = [])
    (hstep : p.CoordinatorStep q) : q.Prompt ∧ q.forecast = p.forecast := by
  have hrunning := hstep.running
  -- a coordinator that looks for something else has found no completion
  have hcompletions : p.takeCompletion? = none → p.completions.items = [] :=
    completions_eq_nil_of_takeCompletion? hflowing.awake
  have hphase := hsmooth.phase
  cases hstep with
  | drained hchoosing hdrained =>
      simp only [isDrained, Bool.and_eq_true, Option.isNone_iff_eq_none] at hdrained
      obtain ⟨⟨hdone, hempty⟩, hslot⟩ := hdrained
      have hnil := howned.underway_eq_nil hempty
      simp only [underway, List.append_eq_nil_iff, List.map_eq_nil_iff] at hnil
      refine ⟨h.turned rfl rfl (by simp [finish]), forecast_congr rfl rfl rfl ?_⟩
      have hplace : p.desk.place = p.desk := Desk.place_of_free hslot
      rw [prospect_of_choosing hchoosing hnil.2, hclosed hdone, Desk.go, hplace]
      simp [prospect, isOver, finish, desk, Desk.close, Queue.dropSender, hslot, hdone, hempty,
        Entry.isCall]
  | completed hlooks hopen hitems hfound =>
      refine ⟨h.turned rfl rfl (by simp), forecast_congr rfl rfl rfl ?_⟩
      rw [prospect_of_running hrunning, prospect_of_running rfl, hitems, List.foldl_cons,
        hlooks.phase]
      simp only [desk, Desk.conclude, Desk.complete, hfound, List.filter_cons, Entry.isCall,
        Bool.false_eq_true, if_false]
  | stray hlooks hopen hitems hlost =>
      have hfound := hsmooth.isSome_complete? howned (hitems ▸ List.mem_cons_self)
      rw [hlost] at hfound
      cases hfound
  | completionsEnded hlooks hopen hexhausted | stranded hlooks hopen hexhausted =>
      have hpresent := hstaffed.present hrunning h.live
      rw [← Bool.not_eq_true, Pool.isGone_iff_alive_eq_zero, ← hstaffed.senders] at hpresent
      simp [Queue.isExhausted, hpresent] at hexhausted
  | dispatched hlooks hnone hslot hopen hroom =>
      refine ⟨h.turned rfl rfl h.calm, forecast_congr rfl rfl rfl ?_⟩
      have hfree : p.desk.queue.length < p.desk.limit := by
        simp only [desk, List.length_append, List.length_map, Pool.alive]
        omega
      rw [prospect_of_choosing hlooks.phase (hcompletions hnone), ← Desk.go_place hfree,
        Desk.slot_place hslot hfree, prospect_of_choosing]
      · simp [desk]
      · exact hlooks.phase
      · exact hcompletions hnone
  | undispatchable hlooks hnone hslot hshut =>
      have hpresent := hstaffed.present hrunning h.live
      rw [hstaffed.closed hshut] at hpresent
      cases hpresent
  | took hlooks hnone hslot hopen hitems =>
      refine ⟨h.turned rfl rfl (by simp), forecast_congr rfl rfl rfl ?_⟩
      have hplace : p.desk.place = p.desk := Desk.place_of_free hslot
      rw [prospect_of_choosing hlooks.phase (hcompletions hnone), prospect_of_running rfl,
        hcompletions hnone, hitems, Desk.go, hplace, if_neg (by simp [desk, hslot])]
      rfl
  | intakeEnded hlooks hnone hslot hopen hexhausted =>
      simp only [Queue.isExhausted, Bool.and_eq_true, List.isEmpty_iff, beq_iff_eq] at hexhausted
      refine ⟨h.turned rfl rfl h.calm, forecast_congr rfl rfl rfl ?_⟩
      rw [prospect_of_choosing hlooks.phase (hcompletions hnone), prospect_of_choosing]
      · simp only [desk, Desk.go, Desk.place, Desk.close, hslot, hexhausted, Entry.isCall,
          List.filter_cons, Bool.or_true, beq_self_eq_true, Option.isSome_none]
        rfl
      · exact hlooks.phase
      · exact hcompletions hnone
  | admitted hresolving hlock htarget henroll | coalesced hresolving hlock htarget henroll =>
      refine ⟨h.turned rfl rfl (by simp),
        forecast_congr rfl rfl rfl (prospect_congr hrunning rfl ?_ rfl rfl)⟩
      rw [hresolving]
      simp [desk, Desk.conclude, Desk.resolve, htarget, henroll, List.filter_cons, Entry.isCall]
  | unresolvable hresolving hlock htarget =>
      refine ⟨h.turned rfl rfl (by simp),
        forecast_congr rfl rfl rfl (prospect_congr hrunning rfl ?_ rfl rfl)⟩
      rw [hresolving]
      simp [desk, Desk.conclude, Desk.resolve, htarget, List.filter_cons, Entry.isCall]
  | resolvePanicked hresolving hlock htarget =>
      rw [hresolving] at hphase
      exact absurd htarget (hphase _)
  | @calledUnresolved r cause lock hreporting hlock =>
      have hfetched : fetchedIn (if p.protocol.plain then p.journal
          else .unresolved r (unresolvedText r cause) :: p.journal) = fetchedIn p.journal := by
        split <;> rfl
      refine ⟨h.turned rfl rfl (by simp),
        forecast_congr rfl rfl hfetched (prospect_congr hrunning rfl ?_ rfl rfl)⟩
      rw [hreporting]
      cases hplain : p.protocol.plain with
      | true => simp [desk, Desk.conclude, Desk.report, hplain]
      | false =>
          simp [desk, Desk.conclude, Desk.report, hplain, List.filter_cons, Entry.isCall]
  | unresolvedSucceeded hhook =>
      refine ⟨h.turned rfl rfl (by simp),
        forecast_congr rfl rfl rfl (prospect_congr hrunning rfl ?_ rfl rfl)⟩
      rw [hhook]
      rfl
  | fanOutBegun hfanning hlock =>
      refine ⟨h.turned rfl rfl (by simp),
        forecast_congr rfl rfl rfl (prospect_congr hrunning rfl ?_ rfl rfl)⟩
      rw [hfanning]
      rfl
  | fanOutEnded hdelivering =>
      refine ⟨h.turned rfl rfl (by simp),
        forecast_congr rfl rfl rfl (prospect_congr hrunning rfl ?_ rfl rfl)⟩
      rw [hdelivering]
      simp [desk, Desk.conclude, Desk.deliver]
  | calledProcess hdelivering =>
      refine ⟨h.turned rfl rfl (by simp),
        forecast_congr rfl rfl rfl (prospect_congr hrunning rfl ?_ rfl rfl)⟩
      rw [hdelivering]
      simp [desk, Desk.conclude, Desk.deliver, List.filter_cons, Entry.isCall, Nat.add_comm,
        Nat.add_left_comm]
  | processSucceeded hhook =>
      refine ⟨h.turned rfl rfl (by simp),
        forecast_congr rfl rfl rfl (prospect_congr hrunning rfl ?_ rfl rfl)⟩
      rw [hhook]
      rfl
  | unresolvedFailed hhook | unresolvedPanicked hhook | processFailed hhook
  | processPanicked hhook =>
      rw [hhook] at hphase
      cases hphase
  | interrupted hchoosing hbusy hcancelled | unresolvedDropped hhook hcancelled
  | processDropped hhook hcancelled => cases h.live.symm.trans hcancelled

/-- A worker has no other job than one that waits for the lock or for a fetch that is held. -/
theorem stage_of_works {j : Job} {stage : JobStage} (h : p.Prompt) (hworks : p.Works j stage) :
    stage = .awaitingLock ∨ ∃ number, stage = .fetching number .hold := by
  rw [← hworks.stage]
  rcases h.jobs j hworks.mem with hheld | hstage
  · cases hstage : j.stage with
    | fetching number mode =>
        cases mode with
        | hold => exact .inr ⟨number, rfl⟩
        | _ => simp [Job.isHeld, hstage] at hheld
    | _ => simp [Job.isHeld, hstage] at hheld
  · exact .inl hstage

/-- A worker that calls its fetch does what was foreseen. -/
theorem called {j : Job} {lock : Lock Party} (h : p.Prompt) (hworkers : p.pool.workers.Nodup)
    (hworks : p.Works j .awaitingLock)
    (hq : q = { p with
      lock
      protocol := p.protocol.noteFetch j.location
      journal := .fetch j.location :: p.journal
      pool := p.pool.update { j with
        stage := .fetching (p.protocol.fetchNumber j.location) .hold } }) :
    q.Prompt ∧ q.forecast = p.forecast := by
  obtain ⟨before, after, hbusy, -, hupdate⟩ := Pool.exists_busy_eq hworkers hworks.mem
  let j' : Job := { j with stage := .fetching (p.protocol.fetchNumber j.location) .hold }
  have hjobs : q.pool.busy = before ++ j' :: after := by
    rw [hq]
    exact hupdate _
  refine ⟨⟨?_, ?_, fun k hk => ?_⟩, ?_⟩
  · rw [hq]
    exact h.live
  · rw [hq]
    exact h.calm
  · rw [hjobs, List.mem_append, List.mem_cons] at hk
    rcases hk with hk | rfl | hk
    · exact h.jobs k (by simp [hbusy, hk])
    · exact .inl rfl
    · exact h.jobs k (by simp [hbusy, hk])
  · have hlength : q.pool.busy.length = p.pool.busy.length := by simp [hjobs, hbusy]
    have halive : q.pool.alive = p.pool.alive := by
      rw [Pool.alive, Pool.alive, hlength, hq]
      rfl
    have hdesk : q.desk = p.desk := by
      have hqueue : q.pool.busy.map Job.location = p.pool.busy.map Job.location := by
        simp [hjobs, hbusy, j']
      rw [desk, desk, hqueue, halive, hq]
      rfl
    have hwaiting : j.awaitsLock = true := by rw [Job.awaitsLock, hworks.stage]
    have hfetching : j'.awaitsLock = false := rfl
    have hfetches : (fetchedIn q.journal + (q.pool.busy.filter Job.awaitsLock).map Job.location :
        Multiset Location) =
        fetchedIn p.journal + (p.pool.busy.filter Job.awaitsLock).map Job.location := by
      have hjournal : fetchedIn q.journal = j.location :: fetchedIn p.journal := by
        rw [hq]
        rfl
      rw [hjournal, hjobs, hbusy, List.filter_append, List.filter_append, List.filter_cons,
        List.filter_cons, hwaiting, hfetching, Multiset.coe_add, Multiset.coe_add,
        Multiset.coe_eq_coe, if_pos rfl, if_neg Bool.false_ne_true, List.map_append,
        List.map_append, List.map_cons, List.cons_append, ← List.append_assoc, ← List.append_assoc]
      exact List.perm_middle.symm
    exact forecast_eq_of_desk hdesk (by rw [hq]) (by rw [hq]) (by rw [hq]) halive
      (by rw [hlength, hq]) (by rw [hlength, hfetches])

/-- A worker that takes a location takes the one that was foreseen. -/
theorem took {id : Nat} {idle : List Nat} {l : Location} {items : List Location} (h : p.Prompt)
    (hidle : p.pool.idle = id :: idle) (hitems : p.dispatch.items = l :: items)
    (hq : q = { p with
      dispatch := { p.dispatch with items }
      pool := { p.pool with idle, busy := p.pool.busy ++ [⟨id, l, .awaitingLock⟩] }
      activity := p.activity.enter
      lock := p.lock.queueUp (.worker id) .read }) :
    q.Prompt ∧ q.forecast = p.forecast := by
  have hbusy : q.pool.busy = p.pool.busy ++ [⟨id, l, .awaitingLock⟩] := by rw [hq]
  refine ⟨?_, ?_⟩
  · subst hq
    refine ⟨h.live, h.calm, fun j hj => ?_⟩
    rcases List.mem_append.mp hj with hj | hj
    · exact h.jobs j hj
    · rw [List.mem_singleton.mp hj]
      exact .inr rfl
  · have hlength : q.pool.busy.length = p.pool.busy.length + 1 := by simp [hbusy]
    have halive : q.pool.alive = p.pool.alive := by
      have hrest : q.pool.idle.length + 1 = p.pool.idle.length := by rw [hq, hidle]; rfl
      rw [Pool.alive, Pool.alive, hlength]
      omega
    have hdesk : q.desk = p.desk := by
      have hqueue : q.pool.busy.map Job.location ++ q.dispatch.items =
          p.pool.busy.map Job.location ++ p.dispatch.items := by
        rw [hbusy, hitems, List.map_append, List.append_assoc, hq]
        rfl
      rw [desk, desk, hqueue, halive, hq]
    have hnext := takings_of_took (p := p) (by simp [hidle]) hitems
    refine forecast_eq_of_desk hdesk (by rw [hq]) (by rw [hq]) (by rw [hq]) halive ?_ ?_
    · -- one fewer is still to enter
      have hcount := congrArg List.length hnext
      rw [List.length_drop, List.length_cons, List.length_drop] at hcount
      rw [hlength, hcount, Function.iterate_succ_apply, hq]
    · have hjournal : q.journal = p.journal := by rw [hq]
      rw [hjournal, hlength, hbusy, hnext, List.filter_append, List.map_append, add_assoc,
        add_assoc, Multiset.coe_add, Multiset.coe_add, List.append_assoc]
      rfl

/-- A worker that is dismissed by a coordinator that is through leaves nothing behind. -/
theorem dismissed {id : Nat} (h : p.Prompt) (hover : p.isOver = true) (hbusy : p.pool.busy = [])
    (hitems : p.dispatch.items = []) :
    (p.leave id .done).Prompt ∧ (p.leave id .done).forecast = p.forecast := by
  have hrest : (p.leave id .done).pool.busy = [] := by simp [Pool.without, hbusy]
  refine ⟨?_, ?_⟩
  · refine ⟨h.live, ?_, ?_⟩
    · rw [coordinator_leave]
      exact h.calm
    · rw [hrest]
      intro j hj
      cases hj
  · have htrue : ∀ r : Pipeline, r.isOver = true → r.pool.busy = [] → r.dispatch.items = [] →
        r.forecast = r.outlook := by
      intro r hr hnobody hnone
      refine forecast_eq_outlook ?_ (by simp [hnobody]) (.inr hnone)
      rw [prospect, hr]
      rfl
    -- the last one takes a queue with it that is empty
    have hnone : (p.leave id .done).dispatch.items = [] := by
      rw [items_dispatch_leave, hitems, ite_self]
    rw [htrue _ hover hbusy hitems,
      htrue _ (by rw [isOver, coordinator_leave]; exact hover) hrest hnone, outlook, outlook,
      coordinator_leave, intake_leave, hnone, hitems, counters_leave, activity_leave, Pool.held,
      Pool.held, hrest, hbusy]
    rfl

/-- **No step of a worker changes the forecast.** -/
theorem workerStep (h : p.Prompt) (hsmooth : p.Smooth) (hworkers : p.pool.workers.Nodup)
    (hstaffed : p.Staffed) (hstep : p.WorkerStep q) : q.Prompt ∧ q.forecast = p.forecast := by
  cases hstep with
  | @dismissed id hidle hlive hexhausted =>
      simp only [Queue.isExhausted, Bool.and_eq_true, List.isEmpty_iff, beq_iff_eq] at hexhausted
      -- as long as the coordinator goes on, it may send locations
      have hover : p.isOver = true := by
        rw [← Bool.not_eq_false]
        exact fun hrunning => hstaffed.feeding hrunning hexhausted.2
      have hbusy : p.pool.busy = [] := by
        rcases hstaffed.left hover with hcancelled | ⟨payload, hpanicked⟩ | ⟨hbusy, -⟩
        · cases h.live.symm.trans hcancelled
        · exact absurd hpanicked (h.calm payload)
        · exact hbusy
      exact h.dismissed hover hbusy hexhausted.1
  | took hlive hidle hitems => exact h.took hidle hitems rfl
  | called hworks hlock hmode =>
      rw [hsmooth.fetches _ hworks.mem hworks.stage]
      exact h.called hworkers hworks rfl
  | callPanicked hworks hlock hmode =>
      rw [hsmooth.fetches _ hworks.mem hworks.stage] at hmode
      cases hmode
  | fetched hworks | fetchFailed hworks =>
      rcases h.stage_of_works hworks with hstage | ⟨number, hstage⟩ <;> cases hstage
  | fetchPanicked hworks hmode =>
      rcases h.stage_of_works hworks with hstage | ⟨number, hstage⟩
      · cases hstage
      · cases hstage
        rcases hmode with hmode | hmode <;> cases hmode
  | handedIn hworks | handedInLast hworks | undelivered hworks =>
      rcases h.stage_of_works hworks with hstage | ⟨number, hstage⟩ <;> cases hstage
  | quit hidle hcancelled => cases h.live.symm.trans hcancelled
  | fetchDropped hworks hcancelled => cases h.live.symm.trans hcancelled

end Prompt

end Pipeline

end SharedFetch
