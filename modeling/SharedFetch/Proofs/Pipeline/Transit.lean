import SharedFetch.Proofs.Pipeline.Register

/-!
# Outcomes on their way

The outcome of a fetch is on its way from the call of the fetch until the coordinator takes the
completion up. `Pipeline.places` lists what is on its way, location by location: for a job what is
known of its fetch, and for a completion its outcome. If no location underway is the same as
another, then the calls for a location have the outcomes that were taken up and after them that
of the place where the location stands now (`Traced`).

A location may be on the register and not be underway: its worker has panicked or has found nobody
to hand its completion to, or the coordinator has ended and dropped the completion. Such a location
is in flight for the rest of the run (`Lost`), and is never dispatched again.

All of this is said up to sameness of locations. The calls for a location are those for every
location that is the same, however it is written.

## Main results

* `Traced.outcomesTaken_isPrefix`: the outcomes taken up are those of the calls, in order.
* `Registered.change`: every change keeps register, journal and pipeline together.
-/

namespace SharedFetch

namespace Pool

variable {p : Pool} {j k : Job}

/-- Only the worker of a job is touched by a step of it. -/
theorem mem_busy_update_iff (h : p.workers.Nodup) (hj : j ∈ p.busy) (stage : JobStage)
    (hk : k.location ≠ j.location) :
    k ∈ (p.update { j with stage }).busy ↔ k ∈ p.busy := by
  constructor
  · intro hmem
    rcases of_mem_busy_update hmem with rfl | ⟨hmem, -⟩
    · exact absurd rfl hk
    · exact hmem
  · intro hmem
    refine mem_busy_update_of_ne hmem fun hworker => hk ?_
    rw [eq_of_worker_eq h hj hmem hworker]

theorem mem_busy_filter_iff (h : p.workers.Nodup) (hj : j ∈ p.busy)
    (hk : k.location ≠ j.location) :
    k ∈ (p.busy.filter fun i => i.worker != j.worker) ↔ k ∈ p.busy := by
  rw [List.mem_filter, and_iff_left_iff_imp]
  intro hmem
  rw [bne_iff_ne]
  intro hworker
  exact hk (by rw [eq_of_worker_eq h hj hmem hworker])

end Pool

namespace Pipeline

variable {p q : Pipeline} {g g' : List FetchCall} {taken taken' : List Taking} {l : Location}
  {dropped : List Location}

/-- The locations that workers or completions stand for, with what is known of their fetches. -/
def places (p : Pipeline) : List (Location × List (Option Delivery)) :=
  p.pool.busy.map Job.place ++ p.completions.items.map Completion.place

theorem underway_eq (p : Pipeline) :
    p.underway = p.coordinator.slot.toList ++ p.dispatch.items ++ p.places.map Prod.fst := by
  simp [underway, places, Function.comp_def, Job.place, Completion.place]

theorem mem_places {x : Location × List (Option Delivery)} :
    x ∈ p.places ↔
      (∃ j ∈ p.pool.busy, j.place = x) ∨ ∃ c ∈ p.completions.items, c.place = x := by
  rw [places, List.mem_append, List.mem_map, List.mem_map]

theorem mem_underway_of_mem_busy {j : Job} (hj : j ∈ p.pool.busy) : j.location ∈ p.underway := by
  simp only [underway, List.mem_append]
  exact .inl (.inr (List.mem_map_of_mem hj))

/-- Where no location is the same as another, there is one thing known of each. -/
theorem eq_of_mem_places (h : AllDiffer p.underway) {x y : Location × List (Option Delivery)}
    (hx : x ∈ p.places) (hy : y ∈ p.places) (hxy : (x.1 == y.1) = true) : x = y := by
  rw [underway_eq] at h
  have hplaces := List.pairwise_map.mp (List.pairwise_append.mp h).2.1
  have : Std.Symm fun x y : Location × List (Option Delivery) => (x.1 == y.1) = false :=
    ⟨fun _ _ hxy => BEq.comm.trans hxy⟩
  by_contra hne
  rw [List.Pairwise.forall hplaces hx hy hne] at hxy
  cases hxy

/-- A location that is not dispatched yet is with no worker. -/
theorem lacks_places_of_waiting (h : AllDiffer p.underway)
    (hl : l ∈ p.coordinator.slot.toList ++ p.dispatch.items) : Waiters.Lacks l p.places := by
  rw [underway_eq] at h
  intro x hx
  rw [BEq.comm]
  exact (List.pairwise_append.mp h).2.2 l hl x.1 (List.mem_map_of_mem hx)

/-- A location is in flight and no longer underway: whoever had it is gone with it. -/
structure Lost (l : Location) (p : Pipeline) : Prop where
  inFlight : ∃ k ∈ p.coordinator.waiters.locations, (k == l) = true
  nowhere : ∀ k ∈ p.underway, (k == l) = false

/-- What is lost stays so, while it is in flight and nothing new is underway. -/
theorem Lost.mono (h : Lost l p)
    (hwaiters : ∀ k ∈ p.coordinator.waiters.locations, k ∈ q.coordinator.waiters.locations)
    (hunderway : ∀ k ∈ q.underway, k ∈ p.underway) : Lost l q := by
  obtain ⟨⟨k, hk, hkl⟩, hnowhere⟩ := h
  exact ⟨⟨k, hwaiters k hk, hkl⟩, fun k hk => hnowhere k (hunderway k hk)⟩

/-- The calls for a location have the outcomes that were taken up, and then that of the place where
it stands. Of a location that stands nowhere every outcome was taken up, unless it was lost. -/
structure Traced (g : List FetchCall) (taken : List Taking) (p : Pipeline) : Prop where
  carried : ∀ x ∈ p.places, outcomesOf x.1 g = outcomesTaken x.1 taken ++ x.2
  settled : ∀ l, Waiters.Lacks l p.places →
    outcomesOf l g = outcomesTaken l taken ∨ Lost l p ∧ outcomesTaken l taken <+: outcomesOf l g

namespace Traced

/-- **The outcomes taken up are those of the calls, in order.** -/
theorem outcomesTaken_isPrefix (h : Traced g taken p) (l : Location) :
    outcomesTaken l taken <+: outcomesOf l g := by
  by_cases hl : Waiters.Lacks l p.places
  · rcases h.settled l hl with heq | ⟨-, hprefix⟩
    · exact heq ▸ List.prefix_rfl
    · exact hprefix
  · obtain ⟨x, hx, hsame⟩ : ∃ x ∈ p.places, (x.1 == l) = true := by
      simpa [Waiters.Lacks] using hl
    rw [← outcomesOf_congr hsame, ← outcomesTaken_congr hsame, h.carried x hx]
    exact List.prefix_append _ _

/-- No location goes from one place to another. -/
theorem congr (h : Traced g taken p) (htaken : ∀ l, outcomesTaken l taken' = outcomesTaken l taken)
    (hplaces : q.places = p.places)
    (hwaiters : ∀ k ∈ p.coordinator.waiters.locations, k ∈ q.coordinator.waiters.locations)
    (hunderway : ∀ k ∈ q.underway, k ∈ p.underway) : Traced g taken' q := by
  refine ⟨fun x hx => ?_, fun l hl => ?_⟩
  · rw [htaken]
    exact h.carried x (hplaces ▸ hx)
  · rw [htaken]
    exact (h.settled l (hplaces ▸ hl)).imp_right fun hlost =>
      ⟨hlost.1.mono hwaiters hunderway, hlost.2⟩

/-- Something happens to one location, and to none that is not the same. -/
theorem affected (l : Location) (h : Traced g taken p) (hdiffer : AllDiffer q.underway)
    (hothers : ∀ k, (l == k) = false →
      outcomesOf k g' = outcomesOf k g ∧ outcomesTaken k taken' = outcomesTaken k taken)
    (hplaces : ∀ x : Location × List (Option Delivery), (l == x.1) = false →
      (x ∈ q.places ↔ x ∈ p.places))
    (hwaiters : ∀ k, (l == k) = false → k ∈ p.coordinator.waiters.locations →
      k ∈ q.coordinator.waiters.locations)
    (hunderway : ∀ k, (l == k) = false → k ∈ q.underway → k ∈ p.underway)
    (hhere : (∃ known, (l, known) ∈ q.places ∧
        outcomesOf l g' = outcomesTaken l taken' ++ known) ∨
      Waiters.Lacks l q.places ∧ (outcomesOf l g' = outcomesTaken l taken' ∨
        Lost l q ∧ outcomesTaken l taken' <+: outcomesOf l g')) : Traced g' taken' q := by
  -- a location that is the same as another one is not the same as `l` either
  have hother : ∀ {k m : Location}, (l == k) = false → (m == k) = true → (l == m) = false :=
    fun hk hmk => (BEq.congr_right hmk).trans hk
  refine ⟨fun x hx => ?_, fun k hk => ?_⟩
  · cases hxl : l == x.1 with
    | true =>
        rcases hhere with ⟨known, hknown, heq⟩ | ⟨hlacks, -⟩
        · rw [eq_of_mem_places hdiffer hx hknown (BEq.symm hxl)]
          exact heq
        · exact absurd ((hlacks x hx).symm.trans (BEq.comm.trans hxl)) Bool.false_ne_true
    | false =>
        rw [(hothers _ hxl).1, (hothers _ hxl).2]
        exact h.carried x ((hplaces x hxl).mp hx)
  · cases hkl : l == k with
    | true =>
        rw [← outcomesOf_congr hkl, ← outcomesTaken_congr hkl]
        rcases hhere with ⟨known, hknown, -⟩ | ⟨-, hhere⟩
        · rw [hk _ hknown] at hkl
          cases hkl
        · refine hhere.imp_right fun hlost => ⟨?_, hlost.2⟩
          obtain ⟨⟨m, hm, hml⟩, hnowhere⟩ := hlost.1
          exact ⟨⟨m, hm, BEq.trans hml hkl⟩,
            fun n hn => (BEq.congr_right hkl).symm.trans (hnowhere n hn)⟩
    | false =>
        rw [(hothers k hkl).1, (hothers k hkl).2]
        have hlacks : Waiters.Lacks k p.places := by
          intro x hx
          rw [← Bool.not_eq_true]
          intro hxk
          have hlack := hk x ((hplaces x (hother hkl hxk)).mpr hx)
          cases hlack.symm.trans hxk
        refine (h.settled k hlacks).imp_right fun hlost => ⟨?_, hlost.2⟩
        obtain ⟨⟨m, hm, hmk⟩, hnowhere⟩ := hlost.1
        refine ⟨⟨m, hwaiters m (hother hkl hmk) hm, hmk⟩, fun n hn => ?_⟩
        rw [← Bool.not_eq_true]
        intro hnk
        cases (hnowhere n (hunderway n (hother hkl hnk) hn)).symm.trans hnk

/-! ### The coordinator -/

/-- The coordinator moves no outcome. -/
theorem turned {L : Ledger} (h : Traced g L.taken p) (hpool : q.pool = p.pool)
    (hcompletions : q.completions.items = p.completions.items)
    (hcompleted : q.counters.completions = p.counters.completions)
    (hreferences : q.counters.references = p.counters.references)
    (hwaiters : q.coordinator.waiters.locations = p.coordinator.waiters.locations)
    (hunderway : q.underway.Perm p.underway) : Traced g (L.follow p q).taken q := by
  rw [L.taken_follow hcompleted hreferences]
  refine h.congr (fun _ => rfl) ?_ (fun k hk => hwaiters ▸ hk) fun k => hunderway.mem_iff.mp
  rw [places, places, hpool, hcompletions]

section Ending

variable {L : Ledger} {r : Pipeline} (h : Traced g L.taken p) (hdiffer : AllDiffer p.underway)
  (hflight : ∀ k ∈ p.underway, k ∈ p.coordinator.waiters.locations)

include h hdiffer hflight

/-- The coordinator ends. The locations of the completions that it drops are lost. -/
theorem finish {e : Ending} (hkeeps : Ledger.Keeps p r) (hstays : Stays p r) :
    Traced g (L.follow p (r.finish e)).taken (r.finish e) := by
  have hunderway := underway_finish r e
  have hplaces : p.places =
      (r.finish e).places ++ p.completions.items.map Completion.place := by
    simp [places, Pipeline.finish, hstays.pool]
  rw [hstays.underway, hstays.completions] at hunderway
  rw [Ledger.follow_finish hkeeps]
  refine ⟨fun x hx => h.carried x (hplaces ▸ List.mem_append_left _ hx), fun l hl => ?_⟩
  by_cases hdropped : ∃ c ∈ p.completions.items, (c.location == l) = true
  · obtain ⟨c, hc, hsame⟩ := hdropped
    have hmem := List.mem_map_of_mem (f := Completion.location) hc
    have hin := hflight c.location (hunderway ▸ List.mem_append_right _ hmem)
    refine .inr ⟨⟨⟨c.location, ?_, hsame⟩, fun k hk => ?_⟩, h.outcomesTaken_isPrefix l⟩
    · rw [← hstays.waiters] at hin
      exact hin
    · rw [hunderway] at hdiffer
      exact (BEq.congr_right hsame).symm.trans
        ((List.pairwise_append.mp hdiffer).2.2 k hk c.location hmem)
  · have hlacks : Waiters.Lacks l p.places := by
      rw [hplaces]
      refine List.forall_mem_append.mpr ⟨hl, List.forall_mem_map.mpr fun c hc => ?_⟩
      rw [← Bool.not_eq_true]
      exact fun hsame => hdropped ⟨c, hc, hsame⟩
    refine (h.settled l hlacks).imp_right fun hlost =>
      ⟨hlost.1.mono (fun k hk => ?_) fun k hk => ?_, hlost.2⟩
    · rw [← hstays.waiters] at hk
      exact hk
    · rw [hunderway]
      exact List.mem_append_left _ hk

theorem abort {alarm : Alarm} (hkeeps : Ledger.Keeps p r) (hstays : Stays p r) :
    Traced g (L.follow p (r.abort alarm)).taken (r.abort alarm) := by
  rw [abort_eq]
  exact h.finish hdiffer hflight
    ⟨hkeeps.completions, hkeeps.references, hkeeps.dispatch, hkeeps.waiters, hkeeps.slot⟩
    ⟨hstays.pool, hstays.waiters, hstays.slot, hstays.dispatch, hstays.completions⟩

end Ending

/-- The coordinator takes a completion. -/
theorem completed {c : Completion} {rest : List Completion} {references : List Reference}
    {waiters : Waiters Location Reference} (h : Traced g taken p)
    (hdiffer : AllDiffer p.underway) (hdiffer' : AllDiffer q.underway)
    (hwhole : (c.location == c.location) = true)
    (hitems : p.completions.items = c :: rest)
    (hfound : p.coordinator.waiters.complete? c.location = some (references, waiters))
    (hpool : q.pool = p.pool) (hcompletions : q.completions.items = rest)
    (hwaiters : q.coordinator.waiters = waiters) (hslot : q.coordinator.slot = p.coordinator.slot)
    (hdispatch : q.dispatch.items = p.dispatch.items) :
    Traced g (taken ++ [.completion c]) q := by
  have hplace : (c.location, [some c.outcome]) ∈ p.places :=
    mem_places.mpr (.inr ⟨c, hitems ▸ List.mem_cons_self, rfl⟩)
  have hperm := underway_perm_of_completion hitems
  have hsame : p.coordinator.slot.toList ++ p.dispatch.items ++ p.pool.busy.map Job.location ++
      rest.map Completion.location = q.underway := by
    rw [underway, hslot, hdispatch, hpool, hcompletions]
  rw [hsame] at hperm
  have hgone : ∀ k ∈ q.underway, (c.location == k) = false :=
    (List.pairwise_cons.mp (hdiffer.perm hperm)).1
  refine h.affected c.location hdiffer'
    (fun k hk => ⟨rfl, outcomesTaken_append_of_beq_eq_false hk⟩) (fun x hx => ?_)
    (fun k hk hmem => ?_) (fun k _ hmem => hperm.mem_iff.mpr (List.mem_cons_of_mem _ hmem))
    (.inr ⟨fun x hx => ?_, .inl ?_⟩)
  · rw [mem_places, mem_places, hpool, hcompletions, hitems]
    refine or_congr_right ⟨?_, ?_⟩
    · rintro ⟨d, hd, heq⟩
      exact ⟨d, List.mem_cons_of_mem _ hd, heq⟩
    · rintro ⟨d, hd, rfl⟩
      rcases List.mem_cons.mp hd with rfl | hd
      · rw [show (d.location == d.place.1) = true from hwhole] at hx
        cases hx
      · exact ⟨d, hd, rfl⟩
  · obtain ⟨before, k', after, hentries, -, hk', rfl⟩ := Waiters.complete?_eq_some_iff.mp hfound
    simp only [Waiters.locations, hentries, hwaiters, List.map_append, List.map_cons,
      List.mem_append, List.mem_cons] at hmem ⊢
    refine hmem.imp_right fun hmem => hmem.resolve_left ?_
    rintro rfl
    rw [BEq.comm, hk'] at hk
    cases hk
  · rw [BEq.comm]
    refine hgone x.1 ?_
    rw [underway_eq]
    exact List.mem_append_right _ (List.mem_map_of_mem hx)
  · rw [outcomesTaken_append hwhole]
    exact h.carried _ hplace

/-- A location is admitted that was not in flight. -/
theorem admitted {r : Reference} (h : Traced g taken p) (hdiffer' : AllDiffer q.underway)
    (hlacks : Waiters.Lacks l p.coordinator.waiters.entries)
    (hwaiters : q.coordinator.waiters = ⟨p.coordinator.waiters.entries ++ [(l, [r])]⟩)
    (hslot : q.coordinator.slot = some l) (hdispatch : q.dispatch.items = p.dispatch.items)
    (hpool : q.pool = p.pool) (hcompletions : q.completions.items = p.completions.items)
    (hwhole : (l == l) = true) : Traced g taken q := by
  have hplaces : q.places = p.places := by rw [places, places, hpool, hcompletions]
  have hnot : Waiters.Lacks l q.places := lacks_places_of_waiting hdiffer' (by simp [hslot])
  refine h.affected l hdiffer' (fun _ _ => ⟨rfl, rfl⟩) (fun _ _ => by rw [hplaces])
    (fun k _ hmem => ?_) (fun k hk hmem => ?_) (.inr ⟨hnot, ?_⟩)
  · rw [hwaiters]
    simp only [Waiters.locations, List.map_append, List.mem_append] at hmem ⊢
    exact .inl hmem
  · rw [underway_eq, hslot, hdispatch, hplaces] at hmem
    rw [underway_eq]
    simp only [Option.toList_some, List.mem_append, List.mem_singleton] at hmem ⊢
    refine hmem.imp_left fun hmem => .inr (hmem.resolve_left ?_)
    rintro rfl
    rw [hwhole] at hk
    cases hk
  · refine .inl ((h.settled l (hplaces ▸ hnot)).resolve_right ?_)
    -- a location in flight would have been joined
    rintro ⟨⟨⟨k, hk, hkl⟩, -⟩, -⟩
    obtain ⟨e, he, rfl⟩ := List.mem_map.mp hk
    rw [hlacks e he] at hkl
    cases hkl

/-- A step of the coordinator. -/
theorem coordinatorStep {L : Ledger} (h : Traced g L.taken p) (hstep : p.CoordinatorStep q)
    (hdiffer : AllDiffer p.underway) (hdiffer' : AllDiffer q.underway)
    (hwhole : ∀ k ∈ p.coordinator.waiters.locations, (k == k) = true)
    (hwhole' : ∀ k ∈ q.coordinator.waiters.locations, (k == k) = true)
    (hflight : ∀ k ∈ p.underway, k ∈ p.coordinator.waiters.locations)
    (hfound : ∀ c ∈ p.completions.items,
      (p.coordinator.waiters.complete? c.location).isSome = true) :
    Traced g (L.follow p q).taken q := by
  cases hstep with
  | @completed c rest references waiters hlooks hopen hitems hcomplete =>
      rw [L.taken_follow_completion hitems (by rfl) (by rfl)]
      refine h.completed hdiffer hdiffer' ?_ hitems hcomplete rfl rfl rfl rfl rfl
      refine hwhole _ (hflight _ ?_)
      rw [underway, hitems]
      simp
  | stray hlooks hopen hitems hlost =>
      have := hfound _ (hitems ▸ List.mem_cons_self)
      rw [hlost] at this
      cases this
  | dispatched hlooks hnone hslot hopen hroom =>
      exact h.turned rfl rfl rfl rfl rfl (underway_perm_of_slot hslot).symm
  | @took r rest hlooks hnone hslot hopen hitems =>
      rw [L.taken_follow_reference hitems (by rfl) (by rfl)]
      exact h.congr (fun _ => outcomesTaken_reference r) rfl (fun _ => id) fun _ => id
  | @admitted r l lock waiters hphase hlock htarget henroll =>
      obtain ⟨-, hlacks, hwaiters⟩ := Waiters.enroll_eq_dispatch henroll
      rw [L.taken_follow (by rfl) (by rfl)]
      refine h.admitted hdiffer' hlacks hwaiters rfl rfl rfl rfl (hwhole' l ?_)
      subst hwaiters
      simp [Waiters.locations]
  | coalesced hphase hlock htarget henroll =>
      obtain ⟨before, k, rs, after, hentries, -, -, -, rfl⟩ := Waiters.enroll_eq_coalesced henroll
      refine h.turned rfl rfl rfl rfl ?_ (.refl _)
      simp [Waiters.locations, hentries]
  | completionsEnded | intakeEnded | unresolvable | calledUnresolved | unresolvedSucceeded
  | fanOutBegun | fanOutEnded | calledProcess | processSucceeded =>
      exact h.turned rfl rfl rfl rfl rfl (.refl _)
  | drained | interrupted | resolvePanicked | unresolvedPanicked | processPanicked
  | unresolvedDropped | processDropped =>
      exact h.finish hdiffer hflight (by constructor <;> rfl) (by constructor <;> rfl)
  | stranded | undispatchable | unresolvedFailed | processFailed =>
      exact h.abort hdiffer hflight (by constructor <;> rfl) (by constructor <;> rfl)

/-! ### The workers -/

section Work

variable {j : Job}

/-- Something happens to the location of a job. -/
theorem worked (h : Traced g taken p) (hdiffer' : AllDiffer q.underway)
    (hwhole : (j.location == j.location) = true) (hcoordinator : q.coordinator = p.coordinator)
    (hbusy : ∀ k : Job, k.location ≠ j.location → (k ∈ q.pool.busy ↔ k ∈ p.pool.busy))
    (hcompletions : ∀ c : Completion, c.location ≠ j.location →
      (c ∈ q.completions.items ↔ c ∈ p.completions.items))
    (hunderway : ∀ k ∈ q.underway, k ∈ p.underway)
    (hothers : ∀ k, (j.location == k) = false → outcomesOf k g' = outcomesOf k g)
    (hhere : (∃ known, (j.location, known) ∈ q.places ∧
        outcomesOf j.location g' = outcomesTaken j.location taken ++ known) ∨
      Lost j.location q ∧ outcomesTaken j.location taken <+: outcomesOf j.location g') :
    Traced g' taken q := by
  refine h.affected j.location hdiffer' (fun k hk => ⟨hothers k hk, rfl⟩) (fun x hx => ?_)
    (fun _ _ hmem => hcoordinator ▸ hmem) (fun k _ => hunderway k) (hhere.imp_right fun hlost => ?_)
  · have hne : x.1 ≠ j.location := by
      intro heq
      rw [heq, hwhole] at hx
      cases hx
    rw [mem_places, mem_places]
    refine or_congr (exists_congr fun k => and_congr_left ?_)
      (exists_congr fun c => and_congr_left ?_)
    · rintro rfl
      exact hbusy k hne
    · rintro rfl
      exact hcompletions c hne
  · refine ⟨fun x hx => hlost.1.nowhere x.1 ?_, .inr hlost⟩
    rw [underway_eq]
    exact List.mem_append_right _ (List.mem_map_of_mem hx)

/-- The job of a location goes on to another stage. -/
theorem updated {stage : JobStage} (h : Traced g taken p) (hworkers : p.pool.workers.Nodup)
    (hdiffer' : AllDiffer q.underway) (hwhole : (j.location == j.location) = true)
    (hj : j ∈ p.pool.busy) (hbusy : q.pool.busy = (p.pool.update { j with stage }).busy)
    (hcoordinator : q.coordinator = p.coordinator)
    (hdispatch : q.dispatch.items.Sublist p.dispatch.items)
    (hcompletions : q.completions.items = p.completions.items)
    (hothers : ∀ k, (j.location == k) = false → outcomesOf k g' = outcomesOf k g)
    (hhere : outcomesOf j.location g' = outcomesTaken j.location taken ++ stage.progress) :
    Traced g' taken q := by
  have hplace : (j.location, stage.progress) ∈ q.places :=
    mem_places.mpr (.inl ⟨_, hbusy ▸ Pool.mem_busy_update hj stage, rfl⟩)
  refine h.worked (j := j) hdiffer' hwhole hcoordinator (fun k hk => ?_)
    (fun _ _ => by rw [hcompletions]) (fun k hk => ?_) hothers (.inl ⟨_, hplace, hhere⟩)
  · rw [hbusy]
    exact Pool.mem_busy_update_iff hworkers hj stage hk
  · rw [underway, hbusy, Pool.map_location_update hworkers hj, hcoordinator, hcompletions] at hk
    exact (((hdispatch.append_left _).append_right _).append_right _).subset hk

/-- The worker of a job is gone with it. -/
theorem lost (h : Traced g taken p) (hworkers : p.pool.workers.Nodup)
    (hdiffer : AllDiffer p.underway) (hwhole : (j.location == j.location) = true)
    (hflight : ∀ k ∈ p.underway, k ∈ p.coordinator.waiters.locations) (hj : j ∈ p.pool.busy)
    (hbusy : q.pool.busy = p.pool.busy.filter fun k => k.worker != j.worker)
    (hcoordinator : q.coordinator = p.coordinator)
    (hdispatch : q.dispatch.items.Sublist p.dispatch.items)
    (hcompletions : q.completions.items = p.completions.items)
    (hothers : ∀ k, (j.location == k) = false → outcomesOf k g' = outcomesOf k g)
    (hhere : outcomesOf j.location g <+: outcomesOf j.location g') : Traced g' taken q := by
  have hperm := (underway_perm_of_job hworkers hj .done).trans (List.perm_append_singleton _ _)
  have hsublist : q.underway.Sublist (p.coordinator.slot.toList ++ p.dispatch.items ++
      (p.pool.without j.worker .done).busy.map Job.location ++
      p.completions.items.map Completion.location) := by
    rw [underway, hbusy, hcoordinator, hcompletions]
    exact ((hdispatch.append_left _).append_right _).append_right _
  have hcons := List.pairwise_cons.mp (hdiffer.perm hperm)
  refine h.worked (j := j) (hcons.2.sublist hsublist) hwhole hcoordinator (fun k hk => ?_)
    (fun _ _ => by rw [hcompletions])
    (fun k hk => hperm.mem_iff.mpr (List.mem_cons_of_mem _ (hsublist.subset hk))) hothers
    (.inr ⟨⟨⟨j.location, ?_, hwhole⟩, fun k hk => ?_⟩,
      (h.outcomesTaken_isPrefix j.location).trans hhere⟩)
  · rw [hbusy]
    exact Pool.mem_busy_filter_iff hworkers hj hk
  · rw [hcoordinator]
    exact hflight _ (mem_underway_of_mem_busy hj)
  · rw [BEq.comm]
    exact hcons.1 k (hsublist.subset hk)

/-- The completion of a job is handed in. -/
theorem handedIn {outcome : Delivery} (h : Traced g taken p) (hworkers : p.pool.workers.Nodup)
    (hdiffer' : AllDiffer q.underway) (hwhole : (j.location == j.location) = true)
    (hworks : p.Works j (.handingIn outcome))
    (hbusy : q.pool.busy = p.pool.busy.filter fun k => k.worker != j.worker)
    (hcoordinator : q.coordinator = p.coordinator)
    (hdispatch : q.dispatch.items.Sublist p.dispatch.items)
    (hcompletions : q.completions.items = p.completions.items ++ [⟨j.location, outcome⟩]) :
    Traced g taken q := by
  have hplace : (j.location, [some outcome]) ∈ q.places :=
    mem_places.mpr (.inr ⟨⟨j.location, outcome⟩, by simp [hcompletions], rfl⟩)
  have hsublist : q.underway.Sublist (p.coordinator.slot.toList ++ p.dispatch.items ++
      (p.pool.without j.worker .done).busy.map Job.location ++
      p.completions.items.map Completion.location ++ [j.location]) := by
    rw [underway, hbusy, hcoordinator, hcompletions, List.map_append, ← List.append_assoc]
    exact (((hdispatch.append_left _).append_right _).append_right _).append_right _
  have hperm := underway_perm_of_job hworkers hworks.mem .done
  refine h.worked (j := j) hdiffer' hwhole hcoordinator (fun k hk => ?_) (fun c hc => ?_)
    (fun k hk => hperm.mem_iff.mpr (hsublist.subset hk)) (fun _ _ => rfl) (.inl ⟨_, hplace, ?_⟩)
  · rw [hbusy]
    exact Pool.mem_busy_filter_iff hworkers hworks.mem hk
  · rw [hcompletions, List.mem_append, List.mem_singleton]
    refine ⟨fun hmem => hmem.resolve_right ?_, .inl⟩
    rintro rfl
    exact hc rfl
  · have := h.carried j.place (mem_places.mpr (.inl ⟨j, hworks.mem, rfl⟩))
    rwa [Job.place, hworks.stage] at this

/-- A worker takes a location. -/
theorem took {id : Nat} {items : List Location} (h : Traced g taken p)
    (hdiffer : AllDiffer p.underway) (hdiffer' : AllDiffer q.underway)
    (hwhole : (l == l) = true) (hitems : p.dispatch.items = l :: items)
    (hdispatch : q.dispatch.items = items)
    (hbusy : q.pool.busy = p.pool.busy ++ [⟨id, l, .awaitingLock⟩])
    (hcoordinator : q.coordinator = p.coordinator)
    (hcompletions : q.completions.items = p.completions.items) : Traced g taken q := by
  have hplace : (l, []) ∈ q.places :=
    mem_places.mpr (.inl ⟨⟨id, l, .awaitingLock⟩, by simp [hbusy], rfl⟩)
  have hnot : Waiters.Lacks l p.places := lacks_places_of_waiting hdiffer (by simp [hitems])
  have hunderway : ∀ k, k ∈ q.underway → k ∈ p.underway := by
    intro k hk
    simp only [underway, hdispatch, hbusy, hcoordinator, hcompletions, hitems, List.map_append,
      List.map_cons, List.map_nil, List.mem_append, List.mem_cons, List.not_mem_nil,
      or_false] at hk ⊢
    tauto
  refine h.worked (j := ⟨id, l, .awaitingLock⟩) hdiffer' hwhole hcoordinator (fun k hk => ?_)
    (fun _ _ => by rw [hcompletions]) hunderway (fun _ _ => rfl) (.inl ⟨_, hplace, ?_⟩)
  · rw [hbusy, List.mem_append, List.mem_singleton]
    refine ⟨fun hmem => hmem.resolve_right ?_, .inl⟩
    rintro rfl
    exact hk rfl
  · rw [List.append_nil]
    refine (h.settled l hnot).resolve_right ?_
    rintro ⟨hlost, -⟩
    have := hlost.nowhere l (by simp [underway, hitems])
    rw [hwhole] at this
    cases this

end Work

end Traced

/-! ### The register and the journal -/

/-- What is written of fetches from some place of the journal on. -/
theorem fetchedIn_entriesFrom {n : Nat} (hn : n ≤ p.journal.length) (new : List Entry)
    (hjournal : q.journal = new ++ p.journal) :
    fetchedIn (q.entriesFrom n) = fetchedIn (p.entriesFrom n) ++ (fetchedIn new).reverse := by
  rw [entriesFrom_append hn hjournal, fetchedIn, List.filterMap_append, List.filterMap_reverse]
  rfl

theorem fetchedIn_alarmEntries (p : Pipeline) (alarm : Alarm) :
    fetchedIn (p.alarmEntries alarm) = [] := by
  refine List.filterMap_eq_nil_iff.mpr fun e he => ?_
  obtain ⟨a, rfl⟩ := eq_of_mem_alarmEntries he
  rfl

/-- Who leaves calls no fetch. -/
theorem fetchedIn_leave {n : Nat} {id : Nat} {ending : Ending} (hn : n ≤ p.journal.length)
    (front : List Entry) (hjournal : q.journal = front ++ p.journal) :
    fetchedIn ((q.leave id ending).entriesFrom n) =
      fetchedIn (p.entriesFrom n) ++ (fetchedIn front).reverse := by
  have hnil : fetchedIn (q.leaveEntries id ending) = [] := by
    refine List.filterMap_eq_nil_iff.mpr fun e he => ?_
    obtain ⟨a, rfl⟩ := eq_of_mem_leaveEntries he
    rfl
  have hleft : (q.leave id ending).journal = (q.leaveEntries id ending ++ front) ++ p.journal := by
    rw [journal_leave, hjournal, List.append_assoc]
  rw [fetchedIn_entriesFrom hn _ hleft, fetchedIn, fetchedIn, List.filterMap_append]
  exact congrArg (fun a => fetchedIn (p.entriesFrom n) ++ (a ++ fetchedIn front).reverse) hnil

/-- The coordinator calls no fetch. -/
theorem CoordinatorStep.fetchedIn_entriesFrom {n : Nat} (h : p.CoordinatorStep q)
    (hn : n ≤ p.journal.length) : fetchedIn (q.entriesFrom n) = fetchedIn (p.entriesFrom n) := by
  obtain ⟨new, hjournal, -⟩ := h.exists_writes
  have hsame : fetchedIn q.journal = fetchedIn p.journal := by
    cases h with
    | stray | stranded | undispatchable | unresolvedFailed | processFailed =>
        rw [abort_eq]
        simp only [Pipeline.finish]
        rw [fetchedIn, List.filterMap_append]
        exact congrArg (· ++ fetchedIn p.journal) (fetchedIn_alarmEntries _ _)
    | calledUnresolved =>
        dsimp only
        split <;> rfl
    | _ => rfl
  rw [hjournal, fetchedIn, List.filterMap_append] at hsame
  have hnil : fetchedIn new = [] := List.append_left_eq_self.mp hsame
  rw [Pipeline.fetchedIn_entriesFrom hn new hjournal, hnil]
  exact List.append_nil _

/-- What happens apart from the workers calls no fetch. -/
theorem SparesTasks.fetchedIn_entriesFrom {n : Nat} (h : p.SparesTasks q)
    (hn : n ≤ p.journal.length) : fetchedIn (q.entriesFrom n) = fetchedIn (p.entriesFrom n) := by
  obtain ⟨new, hjournal, hnew⟩ := h.journal
  have hnil : fetchedIn new = [] := by
    refine List.filterMap_eq_nil_iff.mpr fun e he => ?_
    rw [hnew e he]
    rfl
  rw [Pipeline.fetchedIn_entriesFrom hn new hjournal, hnil]
  exact List.append_nil _

/-- The register, the journal from some place on, and the pipeline belong together. -/
structure Registered (n : Nat) (g : List FetchCall) (taken : List Taking) (p : Pipeline) :
    Prop where
  locations : g.map FetchCall.location = fetchedIn (p.entriesFrom n)
  attended : Attended g p.pool
  traced : Traced g taken p

namespace Registered

variable {j : Job} {n : Nat}

/-- At the start nothing is fetched. -/
theorem of_idle (hbusy : p.pool.busy = []) (hcompletions : p.completions.items = [])
    (hfetched : fetchedIn (p.entriesFrom n) = []) : Registered n [] [] p := by
  have hplaces : p.places = [] := by rw [places, hbusy, hcompletions]; rfl
  refine ⟨hfetched.symm, ⟨nofun, nofun, ?_⟩, ?_, fun l _ => .inl rfl⟩
  · rw [hbusy]
    exact nofun
  · rw [hplaces]
    exact nofun

/-- Nothing happens to the workers and to what is on its way. -/
theorem sameTasks (h : Registered n g taken p) (hworkers : p.pool.workers.Nodup)
    (hcoordinator : q.coordinator = p.coordinator)
    (hdispatch : q.dispatch.items.Sublist p.dispatch.items)
    (hcompletions : q.completions.items = p.completions.items)
    (hbusy : q.pool.busy = p.pool.busy) (hidle : ∀ w ∈ q.pool.idle, w ∈ p.pool.idle)
    (hfetched : fetchedIn (q.entriesFrom n) = fetchedIn (p.entriesFrom n)) :
    Registered n (Pool.register g p.pool q.pool) taken q := by
  have hsame : ∀ w, q.pool.stage? w = p.pool.stage? w := fun w => by
    rw [Pool.stage?, Pool.job?, hbusy]
    rfl
  have hplaces : q.places = p.places := by rw [places, places, hbusy, hcompletions]
  rw [Pool.register_of_stages hworkers hsame]
  refine ⟨h.locations.trans hfetched.symm, h.attended.kept (fun w hw => ?_)
    (fun k hk number mode hstage _ => ⟨mode, ?_⟩) (fun k hk number mode hstage => ⟨mode, ?_⟩),
    h.traced.congr (fun _ => rfl) hplaces (fun k hk => hcoordinator ▸ hk) fun k hk => ?_⟩
  · rw [Pool.workers, List.mem_append, hbusy] at hw
    exact List.mem_append.mpr (hw.imp_left (hidle w))
  · rw [hbusy, ← hstage]
    exact hk
  · rw [← hbusy, ← hstage]
    exact hk
  · rw [underway_eq, hcoordinator, hplaces] at hk
    rw [underway_eq]
    exact ((hdispatch.append_left _).append_right _).subset hk

/-- What is known of the fetch of a job. -/
theorem outcomesOf_of_works {stage : JobStage} (h : Registered n g taken p)
    (hworks : p.Works j stage) :
    outcomesOf j.location g = outcomesTaken j.location taken ++ stage.progress := by
  have := h.traced.carried j.place (mem_places.mpr (.inl ⟨j, hworks.mem, rfl⟩))
  rwa [Job.place, hworks.stage] at this

section Job

variable (h : Registered n g taken p) (hworkers : p.pool.workers.Nodup)
  (hcoordinator : q.coordinator = p.coordinator)
  (hdispatch : q.dispatch.items.Sublist p.dispatch.items)

include h hworkers hcoordinator hdispatch

/-- A worker calls its fetch, and waits for it. -/
theorem called {number : Nat} {mode : FetchMode} (hdiffer' : AllDiffer q.underway)
    (hworks : p.Works j .awaitingLock) (hwhole : (j.location == j.location) = true)
    (hpool : q.pool = p.pool.update { j with stage := .fetching number mode })
    (hcompletions : q.completions.items = p.completions.items)
    (hfetched : fetchedIn (q.entriesFrom n) = fetchedIn (p.entriesFrom n) ++ [j.location]) :
    Registered n (Pool.register g p.pool q.pool) taken q := by
  have hmem := Pool.mem_busy_update hworks.mem (.fetching number mode)
  have hregister : Pool.register g p.pool q.pool = g ++ [⟨j.worker, j.location, none⟩] := by
    refine Pool.register_of_call hworkers hworks.mem (fun w hw => ?_) hworks.stage ?_
    · rw [hpool]
      exact Pool.stage?_update _ hw
    · rw [hpool, Pool.stage?_of_mem (by rwa [Pool.workers_update]) hmem]
      exact nofun
  rw [hregister]
  refine ⟨by rw [List.map_append, h.locations, hfetched]; rfl,
    h.attended.called hworkers hworks.mem hworks.stage (fun w hw => ?_) (fun k hk hne => ?_)
      (fun _ => ⟨number, mode, hpool ▸ hmem⟩) (fun k hk => ?_),
    h.traced.updated hworkers hdiffer' hwhole hworks.mem (by rw [hpool]) hcoordinator hdispatch
      hcompletions (fun k hk => outcomesOf_append_of_beq_eq_false hk) ?_⟩
  · rwa [hpool, Pool.workers_update] at hw
  · rw [hpool]
    exact Pool.mem_busy_update_of_ne hk hne
  · rw [hpool] at hk
    rcases Pool.of_mem_busy_update hk with rfl | ⟨hk, -⟩
    · exact .inr ⟨rfl, rfl⟩
    · exact .inl hk
  · refine (outcomesOf_append (c := ⟨j.worker, j.location, none⟩) hwhole).trans ?_
    rw [h.outcomesOf_of_works hworks]
    simp [JobStage.progress, FetchCall.outcome?]

/-- A worker calls its fetch, and is gone. -/
theorem callPanicked {ending : Ending} (hdiffer : AllDiffer p.underway)
    (hflight : ∀ k ∈ p.underway, k ∈ p.coordinator.waiters.locations)
    (hworks : p.Works j .awaitingLock) (hwhole : (j.location == j.location) = true)
    (hpool : q.pool = p.pool.without j.worker ending)
    (hcompletions : q.completions.items = p.completions.items)
    (hfetched : fetchedIn (q.entriesFrom n) = fetchedIn (p.entriesFrom n) ++ [j.location]) :
    Registered n (Pool.register g p.pool q.pool) taken q := by
  have hbusy : q.pool.busy = p.pool.busy.filter fun k => k.worker != j.worker := by
    rw [hpool]
    rfl
  have hregister : Pool.register g p.pool q.pool = g ++ [⟨j.worker, j.location, none⟩] := by
    refine Pool.register_of_call hworkers hworks.mem (fun w hw => Pool.stage?_filter hbusy hw)
      hworks.stage ?_
    rw [Pool.stage?_filter_self hbusy]
    exact nofun
  have hleft : ∀ w ∈ q.pool.workers, w ∈ p.pool.workers ∧ w ≠ j.worker := fun w hw =>
    Pool.mem_workers_without hworkers (hpool ▸ hw)
  rw [hregister]
  refine ⟨by rw [List.map_append, h.locations, hfetched]; rfl,
    h.attended.called hworkers hworks.mem hworks.stage (fun w hw => (hleft w hw).1)
      (fun k hk hne => ?_) (fun hw => absurd rfl (hleft _ hw).2) (fun k hk => ?_),
    h.traced.lost hworkers hdiffer hwhole hflight hworks.mem hbusy hcoordinator hdispatch hcompletions
      (fun k hk => outcomesOf_append_of_beq_eq_false hk) ?_⟩
  · rw [hbusy]
    exact List.mem_filter.mpr ⟨hk, by simpa using hne⟩
  · rw [hbusy] at hk
    exact .inl (List.mem_of_mem_filter hk)
  · rw [outcomesOf_append (c := ⟨j.worker, j.location, none⟩) hwhole]
    exact List.prefix_append _ _

/-- A fetch has ended. -/
theorem ended {number : Nat} {mode : FetchMode} {outcome : Delivery} (hdiffer' : AllDiffer q.underway)
    (hworks : p.Works j (.fetching number mode)) (hwhole : (j.location == j.location) = true)
    (houtcome : mode.outcome? j.location number = some outcome ∨ outcome.isCancelled = true)
    (hpool : q.pool = p.pool.update { j with stage := .handingIn outcome })
    (hcompletions : q.completions.items = p.completions.items)
    (hfetched : fetchedIn (q.entriesFrom n) = fetchedIn (p.entriesFrom n)) :
    Registered n (Pool.register g p.pool q.pool) taken q := by
  have hmem := Pool.mem_busy_update hworks.mem (.handingIn outcome)
  have hregister : Pool.register g p.pool q.pool =
      g.map (FetchCall.settle j.worker ⟨number, mode, outcome⟩) := by
    refine Pool.register_of_end hworkers hworks.mem (fun w hw => ?_) hworks.stage ?_
    · rw [hpool]
      exact Pool.stage?_update _ hw
    · rw [hpool, Pool.stage?_of_mem (by rwa [Pool.workers_update]) hmem]
  rw [hregister]
  refine ⟨?_, h.attended.ended hworkers hworks.mem (by rw [hpool]) (by rw [hpool]; rfl) houtcome,
    h.traced.updated hworkers hdiffer' hwhole hworks.mem (by rw [hpool]) hcoordinator hdispatch
      hcompletions (fun k hk => outcomesOf_settle_of_ne fun c hc hworker hopen => ?_)
      (outcomesOf_settle (h.outcomesOf_of_works hworks) ?_ ?_)⟩
  · rw [List.map_map, hfetched, ← h.locations]
    exact List.map_congr_left fun c _ => FetchCall.location_settle _ _ c
  · -- a call that the worker waits for is one for the location of its job
    obtain ⟨hc, hlocation⟩ := List.mem_filter.mp hc
    obtain ⟨number', mode', hjob⟩ := h.attended.pending c hc hopen
      (hworker ▸ List.mem_append_right _ (List.mem_map_of_mem hworks.mem))
    have heq := congrArg Job.location (Pool.eq_of_worker_eq hworkers hworks.mem hjob hworker)
    rw [show c.location = j.location from heq, hk] at hlocation
    cases hlocation
  · simp [outcomesTaken]
  · obtain ⟨c, hc, hworker, hlocation, hopen⟩ :=
      h.attended.fetching j hworks.mem number mode hworks.stage
    exact ⟨c, List.mem_filter.mpr ⟨hc, by rw [hlocation]; exact hwhole⟩, hworker, hopen⟩

/-- A worker that has called its fetch is gone with the job. -/
theorem gone {stage : JobStage} {ending : Ending} (hdiffer : AllDiffer p.underway)
    (hflight : ∀ k ∈ p.underway, k ∈ p.coordinator.waiters.locations)
    (hworks : p.Works j stage) (hwhole : (j.location == j.location) = true)
    (hstage : stage.calls none = false)
    (hpool : q.pool = p.pool.without j.worker ending)
    (hcompletions : q.completions.items = p.completions.items)
    (hfetched : fetchedIn (q.entriesFrom n) = fetchedIn (p.entriesFrom n)) :
    Registered n (Pool.register g p.pool q.pool) taken q := by
  have hbusy : q.pool.busy = p.pool.busy.filter fun k => k.worker != j.worker := by
    rw [hpool]
    rfl
  have hnone := Pool.stage?_filter_self hbusy
  have hregister : Pool.register g p.pool q.pool = g := by
    refine Pool.register_of_turn hworkers hworks.mem (fun w hw => Pool.stage?_filter hbusy hw) ?_ ?_
    · rw [hnone]
      cases j.stage <;> rfl
    · rwa [hnone, hworks.stage]
  have hleft : ∀ w ∈ q.pool.workers, w ∈ p.pool.workers ∧ w ≠ j.worker := fun w hw =>
    Pool.mem_workers_without hworkers (hpool ▸ hw)
  rw [hregister]
  refine ⟨h.locations.trans hfetched.symm, h.attended.kept (fun w hw => (hleft w hw).1)
    (fun k hk number mode hk' hw => ⟨mode, ?_⟩) (fun k hk number mode hk' => ⟨mode, ?_⟩),
    h.traced.lost hworkers hdiffer hwhole hflight hworks.mem hbusy hcoordinator hdispatch hcompletions
      (fun _ _ => rfl) List.prefix_rfl⟩
  · rw [hbusy, ← hk']
    exact List.mem_filter.mpr ⟨hk, by simpa using (hleft _ hw).2⟩
  · rw [hbusy] at hk
    rw [← hk']
    exact List.mem_of_mem_filter hk

/-- A completion is handed in. -/
theorem handedIn {outcome : Delivery} (hdiffer' : AllDiffer q.underway)
    (hworks : p.Works j (.handingIn outcome)) (hwhole : (j.location == j.location) = true)
    (hbusy : q.pool.busy = p.pool.busy.filter fun k => k.worker != j.worker)
    (hleft : ∀ w ∈ q.pool.workers, w ∈ p.pool.workers)
    (hcompletions : q.completions.items = p.completions.items ++ [⟨j.location, outcome⟩])
    (hfetched : fetchedIn (q.entriesFrom n) = fetchedIn (p.entriesFrom n)) :
    Registered n (Pool.register g p.pool q.pool) taken q := by
  have hnone := Pool.stage?_filter_self hbusy
  have hregister : Pool.register g p.pool q.pool = g := by
    refine Pool.register_of_turn hworkers hworks.mem (fun w hw => Pool.stage?_filter hbusy hw) ?_ ?_
    · rw [hnone, hworks.stage]
      rfl
    · rw [hnone, hworks.stage]
      rfl
  rw [hregister]
  refine ⟨h.locations.trans hfetched.symm,
    h.attended.kept hleft (fun k hk number mode hk' hw => ⟨mode, ?_⟩)
      (fun k hk number mode hk' => ⟨mode, ?_⟩),
    h.traced.handedIn hworkers hdiffer' hwhole hworks hbusy hcoordinator hdispatch hcompletions⟩
  · rw [hbusy, ← hk']
    refine List.mem_filter.mpr ⟨hk, ?_⟩
    rw [bne_iff_ne]
    intro hworker
    rw [Pool.eq_of_worker_eq hworkers hworks.mem hk hworker, hworks.stage] at hk'
    cases hk'
  · rw [hbusy] at hk
    rw [← hk']
    exact List.mem_of_mem_filter hk

/-- A fetch that was held is given its answer. -/
theorem released {number : Nat} {mode mode' : FetchMode} (hdiffer' : AllDiffer q.underway)
    (hworks : p.Works j (.fetching number mode)) (hwhole : (j.location == j.location) = true)
    (hpool : q.pool = p.pool.update { j with stage := .fetching number mode' })
    (hcompletions : q.completions.items = p.completions.items)
    (hfetched : fetchedIn (q.entriesFrom n) = fetchedIn (p.entriesFrom n)) :
    Registered n (Pool.register g p.pool q.pool) taken q := by
  have hbusy : q.pool.busy =
      (p.pool.update { j with stage := .fetching number mode' }).busy := by rw [hpool]
  have hmem := Pool.mem_busy_update hworks.mem (.fetching number mode')
  have hknown := h.outcomesOf_of_works hworks
  have hnext : q.pool.stage? j.worker = some (.fetching number mode') := by
    rw [hpool, Pool.stage?_of_mem (by rwa [Pool.workers_update]) hmem]
  have hregister : Pool.register g p.pool q.pool = g := by
    refine Pool.register_of_turn hworkers hworks.mem (fun w hw => ?_) ?_ ?_
    · rw [hpool]
      exact Pool.stage?_update _ hw
    · rw [hnext, hworks.stage]
      rfl
    · rw [hnext, hworks.stage]
      rfl
  rw [hregister]
  refine ⟨h.locations.trans hfetched.symm, h.attended.kept (fun w hw => ?_)
    (fun k hk number' mode'' hk' _ => ?_) (fun k hk number' mode'' hk' => ?_),
    h.traced.updated hworkers hdiffer' hwhole hworks.mem hbusy hcoordinator hdispatch hcompletions
      (fun _ _ => rfl) hknown⟩
  · rwa [hpool, Pool.workers_update] at hw
  · by_cases hworker : k.worker = j.worker
    · obtain rfl := Pool.eq_of_worker_eq hworkers hworks.mem hk hworker
      obtain ⟨rfl, -⟩ := JobStage.fetching.inj (hworks.stage.symm.trans hk')
      exact ⟨mode', hpool ▸ hmem⟩
    · refine ⟨mode'', ?_⟩
      rw [hpool, ← hk']
      exact Pool.mem_busy_update_of_ne hk hworker
  · rw [hpool] at hk
    rcases Pool.of_mem_busy_update hk with rfl | ⟨hk, -⟩
    · obtain ⟨rfl, -⟩ := JobStage.fetching.inj hk'
      refine ⟨mode, ?_⟩
      rw [← hworks.stage]
      exact hworks.mem
    · refine ⟨mode'', ?_⟩
      rw [← hk']
      exact hk

end Job

/-- A worker takes a location. -/
theorem took {id : Nat} {idle : List Nat} {items : List Location} (h : Registered n g taken p)
    (hworkers : p.pool.workers.Nodup) (hdiffer : AllDiffer p.underway)
    (hdiffer' : AllDiffer q.underway) (hwhole : (l == l) = true)
    (hidle : p.pool.idle = id :: idle) (hitems : p.dispatch.items = l :: items)
    (hdispatch : q.dispatch.items = items) (hidle' : q.pool.idle = idle)
    (hbusy : q.pool.busy = p.pool.busy ++ [⟨id, l, .awaitingLock⟩])
    (hcoordinator : q.coordinator = p.coordinator)
    (hcompletions : q.completions.items = p.completions.items)
    (hfetched : fetchedIn (q.entriesFrom n) = fetchedIn (p.entriesFrom n)) :
    Registered n (Pool.register g p.pool q.pool) taken q := by
  have hid : id ∈ p.pool.idle := hidle ▸ List.mem_cons_self
  have hsame : ∀ w, w ≠ id → q.pool.stage? w = p.pool.stage? w := fun w hw =>
    Pool.stage?_append hbusy hw
  have hregister : Pool.register g p.pool q.pool = g := by
    refine Pool.register_of_ends?_eq_none (fun w => ?_) fun k hk => ?_
    · by_cases hw : w = id
      · rw [hw, Pool.stage?_of_idle hworkers hid]
        rfl
      · rw [hsame w hw, JobStage.ends?_self]
    · have hne : k.worker ≠ id := fun heq =>
        (List.nodup_append.mp hworkers).2.2 id hid k.worker (List.mem_map_of_mem hk) heq.symm
      rw [hsame _ hne, Pool.stage?_of_mem hworkers hk, JobStage.calls_self]
  rw [hregister]
  refine ⟨h.locations.trans hfetched.symm, h.attended.kept (fun w hw => ?_)
    (fun k hk number mode hk' _ => ⟨mode, ?_⟩) (fun k hk number mode hk' => ⟨mode, ?_⟩),
    h.traced.took hdiffer hdiffer' hwhole hitems hdispatch hbusy hcoordinator hcompletions⟩
  · simp only [Pool.workers, hidle, hidle', hbusy, List.map_append, List.map_cons, List.map_nil,
      List.mem_append, List.mem_cons, List.not_mem_nil, or_false] at hw ⊢
    tauto
  · rw [hbusy, ← hk']
    exact List.mem_append_left _ hk
  · rw [hbusy, List.mem_append, List.mem_singleton] at hk
    rcases hk with hk | rfl
    · rw [← hk']
      exact hk
    · cases hk'

/-- A step of a worker. -/
theorem workerStep (h : Registered n g taken p) (howned : p.Owned dropped) (hstep : p.WorkerStep q)
    (hn : n ≤ p.journal.length) (hdiffer : AllDiffer p.underway) (hdiffer' : AllDiffer q.underway)
    (hwhole : ∀ k ∈ p.coordinator.waiters.locations, (k == k) = true)
    (hflight : ∀ k ∈ p.underway, k ∈ p.coordinator.waiters.locations) :
    Registered n (Pool.register g p.pool q.pool) taken q := by
  have hworkers := howned.workers
  have hwhole' : ∀ {j : Job} {stage : JobStage}, p.Works j stage →
      (j.location == j.location) = true := fun hworks =>
    hwhole _ (hflight _ (mem_underway_of_mem_busy hworks.mem))
  have hdispatch : q.dispatch.items.Sublist p.dispatch.items := by
    obtain ⟨⟨taken, htaken⟩, -⟩ := hstep.exists_items
    rw [htaken]
    exact List.sublist_append_right _ _
  have hleft : ∀ {q : Pipeline} {id : Nat} {ending : Ending}, q.journal = p.journal →
      fetchedIn ((q.leave id ending).entriesFrom n) = fetchedIn (p.entriesFrom n) := fun hjournal =>
    (fetchedIn_leave hn [] hjournal).trans (List.append_nil _)
  cases hstep with
  | @quit id hidle _ | @dismissed id hidle _ _ =>
      refine h.sameTasks hworkers (by simp) hdispatch (by simp) ?_ (fun w hw => ?_)
        (hleft rfl)
      · rw [pool_leave, Pool.busy_without_of_mem_idle hworkers hidle]
      · rw [pool_leave] at hw
        exact List.mem_of_mem_erase hw
  | took hlive hidle hitems =>
      refine h.took hworkers hdiffer hdiffer' (hwhole _ (hflight _ ?_)) hidle hitems rfl rfl rfl
        rfl rfl rfl
      simp [underway, hitems]
  | called hworks hlock hmode =>
      exact h.called hworkers rfl hdispatch hdiffer' hworks (hwhole' hworks) rfl rfl
        (fetchedIn_entriesFrom hn [.fetch _] rfl)
  | callPanicked hworks hlock hmode =>
      exact h.callPanicked hworkers (by simp) hdispatch hdiffer hflight hworks (hwhole' hworks)
        (by rw [pool_leave]) (by simp)
        (fetchedIn_leave hn [.fetch _] rfl)
  | fetched hworks =>
      exact h.ended hworkers rfl hdispatch hdiffer' hworks (hwhole' hworks) (.inl rfl) rfl rfl rfl
  | fetchFailed hworks =>
      exact h.ended hworkers rfl hdispatch hdiffer' hworks (hwhole' hworks) (.inl rfl) rfl rfl rfl
  | fetchPanicked hworks hmode =>
      exact h.gone hworkers (by simp) hdispatch hdiffer hflight hworks (hwhole' hworks) rfl
        (by rw [pool_leave]) (by simp) (hleft rfl)
  | fetchDropped hworks hcancelled =>
      exact h.ended hworkers rfl hdispatch hdiffer' hworks (hwhole' hworks) (.inr rfl) rfl rfl rfl
  | handedIn hworks hopen hline hroom houtcome =>
      refine h.handedIn hworkers rfl hdispatch hdiffer' hworks (hwhole' hworks) rfl
        (fun w hw => ?_) rfl rfl
      simp only [Pool.workers, List.mem_append, List.mem_singleton, List.mem_map,
        List.mem_filter] at hw ⊢
      rcases hw with (hw | rfl) | ⟨k, hk, rfl⟩
      · exact .inl hw
      · exact .inr ⟨_, hworks.mem, rfl⟩
      · exact .inr ⟨k, hk.1, rfl⟩
  | handedInLast hworks hopen hline hroom houtcome =>
      refine h.handedIn hworkers (by simp) hdispatch hdiffer' hworks (hwhole' hworks)
        (by rw [pool_leave]; rfl) (fun w hw => ?_) (by simp) (hleft rfl)
      rw [pool_leave] at hw
      exact (Pool.mem_workers_without hworkers hw).1
  | undelivered hworks hclosed =>
      exact h.gone hworkers (by simp) hdispatch hdiffer hflight hworks (hwhole' hworks) rfl
        (by rw [pool_leave]) (by simp) (hleft rfl)

/-- **Every change keeps the register and what is on its way together**, where locations are whole
and none underway is the same as another. -/
theorem change {L : Ledger} (h : Registered n g L.taken p) (howned : p.Owned dropped)
    (hchange : p.Change q) (hn : n ≤ p.journal.length) (hdiffer : AllDiffer p.underway)
    (hdiffer' : AllDiffer q.underway)
    (hwhole : ∀ k ∈ p.coordinator.waiters.locations, (k == k) = true)
    (hwhole' : ∀ k ∈ q.coordinator.waiters.locations, (k == k) = true)
    (hfound : ∀ c ∈ p.completions.items,
      (p.coordinator.waiters.complete? c.location).isSome = true) :
    Registered n (Pool.register g p.pool q.pool) (L.follow p q).taken q := by
  have hworkers := howned.workers
  have hflight : ∀ k ∈ p.underway, k ∈ p.coordinator.waiters.locations := fun k hk =>
    howned.subperm_underway.subset hk
  cases hchange with
  | coordinated hstep =>
      rw [hstep.pool, Pool.register_of_stages hworkers fun _ => rfl]
      exact ⟨h.locations.trans (hstep.fetchedIn_entriesFrom hn).symm, hstep.pool ▸ h.attended,
        h.traced.coordinatorStep hstep hdiffer hdiffer' hwhole hwhole' hflight hfound⟩
  | worked hstep =>
      rw [hstep.sparesCoordinator.follow]
      exact h.workerStep howned hstep hn hdiffer hdiffer' hwhole hflight
  | hookReleased mode =>
      rcases exists_releaseHook p mode with heq | ⟨phase, -, heq, -⟩
      · rw [heq, (SparesTasks.refl p).sparesCoordinator.follow]
        exact h.sameTasks hworkers rfl (.refl _) rfl rfl (fun _ => id) rfl
      · have hpool : (p.turnTo phase).pool = p.pool := rfl
        rw [heq, hpool, Pool.register_of_stages hworkers fun _ => rfl]
        exact ⟨h.locations, h.attended, h.traced.turned rfl rfl rfl rfl rfl (.refl _)⟩
  | fetchReleased hj mode =>
      rw [(sparesCoordinator_releaseFetch p _ mode).follow]
      rw [releaseFetch] at hdiffer' ⊢
      split at hdiffer'
      · rename_i number hstage
        exact h.released hworkers rfl (.refl _) hdiffer' ⟨hj, hstage⟩
          (hwhole _ (hflight _ (mem_underway_of_mem_busy hj))) rfl rfl rfl
      · exact h.sameTasks hworkers rfl (.refl _) rfl rfl (fun _ => id) rfl
  | tasksSpared hspares | renewed hspares =>
      rw [hspares.sparesCoordinator.follow]
      exact h.sameTasks hworkers hspares.coordinator (by rw [hspares.dispatch])
        (by rw [hspares.completions]) hspares.busy (fun w hw => hspares.idle ▸ hw)
        (hspares.fetchedIn_entriesFrom hn)

end Registered

end Pipeline

end SharedFetch
