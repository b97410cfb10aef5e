import SharedFetch.Proofs.Intake
import SharedFetch.Proofs.Restart.PartsSimulation

/-!
# Producers that remain

A producer of an earlier run that forwards a stream stays as long as the stream neither ends nor
goes on, for it looks at the intake only when it has a reference. So a host that has a past may
still have such producers. They find their intake closed whenever they look, and all that they ever
do is to end.

An intake is another one *later* if it is so apart from producers that remain of the past.

## Main results

* `Intake.Later.advance`: what a producer does next it does later, too.
* `Intake.Later.advance_past`: what a producer of the past does next is not seen.
-/

namespace SharedFetch

variable {past : Past}

/-- A producer of the past, which does not work for the host. -/
structure Producer.IsPast (past : Past) (p : Producer) : Prop where
  id : p.id < past.producers
  label : p.label ∈ past.remaining
  era : p.era ≤ past.era
  hosted : p.hosted = false

/-- Producers that remain of the past. -/
structure PastProducers (past : Past) (ps : List Producer) : Prop where
  all : ∀ p ∈ ps, p.IsPast past
  nodup : (ps.map Producer.id).Nodup

namespace PastProducers

variable {ps : List Producer} {p : Producer}

/-- None of them has a later name. -/
theorem id_ne (h : PastProducers past ps) (id : Nat) : ∀ q ∈ ps, q.id ≠ past.producer id := by
  intro q hq heq
  have hlt := (h.all q hq).id
  rw [heq, Past.producer] at hlt
  omega

/-- Those who have finished are some of them. -/
theorem mem_remaining (h : PastProducers past ps) {i : Intake} (hps : i.producers = ps)
    {x : Nat × Produced} (hx : x ∈ i.collect.1) : x.1 ∈ past.remaining := by
  obtain ⟨q, hq, hresult⟩ := List.mem_filterMap.mp hx
  split at hresult
  · cases hresult
  · obtain ⟨result, -, rfl⟩ := Option.map_eq_some_iff.mp hresult
    exact (h.all q (hps ▸ hq)).label

/-- Some of them may be gone. -/
theorem filter (h : PastProducers past ps) (keep : Producer → Bool) :
    PastProducers past (ps.filter keep) where
  all := fun p hp => h.all p (List.mem_filter.mp hp).1
  nodup := h.nodup.sublist (List.filter_sublist.map _)

/-- One of them goes on to another task. -/
theorem update (h : PastProducers past ps) (hp : p ∈ ps) (task : Task) :
    PastProducers past (ps.map fun q => if q.id = p.id then { p with task } else q) := by
  refine ⟨fun q hq => ?_, ?_⟩
  · obtain ⟨r, hr, rfl⟩ := List.mem_map.mp hq
    split
    · obtain ⟨hid, hlabel, hera, hhosted⟩ := h.all p hp
      exact ⟨hid, hlabel, hera, hhosted⟩
    · exact h.all r hr
  · have hids : (ps.map fun q => if q.id = p.id then { p with task } else q).map Producer.id =
        ps.map Producer.id := by
      rw [List.map_map]
      refine List.map_congr_left fun q _ => ?_
      simp only [Function.comp]
      split
      · rename_i heq
        exact heq.symm
      · rfl
    rw [hids]
    exact h.nodup

end PastProducers

namespace Intake

variable {i j : Intake} {ps : List Producer} {p : Producer} {t u : Tokens}

/-- An intake with producers that were there before its own. -/
def amid (ps : List Producer) (i : Intake) : Intake :=
  { i with producers := ps ++ i.producers }

/-- A producer of the run goes on among those of the past. -/
theorem update_amid (i : Intake) (hid : ∀ q ∈ ps, q.id ≠ p.id) :
    (i.amid ps).update p = (i.update p).amid ps := by
  have hsame : (ps.map fun q => if q.id = p.id then p else q) = ps := by
    refine (List.map_congr_left fun q hq => ?_).trans (List.map_id ps)
    exact if_neg (hid q hq)
  simp only [update, amid, List.map_append, hsame]

/-- A producer of the run finishes among those of the past. -/
theorem finish_amid (i : Intake) (hid : ∀ q ∈ ps, q.id ≠ p.id) (result : Produced) :
    (i.amid ps).finish p result = (i.finish p result).amid ps :=
  update_amid { i with queue := _ } hid

/-- Nobody goes on in another way because of those who were there before. -/
theorem step_amid (i : Intake) (hid : ∀ q ∈ ps, q.id ≠ p.id) :
    (i.amid ps).step t p = (i.step t p).map (amid ps) := by
  have haccepts : (i.amid ps).accepts p.era = i.accepts p.era := rfl
  have hfinish : ∀ (queue : Queue Reference) (result : Produced),
      ({ i.amid ps with queue } : Intake).finish p result =
        (({ i with queue } : Intake).finish p result).amid ps :=
    fun queue => finish_amid { i with queue } hid
  have hupdate : ∀ (queue : Queue Reference) (task : Task),
      ({ i.amid ps with queue } : Intake).update { p with task } =
        (({ i with queue } : Intake).update { p with task }).amid ps :=
    fun queue task => update_amid { i with queue } hid
  rw [step, step, haccepts]
  cases p.task with
  | finished result => rfl
  | submit r queued =>
      dsimp only
      split
      · exact congrArg some (hfinish i.queue _)
      · split
        · rw [Option.map_map]
          congr 1
          funext queue
          exact hfinish queue _
        · exact congrArg some (hupdate _ _)
  | forward token supply inHand sent =>
      dsimp only
      split
      · exact congrArg some (hfinish i.queue _)
      · split
        · split
          · exact congrArg some (hfinish i.queue _)
          · rw [Option.map_map]
            congr 1
            funext queue
            exact hupdate queue _
        · split
          · exact congrArg some (hfinish i.queue _)
          · exact congrArg some (hupdate _ _)
        · split
          · rfl
          · exact congrArg some (hfinish i.queue _)

/-- **Producers of the run do the same, whether others are there or not.** -/
theorem advance_amid (i : Intake) {id : Nat} (hid : ∀ q ∈ ps, q.id ≠ id) :
    (i.amid ps).advance t id = (i.advance t id).map (amid ps) := by
  have hnone : (ps.find? fun p => p.id == id) = none := by
    rw [List.find?_eq_none]
    intro q hq
    simpa using hid q hq
  have hfind : ((i.amid ps).producers.find? fun p => p.id == id) =
      i.producers.find? fun p => p.id == id := by
    rw [amid, List.find?_append, hnone, Option.none_or]
  rw [advance, advance, hfind]
  cases hp : i.producers.find? fun p => p.id == id with
  | none => rfl
  | some p =>
      have heq : p.id = id := by simpa using List.find?_some hp
      exact i.step_amid (heq ▸ hid)

/-- Whoever finds the intake closed can only end. -/
theorem exists_finish_of_step (hrefused : i.accepts p.era = false) (h : i.step t p = some j) :
    ∃ result, j = i.finish p result := by
  cases goesOn_of_step h with
  | refused => exact ⟨_, rfl⟩
  | submitted htask haccepts | linedUp htask haccepts => cases hrefused.symm.trans haccepts
  | forwards htask hforwards =>
      cases hforwards with
      | cancelled | turnedAway | ended => exact ⟨_, rfl⟩
      | entered hlive haccepts | pulled hlive haccepts => cases hrefused.symm.trans haccepts

/-- What a producer of the past does next is to end. A later run has a queue that it does not
touch. -/
theorem exists_amid_of_advance {id : Nat} (hpast : PastProducers past ps)
    (hown : ∀ q ∈ i.producers, past.producers ≤ q.id) (hera : past.era < i.era)
    (hid : id < past.producers) (h : (i.amid ps).advance t id = some j) :
    ∃ ps', PastProducers past ps' ∧ j = i.amid ps' := by
  obtain ⟨p, hp, hstep⟩ := Option.bind_eq_some_iff.mp h
  have heq : p.id = id := by simpa using List.find?_some hp
  have hmem : p ∈ ps := by
    refine (List.mem_append.mp (List.mem_of_find?_eq_some hp)).resolve_right fun hmem => ?_
    have hle := hown p hmem
    omega
  have hne : p.era ≠ (i.amid ps).era := Nat.ne_of_lt (Nat.lt_of_le_of_lt (hpast.all p hmem).era hera)
  have hrefused : (i.amid ps).accepts p.era = false := by
    rw [accepts, beq_false_of_ne hne, Bool.false_and]
  obtain ⟨result, rfl⟩ := exists_finish_of_step hrefused hstep
  refine ⟨_, hpast.update hmem (.finished result), ?_⟩
  have hsame : (i.producers.map fun q =>
      if q.id = p.id then { p with task := .finished result } else q) = i.producers := by
    refine (List.map_congr_left fun q hq => ?_).trans (List.map_id _)
    have hle := hown q hq
    exact if_neg (by omega)
  simp only [finish, if_neg hne]
  simp only [update, amid, List.map_append, hsame]

/-- Until there is a run, those of the past find the queue of the last one closed. -/
theorem advance_of_closed {id : Nat} (hpast : PastProducers past i.producers)
    (hclosed : i.queue.closed = true) (h : i.advance t id = some j) :
    id < past.producers ∧ PastProducers past j.producers ∧ j.queue.closed = true ∧ j.era = i.era ∧
      j.started = i.started := by
  obtain ⟨p, hp, hstep⟩ := Option.bind_eq_some_iff.mp h
  have hmem := List.mem_of_find?_eq_some hp
  have heq : p.id = id := by simpa using List.find?_some hp
  have hrefused : i.accepts p.era = false := by
    rw [accepts, hclosed, Bool.not_true, Bool.and_false]
  obtain ⟨result, rfl⟩ := exists_finish_of_step hrefused hstep
  refine ⟨heq ▸ (hpast.all p hmem).id, hpast.update hmem (.finished result), ?_, rfl, rfl⟩
  simp only [finish, update]
  split
  · exact hclosed
  · exact hclosed

/-! ### Streams

The host feeds only streams that it forwards itself. -/

/-- Where nobody works for the host, no stream of it is open. -/
theorem isFed_of_unhosted (hhosted : ∀ q ∈ i.producers, q.hosted = false) (label : Nat) :
    i.isFed label = false := by
  rw [isFed, List.any_eq_false]
  intro q hq
  simp [hhosted q hq]

/-- Where nobody works for the host, there is no stream of it to change. -/
theorem onSupply_of_unhosted (hhosted : ∀ q ∈ i.producers, q.hosted = false) (label : Nat)
    (f : Supply → Supply) : i.onSupply label f = i := by
  rw [onSupply]
  congr 1
  refine (List.map_congr_left fun q hq => ?_).trans (List.map_id _)
  split
  · exact if_neg fun hfed => by cases hfed.2.symm.trans (hhosted q hq)
  · rfl

/-! ### Later intakes -/

/-- An intake as it is later, apart from producers that remain of the past. There is a run. -/
inductive Later (past : Past) (i : Intake) : Intake → Prop where
  | mk {ps : List Producer} (hlaunched : 0 < i.era) (hpast : PastProducers past ps) :
      Later past i ((i.later past).amid ps)

namespace Later

/-- The same waits in the queue, and stands in line under later names. -/
theorem queue (h : i.Later past j) : j.queue = i.queue.later past := by
  cases h; rfl

/-- The era has its later name. -/
theorem era (h : i.Later past j) : j.era = i.era + past.era := by
  cases h; rfl

/-- The queues change. -/
theorem withQueue (h : i.Later past j) (queue : Queue Reference) :
    { i with queue }.Later past { j with queue := queue.later past } := by
  cases h with
  | mk hlaunched hpast => exact .mk (i := { i with queue }) hlaunched hpast

/-- There is another run, with a queue of its own. -/
theorem relaunched (h : i.Later past j) (queue : Queue Reference) :
    { i with queue, era := i.era + 1 }.Later past
      { j with queue := queue.later past, era := j.era + 1 } := by
  cases h with
  | @mk ps hlaunched hpast =>
      have hnext := Later.mk (i := { i with queue, era := i.era + 1 }) (Nat.succ_pos _) hpast
      rw [later, Nat.add_right_comm] at hnext
      exact hnext

/-- Whoever is not of the past has a later name. -/
theorem names (h : i.Later past j) :
    (j.names.filter fun id => past.producers ≤ id) = i.names.map past.producer := by
  cases h with
  | @mk ps hlaunched hpast =>
      have hgone : (ps.map Producer.id).filter (fun id => past.producers ≤ id) = [] := by
        rw [List.filter_eq_nil_iff]
        intro id hid
        obtain ⟨q, hq, rfl⟩ := List.mem_map.mp hid
        simpa using (hpast.all q hq).id
      have hkept : (i.names.map past.producer).filter (fun id => past.producers ≤ id) =
          i.names.map past.producer := by
        rw [List.filter_eq_self]
        intro id hid
        obtain ⟨id, -, rfl⟩ := List.mem_map.mp hid
        simp [Past.producer]
      rw [Intake.names, amid, List.map_append, List.filter_append, hgone, List.nil_append,
        ← Intake.names, names_later, hkept]

/-- No two producers have one name, whichever run they are of. -/
theorem nodup_names (h : i.Later past j) (hnames : i.names.Nodup) : j.names.Nodup := by
  cases h with
  | @mk ps hlaunched hpast =>
      rw [Intake.names, amid, List.map_append, ← Intake.names, names_later]
      refine List.Nodup.append hpast.nodup (hnames.map past.producer_injective) ?_
      intro id hid hid'
      obtain ⟨q, hq, rfl⟩ := List.mem_map.mp hid
      obtain ⟨id, -, heq⟩ := List.mem_map.mp hid'
      exact hpast.id_ne id q hq heq.symm

/-- What a producer does next it does later, too. -/
theorem advance (h : i.Later past j) (htokens : t.Later past u) (id : Nat) :
    Option.Rel (Later past) (i.advance t id) (j.advance u (past.producer id)) := by
  cases h with
  | @mk ps hlaunched hpast =>
      rw [advance_amid _ (hpast.id_ne id), i.advance_later htokens]
      cases hadvance : i.advance t id with
      | none => exact .none
      | some i' =>
          obtain ⟨p, -, hstep⟩ := Option.bind_eq_some_iff.mp hadvance
          obtain ⟨queue, task, -, rfl⟩ := exists_produces hstep
          exact .some (.mk hlaunched hpast)

/-- What a producer of the past does next is not seen. -/
theorem advance_past {k : Intake} (h : i.Later past j) {id : Nat} (hid : id < past.producers)
    (hstep : j.advance u id = some k) : i.Later past k := by
  cases h with
  | @mk ps hlaunched hpast =>
      have hown : ∀ q ∈ (i.later past).producers, past.producers ≤ q.id := by
        intro q hq
        obtain ⟨r, -, rfl⟩ := List.mem_map.mp hq
        exact Nat.le_add_left _ _
      have hera : past.era < (i.later past).era := Nat.lt_add_of_pos_left hlaunched
      obtain ⟨ps', hpast', rfl⟩ := exists_amid_of_advance hpast hown hera hid hstep
      exact .mk hlaunched hpast'

/-- A producer is started later. -/
theorem start (h : i.Later past j) (label era : Nat) (task : Task) (hosted : Bool) :
    (i.start label era task hosted).Later past
      (j.start label (era + past.era) (task.later past) hosted) := by
  cases h with
  | @mk ps hlaunched hpast =>
      have hstarted : ((i.later past).amid ps).start label (era + past.era) (task.later past) hosted =
          ((i.start label era task hosted).later past).amid ps := by
        rw [← start_later]
        simp only [Intake.start, amid, List.append_assoc]
      rw [hstarted]
      exact .mk hlaunched hpast

/-- The stream of an operation is open later if and only if it is. -/
theorem isFed (h : i.Later past j) (label : Nat) : j.isFed label = i.isFed label := by
  cases h with
  | @mk ps hlaunched hpast =>
      have hnone := isFed_of_unhosted (i := { i with producers := ps })
        (fun q hq => (hpast.all q hq).hosted) label
      rw [Intake.isFed] at hnone
      rw [← i.isFed_later, Intake.isFed, amid, List.any_append, hnone, Bool.false_or]
      rfl

/-- The stream of an operation changes. -/
theorem onSupply (h : i.Later past j) (label : Nat) (f : Supply → Supply) :
    (i.onSupply label f).Later past (j.onSupply label f) := by
  cases h with
  | @mk ps hlaunched hpast =>
      have hsame := congrArg producers (onSupply_of_unhosted (i := { i with producers := ps })
        (fun q hq => (hpast.all q hq).hosted) label f)
      have hsupplied : ((i.later past).amid ps).onSupply label f =
          ((i.onSupply label f).later past).amid ps := by
        rw [← onSupply_later]
        simp only [Intake.onSupply, amid, List.map_append] at hsame ⊢
        rw [hsame]
      rw [hsupplied]
      exact .mk hlaunched hpast

/-- Those of the past who have finished are reported first. -/
theorem collect (h : i.Later past j) :
    (∃ earlier, j.collect.1 = earlier ++ i.collect.1 ∧ ∀ x ∈ earlier, x.1 ∈ past.remaining) ∧
      i.collect.2.Later past j.collect.2 := by
  cases h with
  | @mk ps hlaunched hpast =>
      have hcollect : (i.later past).collect = (i.collect.1, i.collect.2.later past) :=
        i.collect_later
      refine ⟨⟨({ i with producers := ps } : Intake).collect.1, ?_, fun x hx =>
        hpast.mem_remaining rfl hx⟩, ?_⟩
      · rw [show i.collect.1 = (i.later past).collect.1 by rw [hcollect], Intake.collect, amid,
          List.filterMap_append]
        rfl
      · have hrest : ((i.later past).amid ps).collect.2 =
            (i.collect.2.later past).amid (ps.filter fun p => p.result?.isNone) := by
          rw [show i.collect.2.later past = (i.later past).collect.2 by rw [hcollect], Intake.collect,
            amid, List.filter_append]
          rfl
        rw [hrest]
        exact .mk hlaunched (hpast.filter _)

/-- The producers that worked for the host are dismissed. -/
theorem dismiss (h : i.Later past j) :
    { i with producers := i.producers.filter fun q => !q.hosted }.Later past
      { j with producers := j.producers.filter fun q => !q.hosted } := by
  cases h with
  | @mk ps hlaunched hpast =>
      have hdismissed : ({ (i.later past).amid ps with
            producers := ((i.later past).amid ps).producers.filter fun q => !q.hosted } : Intake) =
          (({ i with producers := i.producers.filter fun q => !q.hosted } : Intake).later past).amid
            (ps.filter fun q => !q.hosted) := by
        rw [← dismiss_later]
        simp only [amid, List.filter_append]
      rw [hdismissed]
      exact .mk (i := { i with producers := _ }) hlaunched (hpast.filter _)

end Later

end Intake

end SharedFetch
