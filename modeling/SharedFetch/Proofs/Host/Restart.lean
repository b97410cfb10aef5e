import SharedFetch.Proofs.Host.CancelledRoot
import SharedFetch.Proofs.Host.Progress
import SharedFetch.Proofs.Host.StoppedRunner

/-!
# Hosts that are started again

A host that has had a run and has none now is put beside a new one of the same kind, with the same
settings and the same protocol. Whatever a caller does from there on, it gets the same answers from
both, and the same is resolved, fetched and delivered. Counters go on from where they were, as does
the highest number of fetches in progress, and the gauge of locations in flight is that of the past
until a location is admitted. Producers that another caller has left behind may still finish, but
nothing of them gets in.

A runner takes a new root token when its run has ended, so all this holds of it however the run came
to its end, and no token that anybody had before is of any use against the next run. A fetcher keeps
its root. If that is cancelled, as a fault in a run does, then nothing is resolved, fetched or
delivered in any later run.

## Main results

* `Chronicle.Reachable.poised`: a host at rest and a new one are at the same point.
* `Chronicle.Reachable.refuses`: the sending ends of a run that has ended stay closed.
* `HostBench.Reachable.startsAnew`: a host at rest is as good as a new one.
* `HostBench.Reachable.atRest_step`: a step that ends a run of a runner leaves it at rest.
* `HostBench.restart_independent`: all of this together.
-/

namespace SharedFetch

open Pipeline

namespace Tokens

variable {past : Past} {t u : Tokens} {token : Token}

/-- The roots of a new host stand for those that a host has kept. -/
theorem later_of_roots (hparents : t.parents = List.replicate past.roots.length none)
    (hlength : u.parents.length = past.tokens) (hmade : u.AllMade)
    (hroots : ∀ r ∈ past.roots, u.IsRoot r) (hfired : ∀ x ∈ t.fired, x < past.roots.length)
    (hsame : ∀ x, x < past.roots.length → u.isCancelled (past.token x) = t.fired.contains x) :
    t.Later past u where
  roots := by rw [hparents, List.length_replicate]
  length := by
    rw [hlength, hparents, List.length_replicate, Past.token_of_le (Nat.le_refl _), Nat.sub_self,
      Nat.zero_add]
  parent := fun x => by
    have hnone : t.parent? x = none := by
      rw [parent?, hparents, List.getElem?_replicate]
      split <;> rfl
    rw [hnone, Option.map_none]
    rcases Nat.lt_or_ge x past.roots.length with hx | hx
    · exact (hroots _ (Past.token_of_lt hx)).parent?
    · rw [parent?, List.getElem?_eq_none, Option.join_none]
      rw [hlength, Past.token_of_le hx]
      exact Nat.le_add_left _ _
  fired := fun x => by
    rcases Nat.lt_or_ge x past.roots.length with hx | hx
    · rw [(hroots _ (Past.token_of_lt hx)).contains]
      exact hsame x hx
    · -- neither of the two was made
      have hfresh : u.fired.contains (past.token x) = false := by
        rw [Bool.eq_false_iff]
        intro hmem
        have hlt := hmade _ (List.contains_iff_mem.mp hmem)
        rw [hlength, Past.token_of_le hx] at hlt
        exact Nat.not_lt.mpr (Nat.le_add_left _ _) hlt
      have hnone : t.fired.contains x = false := by
        rw [Bool.eq_false_iff]
        exact fun hmem => Nat.not_lt.mpr hx (hfired x (List.contains_iff_mem.mp hmem))
      rw [hfresh, hnone]

end Tokens

/-- A run that is through stays so. -/
theorem Pipeline.Finished.change {p q : Pipeline} (hfinished : p.Finished) (hchange : p.Change q) :
    q.Finished := by
  cases hchange with
  | coordinated hstep => cases hfinished.ended.symm.trans hstep.running
  | worked hstep => cases hfinished.gone.symm.trans hstep.isGone_eq_false
  | hookReleased mode =>
      rcases exists_releaseHook p mode with heq | ⟨phase, hrunning, -⟩
      · rw [heq]
        exact hfinished
      · cases hfinished.ended.symm.trans hrunning
  | fetchReleased hj mode =>
      rw [hfinished.nobody.2] at hj
      cases hj
  | tasksSpared hspares | renewed hspares => exact hspares.finished hfinished

/-- Where nothing was counted yet, there is later what was counted in the past. -/
theorem Counters.eq_later {past : Past} (hpool : past.counters.poolSize = 0) :
    past.counters = ({} : Counters).later past past.counters.inFlight := by
  simp only [later, UInt64.zero_add]
  rw [← hpool]

/-- A host with other tokens. -/
def Host.withTokens (h : Host) (tokens : Tokens) : Host :=
  { h with pipeline := { h.pipeline with tokens } }

namespace Scenario

namespace HostBench

variable {b : HostBench}

/-- The host in the hands of another caller, who has nothing of it but the root token: neither a
sending end nor a feed nor the lock. -/
def passedOn (b : HostBench) : HostBench where
  host := { b.host with
    pipeline := { b.host.pipeline with lock := { b.host.pipeline.lock with outsider := none } }
    results := []
    reports := [] }
  root := b.root
  seen := b.host.pipeline.journal.length

/-- A new host of the same kind, with the same settings and the same protocol. If the caller has a
token of its own, then so has the new one, and it is cancelled if that is. -/
def anew (b : HostBench) : HostBench :=
  let new := make b.host.kind b.host.settings b.host.pipeline.protocol (b.root != b.host.root)
  if b.host.pipeline.tokens.isCancelled b.root then { new with host := new.host.cancel new.root }
  else new

/-- A host that has had runs and has none now, with a root that is not cancelled. -/
structure AtRest (b : HostBench) : Prop where
  launched : 0 < b.host.pipeline.intake.era
  idle : b.host.running = false
  free : b.host.operation = none
  kept : b.host.lost = false
  live : b.host.pipeline.tokens.isCancelled b.host.root = false
  shared : b.host.kind = .runner → b.root = b.host.root

/-- The tokens that the caller and the host go on with. -/
def roots (b : HostBench) : List Token :=
  if b.root = b.host.root then [b.host.root] else [b.host.root, b.root]

/-- There are no roots but that of the host and that of the caller. -/
theorem mem_roots {t : Token} (h : t ∈ b.roots) : t = b.host.root ∨ t = b.root := by
  rw [roots] at h
  split at h
  · exact .inl (List.mem_singleton.mp h)
  · simpa using h

/-- No root is listed twice. -/
theorem nodup_roots (b : HostBench) : b.roots.Nodup := by
  rw [roots]
  split
  · exact List.nodup_singleton _
  · rename_i hown
    simpa using fun h => hown h.symm

/-- What a host has behind it. -/
def past (b : HostBench) (hrooted : b.host.Rooted b.root) : Past where
  roots := b.roots
  tokens := b.host.pipeline.tokens.parents.length
  nodup := b.nodup_roots
  made := fun t ht => by
    rcases mem_roots ht with rfl | rfl
    · exact hrooted.root.made
    · exact hrooted.own.made
  era := b.host.pipeline.intake.era
  producers := b.host.pipeline.intake.started
  remaining := b.host.pipeline.intake.producers.map Producer.label
  journal := b.host.pipeline.journal
  counters := b.host.pipeline.counters
  peak := b.host.pipeline.activity.peak
  clock := b.host.clock

/-- The first token of a new host is, later, the root. -/
theorem token_zero (b : HostBench) (hrooted : b.host.Rooted b.root) :
    (b.past hrooted).token 0 = b.host.root := by
  simp only [Past.token, past, roots]
  split <;> rfl

/-- A new bench is where every course of moves begins. -/
theorem reachable_make (kind : HostKind) (settings : Settings) (protocol : Protocol)
    (ownToken : Bool) : (make kind settings protocol ownToken).Reachable :=
  ⟨.start kind settings protocol ownToken, ⟨kind, settings, protocol, ownToken, [], rfl⟩, rfl⟩

/-- A bench that is made anew is a new bench. -/
theorem reachable_anew (b : HostBench) : b.anew.Reachable := by
  have hmade := reachable_make b.host.kind b.host.settings b.host.pipeline.protocol
    (b.root != b.host.root)
  rw [anew]
  split
  · exact hmade.perform 0 .cancel
  · exact hmade

namespace AtRest

/-- A new host has as many root tokens, and the caller has the same of them. -/
theorem exists_anew_eq (hrest : b.AtRest) (hrooted : b.host.Rooted b.root) :
    ∃ (t : Tokens) (root : Token), t.Later (b.past hrooted) b.host.pipeline.tokens ∧
      b.root = (b.past hrooted).token root ∧
      b.anew = { host := (Host.make b.host.kind b.host.settings b.host.pipeline.protocol).withTokens t
                 root } := by
  have hmade : ∀ r ∈ (b.past hrooted).roots, b.host.pipeline.tokens.IsRoot r := by
    intro r hr
    rcases mem_roots hr with rfl | rfl
    · exact hrooted.root
    · exact hrooted.own
  by_cases hshared : b.root = b.host.root
  · have hroots : (b.past hrooted).roots = [b.host.root] := if_pos hshared
    refine ⟨{ parents := [none] }, 0,
      Tokens.later_of_roots ?_ rfl hrooted.allMade hmade (by simp) ?_, ?_, ?_⟩
    · rw [hroots]
      rfl
    · intro x hx
      rw [hroots, List.length_singleton, Nat.lt_one_iff] at hx
      rw [hx, Past.token, hroots]
      exact hrest.live
    · rw [Past.token, hroots]
      exact hshared
    · rw [anew, hshared, hrest.live, bne_self_eq_false]
      rfl
  · have hroots : (b.past hrooted).roots = [b.host.root, b.root] := if_neg hshared
    have hkind : b.host.kind = .fetcher := by
      cases hkind : b.host.kind with
      | fetcher => rfl
      | runner => exact absurd (hrest.shared hkind) hshared
    refine ⟨{ parents := [none, none]
              fired := if b.host.pipeline.tokens.isCancelled b.root then [1] else [] }, 1,
      Tokens.later_of_roots ?_ rfl hrooted.allMade hmade ?_ ?_, ?_, ?_⟩
    · rw [hroots]
      rfl
    · intro x hx
      have hone : x = 1 := by
        split at hx
        · exact List.mem_singleton.mp hx
        · cases hx
      rw [hroots, hone]
      exact Nat.lt_succ_self 1
    · intro x hx
      rw [hroots] at hx
      rw [Past.token, hroots]
      obtain rfl | rfl : x = 0 ∨ x = 1 := Nat.le_one_iff_eq_zero_or_eq_one.mp (Nat.le_of_lt_succ hx)
      · refine Eq.trans hrest.live ?_
        split <;> rfl
      · cases hcancelled : b.host.pipeline.tokens.isCancelled b.root with
        | true => exact hcancelled
        | false => exact hcancelled
    · rw [Past.token, hroots]
      rfl
    · rw [anew, hkind, bne_iff_ne.mpr hshared]
      split <;> rfl

end AtRest

end HostBench

end Scenario

namespace Host

/-- A new host is bare. -/
theorem bare_make (kind : HostKind) {settings : Settings} (protocol : Protocol) (tokens : Tokens)
    (hqueues : checkQueues settings = .ok ()) :
    ((make kind settings protocol).withTokens tokens).Bare where
  queues := hqueues
  running := rfl
  done := rfl
  started := rfl
  reporting := rfl
  phase := nofun
  finished := ⟨rfl, rfl⟩
  handles := rfl
  hosted := by simp [make, withTokens]

end Host

namespace Chronicle

open Scenario (HostBench)

variable {c : Chronicle}

/-- Nobody works for a host at rest. -/
theorem Reachable.unhosted (hc : c.Reachable) (hrest : c.bench.AtRest) :
    ∀ q ∈ c.bench.host.pipeline.intake.producers, q.hosted = false := by
  intro q hq
  rw [Bool.eq_false_iff]
  exact fun hhosted => hc.attended.not_hosted hrest.free ⟨q, hq, hhosted⟩

/-- The producers of a host at rest remain of its past. -/
theorem Reachable.pastProducers (hc : c.Reachable) (hrest : c.bench.AtRest) :
    PastProducers (c.bench.past hc.rooted) c.bench.host.pipeline.intake.producers where
  all := fun q hq =>
    have hknown := hc.sound.accounted.producers q hq
    ⟨hknown.2, List.mem_map_of_mem hq, hknown.1, hc.unhosted hrest q hq⟩
  nodup := hc.sound.accounted.names

/-- A host at rest is bare. -/
theorem Reachable.bare (hc : c.Reachable) (hrest : c.bench.AtRest) : c.bench.passedOn.host.Bare where
  queues := hc.noLeftovers.queues hrest.launched
  running := hrest.idle
  done := hc.noLeftovers.done.trans hrest.idle
  started := by
    rw [Bool.eq_false_iff]
    intro hstarted
    obtain ⟨-, hrunning | hlost | ⟨op, hop, -⟩⟩ := hc.noLeftovers.started hstarted
    · cases hrest.idle.symm.trans hrunning
    · cases hrest.kept.symm.trans hlost
    · cases hrest.free.symm.trans hop
  reporting := hc.isAlive_eq_false hrest.idle (hc.noLeftovers.queues hrest.launched)
  phase := fun op hop => by cases hrest.free.symm.trans hop
  finished :=
    have hfinished := hc.sound.orderly.rests hrest.idle
    ⟨hfinished.ended, hfinished.gone⟩
  handles := (hc.noLeftovers.crew (.inl hrest.idle)).1
  hosted := hc.unhosted hrest

/-- The lock of a host at rest is free, unless somebody outside has it. -/
theorem Reachable.lock_eq (hc : c.Reachable) (hrest : c.bench.AtRest) :
    { c.bench.host.pipeline.lock with outsider := none } = ({} : Lock Party) := by
  have hline := hc.sound.orderly.line
  have hfree : c.bench.host.turn = [] ∧ c.bench.host.writes = false := by
    rw [Host.turn, Host.writes, hrest.free]
    exact ⟨rfl, rfl⟩
  obtain ⟨hturns, hwrites⟩ := Host.turns_of_finished (hc.sound.orderly.rests hrest.idle)
  have hempty : c.bench.host.pipeline.lock.line = [] := by
    have hperm := hline.line
    rw [hturns, hfree.1] at hperm
    exact hperm.eq_nil
  have hwriting : c.bench.host.pipeline.lock.writing = false := by
    rw [hline.writing, hwrites, hfree.2, Bool.or_false]
  dsimp only
  rw [hempty, hwriting]

/-- No fetch is in progress in a host at rest. -/
theorem Reachable.activity_eq (hc : c.Reachable) (hrest : c.bench.AtRest) :
    c.bench.host.pipeline.activity = ({} : Activity).later (c.bench.past hc.rooted) := by
  have hactive : c.bench.host.pipeline.activity.active = 0 := by
    refine hc.tidy.active.trans ?_
    rw [Chronicle.pipeline, HostBench.pipeline, (hc.sound.orderly.rests hrest.idle).nobody.2]
    rfl
  rw [Activity.later, Nat.max_eq_left (Nat.zero_le _), ← hactive]
  rfl

/-- **A host at rest and a new one are at the same point.** -/
theorem Reachable.poised (hc : c.Reachable) (hrest : c.bench.AtRest) :
    c.bench.anew.Poised (c.bench.past hc.rooted) c.bench.passedOn := by
  obtain ⟨t, root, htokens, hroot, hanew⟩ := hrest.exists_anew_eq hc.rooted
  have hqueues := hc.noLeftovers.queues hrest.launched
  have hpool : (c.bench.past hc.rooted).counters.poolSize = 0 :=
    (hc.noLeftovers.crew (.inl hrest.idle)).2
  have hhost : c.bench.anew.host.Poised (c.bench.past hc.rooted) c.bench.passedOn.host := by
    rw [hanew]
    exact {
      bare := Host.bare_make _ _ _ hqueues
      bare' := hc.bare hrest
      kind := rfl
      settings := rfl
      root := (c.bench.token_zero hc.rooted).symm
      operation := hrest.free
      lost := hrest.kept
      results := rfl
      clock := (Nat.zero_add _).symm
      reports := .nil
      lasts := {
        protocol := rfl
        lock := hc.lock_eq hrest
        tokens := htokens
        counters := Counters.eq_later hpool
        gauged := .inr fun _ he => absurd he List.not_mem_nil
        activity := hc.activity_eq hrest
        journal := (List.nil_append _).symm }
      era := (Nat.zero_add _).symm
      started := (Nat.zero_add _).symm
      producers := rfl
      pastProducers := hc.pastProducers hrest
      closed := hc.tidy.intake (hc.sound.orderly.rests hrest.idle).ended }
  have hbench : c.bench.passedOn =
      c.bench.anew.after (c.bench.past hc.rooted) c.bench.passedOn.host := by
    rw [hanew, HostBench.passedOn, HostBench.after, ← hroot]
    simp only [Nat.zero_add, List.map_nil]
    rfl
  rw [hbench]
  exact ⟨hhost, by rw [hanew]⟩

/-! ### Sending ends of earlier runs -/

/-- A run that is through stays so until another takes its place. -/
theorem Reachable.bygone_run (hc : c.Reachable) {era : Nat} (hle : era ≤ c.pipeline.intake.era)
    (hover : c.pipeline.intake.era = era → c.pipeline.Finished) (moves : List HostBench.Move) :
    era ≤ (c.run moves).pipeline.intake.era ∧
      ((c.run moves).pipeline.intake.era = era → (c.run moves).pipeline.Finished) := by
  induction moves generalizing c with
  | nil => exact ⟨hle, hover⟩
  | cons m moves ih =>
      rcases hc.sound.change m with hchange | hlaunched
      · exact ih (hc.move m) (hchange.era ▸ hle) fun heq => (hover (hchange.era ▸ heq)).change hchange
      · have hera := hlaunched.era
        exact ih (hc.move m) (by omega) fun heq => by omega

/-- Nobody ever gets a reference in through a sending end of a run that has ended. -/
theorem Reachable.refuses (hc : c.Reachable) (hidle : c.bench.host.running = false)
    (moves : List HostBench.Move) {era : Nat} (hle : era ≤ c.pipeline.intake.era) :
    (c.run moves).pipeline.intake.accepts era = false := by
  obtain ⟨-, hover⟩ := hc.bygone_run hle (fun _ => hc.sound.orderly.rests hidle) moves
  rw [Intake.accepts, Bool.and_eq_false_iff]
  by_cases heq : era = (c.run moves).pipeline.intake.era
  · rw [(hc.run moves).tidy.intake (hover heq.symm).ended]
    exact .inr rfl
  · exact .inl (beq_false_of_ne heq)

end Chronicle

namespace Scenario

namespace HostBench

variable {b : HostBench}

/-- Whoever has the end of an earlier run is refused. -/
theorem offerAll_of_refused {i : Intake} {era : Nat} (hrefused : i.accepts era = false)
    (refs : List Reference) : offerAll i era refs = (refs.map .closed, i) := by
  rw [offerAll]
  split
  · rename_i hera
    have hclosed : i.queue.closed = true := by
      rw [Intake.accepts, hera, beq_self_eq_true, Bool.true_and] at hrefused
      simpa using hrefused
    rw [Queue.offerAll_of_closed hclosed]
  · rfl

/-! ### Starting again -/

/-- The roots stand alone after every course of moves. -/
theorem Reachable.rooted (hreachable : b.Reachable) : b.host.Rooted b.root := by
  obtain ⟨c, hc, rfl⟩ := hreachable
  exact hc.rooted

/-- Whatever steps another caller takes with the host, it is reported what would be reported of a
new host, but for what the past has counted; and so it is if tokens that are `gone` are cancelled
before the steps. -/
def StartsAnew (b : HostBench) (past : Past) (gone : Token → Prop) : Prop :=
  ∀ (number : Nat) (steps : List (List Token × List Action)), (∀ s ∈ steps, ∀ t ∈ s.1, gone t) →
    ∃ reports reports', runFrom number b.anew (steps.map Prod.snd) = .ok reports ∧
      runAmid number b.passedOn steps = .ok reports' ∧ ReportsLater past false reports reports'

/-- A step ends a run: there is one, or the host is about to launch it, after all that the caller
does, and there is none when the host has settled. -/
def EndsRun (number : Nat) (b : HostBench) (actions : List Action) : Prop :=
  (performAll (perform number) b actions).2.host.Pending ∧ ¬ (step number b actions).2.host.Pending

/-- Nobody is left of the past who could still come up: no producer of an earlier run, and nobody
who has the lock. -/
structure Deserted (b : HostBench) : Prop where
  producers : b.host.pipeline.intake.producers = []
  outsider : b.host.pipeline.lock.outsider = none

/-- A host at rest is as good as a new one. -/
theorem Reachable.startsAnew (hreachable : b.Reachable) (hrest : b.AtRest) :
    b.StartsAnew (b.past hreachable.rooted)
      fun t => t < b.host.pipeline.tokens.parents.length ∧ t ∉ b.roots := by
  intro number steps hgone
  obtain ⟨c, hc, rfl⟩ := hreachable
  have houtcome : Outcome.Later (c.bench.past hc.rooted) false
      (runFrom number c.bench.anew (steps.map Prod.snd)) (runAmid number c.bench.passedOn steps) :=
    Follows.runFrom (.inl (hc.poised hrest)) c.bench.reachable_anew (by simp) number hgone
  have hsame : c.bench.anew.host.settings = c.bench.host.settings ∧ c.bench.anew.misuse = none := by
    obtain ⟨t, root, -, -, hanew⟩ := hrest.exists_anew_eq hc.rooted
    rw [hanew]
    exact ⟨rfl, rfl⟩
  obtain ⟨reports, hreports⟩ :=
    exists_runFrom_eq_ok (hsame.1 ▸ hc.noLeftovers.queues hrest.launched) hsame.2 number
      (steps.map Prod.snd)
  rw [hreports] at houtcome
  generalize runAmid number c.bench.passedOn steps = outcome at houtcome ⊢
  cases houtcome with
  | ok hlater => exact ⟨reports, _, hreports, rfl, hlater⟩

/-- A step that ends a run of a runner leaves it at rest, with nobody around it, and with a root
that nobody had before. -/
theorem Reachable.atRest_step (hreachable : b.Reachable) (hkind : b.host.kind = .runner) {number : Nat}
    {actions : List Action} (hends : b.EndsRun number actions) :
    (HostBench.step number b actions).2.AtRest ∧ (HostBench.step number b actions).2.Deserted ∧
      ∀ t < (Scenario.performAll (HostBench.perform number) b
          actions).2.host.pipeline.tokens.parents.length,
        t < (HostBench.step number b actions).2.host.pipeline.tokens.parents.length ∧
          t ∉ (HostBench.step number b actions).2.roots := by
  obtain ⟨c, hc, rfl⟩ := hreachable
  obtain ⟨hpending, hdone⟩ := hends
  obtain ⟨hleft, hproducers⟩ := hc.afterRun_step hkind number actions hpending hdone
  obtain ⟨moves, hmoves⟩ := exists_moves_step number c.bench actions
  have hnext : (HostBench.step number c.bench actions).2 = (c.run moves).bench := by
    rw [hmoves, c.bench_run]
  have hkept : (HostBench.step number c.bench actions).2.host.kind = .runner := by
    rw [hnext, c.kind_run, hkind]
  have hshared : (HostBench.step number c.bench actions).2.root =
      (HostBench.step number c.bench actions).2.host.root := by
    rw [step_eq] at hkept ⊢
    exact if_pos hkept
  have hrest : (HostBench.step number c.bench actions).2.AtRest := {
    launched := hleft.launched
    idle := hleft.idle
    free := hleft.free
    kept := Bool.eq_false_iff.mpr fun hlost => hdone (.inr (.inl hlost))
    live := hleft.live
    shared := fun _ => hshared }
  refine ⟨hrest, ⟨hproducers, hleft.outsider⟩, fun t ht => ⟨?_, fun hmem => ?_⟩⟩
  · -- the root is a token, and it is younger
    have hroot : (HostBench.step number c.bench actions).2.host.root <
        (HostBench.step number c.bench actions).2.host.pipeline.tokens.parents.length := by
      rw [hnext]
      exact (hc.run moves).rooted.root.made
    exact Nat.lt_trans (Nat.lt_of_lt_of_le ht hleft.root) hroot
  · rcases mem_roots hmem with heq | heq
    · exact Nat.not_le_of_lt ht (heq ▸ hleft.root)
    · exact Nat.not_le_of_lt ht (heq ▸ hshared ▸ hleft.root)

/-- A fault of a run cancels the root of the host for good. -/
theorem Reachable.isCancelled_of_caught (hreachable : b.Reachable) (hrunning : b.host.running = true)
    (hcaught : b.host.pipeline.latch.caught.isSome = true) (moves : List Move) :
    (b.course moves).host.pipeline.tokens.isCancelled b.host.root = true := by
  obtain ⟨c, hc, rfl⟩ := hreachable
  rw [← c.bench_run]
  have htriggered := hc.staffed.alert.coherent.trans hcaught
  have hcancelled := hc.rooted.triggered htriggered
  rw [hc.rooted.joined hrunning] at hcancelled
  exact (hc.sound.tokens moves).isCancelled hcancelled

/-- **Restarts are independent of earlier runs.** A step may end the run of a runner in any way,
with a hook for the end of the run that succeeds or fails. It leaves the runner at rest, with nobody
around it, and from there on whoever takes steps is reported what would be reported of a new runner,
even if tokens that were there before the run was ended are cancelled meanwhile. The same holds of
any other host at rest, where all tokens but the roots may be cancelled. Whoever has a sending end
of a run that has ended gets nothing in. A host that has no run, and whose root is cancelled,
neither resolves nor fetches nor delivers anything until it is given another root. A fault of a run
cancels the root for good. -/
theorem restart_independent (hreachable : b.Reachable) :
    -- a runner whose run a step has ended is as good as new, whatever older token is cancelled
    (∀ (number : Nat) (actions : List Action), b.host.kind = .runner → b.EndsRun number actions →
      let next := (step number b actions).2
      next.AtRest ∧ next.Deserted ∧
        next.StartsAnew (next.past (hreachable.step number actions).rooted) fun t =>
          t < (performAll (perform number) b actions).2.host.pipeline.tokens.parents.length) ∧
    -- and so is any host that has no run, as long as its root is not cancelled
    (b.AtRest → b.StartsAnew (b.past hreachable.rooted) fun t =>
      t < b.host.pipeline.tokens.parents.length ∧ t ∉ b.roots) ∧
    -- sending ends of runs that have ended stay closed
    (b.host.running = false → ∀ (moves : List Move) (era : Nat) (refs : List Reference),
      era ≤ b.host.pipeline.intake.era →
      let intake := (b.course moves).host.pipeline.intake
      intake.accepts era = false ∧ offerAll intake era refs = (refs.map .closed, intake)) ∧
    -- under a root that is cancelled no run does anything
    (b.host.running = false → b.host.pipeline.tokens.isCancelled b.host.root = true →
      ∀ moves : List Move, (b.course moves).host.root = b.host.root →
        b.host.pipeline.Idles (b.course moves).host.pipeline) ∧
    -- and a fault of a run cancels it
    (b.host.running = true → b.host.pipeline.latch.caught.isSome = true → ∀ moves : List Move,
      (b.course moves).host.pipeline.tokens.isCancelled b.host.root = true) := by
  refine ⟨?_, hreachable.startsAnew, ?_, ?_, hreachable.isCancelled_of_caught⟩
  · intro number actions hkind hends
    obtain ⟨hrest, hdeserted, hgone⟩ := hreachable.atRest_step hkind hends
    refine ⟨hrest, hdeserted, fun later steps htokens => ?_⟩
    exact (hreachable.step number actions).startsAnew hrest later steps fun s hs t ht =>
      hgone t (htokens s hs t ht)
  · obtain ⟨c, hc, rfl⟩ := hreachable
    intro hidle moves era refs hle
    rw [← c.bench_run]
    have hrefused := hc.refuses hidle moves hle
    exact ⟨hrefused, offerAll_of_refused hrefused refs⟩
  · obtain ⟨c, hc, rfl⟩ := hreachable
    intro hidle hcancelled moves hroot
    rw [← c.bench_run] at hroot ⊢
    exact (hc.unbegun_run (.of_finished (hc.sound.orderly.rests hidle)) hcancelled moves hroot).2

/-- The answer of a hook that fails. -/
def refusal : HookMode :=
  .fail none ⟨"refused", []⟩

/-- A host in its first run, with two references to one location, of which the first is processed in
the given way. The hook for the end of the run is going to fail. -/
def firstRun (kind : HostKind) (process : HookMode) : HostBench :=
  let reference (id : Nat) (process : HookMode) : Reference :=
    { id, target := .location (.number 7), process }
  (step 0 (make kind ⟨1, 4, 1, 1, ⟨5, 0⟩⟩
    { otherwise := .content none, shutdowns := [refusal] } false)
    [.start, .trySubmit [reference 1 process, reference 2 .succeed]]).2

/-- The host after its first run was stopped. -/
def firstStop (kind : HostKind) (process : HookMode) : HostBench :=
  (step 1 (firstRun kind process) [.stop]).2

theorem reachable_firstRun (kind : HostKind) (process : HookMode) :
    (firstRun kind process).Reachable :=
  (reachable_make _ _ _ _).step 0 _

theorem reachable_firstStop (kind : HostKind) (process : HookMode) :
    (firstStop kind process).Reachable :=
  (reachable_firstRun kind process).step 1 _

set_option maxRecDepth 1024 in
theorem restart_independent_firstStop :
    -- a runner whose run a refusal has aborted
    ((firstRun .runner refusal).host.pipeline.latch.caught.isSome = true ∧
      (firstRun .runner refusal).EndsRun 1 [.stop] ∧
      (firstStop .runner refusal).Deserted ∧
      ∃ past : Past, past.counters.completions = 1 ∧
        (firstStop .runner refusal).StartsAnew past (· < 2)) ∧
    -- a fetcher whose run was stopped
    ((firstStop .fetcher .succeed).AtRest ∧
      ∃ past : Past, past.counters.deliveries = 2 ∧
        (firstStop .fetcher .succeed).StartsAnew past (· = 1)) ∧
    -- a fetcher whose run a refusal has aborted
    ((firstStop .fetcher refusal).host.pipeline.tokens.isCancelled 0 = true ∧
      ∀ moves : List Move, ((firstStop .fetcher refusal).course moves).host.root = 0 →
        (firstStop .fetcher refusal).host.pipeline.Idles
          ((firstStop .fetcher refusal).course moves).host.pipeline) := by
  refine ⟨?_, ?_, ?_⟩
  · have hends : (firstRun .runner refusal).EndsRun 1 [.stop] := by
      refine ⟨.inl (by rfl), ?_⟩
      rintro (hrunning | hlost | ⟨op, hop, -⟩)
      · cases hrunning
      · cases hlost
      · cases hop
    obtain ⟨-, hdeserted, hanew⟩ :=
      (restart_independent (reachable_firstRun .runner refusal)).1 1 [.stop] (by rfl) hends
    exact ⟨by rfl, hends, hdeserted, _, by rfl, hanew⟩
  · have hreachable := reachable_firstStop .fetcher .succeed
    have hrest : (firstStop .fetcher .succeed).AtRest :=
      ⟨Nat.one_pos, by rfl, by rfl, by rfl, by rfl, fun _ => by rfl⟩
    refine ⟨hrest, (firstStop .fetcher .succeed).past hreachable.rooted, by rfl, ?_⟩
    intro number steps hgone
    refine (restart_independent hreachable).2.1 hrest number steps fun s hs t ht => ?_
    rw [hgone s hs t ht]
    exact ⟨Nat.one_lt_two, by decide⟩
  · have hcancelled : (firstStop .fetcher refusal).host.pipeline.tokens.isCancelled 0 = true := by rfl
    obtain ⟨-, -, -, hidles, -⟩ := restart_independent (reachable_firstStop .fetcher refusal)
    exact ⟨hcancelled, hidles (by rfl) hcancelled⟩

end HostBench

end Scenario

end SharedFetch
