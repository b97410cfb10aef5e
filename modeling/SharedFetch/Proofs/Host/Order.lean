import SharedFetch.Proofs.Host.Moves
import SharedFetch.Proofs.Pipeline.Turns

/-!
# The order in which a run is taken down

An operation that takes a run down waits for the coordinator, then for the workers, then for the
reporter, and asks for the lock only after that. So its phase tells how far the run is through
(`Host.Fits`), a host that has no run has a pipeline that is through, and when the host stands in
line for the lock or has it, nobody of the pipeline does (`Host.Orderly`).

## Main results

* `orderly_make`: a new host is in order.
* `orderly_move`: every move keeps a host in order.
-/

namespace SharedFetch

open Pipeline

namespace OperationPhase

/-- The turn of the host for the lock. -/
@[simp] def turn : OperationPhase → List (Party × Access)
  | .awaitingLock _ => [(.host, .write)]
  | _ => []

/-- Whether the host has the lock. -/
@[simp] def writes : OperationPhase → Bool
  | .inShutdown .. => true
  | _ => false

end OperationPhase

namespace Host

variable {h h' : Host} {op : Operation}

/-- The turn of the host for the lock, if it has an operation that waits for it. -/
def turn (h : Host) : List (Party × Access) :=
  h.operation.elim [] fun op => op.phase.turn

/-- Whether the host has an operation that has the lock. -/
def writes (h : Host) : Bool :=
  h.operation.elim false fun op => op.phase.writes

theorem turn_eq (hop : h.operation = some op) : h.turn = op.phase.turn := by
  rw [turn, hop, Option.elim]

theorem writes_eq (hop : h.operation = some op) : h.writes = op.phase.writes := by
  rw [writes, hop, Option.elim]

/-- How far the run is through in a phase of an operation. -/
def Fits (h : Host) : OperationPhase → Prop
  | .joiningWorkers _ => h.pipeline.isOver = true
  | .joiningReporter _ => h.pipeline.Finished
  | .awaitingLock _ | .inShutdown .. => h.running = false
  | .opening _ | .draining | .watching _ | .joiningCoordinator | .returning _ => True

/-- Host, operation and pipeline are as far as each other, and everybody who waits for the lock
stands in line. -/
structure Orderly (h : Host) : Prop where
  rests : h.Rests
  fits : ∀ op, h.operation = some op → h.Fits op.phase
  line : h.pipeline.InLine h.turn h.writes

/-- Run, coordinator, workers and lock are as they were, apart from an outsider. -/
structure Alike (h h' : Host) : Prop where
  running : h'.running = h.running
  coordinator : h'.pipeline.coordinator = h.pipeline.coordinator
  idle : h'.pipeline.pool.idle = h.pipeline.pool.idle
  busy : h'.pipeline.pool.busy = h.pipeline.pool.busy
  line : h'.pipeline.lock.line = h.pipeline.lock.line
  writing : h'.pipeline.lock.writing = h.pipeline.lock.writing

namespace Alike

theorem isOver (halike : Alike h h') : h'.pipeline.isOver = h.pipeline.isOver := by
  rw [Pipeline.isOver, Pipeline.isOver, halike.coordinator]

theorem finished (halike : Alike h h') (hfinished : h.pipeline.Finished) :
    h'.pipeline.Finished := by
  refine ⟨halike.isOver ▸ hfinished.ended, ?_⟩
  rw [Pool.isGone, halike.idle, halike.busy]
  exact hfinished.gone

theorem fits (halike : Alike h h') {phase : OperationPhase} (hfits : h.Fits phase) :
    h'.Fits phase := by
  cases phase with
  | joiningWorkers => exact halike.isOver.trans hfits
  | joiningReporter => exact halike.finished hfits
  | awaitingLock | inShutdown => exact halike.running.trans hfits
  | _ => trivial

end Alike

/-- A run whose coordinator has ended does not write, nor does it want to. -/
theorem turns_of_finished {p : Pipeline} (hfinished : p.Finished) :
    p.turns = [] ∧ p.coordinator.phase.writes = false := by
  obtain ⟨ending, hphase⟩ := exists_of_isOver hfinished.ended
  rw [turns, Pool.turns, hfinished.nobody.2, hphase]
  exact ⟨rfl, rfl⟩

namespace Orderly

/-- The host is where it was, with an operation that has the same to do with the lock. -/
theorem of_alike (horder : h.Orderly) (halike : Alike h h')
    (hfits : ∀ op, h'.operation = some op → h'.Fits op.phase) (hturn : h'.turn = h.turn)
    (hwrites : h'.writes = h.writes) : h'.Orderly := by
  refine ⟨fun hidle => halike.finished (horder.rests (halike.running ▸ hidle)), hfits, ?_⟩
  rw [hturn, hwrites]
  exact horder.line.congr halike.coordinator halike.busy halike.line halike.writing

/-- Nothing happens to the operation. -/
theorem congr (horder : h.Orderly) (halike : Alike h h')
    (hoperation : h'.operation = h.operation) : h'.Orderly := by
  refine horder.of_alike halike (fun op hop => halike.fits (horder.fits op ?_)) ?_ ?_
  · rw [← hoperation, hop]
  · rw [turn, turn, hoperation]
  · rw [writes, writes, hoperation]

/-- The operation turns from one phase to another, with the same to do with the lock. -/
theorem turned {op' : Operation} (horder : h.Orderly) (hop : h.operation = some op)
    (halike : Alike h h') (hop' : h'.operation = some op')
    (hturn : op'.phase.turn = op.phase.turn) (hwrites : op'.phase.writes = op.phase.writes)
    (hfits : h'.Fits op'.phase) : h'.Orderly := by
  refine horder.of_alike halike (fun op'' hop'' => ?_) ?_ ?_
  · obtain rfl := Option.some.inj (hop'.symm.trans hop'')
    exact hfits
  · rw [turn_eq hop', turn_eq hop, hturn]
  · rw [writes_eq hop', writes_eq hop, hwrites]

/-- An operation begins, in a phase in which it has nothing to do with the lock. -/
theorem begun {op' : Operation} (horder : h.Orderly) (hop : h.operation = none)
    (halike : Alike h h') (hop' : h'.operation = some op') (hturn : op'.phase.turn = [])
    (hwrites : op'.phase.writes = false) (hfits : h'.Fits op'.phase) : h'.Orderly := by
  refine horder.of_alike halike (fun op'' hop'' => ?_) ?_ ?_
  · obtain rfl := Option.some.inj (hop'.symm.trans hop'')
    exact hfits
  · rw [turn_eq hop', turn, hop, hturn]
    rfl
  · rw [writes_eq hop', writes, hop, hwrites]
    rfl

/-- Something happens in the pipeline, which is then not through. -/
theorem inside {q : Pipeline} (horder : h.Orderly)
    (hbusy : ¬ h.pipeline.Finished) (hover : h.pipeline.isOver = true → q.isOver = true)
    (hline : q.InLine h.turn h.writes) : { h with pipeline := q }.Orderly := by
  refine ⟨fun hidle => absurd (horder.rests hidle) hbusy, fun op hop => ?_, hline⟩
  have hfits := horder.fits op hop
  cases hphase : op.phase with
  | joiningWorkers fault =>
      rw [hphase] at hfits
      exact hover hfits
  | joiningReporter fault =>
      rw [hphase] at hfits
      exact absurd hfits hbusy
  | awaitingLock fault | inShutdown mode fault =>
      rw [hphase] at hfits
      exact absurd (horder.rests hfits) hbusy
  | _ => trivial

/-! ### Runs -/

/-- A run that is launched finds the lock free and the line empty. -/
theorem launched (horder : h.Orderly) (hstart : h.start = .launched h') (hturn : h.turn = [])
    (hwrites : h.writes = false) : h'.running = true ∧ h'.pipeline.InLine [] false := by
  obtain ⟨hidle, heq⟩ := eq_of_start_launched hstart
  obtain ⟨hturns, hphase⟩ := turns_of_finished (horder.rests hidle)
  have hline := horder.line
  rw [hturn, hwrites] at hline
  have hlock : h'.pipeline.lock = h.pipeline.lock := by rw [heq]; rfl
  refine ⟨by rw [heq], by simp, ?_, ?_, nofun⟩
  · have hperm := hline.line
    rw [hturns] at hperm
    rw [hlock, heq]
    exact hperm
  · rw [hlock, hline.writing, hphase, heq]
    rfl

/-- A host without an operation launches a run. -/
theorem started (horder : h.Orderly) (hfree : h.operation = none)
    (hstart : h.start = .launched h') : h'.Orderly := by
  obtain ⟨hrunning, hline⟩ := horder.launched hstart (by rw [turn, hfree]; rfl)
    (by rw [writes, hfree]; rfl)
  have hfree' : h'.operation = none := by
    rw [(eq_of_start_launched hstart).2]
    exact hfree
  refine ⟨fun hidle => ?_, fun op hop => ?_, ?_⟩
  · rw [hrunning] at hidle
    cases hidle
  · rw [hfree'] at hop
    cases hop
  · rw [turn, writes, hfree']
    exact hline

/-- The run that an operation is to watch over is launched. -/
theorem openRun {supply : Supply} (horder : h.Orderly) (hop : h.operation = some op)
    (hphase : op.phase = .opening supply) (hstart : h.start = .launched h') :
    (h.openRun op supply).Orderly := by
  obtain ⟨hrunning, hline⟩ := horder.launched hstart (by rw [turn_eq hop, hphase]; rfl)
    (by rw [writes_eq hop, hphase]; rfl)
  rw [Host.openRun, hstart]
  refine ⟨fun hidle => ?_, fun op' hop' => ?_, ?_⟩
  · simp [turnTo, hrunning] at hidle
  · obtain rfl := Option.some.inj hop'
    trivial
  · exact hline.congr (by simp [turnTo]) (by simp [turnTo]) (by simp [turnTo])
      (by simp [turnTo])

/-! ### Steps of a host -/

/-- The workers are gone and the reporter too, and the host takes its turn for the lock. -/
theorem queued {fault : Option Fault} {handles : Handles} (horder : h.Orderly)
    (hop : h.operation = some op) (hphase : op.phase = .joiningReporter fault) :
    ({ h with running := false, handles, pipeline := h.pipeline.askLock .host .write }.turnTo op
      (.awaitingLock fault)).Orderly := by
  have hfinished : h.pipeline.Finished := by
    have := horder.fits op hop
    rwa [hphase] at this
  have hline := horder.line
  rw [turn_eq hop, writes_eq hop, hphase] at hline
  refine ⟨fun _ => ⟨hfinished.ended, hfinished.gone⟩, fun op' hop' => ?_, ?_, ?_, ?_, nofun⟩
  · obtain rfl := Option.some.inj hop'
    exact rfl
  · exact List.forall_mem_singleton.mpr rfl
  · have hperm : h.pipeline.lock.line.Perm (h.pipeline.turns ++ []) := hline.line
    rw [List.append_nil] at hperm
    exact hperm.append_right _
  · exact hline.writing

/-- The host gets the lock and calls the hook for the end of the run. -/
theorem granted {lock : Lock Party} {fault : Option Fault} (horder : h.Orderly)
    (hop : h.operation = some op) (hphase : op.phase = .awaitingLock fault)
    (hgrant : h.pipeline.lock.grant? .host = some lock) :
    ({ h with pipeline := { h.pipeline with lock } }.callShutdown op fault).Orderly := by
  have hidle : h.running = false := by
    have := horder.fits op hop
    rwa [hphase] at this
  have hfinished := horder.rests hidle
  obtain ⟨hturns, hcalm⟩ := turns_of_finished hfinished
  have hline := horder.line.line
  obtain ⟨access, rest, hfront, hallows, rfl⟩ := Lock.exists_of_grant? hgrant
  -- nobody but the host is in line
  rw [turn_eq hop, hphase, hturns, hfront, OperationPhase.turn, List.nil_append,
    List.perm_singleton, List.cons.injEq, Prod.mk.injEq] at hline
  obtain ⟨⟨-, rfl⟩, rfl⟩ := hline
  rw [callShutdown]
  refine ⟨fun _ => ?_, fun op' hop' => ?_, ?_⟩
  · cases h.pipeline.protocol.plain <;> exact ⟨hfinished.ended, hfinished.gone⟩
  · obtain rfl := Option.some.inj hop'
    exact hidle
  · have hmine : ({ h.pipeline with
        lock := { h.pipeline.lock with
          line := [], writing := h.pipeline.lock.writing || Access.write == Access.write }
        } : Pipeline).InLine [] true :=
      ⟨by simp, by rw [List.append_nil]; exact hturns ▸ .refl _, by simp, fun _ => hfinished.ended⟩
    cases h.pipeline.protocol.plain <;> exact hmine.congr rfl rfl rfl rfl

/-- The host gives the lock back, and the operation ends. -/
theorem freed (horder : h.Orderly) (hidle : h.running = false) (hoperation : h'.operation = none)
    (hcoordinator : h'.pipeline.coordinator = h.pipeline.coordinator)
    (hpool : h'.pipeline.pool = h.pipeline.pool)
    (hlock : h'.pipeline.lock = h.pipeline.lock.release) (hturn : h.turn = []) : h'.Orderly := by
  have hfinished := horder.rests hidle
  obtain ⟨hturns, hcalm⟩ := turns_of_finished hfinished
  have hline := horder.line.line
  refine ⟨fun _ => ?_, fun op hop => ?_, ?_⟩
  · refine ⟨?_, hpool ▸ hfinished.gone⟩
    rw [isOver, hcoordinator]
    exact hfinished.ended
  · rw [hoperation] at hop
    cases hop
  · rw [turn, writes, hoperation]
    refine ⟨by simp, ?_, ?_, fun hheld => ?_⟩
    · rw [hlock, turns, hcoordinator, hpool]
      exact hturn ▸ hline
    · rw [hlock, hcoordinator, hcalm]
      rfl
    · cases hheld

/-- The hook for the end of a run has answered. -/
theorem finishShutdown? {mode mode' : HookMode} {fault fault' : Option Fault} (horder : h.Orderly)
    (hop : h.operation = some op) (hphase : op.phase = .inShutdown mode' fault')
    (hstep : h.finishShutdown? op fault mode = some h') : h'.Orderly := by
  have hidle : h.running = false := by
    have := horder.fits op hop
    rwa [hphase] at this
  have hturn : h.turn = [] := by rw [turn_eq hop, hphase]; rfl
  obtain ⟨lost, results, -, ⟨-, rfl⟩ | ⟨-, rfl⟩⟩ := exists_eq_of_finishShutdown? hstep
  · exact horder.freed hidle rfl rfl rfl rfl hturn
  · exact horder.freed hidle rfl rfl rfl rfl hturn

/-- The operation of a host goes on. -/
theorem operates (horder : h.Orderly) (hop : h.operation = some op)
    (hoperates : h.Operates op h') : h'.Orderly := by
  have hfits := horder.fits op hop
  cases hoperates with
  | openRefused hphase =>
      exact horder.turned hop (by constructor <;> rfl) rfl (by rw [hphase]; rfl)
        (by rw [hphase]; rfl) trivial
  | openBroken hphase hstart =>
      obtain ⟨-, rfl⟩ := eq_of_start_broken hstart
      refine horder.turned hop ?_ rfl (by rw [hphase]; rfl) (by rw [hphase]; rfl) trivial
      constructor <;> simp [turnTo] <;> rfl
  | openLaunched hphase hstart => exact horder.openRun hop hphase hstart
  | tornDown hphase =>
      obtain ⟨tokens, -, -, heq⟩ := exists_tearDown_eq h op
      rw [heq]
      rcases hphase with hphase | ⟨interrupted, hphase⟩ <;>
        exact horder.turned hop (by constructor <;> rfl) rfl (by rw [hphase]; rfl)
          (by rw [hphase]; rfl) trivial
  | coordinatorJoined hphase hending =>
      exact horder.turned hop (by constructor <;> rfl) rfl (by rw [hphase]; rfl)
        (by rw [hphase]; rfl) (isOver_of_ending? hending)
  | workersJoined hphase hgone =>
      rw [hphase] at hfits
      exact horder.turned hop (by constructor <;> rfl) rfl (by rw [hphase]; rfl)
        (by rw [hphase]; rfl) ⟨hfits, hgone⟩
  | reporterJoined hphase => exact horder.queued hop hphase
  | shutdownCalled hphase hlock => exact horder.granted hop hphase hlock
  | concluded hphase hstep => exact horder.finishShutdown? hop hphase hstep
  | returned hphase =>
      refine horder.of_alike (by constructor <;> rfl) (fun _ hnone => ?_) ?_ ?_
      · cases hnone
      · rw [turn_eq hop, hphase]
        rfl
      · rw [writes_eq hop, hphase]
        rfl

/-- Coordinator or workers take a step, or a producer does. -/
theorem advanced {event : Event} {q : Pipeline} (horder : h.Orderly)
    (hworkers : h.pipeline.pool.workers.Nodup) (hstep : h.pipeline.advance event = some q) :
    { h with pipeline := q }.Orderly := by
  cases advances_of_advance hstep with
  | coordinated hstep =>
      have hrunning := hstep.running
      refine horder.inside (fun hfinished => ?_) (fun hover => ?_)
        (horder.line.coordinatorStep hstep)
      · rw [hfinished.ended] at hrunning
        cases hrunning
      · rw [hover] at hrunning
        cases hrunning
  | worked hstep =>
      refine horder.inside (fun hfinished => ?_) (fun hover => ?_)
        (horder.line.workerStep hworkers hstep)
      · have hstaffed := hstep.isGone_eq_false
        rw [hfinished.gone] at hstaffed
        cases hstaffed
      · rwa [isOver, hstep.coordinator]
  | produced => exact horder.congr (by constructor <;> rfl) rfl

/-- Something happens in a host. -/
theorem advance {e : HostEvent} (horder : h.Orderly) (hworkers : h.pipeline.pool.workers.Nodup)
    (hstep : h.advance e = some h') : h'.Orderly := by
  cases happens_of_advance hstep with
  | inside _ hinside => exact horder.advanced hworkers hinside
  | reporterQuit => exact horder.congr (by constructor <;> rfl) rfl
  | operated hop hoperates => exact horder.operates hop hoperates

/-- A fetch that was held is given its answer. -/
theorem releaseFetch {j : Job} (horder : h.Orderly) (hworkers : h.pipeline.pool.workers.Nodup)
    (hj : j ∈ h.pipeline.pool.busy) (mode : FetchMode) :
    { h with pipeline := h.pipeline.releaseFetch j mode }.Orderly := by
  refine horder.inside (fun hfinished => ?_) (fun hover => ?_)
    (horder.line.releaseFetch hworkers hj mode)
  · have hgone := hfinished.gone
    simp [Pool.isGone, List.ne_nil_of_mem hj] at hgone
  · rw [Pipeline.releaseFetch_eq]
    exact hover

/-- A hook that was held is given its answer. -/
theorem releaseHook (horder : h.Orderly) (mode : HookMode) :
    { h with pipeline := h.pipeline.releaseHook mode }.Orderly := by
  have hline := horder.line.releaseHook mode
  have hwaits : ∀ q : Pipeline, h.pipeline.isOver = false → q.InLine h.turn h.writes →
      { h with pipeline := q }.Orderly := by
    intro q hrunning hq
    refine horder.inside (fun hfinished => ?_) (fun hover => ?_) hq
    · rw [hfinished.ended] at hrunning
      cases hrunning
    · rw [hover] at hrunning
      cases hrunning
  rw [Pipeline.releaseHook] at hline ⊢
  split at hline
  · rename_i hphase
    exact hwaits _ (by rw [isOver, hphase]) hline
  · rename_i hphase
    exact hwaits _ (by rw [isOver, hphase]) hline
  · exact horder

end Orderly

end Host

namespace Scenario.HostBench

open Host

variable {b : HostBench}

/-- A new host is in order. -/
theorem orderly_make (kind : HostKind) (settings : Settings) (protocol : Protocol)
    (ownToken : Bool) : (make kind settings protocol ownToken).host.Orderly := by
  have hmake : (Host.make kind settings protocol).Orderly :=
    ⟨fun _ => ⟨rfl, rfl⟩, nofun, ⟨nofun, .refl _, rfl, nofun⟩⟩
  rw [make]
  split
  · exact hmake.congr (by constructor <;> rfl) rfl
  · exact hmake

/-- All ends are given up. -/
theorem orderly_dropAll (ends : List Nat) (b : HostBench) (horder : b.host.Orderly) :
    (ends.foldl (fun b era => b.onQueue era Queue.dropSender) b).host.Orderly := by
  induction ends generalizing b with
  | nil => exact horder
  | cons era ends ih => exact ih _ (horder.congr (by constructor <;> rfl) rfl)

/-- Whatever the caller does keeps the host in order. -/
theorem Acts.orderly {number : Nat} {action : Action} {b' : HostBench}
    (hacts : b.Acts number action b') (horder : b.host.Orderly)
    (hworkers : b.pipeline.pool.workers.Nodup) : b'.host.Orderly := by
  cases hacts with
  | nothing | unfed => exact horder
  | launched hfree hstart => exact horder.started hfree hstart
  | broken hfree hstart =>
      obtain ⟨-, rfl⟩ := eq_of_start_broken hstart
      exact horder.congr (by constructor <;> rfl) rfl
  | offered | submitted | forwarded | cloned | dropped | fed | cancelled | rootReplaced
  | unguarded => exact horder.congr (by constructor <;> rfl) rfl
  | droppedAll => exact orderly_dropAll b.senders b horder
  | idled hfree | drained hfree | opened hfree =>
      exact horder.begun hfree (by constructor <;> rfl) rfl rfl rfl trivial
  | stopped hfree =>
      obtain ⟨tokens, -, -, heq⟩ := exists_tearDown_eq b.host ⟨number, false, .joiningCoordinator⟩
      rw [heq]
      exact horder.begun hfree (by constructor <;> rfl) rfl rfl rfl trivial
  | supplied hop hphase | interrupted hop hphase =>
      exact horder.turned hop (by constructor <;> rfl) rfl (by rw [hphase]; rfl)
        (by rw [hphase]; rfl) trivial
  | fetchReleased hheld mode =>
      exact horder.releaseFetch hworkers (List.mem_of_find?_eq_some hheld) mode
  | hookReleased key mode => exact horder.releaseHook mode
  | shutdownReleased hop hphase =>
      have hfits := horder.fits _ hop
      rw [hphase] at hfits
      exact horder.turned hop (by constructor <;> rfl) rfl (by rw [hphase]; rfl)
        (by rw [hphase]; rfl) hfits
  | guarded access =>
      exact horder.congr ⟨rfl, rfl, rfl, rfl, Lock.line_guard _ _, Lock.writing_guard _ _⟩ rfl

/-- **Every move keeps the host in order.** -/
theorem orderly_move (horder : b.host.Orderly) (hworkers : b.pipeline.pool.workers.Nodup)
    (m : Move) : (b.move m).host.Orderly := by
  have hbecomes := b.becomes_move m
  generalize b.move m = b' at hbecomes ⊢
  cases hbecomes with
  | stays => exact horder
  | acts hacts => exact hacts.orderly horder hworkers
  | advances hstep => exact horder.advance hworkers hstep
  | wakes => exact horder.congr (by constructor <;> simp) (by simp)
  | elapses | reports => exact horder.congr (by constructor <;> rfl) rfl

end Scenario.HostBench

end SharedFetch
