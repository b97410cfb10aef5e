import SharedFetch.Proofs.Host.Fetcher

/-!
# The life of a fetcher

A fetcher and the marks of its life, from its making on, along any course of moves. That the marks
can be read, and that the fetcher has of a run what the phase of its operation tells, is kept by
every move (`Logbook.Faithful.move`); the laws of its life follow from these two alone.

## Main results

* `Logbook.Faithful.run`: every course of moves keeps a logbook faithful.
* `Logbook.brackets_runs`: every run has one end, which the protocol is told of by the operation
  that has found the run, and between that and the next launch nothing is called.
-/

namespace SharedFetch

/-- A chronicle, and what is written down of the life of its host. -/
structure Logbook where
  chronicle : Chronicle
  marks : List Mark := []

namespace Logbook

open Scenario (HostBench)

variable {d : Logbook}

/-- A fetcher that has never run. -/
def start (settings : Settings) (protocol : Protocol) (ownToken : Bool) : Logbook where
  chronicle := .start .fetcher settings protocol ownToken

/-- The host. -/
def host (d : Logbook) : Host :=
  d.chronicle.bench.host

/-- Chronicle and marks after a move. -/
def move (d : Logbook) (m : HostBench.Move) : Logbook where
  chronicle := d.chronicle.move m
  marks := d.marks ++ d.host.marks (d.chronicle.move m).bench.host

/-- Chronicle and marks after a list of moves. -/
def run (d : Logbook) (moves : List HostBench.Move) : Logbook :=
  moves.foldl move d

/-- The host is a fetcher, its marks can be read from the beginning to the stretch it is in, and the
journal of a protocol with hooks shows the calls among them. -/
structure Faithful (d : Logbook) : Prop where
  reachable : d.chronicle.Reachable
  fetcher : d.host.Fetcher
  read : Stretch.idle.read? d.marks = some d.host.stretch
  entries : d.host.pipeline.protocol.plain = false →
    d.marks.filterMap Mark.entry? = d.host.pipeline.history.filter fun e => !e.isNote

theorem faithful_start (settings : Settings) (protocol : Protocol) (ownToken : Bool) :
    (start settings protocol ownToken).Faithful := by
  refine ⟨⟨.fetcher, settings, protocol, ownToken, [], rfl⟩, ?_, ?_, ?_⟩
  all_goals
    rw [start, host, Chronicle.start, HostBench.make]
    cases ownToken
  · exact .of_idle rfl rfl rfl rfl rfl rfl
  · exact .of_idle rfl rfl rfl rfl rfl rfl
  · rfl
  · rfl
  · exact fun _ => rfl
  · exact fun _ => rfl

/-- **Every move keeps a logbook faithful.** -/
theorem Faithful.move (h : d.Faithful) (m : HostBench.Move) : (d.move m).Faithful := by
  have hsound := h.reachable.sound
  have hchange := hsound.change m
  have hstep := HostBench.step_move d.chronicle.bench m
  refine ⟨h.reachable.run [m], h.fetcher.step hchange hstep, ?_, fun hplain => ?_⟩
  · rw [Logbook.move, Stretch.read?_append, h.read]
    exact h.fetcher.read?_marks hsound.orderly hchange hstep
  · obtain ⟨hsame, -⟩ := h.fetcher.exists_journal hchange hstep
    have hplain : d.host.pipeline.protocol.plain = false := hsame.symm.trans hplain
    rw [Logbook.move, List.filterMap_append, h.entries hplain]
    exact (h.fetcher.filter_history hchange hstep hplain).symm

/-- **Every course of moves keeps a logbook faithful**, and the settings as they are. -/
theorem Faithful.run (h : d.Faithful) (moves : List HostBench.Move) :
    (d.run moves).Faithful ∧ (d.run moves).host.settings = d.host.settings := by
  induction moves generalizing d with
  | nil => exact ⟨h, rfl⟩
  | cons m moves ih =>
      obtain ⟨hfaithful, hsettings⟩ := ih (h.move m)
      exact ⟨hfaithful, hsettings.trans (HostBench.step_move d.chronicle.bench m).settings⟩

/-- **The life of a fetcher**, along every course of moves. An operation that stops the fetcher or
drains it is written down as it begins, with whether there was a run. Until it returns, one that has
found a run tells the protocol of its end exactly once, after everything else that is called, and
one that has found none calls nothing at all; nobody else tells the protocol of an end. From there
to the launch of the next run the protocol is not called. All that is called of a protocol with
hooks is among the marks, in order.

An operation is not stuck: in a host that has settled, unless somebody outside has the lock, it
drains and waits for the coordinator, or waits for the hook for the end of the run. A fetcher that
has a run cannot be started, and nothing changes. Whenever there is no operation, however the last
one has ended, coordinator task, end signal and token of a run are there exactly if there is a run,
and as many workers as the settings ask for; otherwise there is none of them. -/
theorem brackets_runs (settings : Settings) (protocol : Protocol) (ownToken : Bool)
    (moves : List HostBench.Move) :
    let d := (start settings protocol ownToken).run moves
    let b := d.chronicle.bench
    (∀ number action, action = .stop ∨ action = .drain → b.isBusy = false →
      b.host.marks (b.perform number action).2.host = [.begun b.host.running]) ∧
    (∀ front found middle rest, d.marks = front ++ .begun found :: (middle ++ .returned :: rest) →
      .returned ∉ middle →
      if found then ∃ calls, middle = calls ++ [.shutdown] ∧ ∀ m ∈ calls, m.isCall = true
      else middle = []) ∧
    (∀ front rest, d.marks = front ++ .shutdown :: rest →
      ∃ before calls, front = before ++ .begun true :: calls ∧ ∀ m ∈ calls, m.isCall = true) ∧
    (∀ front middle rest, d.marks = front ++ .shutdown :: (middle ++ rest) → .started ∉ middle →
      ∀ m ∈ middle, m.isCall = false) ∧
    (b.host.pipeline.protocol.plain = false →
      d.marks.filterMap Mark.entry? = b.host.pipeline.history.filter fun e => !e.isNote) ∧
    (∀ op, b.host.operation = some op → Settled Host.advance b.host →
      b.host.pipeline.lock.outsider = none →
      op.phase = .draining ∧ b.host.pipeline.isOver = false ∨ b.host.holdsShutdown = true) ∧
    (b.host.running = true → b.isBusy = false →
      ∀ number, b.perform number .start = (.failed .alreadyRunning, b)) ∧
    (b.host.operation = none →
      let workers := if b.host.running then max settings.workers 1 else 0
      b.host.handles = ⟨b.host.running, b.host.running, b.host.running⟩ ∧
        b.host.pipeline.pool.handles = workers ∧
        b.host.pipeline.counters.poolSize = UInt64.ofNat workers) := by
  intro d b
  obtain ⟨hfaithful, hsettings⟩ := (faithful_start settings protocol ownToken).run moves
  have hsound := hfaithful.reachable.sound
  have hfetcher : b.host.Fetcher := hfaithful.fetcher
  have hread : Stretch.idle.read? d.marks = some b.host.stretch := hfaithful.read
  refine ⟨?_, ?_, ?_, ?_, hfaithful.entries, ?_, ?_, ?_⟩
  · rintro number action (rfl | rfl) hbusy
    · have hfree : b.host.operation = none := HostBench.operation_eq_none (by simp [hbusy])
      rw [HostBench.perform, if_neg (by simp [hbusy])]
      exact Host.marks_beginStop hfree number
    · have hfree : b.host.operation = none := HostBench.operation_eq_none (by simp [hbusy])
      rw [HostBench.perform, if_neg (by simp [hbusy])]
      exact Host.marks_beginDrain hfree number
  · intro front found middle rest hmarks hreturned
    exact Stretch.middle_of_read? (hmarks ▸ hread) hreturned
  · intro front rest hmarks
    exact Stretch.exists_begun_of_read? (hmarks ▸ hread)
  · intro front middle rest hmarks hstarted
    exact Stretch.silent_of_read? (hmarks ▸ hread) hstarted
  · intro op hop hsettled houtsider
    exact hfetcher.waits_of_settled hsound.orderly hsettled hsound.holds.owned.workers
      hfaithful.reachable.tidy houtsider hop
  · intro hrunning hbusy number
    have hrefused : b.host.start = .refused .alreadyRunning := by
      rw [Host.start, if_neg (by simp [hfetcher.kind]), if_pos hrunning]
    rw [HostBench.perform, if_neg (by simp [hbusy]), hrefused]
  · intro hfree workers
    have hcharge := Host.charge_of_free hfree
    have hsize : b.host.poolSize = max settings.workers 1 := by
      have hmade : (start settings protocol ownToken).host.settings = settings := by
        rw [start, host, Chronicle.start, HostBench.make]
        cases ownToken <;> rfl
      rw [Host.poolSize, show b.host.settings = settings from hsettings.trans hmade]
    have hcrew : b.host.pipeline.pool.handles = workers := by
      rw [hfetcher.crew, hcharge, hsize]
    exact ⟨by rw [hfetcher.handles, hcharge], hcrew, by rw [hfetcher.gauge, hcrew]⟩

/-- A fetcher with one worker, whose fetches are held and whose first hook for the end of a run
fails, is started, given a reference and stopped; it is stopped once more, and started again. -/
def restarted : Logbook :=
  let r : Reference := { id := 1, target := .location (.number 7) }
  let coordinate : HostBench.Move := .event (.inside .coordinate)
  let work : HostBench.Move := .event (.inside (.work 0))
  let operate : HostBench.Move := .event .operate
  (start ⟨1, 8, 2, 2, ⟨5, 0⟩⟩
      { otherwise := .hold, shutdowns := [.fail none ⟨"no farewell", []⟩] } false).run
    ([.act 0 .start, .act 1 (.trySubmit [r])] ++ List.replicate 3 coordinate ++
      [work, work, .act 2 .stop, coordinate, .event (.inside (.dropFetch 0)), work, operate, operate,
        .event .quitReporter, operate, operate, operate, .act 3 .stop, operate, .act 4 .start])

set_option maxRecDepth 1024 in
/-- There the protocol is told of one end, and the run that was launched last has its worker. -/
theorem brackets_runs_restarted :
    restarted.marks.filterMap Mark.entry? =
      [.resolve { id := 1, target := .location (.number 7) }, .fetch (.number 7), .shutdown] ∧
    restarted.host.handles = ⟨true, true, true⟩ ∧ restarted.host.pipeline.pool.handles = 1 := by
  have hfree : restarted.host.operation = none := by rfl
  have hplain : restarted.host.pipeline.protocol.plain = false := by rfl
  have hhistory : (restarted.host.pipeline.history.filter fun e => !e.isNote) =
      [.resolve { id := 1, target := .location (.number 7) }, .fetch (.number 7), .shutdown] := by
    rfl
  obtain ⟨-, -, -, -, hentries, -, -, hhandles⟩ := brackets_runs _ _ _ _
  obtain ⟨hall, hcrew, -⟩ := hhandles hfree
  exact ⟨(hentries hplain).trans hhistory, hall, hcrew⟩

end Logbook

end SharedFetch
