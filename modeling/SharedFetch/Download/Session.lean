import SharedFetch.Download.Basic
import SharedFetch.Host.Operation

/-!
# Download sessions

A session is a runner that downloads. It goes on in rounds: all downloads that are under way
take the same time, so those that began together end together, and as soon as they have ended
the pipeline settles again.
-/

namespace SharedFetch.Download

/-- A runner with the protocol that it downloads by. -/
structure Session where
  host : Host
  download : Download
  /-- The number of the next reference of an endless stream. -/
  next : Nat := 0

namespace Session

/-- Counts the deliveries in the journal and begins a new one. -/
def takeStock (s : Session) : Session :=
  let count (d : Download) : Entry → Download
    | .process _ outcome => d.receive outcome.isSuccess
    | _ => d
  { s with
    download := s.host.pipeline.history.foldl count s.download
    host := { s.host with pipeline := { s.host.pipeline with journal := [] } } }

/-- Lets the runner go on until nothing more can happen. -/
def settle (s : Session) : Session :=
  { s with host := s.host.settle }.takeStock

/-- The name under which the run of a session is begun. -/
def label : Nat := 0

/-- Begins a session over a stream. -/
def begin (settings : Settings) (download : Download) (supply : Supply) :
    Except Misuse Session :=
  (Host.checkQueues settings).map fun _ =>
    { host := (Host.make .runner settings {}).beginRun label supply, download }

/-- All downloads that are under way end. -/
def finishDownloads (p : Pipeline) : Pipeline :=
  (p.pool.busy.filter Job.isHeld).foldl (fun p j => p.releaseFetch j (.content none)) p

/-- Lets the downloads that are under way end, and the runner settle. -/
def round (s : Session) : Session :=
  let host := s.host.elapse duration
  { s with host := { host with pipeline := finishDownloads host.pipeline } }.settle

/-- Goes on for at most so many rounds, until the run is over. -/
def rounds : Nat → Session → Session
  | 0, s => s
  | n + 1, s => if s.host.operation.isSome then rounds n s.round else s

/-- What the run ended with. -/
def fault? (s : Session) : Option Fault :=
  s.host.results.head?.bind fun result => result.2.fault?

end Session

/-- The references with the given numbers. -/
def references (d : Download) (first count : Nat) : List Reference :=
  (List.range' first count).map fun n => d.reference ⟨UInt64.ofNat n⟩

/-- Downloads what the references with numbers from `first` to before `stop` lead to. Every
round brings in the location of some reference, so there are no more rounds than
references. -/
def run (settings : Settings) (download : Download) (first stop : Nat) :
    Except Misuse Session := do
  let supply : Supply := ⟨download.references first (stop - first), false⟩
  let session ← Session.begin settings download supply
  return session.settle.rounds (stop - first)

/-- Adds references to the stream of a session, so that it does not run dry. -/
def Session.replenish (s : Session) : Session :=
  let count := s.host.settings.intakeCapacity
  let low := s.host.pipeline.intake.producers.any fun q =>
    match q.task with
    | .forward _ supply _ _ => supply.items.length < count
    | _ => false
  if low then
    let refs := s.download.references s.next count
    { s with next := s.next + count, host := s.host.feed label refs }
  else s

/-- So many rounds over an endless stream. -/
def Session.endlessRounds : Nat → Session → Session
  | 0, s => s
  | n + 1, s => endlessRounds n s.replenish.round

/-- Downloads over the endless stream of all references from the first on, and cancels the run
at a time limit in milliseconds. -/
def runFor (settings : Settings) (download : Download) (limit : Nat) :
    Except Misuse Session := do
  let count := settings.intakeCapacity
  let session ← Session.begin settings download ⟨download.references 1 count, true⟩
  let session := { session with next := 1 + count }.settle.endlessRounds (limit / duration)
  return { session with host := session.host.cancel session.host.root }.settle

/-- Reads the options from variables and downloads by them: what the run ended with. -/
def runWith (value : Setting → Option String) : Except Misuse (Option Fault) :=
  match Options.read value with
  | .error fault => .ok (some fault)
  | .ok options =>
    match settings options.workers with
    | .error e => .ok (some (.given ⟨e.message, []⟩))
    | .ok settings =>
      (runFor settings { fanIn := UInt64.ofNat options.fanIn } options.limit).map
        Session.fault?

end SharedFetch.Download
