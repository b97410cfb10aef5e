import SharedFetch.Download.Basic

/-!
# Scenarios of the download protocol

The hooks of the protocol, called one after the other.
-/

namespace SharedFetch.Scenario

open SharedFetch.Download (Ref Place Page)

/-- A call of the protocol. -/
inductive DownloadAction where
  | resolve (r : Ref)
  | fetch (p : Place)
  | process (success : Bool)
  | unresolved (r : Ref) (cause : Chain)
  | shutdown
  | look

/-- What a call answers. -/
inductive DownloadAnswer where
  | located (p : Place)
  | fetched (p : Page)
  | accepted
  /-- The reference was skipped, and this is said of it. -/
  | skipped (text : String)
  | nothing

/-- Makes a call. A reference without location ends everything. -/
def callDownload? (d : Download) : DownloadAction → Option (DownloadAnswer × Download)
  | .resolve r => (d.locate? r).map fun place => (.located place, d)
  | .fetch place => some (.fetched (Download.fetch place), d)
  | .process success => some (.accepted, d.receive success)
  | .unresolved r cause => some (.skipped (ResolutionFailure.mk r cause).message, d)
  | .shutdown => some (.accepted, d)
  | .look => some (.nothing, d)

/-- The answers of a list of calls, each with what has been counted by then, unless one
of them ends everything. -/
def runDownload (d : Download) :
    List DownloadAction → Except Misuse (List (DownloadAnswer × Download))
  | [] => .ok []
  | a :: rest =>
    match callDownload? d a with
    | none => .error .noLocation
    | some (answer, d) => (runDownload d rest).map fun others => (answer, d) :: others

end SharedFetch.Scenario
