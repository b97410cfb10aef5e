import SharedFetch.Download.Session

/-!
# The command line

Tries the pipeline on downloads, by the variables of the environment. A run that ends in a
fault is reported on standard error, and so is a misuse.
-/

open SharedFetch

def main : IO UInt32 := do
  let workers ← IO.getEnv Download.Setting.workers.name
  let fanIn ← IO.getEnv Download.Setting.fanIn.name
  let limit ← IO.getEnv Download.Setting.limit.name
  let value : Download.Setting → Option String
    | .workers => workers
    | .fanIn => fanIn
    | .limit => limit
  match Download.runWith value with
  | .ok none => return 0
  | .ok (some fault) =>
    IO.eprintln s!"Error: {fault.report}"
    return 1
  | .error cause =>
    IO.eprintln cause.message
    return 101
