/-
  FirmwareMailbox.Main — the command line on the running system.
-/

import FirmwareMailbox.Command.Run
import FirmwareMailbox.Host

open FirmwareMailbox

def main (args : List String) : IO UInt32 := do
  match Command.ofArguments args with
  | .error u => do
    IO.eprintln "usage: [-v] <command> [options]"
    return UInt32.ofNat u.exitCode
  | .ok (.serve a) => do
    IO.eprintln ("ERROR: cannot listen on " ++ a.text)
    return 1
  | .ok (.command c) => do
    let config ← Host.environmentConfig
    let job := Command.run ⟨config⟩ c
    let (result, _) ← (Host.perform job.run).run { config := config }
    match result with
    | .ok () => return 0
    | .error e => do
      IO.eprint (Command.failureText e)
      return 1
