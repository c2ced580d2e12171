import Peripheral.CommandLine.Run

/-
  Peripheral.Main — the command line program. It reads the settings file and prints; no
  network and no bus is attached, so that a discovery finds nothing.
-/

open Peripheral

/-- A machine with one file and nothing attached. -/
def detached (path : String) (content : Option ByteArray) : CommandLine.Machine where
  surroundings :=
    { bus := { devices := [] }, net := Net.Network.ofPeers [], resolver := Resolver.ofLists [] [],
      client := Http.Client.ofPeers [] }
  file p := if p = path then content.map ByteArray.toList else none

/-- The content of a file, if it can be read. -/
def contentOf (path : String) : IO (Option ByteArray) := do
  try
    return some (← IO.FS.readBinFile path)
  catch _ => return none

def main (words : List String) : IO UInt32 := do
  let path := match CommandLine.read words with
    | .ok i => i.config
    | .error _ => ""
  let output := CommandLine.run (detached path (← contentOf path)) words
  IO.print output.stdout
  IO.eprint output.stderr
  return UInt32.ofNat output.exit
