import Peripheral.Link.SystemError
import Peripheral.Neighbor.Forms
import Peripheral.System

/-
  Peripheral.Neighbor.Table — how each system is asked for its neighbour table.

  Linux prints it in keyword lines if `ip` is there and succeeds. If not, the table of the
  kernel is read, in columns below a line of titles. The others have `arp` print it, in
  sentences or in groups, and there is no table if that fails.
-/

namespace Peripheral.Neighbor

/-- Why there is no table. -/
inductive TableError
  | system (code : Int)
  /-- The file is not UTF-8. -/
  | notText
  /-- The program failed, and this is what it said. -/
  | failed (said : String)
deriving DecidableEq, Repr

def TableError.message : TableError → String
  | system code => SystemError.text code
  | notText => "stream did not contain valid UTF-8"
  | failed said => s!"Failed to get ARP table: {said}"

/-- The table that the kernel keeps in a file. -/
def kernelTable (os : System) : Except TableError (List Entry) := do
  let bytes ← (os.file "/proc/net/arp").mapError .system
  match Text.Utf8.decode? bytes with
  | some text => return ((Text.linesOf text).drop 1).filterMap ofColumnLine?
  | none => throw .notText

/-- What `arp` prints. -/
def printedByArp (os : System) (argument : String) : Except TableError String := do
  let e ← (os.run "arp" [argument]).mapError .system
  if e.succeeded then return Text.Utf8.decodeLossy e.stdout
  throw (.failed (Text.Utf8.decodeLossy e.stderr))

def table (os : System) : Except TableError (List Entry) :=
  match os.platform with
  | .linux =>
    match os.printed? "ip" ["neigh", "show"] with
    | some output => .ok (ofKeywordLines output)
    | none => kernelTable os
  | .unix => do return (Text.linesOf (← printedByArp os "-an")).filterMap ofSentence?
  | .windows => do return ofGroups (← printedByArp os "-a")

/-- The first usable hardware address of `ip`; there is none in a table that cannot be read. -/
def lookup? (os : System) (ip : Address) : Option Mac :=
  match table os with
  | .ok entries => lookupMac entries ip
  | .error _ => none

end Peripheral.Neighbor
