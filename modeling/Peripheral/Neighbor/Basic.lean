import Peripheral.Json.Basic
import Peripheral.Mac

/-
  Peripheral.Neighbor.Basic — entries of a neighbour table: which hardware address an address
  was last seen at, on which interface, and how far the entry can be trusted.
-/

namespace Peripheral.Neighbor

inductive State
  | reachable
  | stale
  | delay
  | probe
  | failed
  | incomplete
  | permanent
  | unknown
deriving DecidableEq, Repr

def State.name : State → String
  | reachable => "Reachable"
  | stale => "Stale"
  | delay => "Delay"
  | probe => "Probe"
  | failed => "Failed"
  | incomplete => "Incomplete"
  | permanent => "Permanent"
  | unknown => "Unknown"

structure Entry where
  ip : Address
  mac : Option Mac
  interface : String
  state : State
deriving DecidableEq, Repr

/-- The hardware address, if the entry came to one: a failed or incomplete entry has none,
    and neither has the all-zero address. -/
def Entry.usableMac (e : Entry) : Option Mac :=
  match e.state with
  | .failed | .incomplete => none
  | _ => e.mac.filter (!·.isZero)

/-- The first usable hardware address of `ip`. -/
def lookupMac (table : List Entry) (ip : Address) : Option Mac :=
  (table.filter (·.ip == ip)).findSome? Entry.usableMac

/-- An entry as data, with the hardware address that it resolves to. -/
def Entry.toJson (e : Entry) : Json :=
  let text := Json.ofOption fun m : Mac => .str m.text
  .obj [("ip", .str e.ip.text), ("mac", text e.mac), ("interface", .str e.interface),
    ("state", .str e.state.name), ("resolved", text e.usableMac)]

end Peripheral.Neighbor
