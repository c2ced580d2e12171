import Peripheral.Hostname
import Peripheral.Link.Error
import Peripheral.Neighbor.Table

/-
  Peripheral.Resolver — who answers at an address: its hardware address, without which no
  connection counts, and its name, for which the address itself can stand.
-/

namespace Peripheral

structure Resolver where
  mac : Address → Except LinkError Mac
  hostname : Address → String

namespace Resolver

/-- A host counts as unreachable without a hardware address. -/
def required (ip : Address) : Option Mac → Except LinkError Mac
  | some mac => .ok mac
  | none => .error (.unreachable s!"{ip} has no neighbor table entry")

/-- Resolves by what the operating system says. -/
def ofSystem (os : System) : Resolver where
  mac ip := required ip (Neighbor.lookup? os ip)
  hostname ip := (Hostname.lookup? os ip).getD ip.text

/-- Resolves from two lists. -/
def ofLists (macs : List (Address × Mac)) (names : List (Address × String)) : Resolver where
  mac ip :=
    match macs.lookup ip with
    | some mac => .ok mac
    | none => .error (.unreachable ip.text)
  hostname ip := (names.lookup ip).getD ip.text

end Resolver

end Peripheral
