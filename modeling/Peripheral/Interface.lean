import Peripheral.Identity.Json

/-
  Peripheral.Interface — a network interface that can be scanned from: it has a hardware
  address and at least one address with its subnet.
-/

namespace Peripheral

structure Interface where
  /-- How the system names the adapter. -/
  adapter : String
  name : String
  mac : Mac
  ipv4 : Option Subnet
  ipv6 : Option Subnet
deriving DecidableEq, Repr

namespace Interface

/-- The subnet of an address, unless its prefix is too long. -/
def subnetOf? (entry : Option (Address × UInt32)) : Option Subnet :=
  entry.bind fun (a, len) => (Subnet.of a len).toOption

/-- None without a hardware address or without any subnet. -/
def of? (adapter name : String) (mac : Mac) (ipv4 ipv6 : Option (Address × UInt32)) :
    Option Interface :=
  let v4 := subnetOf? ipv4
  let v6 := subnetOf? ipv6
  if mac.isZero || (v4.isNone && v6.isNone) then none else some ⟨adapter, name, mac, v4, v6⟩

def subnetText (s : Option Subnet) : String := s.elim "" fun s => s!" {s.address}/{s.prefixLen}"

def text (i : Interface) : String := s!"{i.name} [{i.mac}]" ++ subnetText i.ipv4 ++ subnetText i.ipv6

def toJson (i : Interface) : Json :=
  .obj [("adapter", .str i.adapter), ("name", .str i.name), ("mac", i.mac.toJson),
    ("ipv4", Json.ofOption Subnet.toJson i.ipv4), ("ipv6", Json.ofOption Subnet.toJson i.ipv6)]

end Interface

end Peripheral
