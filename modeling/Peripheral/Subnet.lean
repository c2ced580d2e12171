import Peripheral.Address.Text

/-
  Peripheral.Subnet — the subnet of an interface address: its mask, the first address under
  the mask and the number of addresses. The hosts that can be scanned are all but the first
  (network) and the last (broadcast) one.
-/

namespace Peripheral

structure Subnet where
  /-- The interface's own address. -/
  address : Address
  mask : Address
  prefixLen : UInt32
  base : Address
  /-- Number of addresses, network and broadcast included; a 128-bit number. -/
  count : Nat
deriving DecidableEq, Repr

namespace Subnet

/-- The subnet of `address` with a prefix of `len` bits. -/
def of (address : Address) (len : UInt32) : Except AddressError Subnet := do
  let mask ← Address.mask address.family len.toNat
  let base ← address.base mask
  return ⟨address, mask, len, base, Address.hostCount len.toNat address.family.width⟩

/-- The address at a place of the subnet. -/
def host (s : Subnet) (index : Nat) : Address := s.base.offset index

/-- First and one past the last place of a host that can be scanned. -/
def hostRange (s : Subnet) : Nat × Nat := if s.count ≤ 2 then (0, 0) else (1, s.count - 1)

/-- The places of the hosts that can be scanned, at most `limit` of them. -/
def hostIndicesUpTo (limit : Nat) (s : Subnet) : List Nat :=
  List.range' s.hostRange.1 (min limit (s.hostRange.2 - s.hostRange.1))

def hostIndices (s : Subnet) : List Nat :=
  List.range' s.hostRange.1 (s.hostRange.2 - s.hostRange.1)

def hosts (s : Subnet) : List Address := s.hostIndices.map s.host

def contains (s : Subnet) (a : Address) : Bool :=
  a.family == s.address.family &&
    match a.base s.mask with
    | .ok b => b == s.base
    | .error _ => false

end Subnet

end Peripheral
