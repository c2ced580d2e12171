import Peripheral.Identity.Basic
import Peripheral.Pattern

/-
  Peripheral.Criteria.Basic — what a search asks for and which identities answer it.

  - A numeric field that is zero accepts every number.
  - A text field is a pattern; an empty one accepts every text.
  - An address field is an address, compared by value, or else a pattern over the canonical
    text; `0.0.0.0` accepts every address. Blanks around it do not count.
-/

namespace Peripheral

structure UsbCriteria where
  vendorId : UInt16 := 0
  productId : UInt16 := 0
  serialNumber : String := ""
  port : String := ""
deriving DecidableEq, Repr, Inhabited

structure HostCriteria where
  name : String := ""
  ip : String := "*"
  mac : String := "*"
  /-- The port to probe; zero accepts every port and cannot be probed. -/
  port : UInt16 := 0
  protocol : Protocol := .tcp
deriving DecidableEq, Repr, Inhabited

inductive Criteria
  | usb (criteria : UsbCriteria)
  | ethernet (criteria : HostCriteria)
  | http (criteria : HostCriteria)
deriving DecidableEq, Repr

/-- The address text that stands for every address. -/
def anyAddress : String := "0.0.0.0"

def idAdmits (criterion value : UInt16) : Bool := criterion == 0 || criterion == value

def addressAdmits (criterion : String) (a : Address) : Bool :=
  let criterion := Text.strip criterion
  if criterion == anyAddress then true
  else match Address.ofText? criterion with
    | some b => b == a
    | none => Pattern.admits criterion a.text

namespace UsbCriteria

def admits (c : UsbCriteria) (d : UsbIdentity) : Bool :=
  idAdmits c.vendorId d.vendorId && idAdmits c.productId d.productId &&
    Pattern.admits c.serialNumber d.serialNumber && Pattern.admits c.port d.port

end UsbCriteria

namespace HostCriteria

/-- Every host of every reachable subnet. -/
def scan (port : UInt16) (protocol : Protocol) : HostCriteria := { port, protocol }

/-- One host. -/
def host (ip : String) (port : UInt16) (protocol : Protocol) : HostCriteria :=
  { ip, port, protocol }

def admits (c : HostCriteria) (h : HostIdentity) : Bool :=
  Pattern.admits c.name h.hostname && addressAdmits c.ip h.ip &&
    Pattern.admits c.mac h.mac.text && idAdmits c.port h.port && c.protocol == h.protocol

/-- Whether the address field may select more than one host. -/
def isSubnetScan (c : HostCriteria) : Bool :=
  let ip := Text.strip c.ip
  ip.isEmpty || ip == "*" || ip == anyAddress || ip.toList.any fun x => x == '*' || x == '?'

/-- Whether an address is worth a probe in a subnet scan. -/
def allows (c : HostCriteria) (a : Address) : Bool :=
  let pattern := Text.strip c.ip
  pattern == anyAddress || Pattern.admits pattern a.text

end HostCriteria

def Criteria.admits : Criteria → Identity → Bool
  | usb c, .usb d => c.admits d
  | ethernet c, .ethernet h | http c, .ethernet h => c.admits h
  | _, _ => false

end Peripheral
