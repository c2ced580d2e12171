import Peripheral.Mac

/-
  Peripheral.Identity.Basic — the identities of discovered devices and the lines that show
  them.
-/

namespace Peripheral

/-- The transport protocol of a network device. -/
inductive Protocol
  | tcp
  | udp
deriving DecidableEq, Repr, Inhabited

namespace Protocol

/-- The spelling in data. -/
def name : Protocol → String
  | tcp => "tcp"
  | udp => "udp"

def ofName? : String → Option Protocol
  | "tcp" => some tcp
  | "udp" => some udp
  | _ => none

/-- The spelling in messages. -/
def label : Protocol → String
  | tcp => "TCP"
  | udp => "UDP"

end Protocol

/-- A device found on the USB bus. -/
structure UsbIdentity where
  name : String
  manufacturer : String
  serialNumber : String
  /-- Hub port numbers with colons between them. -/
  port : String
  vendorId : UInt16
  productId : UInt16
deriving DecidableEq, Repr

/-- A host that answered a probe. -/
structure HostIdentity where
  hostname : String
  ip : Address
  mac : Mac
  port : UInt16
  protocol : Protocol
deriving DecidableEq, Repr

inductive Identity
  | usb (device : UsbIdentity)
  | ethernet (host : HostIdentity)
deriving DecidableEq, Repr

/-- Four hexadecimal digits. -/
def idText (id : UInt16) : String := String.ofList (Text.Numeral.padded 16 4 id.toNat)

def UsbIdentity.text (d : UsbIdentity) : String :=
  s!"{idText d.vendorId}:{idText d.productId} {d.manufacturer} {d.name} " ++
    s!"(port {d.port}, serial {d.serialNumber})"

def HostIdentity.text (h : HostIdentity) : String :=
  s!"{h.hostname} {h.ip}:{h.port} ({h.protocol.label}) [{h.mac}]"

def Identity.text : Identity → String
  | usb d => d.text
  | ethernet h => h.text

end Peripheral
