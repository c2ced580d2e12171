import Peripheral.Identity.Basic
import Peripheral.Json.Shape
import Peripheral.Subnet

/-
  Peripheral.Identity.Json — addresses, subnets and identities as JSON. Addresses of both
  kinds are strings; the kind of an identity is its `transport` tag.
-/

namespace Peripheral

open Json (Shape Record tagged?)

namespace Address

def toJson (a : Address) : Json := .str a.text

def shape : Shape Address := Shape.textOf ofText?

end Address

namespace Mac

def toJson (m : Mac) : Json := .str m.text

def shape : Shape Mac := Shape.textOf ofText?

end Mac

namespace Subnet

def fieldNames : List String := ["address", "mask", "prefix_len", "base_address", "max_hosts"]

def toJson (s : Subnet) : Json :=
  .obj [("address", s.address.toJson), ("mask", s.mask.toJson),
    ("prefix_len", .nat s.prefixLen.toNat), ("base_address", s.base.toJson),
    ("max_hosts", .nat s.count)]

def shape : Shape Subnet := fun p j => do
  let r ← Record.open? fieldNames p j
  return ⟨← r.required "address" Address.shape, ← r.required "mask" Address.shape,
    ← r.required "prefix_len" Shape.uint32, ← r.required "base_address" Address.shape,
    ← r.required "max_hosts" (Shape.natBelow (1 <<< 128))⟩

end Subnet

namespace Protocol

def toJson (p : Protocol) : Json := .str p.name

def shape : Shape Protocol := Shape.named ofName?

end Protocol

namespace UsbIdentity

def fieldNames : List String :=
  ["name", "manufacturer", "serial_number", "port", "vendor_id", "product_id"]

def members (d : UsbIdentity) : List (String × Json) :=
  [("name", .str d.name), ("manufacturer", .str d.manufacturer),
    ("serial_number", .str d.serialNumber), ("port", .str d.port),
    ("vendor_id", .nat d.vendorId.toNat), ("product_id", .nat d.productId.toNat)]

def toJson (d : UsbIdentity) : Json := .obj d.members

def shape : Shape UsbIdentity := fun p j => do
  let r ← Record.open? fieldNames p j
  return ⟨← r.required "name" Shape.string, ← r.required "manufacturer" Shape.string,
    ← r.required "serial_number" Shape.string, ← r.required "port" Shape.string,
    ← r.required "vendor_id" Shape.uint16, ← r.required "product_id" Shape.uint16⟩

end UsbIdentity

namespace HostIdentity

def fieldNames : List String := ["hostname", "ip", "mac", "port", "protocol"]

def members (h : HostIdentity) : List (String × Json) :=
  [("hostname", .str h.hostname), ("ip", h.ip.toJson), ("mac", h.mac.toJson),
    ("port", .nat h.port.toNat), ("protocol", h.protocol.toJson)]

def toJson (h : HostIdentity) : Json := .obj h.members

def shape : Shape HostIdentity := fun p j => do
  let r ← Record.open? fieldNames p j
  return ⟨← r.required "hostname" Shape.string, ← r.required "ip" Address.shape,
    ← r.required "mac" Mac.shape, ← r.required "port" Shape.uint16,
    ← r.required "protocol" Protocol.shape⟩

end HostIdentity

namespace Identity

def toJson : Identity → Json
  | usb d => .obj (("transport", .str "usb") :: d.members)
  | ethernet h => .obj (("transport", .str "ethernet") :: h.members)

def shape : Shape Identity := fun _ j => do
  match ← tagged? "transport" j with
  | ("usb", j) => (UsbIdentity.shape .held j).map usb
  | ("ethernet", j) => (HostIdentity.shape .held j).map ethernet
  | _ => none

end Identity

end Peripheral
