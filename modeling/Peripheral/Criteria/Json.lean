import Peripheral.Criteria.Basic
import Peripheral.Identity.Json

/-
  Peripheral.Criteria.Json — search criteria as JSON. Every field may be missing and then
  accepts everything; the kind of search is the `transport` tag.
-/

namespace Peripheral

open Json (Shape Record tagged?)

namespace UsbCriteria

def fieldNames : List String := ["vendor_id", "product_id", "serial_number", "port"]

def members (c : UsbCriteria) : List (String × Json) :=
  [("vendor_id", .nat c.vendorId.toNat), ("product_id", .nat c.productId.toNat),
    ("serial_number", .str c.serialNumber), ("port", .str c.port)]

def toJson (c : UsbCriteria) : Json := .obj c.members

def shape : Shape UsbCriteria := fun p j => do
  let r ← Record.open? fieldNames p j
  return ⟨← r.defaulted "vendor_id" 0 Shape.uint16, ← r.defaulted "product_id" 0 Shape.uint16,
    ← r.defaulted "serial_number" "" Shape.string, ← r.defaulted "port" "" Shape.string⟩

end UsbCriteria

namespace HostCriteria

def fieldNames : List String := ["name", "ip", "mac", "port", "protocol"]

def members (c : HostCriteria) : List (String × Json) :=
  [("name", .str c.name), ("ip", .str c.ip), ("mac", .str c.mac),
    ("port", .nat c.port.toNat), ("protocol", c.protocol.toJson)]

def toJson (c : HostCriteria) : Json := .obj c.members

def shape : Shape HostCriteria := fun p j => do
  let r ← Record.open? fieldNames p j
  return ⟨← r.defaulted "name" "" Shape.string, ← r.defaulted "ip" "*" Shape.string,
    ← r.defaulted "mac" "*" Shape.string, ← r.defaulted "port" 0 Shape.uint16,
    ← r.defaulted "protocol" .tcp Protocol.shape⟩

end HostCriteria

namespace Criteria

def toJson : Criteria → Json
  | usb c => .obj (("transport", .str "usb") :: c.members)
  | ethernet c => .obj (("transport", .str "ethernet") :: c.members)
  | http c => .obj (("transport", .str "http") :: c.members)

def shape : Shape Criteria := fun _ j => do
  match ← tagged? "transport" j with
  | ("usb", j) => (UsbCriteria.shape .held j).map usb
  | ("ethernet", j) => (HostCriteria.shape .held j).map ethernet
  | ("http", j) => (HostCriteria.shape .held j).map http
  | _ => none

end Criteria

end Peripheral
