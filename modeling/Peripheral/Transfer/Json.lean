import Peripheral.Configuration
import Peripheral.Json.Shape

/-
  Peripheral.Transfer.Json — transfers, endpoints and configurations as JSON. The shape of a
  transfer is its `kind` tag.
-/

namespace Peripheral

open Json (Shape Record tagged?)

namespace Verb

def toJson (v : Verb) : Json := .str v.name

def shape : Shape Verb := Shape.named ofName?

end Verb

namespace Transport

def toJson (t : Transport) : Json := .str t.name

def shape : Shape Transport := Shape.named ofName?

end Transport

namespace Direction

def toJson (d : Direction) : Json := .str d.name

def shape : Shape Direction := Shape.named ofName?

end Direction

namespace Endpoint

def toJson (e : Endpoint) : Json :=
  .obj [("direction", e.direction.toJson), ("address", .nat e.address.toNat)]

def shape : Shape Endpoint := fun p j => do
  let r ← Record.open? ["direction", "address"] p j
  return ⟨← r.required "direction" Direction.shape, ← r.required "address" Shape.uint16⟩

end Endpoint

namespace Transfer

/-- The fields of a shape. -/
def members : Transfer → List (String × Json)
  | bulk e => [("endpoint", .nat e.toNat)]
  | control t r v i => [("request_type", .nat t.toNat), ("request", .nat r.toNat),
      ("value", .nat v.toNat), ("index", .nat i.toNat)]
  | interrupt e => [("endpoint", .nat e.toNat)]
  | http v p => [("verb", v.toJson), ("path", .str p)]
  | stream => []

def toJson (t : Transfer) : Json := .obj (("kind", .str t.kind) :: t.members)

def shape : Shape Transfer := fun _ j => do
  match ← tagged? "kind" j with
  | ("bulk", j) =>
    let r ← Record.open? ["endpoint"] .held j
    return bulk (← r.required "endpoint" Shape.uint8)
  | ("control", j) =>
    let r ← Record.open? ["request_type", "request", "value", "index"] .held j
    return control (← r.required "request_type" Shape.uint8) (← r.required "request" Shape.uint8)
      (← r.required "value" Shape.uint16) (← r.required "index" Shape.uint16)
  | ("interrupt", j) =>
    let r ← Record.open? ["endpoint"] .held j
    return interrupt (← r.required "endpoint" Shape.uint8)
  | ("http", j) =>
    let r ← Record.open? ["verb", "path"] .held j
    return http (← r.required "verb" Verb.shape) (← r.required "path" Shape.string)
  | ("stream", j) => (Record.open? [] .held j).map fun _ => stream
  | _ => none

end Transfer

namespace UsbConfiguration

def toJson (c : UsbConfiguration) : Json :=
  .obj [("timeout_ms", .nat c.timeoutMs.toNat),
    ("interface", Json.ofOption (fun i => .nat i.toNat) c.interface)]

def shape : Shape UsbConfiguration := fun p j => do
  let r ← Record.open? ["timeout_ms", "interface"] p j
  return ⟨← r.defaulted "timeout_ms" defaultTimeout Shape.uint32,
    ← r.defaulted "interface" none (Shape.optional Shape.uint8)⟩

end UsbConfiguration

namespace FtdiConfiguration

def toJson (c : FtdiConfiguration) : Json :=
  .obj [("bit_mode", .nat c.bitMode.toNat), ("bit_mask", .nat c.bitMask.toNat),
    ("interface", .nat c.interface.toNat), ("timeout_ms", .nat c.timeoutMs.toNat)]

def shape : Shape FtdiConfiguration := fun p j => do
  let r ← Record.open? ["bit_mode", "bit_mask", "interface", "timeout_ms"] p j
  return ⟨← r.defaulted "bit_mode" 0 Shape.uint8, ← r.defaulted "bit_mask" 0 Shape.uint8,
    ← r.defaulted "interface" 0 Shape.uint8, ← r.defaulted "timeout_ms" defaultTimeout Shape.uint32⟩

end FtdiConfiguration

namespace EthernetConfiguration

def toJson (c : EthernetConfiguration) : Json := .obj [("timeout_ms", .nat c.timeoutMs.toNat)]

def shape : Shape EthernetConfiguration := fun p j => do
  let r ← Record.open? ["timeout_ms"] p j
  return ⟨← r.defaulted "timeout_ms" defaultTimeout Shape.uint32⟩

end EthernetConfiguration

namespace HttpConfiguration

def toJson (c : HttpConfiguration) : Json := .obj [("timeout_ms", .nat c.timeoutMs.toNat)]

def shape : Shape HttpConfiguration := fun p j => do
  let r ← Record.open? ["timeout_ms"] p j
  return ⟨← r.defaulted "timeout_ms" defaultTimeout Shape.uint32⟩

end HttpConfiguration

namespace Configuration

def toJson : Configuration → Json
  | libusb c => c.toJson
  | ftdi c => c.toJson
  | ethernet c => c.toJson
  | http c => c.toJson

/-- The configuration of a given backend. -/
def shape : Transport → Shape Configuration
  | .libusb => fun p j => (UsbConfiguration.shape p j).map libusb
  | .ftdi => fun p j => (FtdiConfiguration.shape p j).map ftdi
  | .ethernet => fun p j => (EthernetConfiguration.shape p j).map ethernet
  | .http => fun p j => (HttpConfiguration.shape p j).map http

end Configuration

namespace ScanLimits

def toJson (l : ScanLimits) : Json :=
  .obj [("probe_timeout_ms", .nat l.probeTimeoutMs.toNat),
    ("max_concurrent_probes", .nat l.maxConcurrent.toNat)]

def shape : Shape ScanLimits := fun p j => do
  let r ← Record.open? ["probe_timeout_ms", "max_concurrent_probes"] p j
  return ⟨← r.defaulted "probe_timeout_ms" defaultTimeout Shape.uint32,
    ← r.defaulted "max_concurrent_probes" 256 Shape.uint64⟩

end ScanLimits

end Peripheral
