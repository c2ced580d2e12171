import Peripheral.Criteria.Basic
import Peripheral.Usb.Bus

/-
  Peripheral.Usb.Enumerate — the identities of the devices on a bus, and the way back from an
  identity to its device.

  Devices of one vendor speak a protocol of their own and are listed apart. A device whose
  descriptor cannot be read is left out; whatever else cannot be read is left empty. Going
  back, a device is the first on the bus with the vendor, the product and the port path of
  the identity.
-/

namespace Peripheral.Usb

/-- The vendor whose chips speak the FTDI protocol. -/
def ftdiVendor : UInt16 := 0x0403

/-- The identity of a device, which is opened to read its strings and closed again. -/
def identify (bus : Bus) (d : Nat) (dev : Device) : Act UsbIdentity := do
  let blank : UsbIdentity := ⟨"", "", "", dev.portPath, dev.vendorId, dev.productId⟩
  match ← bus.openDevice d with
  | .error e =>
    Act.log ⟨.debug, "Cannot open device to read string descriptors",
      [("vendor_id", idText dev.vendorId), ("product_id", idText dev.productId), ("error", e.text)]⟩
    return blank
  | .ok h =>
    bus.drop h
    return { blank with
      name := descriptorText dev.name
      manufacturer := descriptorText dev.manufacturer
      serialNumber := descriptorText dev.serialNumber }

/-- The identities among the devices, the first of which is at place `d`, that have an
    admitted vendor and answer one of the criteria. -/
def identities (bus : Bus) (criteria : List UsbCriteria) (vendor : UInt16 → Bool) :
    Nat → List Device → Act (List UsbIdentity)
  | _, [] => pure []
  | d, dev :: rest => do
    match dev.descriptorFailure with
    | some e =>
      Act.log ⟨.debug, "Failed to read device descriptor", [("error", e.text)]⟩
      identities bus criteria vendor (d + 1) rest
    | none =>
      if !vendor dev.vendorId then identities bus criteria vendor (d + 1) rest
      else
        let id ← identify bus d dev
        let wanted := criteria.any (·.admits id)
        Act.log ⟨.trace,
          if wanted then "USB device matches criteria" else "USB device does not match criteria",
          [("device", id.text)]⟩
        let found ← identities bus criteria vendor (d + 1) rest
        return if wanted then id :: found else found

def enumerate (bus : Bus) (criteria : List UsbCriteria) (vendor : UInt16 → Bool) :
    Act (List UsbIdentity) := do
  if criteria.isEmpty then return []
  match bus.listFailure with
  | some e =>
    Act.log ⟨.warn, "Failed to list USB devices", [("error", e.link.message)]⟩
    return []
  | none => identities bus criteria vendor 0 bus.devices

/-- Devices of all vendors but one. -/
def libusbDevices (bus : Bus) (criteria : List UsbCriteria) : Act (List UsbIdentity) := do
  let found ← enumerate bus criteria (· != ftdiVendor)
  Act.log ⟨.debug, "libusb enumeration complete", [("count", s!"{found.length}")]⟩
  return found

/-- FTDI chips. -/
def ftdiDevices (bus : Bus) (criteria : List UsbCriteria) : Act (List UsbIdentity) := do
  let found ← enumerate bus criteria (· == ftdiVendor)
  Act.log ⟨.debug, "FTDI enumeration complete", [("count", s!"{found.length}")]⟩
  return found

/-- Whether a device is the one an identity was read from, as far as can be told. -/
def isDeviceOf (id : UsbIdentity) (dev : Device) : Bool :=
  dev.descriptorFailure.isNone && dev.vendorId == id.vendorId && dev.productId == id.productId &&
    dev.portPath == id.port

/-- The place of the device of an identity. -/
def find (bus : Bus) (id : UsbIdentity) : Except LinkError Nat :=
  if id.port.isEmpty then .error (.invalidArgument "device port path is empty")
  else match bus.listFailure with
    | some e => .error e.link
    | none =>
      match bus.devices.findIdx? (isDeviceOf id) with
      | some d => .ok d
      | none => .error (.resource
          s!"device {idText id.vendorId}:{idText id.productId} not found on port {id.port}")

/-- The endpoints of the active configuration. -/
def endpoints (bus : Bus) (d : Nat) : Act (List Endpoint) := do
  match (bus.devices[d]?).elim (.error .noDevice) Device.config with
  | .error e =>
    Act.log ⟨.debug, "Failed to read active configuration descriptor", [("error", e.text)]⟩
    return []
  | .ok config =>
    return config.flatten.flatten.map fun e =>
      ⟨if isInput e.address then .input else .output, (e.address &&& 0x0F).toUInt16⟩

end Peripheral.Usb
