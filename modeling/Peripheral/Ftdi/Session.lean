import Peripheral.Ftdi.Packet
import Peripheral.Usb.Session

/-
  Peripheral.Ftdi.Session — a session with one FTDI chip.

  Opening claims the configured interface, resets the chip and sets its bit mode; if any of
  that fails, the interface is released and the handle dropped. Bulk transfers go to the two
  endpoints of the interface whatever endpoint they name; a bulk read asks for whole packets
  and hands on their payload. Reading the pins is a request of its own. The interface, the
  endpoints and the timeout are those of the configuration at the time of each call; the
  packet size is that of the time of opening.
-/

namespace Peripheral.Ftdi

open Usb (Bus Handle Pipe)

/-- Assumed where the chip does not tell. -/
def defaultPacketSize : Nat := 64

/-- Vendor requests. -/
def requestReset : UInt8 := 0x00

def requestSetBitMode : UInt8 := 0x0B

def requestReadPins : UInt8 := 0x0C

structure Session where
  identity : UsbIdentity
  configuration : FtdiConfiguration := {}
  handle : Option Handle := none
  packetSize : Nat := defaultPacketSize
deriving DecidableEq, Repr

namespace Session

def isOpen (s : Session) : Bool := s.handle.isSome

/-- Whether an endpoint is the inward one of the interface and has room for payload. -/
def isInEndpoint (address : UInt8) (e : Usb.EndpointDescriptor) : Bool :=
  Usb.isInput e.address && e.address == address && statusLength < e.maxPacketSize.toNat

/-- The packet size of the inward endpoint. -/
def packetSizeOf (bus : Bus) (h : Handle) (address : UInt8) : Nat :=
  match (bus.devices[h.device]?).map Usb.Device.config with
  | some (.ok config) =>
    ((config.flatten.flatten.find? (isInEndpoint address)).map (·.maxPacketSize.toNat)).getD
      defaultPacketSize
  | _ => defaultPacketSize

/-- An empty vendor request to the chip. -/
def request (bus : Bus) (h : Handle) (c : FtdiConfiguration) (r : UInt8) (value : UInt16) :
    Act (Option Usb.Error) := do
  match ← bus.write h (.control 0x40 r value c.requestIndex) [] c.timeoutMs with
  | .ok _ => return none
  | .error e => return some e

/-- Claims the interface and sets up the chip. -/
def setUp (bus : Bus) (h : Handle) (c : FtdiConfiguration) : Act (Option Usb.Error × Handle) := do
  bus.autoDetach h
  let (failure, h) ← bus.claim h c.interface
  if failure.isSome then return (failure, h)
  let failure ← request bus h c requestReset 0
  if failure.isSome then return (failure, h)
  let failure ← request bus h c requestSetBitMode c.bitModeValue
  return (failure, h)

def openSession (bus : Bus) : Op Session Unit := do
  let s ← Op.session
  if s.isOpen then return
  let h ← Usb.Session.openHandle bus s.identity
  let (failure, h) ← Op.act (setUp bus h s.configuration)
  match failure with
  | some e =>
    Op.log ⟨.warn, "Failed to configure FTDI device",
      [("device", s.identity.text), ("error", e.link.message)]⟩
    let (_, h) ← Op.act (bus.release h s.configuration.interface)
    Usb.Session.giveUp bus h e
  | none =>
    let address ← Op.within s.configuration.inEndpoint
    Op.set { s with handle := some h, packetSize := packetSizeOf bus h address }
    Op.log ⟨.info, "FTDI device opened", [("device", s.identity.text),
      ("bit_mode", s!"{s.configuration.bitMode}"), ("bit_mask", s!"{s.configuration.bitMask}")]⟩

def close (bus : Bus) : Op Session Unit := do
  let s ← Op.session
  if let some h := s.handle then
    Op.set { s with handle := none }
    let (failure, h) ← Op.act (bus.release h s.configuration.interface)
    if let some e := failure then
      Op.log ⟨.warn, "Failed to release FTDI interface",
        [("device", s.identity.text), ("error", e.text)]⟩
    Op.log ⟨.debug, "FTDI device closed", [("device", s.identity.text)]⟩
    Op.act (bus.drop h)

def endpoints (bus : Bus) : Op Session (List Endpoint) := do
  match (← Op.session).handle with
  | none => return []
  | some h => Op.act (Usb.endpoints bus h.device)

/-- The checks before a transfer, in order; the open handle. -/
def readyFor (s : Session) (t : Transfer) (len : Nat) : Except LinkError Handle := do
  Transport.ftdi.check t
  checkBuffer len
  match s.handle with
  | some h => .ok h
  | none => .error .notOpen

/-- Reads the payload of whole packets. -/
def readBulk (bus : Bus) (s : Session) (h : Handle) (len : Nat) :
    Op Session (Except Usb.Error (List UInt8)) := do
  let address ← Op.within s.configuration.inEndpoint
  let raw ← Op.act (bus.read h (.bulk address) (rawSize len s.packetSize) s.configuration.timeoutMs)
  return raw.map fun raw => stripped s.packetSize raw len

def read (bus : Bus) (t : Transfer) (len : Nat) : Op Session (List UInt8) := do
  let s ← Op.session
  let h ← Op.require (s.readyFor t len)
  let timeout := s.configuration.timeoutMs
  let result ← match t with
    | .bulk _ => readBulk bus s h len
    | .control rt r v i =>
      if r = requestReadPins then
        Op.act (bus.read h (.control 0xC0 requestReadPins 0 s.configuration.requestIndex) 1 timeout)
      else Op.act (bus.read h (.control (Usb.Session.inward rt) r v i) len timeout)
    | _ => Op.fail (.unsupported .ftdi t.kind)
  Usb.Session.finish "FTDI read failed" s.identity t result

def write (bus : Bus) (t : Transfer) (bytes : List UInt8) : Op Session Nat := do
  let s ← Op.session
  let h ← Op.require (s.readyFor t bytes.length)
  let timeout := s.configuration.timeoutMs
  let result ← match t with
    | .bulk _ => do
      let address ← Op.within s.configuration.outEndpoint
      Op.act (bus.write h (.bulk address) bytes timeout)
    | .control rt r v i =>
      Op.act (bus.write h (.control (Usb.Session.outward rt) r v i) bytes timeout)
    | _ => Op.fail (.unsupported .ftdi t.kind)
  Usb.Session.finish "FTDI write failed" s.identity t result

end Session

end Peripheral.Ftdi
