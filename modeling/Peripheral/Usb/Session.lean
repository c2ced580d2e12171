import Peripheral.Configuration
import Peripheral.Usb.Enumerate

/-
  Peripheral.Usb.Session — a session with one USB device.

  Opening finds the device again by its identity, opens it and claims the configured
  interface. Closing releases that interface and drops the handle. A transfer is checked for
  its shape first, then for an empty buffer, then for an open handle.
-/

namespace Peripheral.Usb

structure Session where
  identity : UsbIdentity
  configuration : UsbConfiguration := {}
  handle : Option Handle := none
  /-- The interface to release on closing. -/
  claimed : Option UInt8 := none
deriving DecidableEq, Repr

namespace Session

def isOpen (s : Session) : Bool := s.handle.isSome

/-- Ends with an error after dropping the handle. -/
def giveUp {σ α : Type} (bus : Bus) (h : Handle) (e : Error) : Op σ α := do
  Op.act (bus.drop h)
  Op.fail e.link

def openHandle {σ : Type} (bus : Bus) (id : UsbIdentity) : Op σ Handle := do
  let d ← Op.require (find bus id)
  match ← Op.act (bus.openDevice d) with
  | .error e => Op.fail e.link
  | .ok h => pure h

/-- Claims an interface; without it the handle is dropped. -/
def claimOn {σ : Type} (bus : Bus) (h : Handle) (i : UInt8) : Op σ Handle := do
  Op.act (bus.autoDetach h)
  match ← Op.act (bus.claim h i) with
  | (some e, h) => giveUp bus h e
  | (none, h) => pure h

def openSession (bus : Bus) : Op Session Unit := do
  let s ← Op.session
  if s.isOpen then return
  let h ← openHandle bus s.identity
  match s.configuration.interface with
  | none => Op.set { s with handle := some h }
  | some i =>
    let h ← claimOn bus h i
    Op.set { s with handle := some h, claimed := some i }
  Op.log ⟨.info, "USB device opened", [("device", s.identity.text)]⟩

/-- Releases the claimed interface, if there is one. -/
def releaseClaimed (bus : Bus) (s : Session) (h : Handle) : Op Session Handle := do
  match s.claimed with
  | none => pure h
  | some i =>
    let (failure, h) ← Op.act (bus.release h i)
    if let some e := failure then
      Op.log ⟨.warn, "Failed to release interface",
        [("device", s.identity.text), ("interface", s!"{i}"), ("error", e.text)]⟩
    pure h

def close (bus : Bus) : Op Session Unit := do
  let s ← Op.session
  if let some h := s.handle then
    Op.set { s with handle := none, claimed := none }
    let h ← releaseClaimed bus s h
    Op.log ⟨.debug, "USB device closed", [("device", s.identity.text)]⟩
    Op.act (bus.drop h)

def endpoints (bus : Bus) : Op Session (List Endpoint) := do
  match (← Op.session).handle with
  | none => return []
  | some h => Op.act (Usb.endpoints bus h.device)

/-- The checks before a transfer, in order; the open handle. -/
def readyFor (s : Session) (t : Transfer) (len : Nat) : Except LinkError Handle := do
  Transport.libusb.check t
  checkBuffer len
  match s.handle with
  | some h => .ok h
  | none => .error .notOpen

/-- Where a transfer goes, with the direction bit set or cleared in its address. -/
def pipeOf? (address : UInt8 → UInt8) : Transfer → Option Pipe
  | .bulk e => some (.bulk (address e))
  | .interrupt e => some (.interrupt (address e))
  | .control t r v i => some (.control (address t) r v i)
  | _ => none

def inward (a : UInt8) : UInt8 := a ||| directionBit

def outward (a : UInt8) : UInt8 := a &&& 0x7F

/-- The result of a native transfer; a failure is logged. -/
def finish {σ α : Type} (message : String) (id : UsbIdentity) (t : Transfer) :
    Except Error α → Op σ α
  | .ok a => pure a
  | .error e => do
    Op.log ⟨.debug, message, [("device", id.text), ("transfer", t.kind), ("error", e.text)]⟩
    Op.fail e.link

def read (bus : Bus) (t : Transfer) (len : Nat) : Op Session (List UInt8) := do
  let s ← Op.session
  let h ← Op.require (s.readyFor t len)
  match pipeOf? inward t with
  | none => Op.fail (.unsupported .libusb t.kind)
  | some pipe =>
    finish "USB read failed" s.identity t (← Op.act (bus.read h pipe len s.configuration.timeoutMs))

def write (bus : Bus) (t : Transfer) (bytes : List UInt8) : Op Session Nat := do
  let s ← Op.session
  let h ← Op.require (s.readyFor t bytes.length)
  match pipeOf? outward t with
  | none => Op.fail (.unsupported .libusb t.kind)
  | some pipe =>
    finish "USB write failed" s.identity t
      (← Op.act (bus.write h pipe bytes s.configuration.timeoutMs))

end Session

end Peripheral.Usb
