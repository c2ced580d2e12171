import Peripheral.Ftdi.Session
import Peripheral.Http.Session
import Peripheral.Net.Ethernet

/-
  Peripheral.Device — one handle over the four backends, and the surroundings it works in.
-/

namespace Peripheral

/-- Everything outside a handle: what its calls meet. -/
structure Surroundings where
  bus : Usb.Bus
  net : Net.Network
  resolver : Resolver
  client : Http.Client
  /-- What keeps a session over HTTP from being made. -/
  httpFailure : Option Http.StartFailure := none

inductive Device
  | libusb (s : Usb.Session)
  | ftdi (s : Ftdi.Session)
  | ethernet (s : Net.EthernetSession)
  | http (s : Http.Session)
deriving DecidableEq, Repr

namespace Device

def transport : Device → Transport
  | libusb _ => .libusb
  | ftdi _ => .ftdi
  | ethernet _ => .ethernet
  | http _ => .http

/-- As found by discovery. -/
def identity : Device → Identity
  | libusb s => .usb s.identity
  | ftdi s => .usb s.identity
  | ethernet s => .ethernet s.identity
  | http s => .ethernet s.identity

def text (d : Device) : String := s!"[{d.transport.name}] {d.identity.text}"

def configuration : Device → Configuration
  | libusb s => .libusb s.configuration
  | ftdi s => .ftdi s.configuration
  | ethernet s => .ethernet s.configuration
  | http s => .http s.configuration

def isOpen : Device → Bool
  | libusb s => s.isOpen
  | ftdi s => s.isOpen
  | ethernet s => s.isOpen
  | http s => s.isOpen

/-- Whether a native handle can be had. -/
def hasNativeHandle : Device → Bool
  | libusb s => s.handle.isSome
  | ftdi s => s.handle.isSome
  | ethernet s => s.socket.native.isSome
  | http _ => false

/-- The words for a code of the backend. -/
def codeText (d : Device) (code : Int) : String :=
  match d with
  | libusb _ | ftdi _ => Usb.codeName code
  | ethernet _ => SystemError.text code
  | http _ => Http.statusText code

/-- Takes a configuration for the same backend only. -/
def configure (c : Configuration) : Op Device Unit := do
  let d ← Op.session
  match d, c with
  | libusb s, .libusb c => Op.set (libusb { s with configuration := c })
  | ftdi s, .ftdi c => Op.set (ftdi { s with configuration := c })
  | ethernet s, .ethernet c => Op.set (ethernet { s with configuration := c })
  | http s, .http c => Op.set (http { s with configuration := c })
  | _, _ => Op.fail (.invalidArgument
      s!"{c.transport.name} configuration cannot be applied to a {d.transport.name} device")

def openDevice (w : Surroundings) : Op Device Unit := do
  match ← Op.session with
  | libusb s => Op.onPart s libusb (Usb.Session.openSession w.bus)
  | ftdi s => Op.onPart s ftdi (Ftdi.Session.openSession w.bus)
  | ethernet s => Op.onPart s ethernet (Net.EthernetSession.openSession w.net w.resolver)
  | http s => Op.onPart s http (Http.Session.openSession w.httpFailure)

/-- Closes the session, if one is open. Giving up a handle does the same. -/
def close (w : Surroundings) : Op Device Unit := do
  match ← Op.session with
  | libusb s => Op.onPart s libusb (Usb.Session.close w.bus)
  | ftdi s => Op.onPart s ftdi (Ftdi.Session.close w.bus)
  | ethernet s => Op.onPart s ethernet Net.EthernetSession.close
  | http s => Op.onPart s http Http.Session.close

def endpoints (w : Surroundings) : Op Device (List Endpoint) := do
  match ← Op.session with
  | libusb s => Op.onPart s libusb (Usb.Session.endpoints w.bus)
  | ftdi s => Op.onPart s ftdi (Ftdi.Session.endpoints w.bus)
  | ethernet s => pure s.endpoints
  | http s => pure s.endpoints

/-- The bytes that arrived, at most `len`. -/
def read (w : Surroundings) (t : Transfer) (len : Nat) : Op Device (List UInt8) := do
  match ← Op.session with
  | libusb s => Op.onPart s libusb (Usb.Session.read w.bus t len)
  | ftdi s => Op.onPart s ftdi (Ftdi.Session.read w.bus t len)
  | ethernet s => Op.onPart s ethernet (Net.EthernetSession.read w.net t len)
  | http s => Op.onPart s http (Http.Session.read w.client t len)

/-- The number of bytes sent. -/
def write (w : Surroundings) (t : Transfer) (bytes : List UInt8) : Op Device Nat := do
  match ← Op.session with
  | libusb s => Op.onPart s libusb (Usb.Session.write w.bus t bytes)
  | ftdi s => Op.onPart s ftdi (Ftdi.Session.write w.bus t bytes)
  | ethernet s => Op.onPart s ethernet (Net.EthernetSession.write w.net t bytes)
  | http s => Op.onPart s http (Http.Session.write w.client t bytes)

end Device

end Peripheral
