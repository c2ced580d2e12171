import Peripheral.Op
import Peripheral.Text.Utf8
import Peripheral.Transfer.Basic
import Peripheral.Usb.PortPath

/-
  Peripheral.Usb.Bus — a USB bus and the native calls on it.

  A bus says of each device what its descriptors hold and how each native call on it ends,
  given how many calls of that kind came before: any pattern of failures is a bus.

  The rules of the native layer:
  - A handle remembers the interfaces claimed on it. Dropping it releases those still claimed,
    in ascending order, and closes the device.
  - A bulk or interrupt transfer that times out or is interrupted after it has moved a byte
    succeeds with what it has moved; a control transfer never does.
  - A transfer to an endpoint of the other direction is refused without a call.
  - The length of a control transfer is a 16-bit number.
-/

namespace Peripheral.Usb

structure EndpointDescriptor where
  address : UInt8
  maxPacketSize : UInt16
deriving DecidableEq, Repr

/-- The direction bit of an endpoint address or a request type. -/
def directionBit : UInt8 := 0x80

def isInput (address : UInt8) : Bool := address &&& directionBit != 0

/-- How a transfer ends. -/
structure Outcome where
  failure : Option Error := none
  /-- What the device has to send. -/
  data : List UInt8 := []
  /-- How many bytes the device takes; none for all. -/
  taken : Option Nat := none

/-- A configuration: interfaces, their alternate settings and the endpoints of each. -/
abbrev ConfigDescriptor := List (List (List EndpointDescriptor))

structure Device where
  vendorId : UInt16
  productId : UInt16
  /-- The device descriptor cannot be read. -/
  descriptorFailure : Option Error
  ports : Except Error (List UInt8)
  config : Except Error ConfigDescriptor
  /-- The string descriptors, none if the device has none or they cannot be read. -/
  manufacturer : Option String
  name : Option String
  serialNumber : Option String
  /-- How the calls end, the first one counted as zero. -/
  opens : Nat → Option Error
  autoDetach : Nat → Option Error
  claim : Nat → Option Error
  release : Nat → Option Error
  transfers : Nat → Outcome

structure Bus where
  /-- No context can be created. -/
  initFailure : Option Error := none
  listFailure : Option Error := none
  devices : List Device

/-- An open device and the interfaces claimed on it, in ascending order. -/
structure Handle where
  device : Nat
  claimed : List UInt8
deriving DecidableEq, Repr

namespace Device

/-- At most seven port numbers can be read. -/
def portNumbers (d : Device) : Except Error (List UInt8) :=
  d.ports.bind fun ps => if 7 < ps.length then .error .overflow else .ok ps

def portPath (d : Device) : String :=
  match d.portNumbers with
  | .ok ps => Usb.portPath ps
  | .error _ => ""

end Device

/-- The text of a string descriptor: at most 255 bytes are read, and what is no text then is
    left empty. -/
def descriptorText (s : Option String) : String :=
  (s.bind fun s => Text.Utf8.decode? ((Text.Utf8.encode s).take 255)).getD ""

/-- The address that tells the direction of a pipe. -/
def Pipe.address : Pipe → UInt8
  | control t _ _ _ => t
  | bulk e => e
  | interrupt e => e

namespace Bus

/-- The outcome of the next call of a kind on a device. -/
def next {α : Type} (bus : Bus) (d : Nat) (default : α) (kind : Call → Bool)
    (answer : Device → Nat → α) : Act α := do
  let j ← get
  return (bus.devices[d]?).elim default fun dev => answer dev (j.callCount kind)

def openDevice (bus : Bus) (d : Nat) : Act (Except Error Handle) := do
  let failure ← bus.next d (some .noDevice) (Call.isOpenOf d) Device.opens
  Act.call (.openDevice d failure)
  return match failure with
    | some e => .error e
    | none => .ok ⟨d, []⟩

def autoDetach (bus : Bus) (h : Handle) : Act Unit := do
  let failure ← bus.next h.device none (Call.isAutoDetachOf h.device) Device.autoDetach
  Act.call (.autoDetach h.device failure)

/-- Keeps an ascending list of different numbers. -/
def insertInterface (i : UInt8) : List UInt8 → List UInt8
  | [] => [i]
  | k :: ks => if i < k then i :: k :: ks else if i = k then k :: ks else k :: insertInterface i ks

def claim (bus : Bus) (h : Handle) (i : UInt8) : Act (Option Error × Handle) := do
  let failure ← bus.next h.device none (Call.isClaimOf h.device) Device.claim
  Act.call (.claim h.device i failure)
  return (failure, if failure.isNone then { h with claimed := insertInterface i h.claimed } else h)

def release (bus : Bus) (h : Handle) (i : UInt8) : Act (Option Error × Handle) := do
  let failure ← bus.next h.device none (Call.isReleaseOf h.device) Device.release
  Act.call (.release h.device i failure)
  return (failure, if failure.isNone then { h with claimed := h.claimed.filter (· != i) } else h)

def releaseAll (bus : Bus) (h : Handle) : List UInt8 → Act Unit
  | [] => pure ()
  | i :: is => do
    let _ ← bus.release h i
    bus.releaseAll h is

/-- Releases what is still claimed and closes the device. -/
def drop (bus : Bus) (h : Handle) : Act Unit := do
  bus.releaseAll h h.claimed
  Act.call (.closeDevice h.device)

/-- The length that the native call is given. -/
def wireLength (pipe : Pipe) (len : Nat) : Nat :=
  match pipe with
  | .control .. => len % 65536
  | _ => len

/-- Whether a failed transfer counts as one cut short. -/
def cutShort (pipe : Pipe) (e : Error) (moved : Nat) : Bool :=
  match pipe with
  | .control .. => false
  | _ => (e == .timeout || e == .interrupted) && 0 < moved

/-- Reads at most `len` bytes. -/
def read (bus : Bus) (h : Handle) (pipe : Pipe) (len : Nat) (timeoutMs : UInt32) :
    Act (Except Error (List UInt8)) := do
  if !isInput pipe.address then return .error .invalidParam
  let len := wireLength pipe len
  let o ← bus.next h.device {} (Call.isTransferOf h.device) Device.transfers
  Act.call (.transfer h.device pipe len timeoutMs none)
  let got := o.data.take len
  return match o.failure with
    | none => .ok got
    | some e => if cutShort pipe e got.length then .ok got else .error e

/-- Writes the bytes; gives the number of those that were taken. -/
def write (bus : Bus) (h : Handle) (pipe : Pipe) (bytes : List UInt8) (timeoutMs : UInt32) :
    Act (Except Error Nat) := do
  if isInput pipe.address then return .error .invalidParam
  let sent := bytes.take (wireLength pipe bytes.length)
  let o ← bus.next h.device {} (Call.isTransferOf h.device) Device.transfers
  Act.call (.transfer h.device pipe sent.length timeoutMs (some sent))
  let moved := min (o.taken.getD sent.length) sent.length
  return match o.failure with
    | none => .ok moved
    | some e => if cutShort pipe e moved then .ok moved else .error e

/-- Creates the context; all USB work needs one. -/
def create (bus : Bus) : Act (Except LinkError Unit) := do
  match bus.initFailure with
  | some e => return .error (.resource s!"failed to create libusb context: {e.text}")
  | none =>
    Act.call (.setDebug 2)
    Act.log ⟨.debug, "libusb context created", []⟩
    return .ok ()

end Bus

end Peripheral.Usb
