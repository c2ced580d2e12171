import Peripheral.Transfer.Basic

/-
  Peripheral.Configuration — what a session of each backend is opened with, and the limits of
  a scan. A time of 2000 milliseconds is the default everywhere.
-/

namespace Peripheral

/-- Milliseconds. -/
def defaultTimeout : UInt32 := 2000

/-- A libusb session. -/
structure UsbConfiguration where
  /-- Of each transfer. -/
  timeoutMs : UInt32 := defaultTimeout
  /-- The interface to claim on opening. -/
  interface : Option UInt8 := none
deriving DecidableEq, Repr, Inhabited

/-- A session with an FTDI chip. -/
structure FtdiConfiguration where
  bitMode : UInt8 := 0
  bitMask : UInt8 := 0
  /-- The chip's interface, counted from zero. -/
  interface : UInt8 := 0
  timeoutMs : UInt32 := defaultTimeout
deriving DecidableEq, Repr, Inhabited

structure EthernetConfiguration where
  /-- Of connecting, reading and writing. -/
  timeoutMs : UInt32 := defaultTimeout
deriving DecidableEq, Repr, Inhabited

structure HttpConfiguration where
  /-- Of each request. -/
  timeoutMs : UInt32 := defaultTimeout
deriving DecidableEq, Repr, Inhabited

/-- The configuration of one of the backends. -/
inductive Configuration
  | libusb (c : UsbConfiguration)
  | ftdi (c : FtdiConfiguration)
  | ethernet (c : EthernetConfiguration)
  | http (c : HttpConfiguration)
deriving DecidableEq, Repr

def Configuration.transport : Configuration → Transport
  | libusb _ => .libusb
  | ftdi _ => .ftdi
  | ethernet _ => .ethernet
  | http _ => .http

/-- No scan has more probes in flight. -/
def mostConcurrentProbes : Nat := 256

/-- The limits of a scan. -/
structure ScanLimits where
  probeTimeoutMs : UInt32 := defaultTimeout
  maxConcurrent : UInt64 := 256
deriving DecidableEq, Repr, Inhabited

/-- The limit that a scan keeps: at least one probe and at most 256. -/
def ScanLimits.cap (requested : Nat) : Nat := max 1 (min requested mostConcurrentProbes)

end Peripheral
