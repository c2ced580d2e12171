/-
  Peripheral.Transfer.Basic — the shapes of a read or a write, the backends that carry them,
  and the endpoints of an open device.
-/

namespace Peripheral

/-- The method of an HTTP transfer. -/
inductive Verb
  | get
  | post
  | put
  | patch
  | delete
deriving DecidableEq, Repr

namespace Verb

def name : Verb → String
  | get => "GET"
  | post => "POST"
  | put => "PUT"
  | patch => "PATCH"
  | delete => "DELETE"

def ofName? : String → Option Verb
  | "GET" => some get
  | "POST" => some post
  | "PUT" => some put
  | "PATCH" => some patch
  | "DELETE" => some delete
  | _ => none

end Verb

/-- One read or write. -/
inductive Transfer
  | bulk (endpoint : UInt8)
  | control (requestType request : UInt8) (value index : UInt16)
  | interrupt (endpoint : UInt8)
  | http (verb : Verb) (path : String)
  /-- Raw bytes over a socket. -/
  | stream
deriving DecidableEq, Repr

def Transfer.kind : Transfer → String
  | bulk _ => "bulk"
  | control .. => "control"
  | interrupt _ => "interrupt"
  | http .. => "http"
  | stream => "stream"

/-- The backend of a session. -/
inductive Transport
  | libusb
  | ftdi
  | ethernet
  | http
deriving DecidableEq, Repr

namespace Transport

def name : Transport → String
  | libusb => "libusb"
  | ftdi => "ftdi"
  | ethernet => "ethernet"
  | http => "http"

def ofName? : String → Option Transport
  | "libusb" => some libusb
  | "ftdi" => some ftdi
  | "ethernet" => some ethernet
  | "http" => some http
  | _ => none

/-- The shapes that a backend carries. -/
def carries : Transport → Transfer → Bool
  | libusb, .bulk _ | libusb, .control .. | libusb, .interrupt _ => true
  | ftdi, .bulk _ | ftdi, .control .. => true
  | ethernet, .stream => true
  | http, .http .. => true
  | _, _ => false

end Transport

inductive Direction
  | unknown
  | input
  | output
  | duplex
deriving DecidableEq, Repr

namespace Direction

def name : Direction → String
  | unknown => "unknown"
  | input => "in"
  | output => "out"
  | duplex => "duplex"

def ofName? : String → Option Direction
  | "unknown" => some unknown
  | "in" => some input
  | "out" => some output
  | "duplex" => some duplex
  | _ => none

end Direction

/-- One endpoint of an open device: its number, or the port of a network device. -/
structure Endpoint where
  direction : Direction
  address : UInt16
deriving DecidableEq, Repr

end Peripheral
