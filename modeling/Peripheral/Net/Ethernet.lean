import Peripheral.Configuration
import Peripheral.Net.Socket
import Peripheral.Scan.Probe

/-
  Peripheral.Net.Ethernet — a session with one host over a raw socket, and the probe that asks
  whether a host answers.
-/

namespace Peripheral.Net

structure EthernetSession where
  identity : HostIdentity
  configuration : EthernetConfiguration := {}
  socket : Socket := {}
deriving DecidableEq, Repr

namespace EthernetSession

def isOpen (s : EthernetSession) : Bool := s.socket.isConnected

/-- An operation of the session's socket. -/
def onSocket {α : Type} (op : Op Socket α) : Op EthernetSession α := do
  let s ← Op.session
  Op.onPart s.socket (fun socket => { s with socket }) op

def openSession (net : Network) (resolver : Resolver) : Op EthernetSession Unit := do
  let s ← Op.session
  if s.isOpen then return
  onSocket (Socket.create net s.identity.ip s.identity.port s.identity.protocol)
  onSocket (Socket.setTimeout net s.configuration.timeoutMs)
  onSocket (Socket.connect net resolver)
  Op.log ⟨.info, "Ethernet device opened", [("device", s.identity.text)]⟩

def close : Op EthernetSession Unit := do
  let s ← Op.session
  if s.isOpen then Op.log ⟨.debug, "Closing Ethernet device", [("device", s.identity.text)]⟩
  onSocket Socket.disconnect

/-- One endpoint in both directions: the port. -/
def endpoints (s : EthernetSession) : List Endpoint := [⟨.duplex, s.identity.port⟩]

/-- The checks before a transfer, in order. -/
def readyFor (s : EthernetSession) (t : Transfer) (len : Nat) : Except LinkError Unit := do
  Transport.ethernet.check t
  checkBuffer len
  if s.isOpen then .ok () else .error .notOpen

def read (net : Network) (t : Transfer) (len : Nat) : Op EthernetSession (List UInt8) := do
  Op.require ((← Op.session).readyFor t len)
  onSocket (Socket.read net len)

def write (net : Network) (t : Transfer) (bytes : List UInt8) : Op EthernetSession Nat := do
  Op.require ((← Op.session).readyFor t bytes.length)
  onSocket (Socket.write net bytes)

end EthernetSession

/-- Connects a socket and tells who is there. -/
def identifyHost (net : Network) (resolver : Resolver) (timeoutMs : UInt32)
    (ip : Address) (port : UInt16) (protocol : Protocol) : Op Socket HostIdentity := do
  Socket.create net ip port protocol
  Socket.setTimeout net timeoutMs
  Socket.connect net resolver
  let s ← Op.session
  Socket.disconnect
  return ⟨s.hostname, ip, s.mac, port, protocol⟩

/-- A probe that connects a socket. A time of zero counts as one millisecond. -/
def socketProbe (net : Network) (resolver : Resolver) (timeoutMs : UInt32) : Probe :=
  fun ip port protocol =>
    match ((identifyHost net resolver (max timeoutMs 1) ip port protocol).perform {} {}).1 with
    | .ok host => .found host
    | .error _ => .silent

end Peripheral.Net
