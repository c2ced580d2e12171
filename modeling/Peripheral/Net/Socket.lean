import Peripheral.Net.Network
import Peripheral.Op
import Peripheral.Resolver

/-
  Peripheral.Net.Socket — a TCP or UDP socket that knows who it talks to.

  A socket is made by `create`, connected by `connect` and closed by `disconnect`; a
  connection counts only once the hardware address of the peer is known. After a failed
  connect the native socket is gone, and a new `create` is needed.
-/

namespace Peripheral.Net

inductive SocketState
  | uninitialized
  | initialized
  | connected
  | closed
deriving DecidableEq, Repr

def SocketState.name : SocketState → String
  | uninitialized => "Uninitialized"
  | initialized => "Initialized"
  | connected => "Connected"
  | closed => "Closed"

structure Socket where
  /-- The native socket; idle until it is connected. -/
  native : Option Connection := none
  state : SocketState := .uninitialized
  peer : Option (Address × UInt16) := none
  protocol : Protocol := .tcp
  timeoutMs : Option UInt32 := none
  /-- Empty until a connect has found it. -/
  hostname : String := ""
  /-- Zero until a connect has found it. -/
  mac : Mac := .zero
deriving DecidableEq, Repr

namespace Socket

def isConnected (s : Socket) : Bool := s.state == .connected

def targetText (peer : Address × UInt16) : String := peer.1.withPort peer.2.toNat

def text (s : Socket) : String :=
  match s.peer with
  | some peer => s!"{targetText peer} ({s.protocol.label})"
  | none => "<uninitialized>"

/-- Drops the native socket, if there is one. -/
def disconnected (s : Socket) : Socket :=
  if s.native.isSome then { s with native := none, state := .closed } else s

def disconnect : Op Socket Unit := Op.update disconnected

/-- Hands a timeout to the native socket, if there is one. -/
def applyTimeout (net : Network) (ms : UInt32) : Op Socket Unit := do
  if let some c := (← Op.session).native then
    match net.setTimeout c ms with
    | .ok _ => Op.update fun s => { s with native := some { c with timeoutMs := some ms } }
    | .error code => Op.fail (.system code)

/-- Makes the native socket for a peer; one made before is closed. -/
def create (net : Network) (ip : Address) (port : UInt16) (protocol : Protocol) :
    Op Socket Unit := do
  disconnect
  let target := targetText (ip, port)
  match net.create ip port protocol with
  | .error code => Op.fail (.resource
      s!"failed to create {protocol.label} socket for {target}: {SystemError.text code}")
  | .ok _ =>
    Op.update fun s => { s with
      native := some {}, peer := some (ip, port), protocol, hostname := "", mac := .zero,
      state := .initialized }
    if let some ms := (← Op.session).timeoutMs then applyTimeout net ms
    Op.log ⟨.trace, "Socket initialized", [("address", target), ("protocol", protocol.label)]⟩

/-- Sets the time that connecting, reading and writing may take. -/
def setTimeout (net : Network) (ms : UInt32) : Op Socket Unit := do
  if ms = 0 then Op.fail (.invalidArgument "timeout must be greater than zero")
  Op.update fun s => { s with timeoutMs := some ms }
  applyTimeout net ms

/-- The time that a connect may take: only that of TCP is limited. -/
def connectLimit (s : Socket) : Option UInt32 :=
  match s.protocol with
  | .tcp => s.timeoutMs
  | .udp => none

/-- Connects and finds out who the peer is. -/
def connect (net : Network) (resolver : Resolver) : Op Socket Unit := do
  let s ← Op.session
  if s.isConnected then return
  match s.native, s.peer with
  | some idle, some peer =>
    let target := targetText peer
    match net.connect peer.1 peer.2 s.protocol s.connectLimit with
    | .error code =>
      Op.log ⟨.trace, "Connect failed", [("address", target), ("error", SystemError.text code)]⟩
      disconnect
      Op.fail (.unreachable s!"{target}: {SystemError.text code}")
    | .ok connection =>
      Op.update fun s => { s with
        native := some { connection with timeoutMs := idle.timeoutMs }
        hostname := resolver.hostname peer.1 }
      match resolver.mac peer.1 with
      | .error e =>
        Op.log ⟨.debug, "MAC resolution failed", [("address", target), ("error", e.message)]⟩
        disconnect
        Op.fail e
      | .ok mac =>
        Op.update fun s => { s with mac, state := .connected }
        Op.log ⟨.trace, "Socket connected", [("address", target),
          ("hostname", resolver.hostname peer.1), ("mac", mac.text)]⟩
  | _, _ => Op.fail (.resource "socket is not initialized")

/-- The connection of a connected socket. -/
def connection (s : Socket) : Except LinkError Connection :=
  match s.native, s.state with
  | some c, .connected => .ok c
  | _, _ => .error .notOpen

def read (net : Network) (len : Nat) : Op Socket (List UInt8) := do
  Op.require (checkBuffer len)
  let c ← Op.require (← Op.session).connection
  let (result, c) := net.receive c len
  Op.update fun s => { s with native := some c }
  Op.require (result.mapError LinkError.system)

def write (net : Network) (bytes : List UInt8) : Op Socket Nat := do
  Op.require (checkBuffer bytes.length)
  let c ← Op.require (← Op.session).connection
  let (result, c) := net.send c bytes
  Op.update fun s => { s with native := some c }
  Op.require ((result.mapError LinkError.system).map fun _ => bytes.length)

end Socket

end Peripheral.Net
