import Peripheral.Link.Error
import Peripheral.Net.Peer

/-
  Peripheral.Net.Network — what the operating system says to the calls of a socket.

  A network is how each call ends; `ofPeers` is the network on which given peers wait on the
  addresses of the machine itself. Where no peer waits, TCP is refused, and so is a datagram:
  the refusal reaches the sender at its next call. A network without any peer has no
  interface at all, not even the machine's own.
-/

namespace Peripheral.Net

/-- A connection as seen from this side. -/
structure Connection where
  /-- What has arrived and was not read yet. -/
  arrived : List UInt8 := []
  /-- The peer sends back what it receives. -/
  echoes : Bool := false
  /-- The peer has closed. -/
  finished : Bool := false
  /-- Datagrams that no one waits for. -/
  datagrams : Bool := false
  /-- A refusal waits for the next call. -/
  refused : Bool := false
  /-- The milliseconds that receiving and sending may take; none for any time. -/
  timeoutMs : Option UInt32 := none
deriving DecidableEq, Repr

/-- How calls end; an error is a number of the operating system. -/
structure Network where
  create : Address → UInt16 → Protocol → Except Int Unit
  setTimeout : Connection → (ms : UInt32) → Except Int Unit
  /-- Connects within a time, if one is given. -/
  connect : Address → UInt16 → Protocol → (ms : Option UInt32) → Except Int Connection
  receive : Connection → Nat → Except Int (List UInt8) × Connection
  send : Connection → List UInt8 → Except Int Unit × Connection

namespace Connection

def ofKind : PeerKind → Connection
  | .echo => { echoes := true }
  | .sink | .http _ => {}
  | .greet data => { arrived := data, finished := true }

/-- Takes what has arrived; with nothing there, the end of the stream or no data in time. -/
def receive (c : Connection) (len : Nat) : Except Int (List UInt8) × Connection :=
  if c.refused then (.error SystemError.connectionRefused, { c with refused := false })
  else if c.arrived.isEmpty then
    (if c.finished then .ok [] else .error SystemError.wouldBlock, c)
  else (.ok (c.arrived.take len), { c with arrived := c.arrived.drop len })

def send (c : Connection) (bytes : List UInt8) : Except Int Unit × Connection :=
  if c.refused then (.error SystemError.connectionRefused, { c with refused := false })
  else if c.datagrams then (.ok (), { c with refused := true })
  else (.ok (), if c.echoes then { c with arrived := c.arrived ++ bytes } else c)

end Connection

/-- Addresses of the machine itself. -/
def isLoopback : Address → Bool
  | .v4 octets => octets.get ⟨0, by decide⟩ == 127
  | a@(.v6 _) => a.segments == [0, 0, 0, 0, 0, 0, 0, 1]

/-- The address that packets go to: a v6 address that stands for a v4 address is reached
    at that one. -/
def destination (a : Address) : Address :=
  match a.family, a.segments with
  | .v6, [0, 0, 0, 0, 0, 0xffff, g, h] => .ofSegments .v4 [g / 256, g % 256, h / 256, h % 256]
  | _, _ => a

/-- The place of the peer that waits at an address and port. -/
def peerAt? (peers : List Peer) (ip : Address) (port : UInt16) : Option Nat :=
  peers.findIdx? fun p => destination p.ip == destination ip && p.port == port

/-- A v6 address of a group of hosts. -/
def isGroup (first : UInt16) : Bool := first &&& 0xFF00 == 0xFF00

/-- A v6 address that means nothing unless a link is named with it: of one host on the link,
    or of a group on the link or on the machine itself. -/
def needsLink (first : UInt16) : Bool :=
  first &&& 0xFFC0 == 0xFE80 || isGroup first && (first &&& 0xF == 1 || first &&& 0xF == 2)

/-- Why there is no way to an address other than the machine's own. A v4 socket looks for a
    route only; a v6 socket looks for an address of its own first, and without an interface
    there is none. -/
def routeError (hasInterface : Bool) (protocol : Protocol) : Address → Int
  | .v4 _ => SystemError.networkUnreachable
  | .v6 groups =>
    let first := groups.get ⟨0, by decide⟩
    if isGroup first && protocol == .tcp then SystemError.networkUnreachable
    else if needsLink first then SystemError.invalidArgument
    else if hasInterface then SystemError.networkUnreachable
    else SystemError.addressNotAvailable

/-- Connecting to an address and port. -/
def connectTo (peers : List Peer) (ip : Address) (port : UInt16) (protocol : Protocol) :
    Except Int Connection :=
  let ip := destination ip
  if peers.isEmpty || !isLoopback ip then .error (routeError (!peers.isEmpty) protocol ip)
  else match protocol with
    | .udp => .ok { datagrams := true }
    | .tcp =>
      match (peerAt? peers ip port).bind (peers[·]?) with
      | some p => .ok (Connection.ofKind p.kind)
      | none => .error SystemError.connectionRefused

def Network.ofPeers (peers : List Peer) : Network where
  create _ _ _ := .ok ()
  setTimeout _ _ := .ok ()
  connect ip port protocol _ := connectTo peers ip port protocol
  receive := Connection.receive
  send := Connection.send

end Peripheral.Net
