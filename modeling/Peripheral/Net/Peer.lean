import Peripheral.Identity.Basic

/-
  Peripheral.Net.Peer — peers that wait for TCP connections.
-/

namespace Peripheral.Net

/-- What an HTTP peer does with one request. -/
inductive Response
  | answer (status : Nat) (body : List UInt8) (location : Option String)
  /-- Keeps the connection and never answers. -/
  | hang
deriving DecidableEq, Repr

inductive PeerKind
  /-- Sends back what it receives. -/
  | echo
  /-- Receives and says nothing. -/
  | sink
  /-- Says its piece and closes. -/
  | greet (data : List UInt8)
  /-- Answers one request after the other; out of responses, it closes without one. -/
  | http (responses : List Response)
deriving DecidableEq, Repr

structure Peer where
  ip : Address
  port : UInt16
  kind : PeerKind
deriving DecidableEq, Repr

end Peripheral.Net
