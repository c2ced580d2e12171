import Peripheral.Http.Reference
import Peripheral.Http.Status
import Peripheral.Net.Network
import Peripheral.Op
import Peripheral.Transfer.Basic

/-
  Peripheral.Http.Client — one request to a host, redirects included.

  A client is how requests end; `Client.ofPeers` sends them to peers. It follows at most ten
  redirects: 303 turns every request into a GET without a body, 301 and 302 turn a POST into
  one, 307 and 308 repeat the request.
-/

namespace Peripheral.Http

/-- Why there is no response. -/
structure Fault where
  /-- No connection was made. -/
  isConnect : Bool := false
  /-- Something was not there in time. -/
  isTimeout : Bool := false
  reason : String
deriving DecidableEq, Repr

/-- How a request ends. -/
inductive Result
  | response (status : Nat) (body : List UInt8)
  | failed (fault : Fault)
  /-- The thread of the request broke down. -/
  | brokenDown
deriving DecidableEq, Repr

/-- A request for a URL, which may take `ms` milliseconds. -/
abbrev Client := (ms : UInt32) → (url : String) → (verb : Verb) → (body : List UInt8) → Act Result

/-- How one exchange without redirects ends. -/
inductive Exchange
  | response (status : Nat) (body : List UInt8) (location : Option String)
  /-- There is no connection. -/
  | refused
  /-- There is no answer in time. -/
  | silent
  /-- The connection ends without a response. -/
  | cut

/-- Statuses whose responses have no body. -/
def hasNoBody (status : Nat) : Bool := status == 204 || status == 304

/-- A status of 1xx announces another response, but 101 is final. -/
def isInterim (status : Nat) : Bool := 100 ≤ status && status < 200 && status != 101

/-- The request as the peer receives it. -/
def requestTo (peer : Nat) (u : Url) (verb : Verb) (body : List UInt8) : Request where
  peer := peer
  line := s!"{verb.name} {u.target} HTTP/1.1"
  host := u.authority
  contentLength := if body.isEmpty then none else some s!"{body.length}"
  body := body

def exchange (peers : List Net.Peer) (u : Url) (verb : Verb) (body : List UInt8) : Act Exchange := do
  match u.scheme, u.address.bind (Net.peerAt? peers · u.port) with
  | "http", some i =>
    match (peers[i]?).map Net.Peer.kind with
    | some (.http responses) =>
      let before := (← get).requests.countP (·.peer == i)
      modify (·.request (requestTo i u verb body))
      match responses[before]? with
      | some (.answer status content location) =>
        if isInterim status then return .cut
        return .response status (if hasNoBody status then [] else content) location
      | some .hang => return .silent
      | none => return .cut
    | some .sink => return .silent
    | _ => return .cut
  | _, _ => return .refused

/-- The request that a redirect asks for. -/
def redirected (status : Nat) (verb : Verb) (body : List UInt8) : Option (Verb × List UInt8) :=
  if status == 303 then some (.get, [])
  else if status == 301 || status == 302 then
    some (if verb = .post then (.get, []) else (verb, body))
  else if status == 307 || status == 308 then some (verb, body)
  else none

def sendingError (u : Url) : String := s!"error sending request for url ({u.text})"

/-- Sends a request and follows at most `redirects` redirects. -/
def sendTo (peers : List Net.Peer) (start : Url) :
    (redirects : Nat) → Url → Verb → List UInt8 → Act Result
  | redirects, u, verb, body => do
    match ← exchange peers u verb body with
    | .refused => return .failed { isConnect := true, reason := sendingError start }
    | .silent => return .failed { isTimeout := true, reason := sendingError start }
    | .cut => return .failed { reason := sendingError start }
    | .response status content location =>
      match redirected status verb body, location.bind u.follow? with
      | some (verb, body), some next =>
        match redirects with
        | 0 => return .failed { reason := s!"error following redirect for url ({u.text})" }
        | redirects + 1 =>
          if next.scheme == "http" || next.scheme == "https" then
            sendTo peers start redirects next verb body
          else return .failed { reason := s!"builder error for url ({next.text})" }
      | _, _ => return .response status content
  termination_by redirects => redirects

def mostRedirects : Nat := 10

def Client.ofPeers (peers : List Net.Peer) : Client := fun _ url verb body =>
  match Url.ofText? url with
  | some u => sendTo peers u mostRedirects u verb body
  | none => return .failed { reason := "builder error" }

end Peripheral.Http
