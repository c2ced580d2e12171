import Peripheral.Configuration
import Peripheral.Http.Client

/-
  Peripheral.Http.Session — a session with one host over HTTP.

  Reading gets a resource and takes as much of it as fits; writing sends the buffer. A
  response is good with a status of 2xx only. No request changes the session. The time that
  requests may take is that of the configuration at the time of opening, and at least one
  millisecond.
-/

namespace Peripheral.Http

structure Session where
  identity : HostIdentity
  configuration : HttpConfiguration := {}
  /-- The milliseconds that each request may take, while the session is open. -/
  requestMs : Option UInt32 := none
deriving DecidableEq, Repr

/-- Why no session can be made. -/
inductive StartFailure
  | runtime (reason : String)
  | client (reason : String)
deriving DecidableEq, Repr

def StartFailure.link : StartFailure → LinkError
  | runtime reason => .resource s!"failed to create HTTP runtime: {reason}"
  | client reason => .resource s!"failed to create HTTP client: {reason}"

namespace Session

def isOpen (s : Session) : Bool := s.requestMs.isSome

def openSession (failure : Option StartFailure) : Op Session Unit := do
  let s ← Op.session
  if s.isOpen then return
  if let some f := failure then Op.fail f.link
  Op.set { s with requestMs := some (max s.configuration.timeoutMs 1) }
  Op.log ⟨.info, "HTTP device opened", [("device", s.identity.text)]⟩

def close : Op Session Unit := do
  let s ← Op.session
  if s.isOpen then
    Op.set { s with requestMs := none }
    Op.log ⟨.debug, "Closing HTTP device", [("device", s.identity.text)]⟩

/-- One endpoint in both directions while open: the port. -/
def endpoints (s : Session) : List Endpoint :=
  if s.isOpen then [⟨.duplex, s.identity.port⟩] else []

/-- The checks before a request, in order; its verb, its path and the time it may take. -/
def readyFor (s : Session) (t : Transfer) (len : Nat) : Except LinkError (Verb × String × UInt32) := do
  match t with
  | .http verb path =>
    checkBuffer len
    let ms ← match s.requestMs with
      | some ms => pure ms
      | none => throw .notOpen
    if path.isEmpty then throw (.invalidArgument "resource path must not be empty")
    return (verb, path, ms)
  | t => throw (.unsupported .http t.kind)

/-- Sends a request; the body of a good response. -/
def send (client : Client) (ms : UInt32) (verb : Verb) (path : String) (body : List UInt8) :
    Op Session (List UInt8) := do
  let s ← Op.session
  let url := resourceText s.identity path
  match ← Op.act (client ms url verb body) with
  | .brokenDown => Op.fail (.resource "HTTP worker thread panicked")
  | .failed fault =>
    Op.log ⟨.debug, "HTTP request failed", [("url", url), ("error", fault.reason)]⟩
    if fault.isConnect || fault.isTimeout then Op.fail (.unreachable s!"{url}: {fault.reason}")
    else Op.fail (.resource fault.reason)
  | .response status content =>
    Op.log ⟨.trace, "HTTP response",
      [("method", verb.name), ("url", url), ("status", s!"{status}")]⟩
    if isSuccess status then return content
    Op.fail (.native status (statusText status))

def read (client : Client) (t : Transfer) (len : Nat) : Op Session (List UInt8) := do
  let (verb, path, ms) ← Op.require ((← Op.session).readyFor t len)
  if verb ≠ .get then
    Op.fail (.invalidArgument s!"HTTP reads use GET, not {verb.name}")
  return (← send client ms .get path []).take len

def write (client : Client) (t : Transfer) (bytes : List UInt8) : Op Session Nat := do
  let (verb, path, ms) ← Op.require ((← Op.session).readyFor t bytes.length)
  if verb = .get then
    Op.fail (.invalidArgument "HTTP writes cannot use GET")
  let _ ← send client ms verb path bytes
  return bytes.length

/-- A session and the buffer that its caller lends it. -/
structure Lent where
  session : Session
  buffer : List UInt8

/-- Reads into the buffer: what arrives takes the place of as many bytes at the front. -/
def readInto (client : Client) (t : Transfer) : Op Lent Nat := do
  let lent ← Op.session
  let bytes ← Op.onPart lent.session (Lent.mk · lent.buffer) (read client t lent.buffer.length)
  Op.set { (← Op.session) with buffer := bytes ++ lent.buffer.drop bytes.length }
  return bytes.length

end Session

end Peripheral.Http
