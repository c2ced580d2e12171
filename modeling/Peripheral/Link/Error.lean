import Peripheral.Address.Text
import Peripheral.Link.SystemError
import Peripheral.Transfer.Basic

/-
  Peripheral.Link.Error — what can go wrong between a handle and its device.
-/

namespace Peripheral

inductive LinkError
  /-- A native resource could not be made or opened. -/
  | resource (reason : String)
  | notOpen
  | invalidArgument (reason : String)
  | unreachable (host : String)
  | address (error : AddressError)
  /-- The backend does not carry transfers of this shape. -/
  | unsupported (transport : Transport) (transfer : String)
  /-- Reported by the backend with a code of its own. -/
  | native (code : Int) (text : String)
  /-- Reported by the operating system. -/
  | system (code : Int)
deriving DecidableEq, Repr

namespace LinkError

def message : LinkError → String
  | resource reason => s!"Resource error: {reason}"
  | notOpen => "Device is not open"
  | invalidArgument reason => s!"Invalid argument: {reason}"
  | unreachable host => s!"Host {host} is unreachable"
  | address error => s!"Address error: {error.message}"
  | unsupported transport transfer =>
    s!"Transfer kind '{transfer}' is not supported by the {transport.name} transport"
  | native code text => s!"{text} (code {code})"
  | system code => s!"IO error: {SystemError.text code}"

/-- The code of the backend or the operating system. -/
def code? : LinkError → Option Int
  | native code _ => some code
  | system code => some code
  | _ => none

end LinkError

/-- Refuses a transfer that the backend does not carry. -/
def Transport.check (t : Transport) (transfer : Transfer) : Except LinkError Unit :=
  if t.carries transfer then .ok () else .error (.unsupported t transfer.kind)

/-- Refuses an empty buffer. -/
def checkBuffer (len : Nat) : Except LinkError Unit :=
  if len = 0 then .error (.invalidArgument "buffer must not be empty") else .ok ()

end Peripheral
