import Peripheral.Usb.Error

/-
  Peripheral.Usb.Call — the native calls that sessions and enumerations make, as records.
  Devices are named by their place on the bus. A call that failed carries its error.
-/

namespace Peripheral.Usb

/-- What a native transfer is addressed to. -/
inductive Pipe
  | control (requestType request : UInt8) (value index : UInt16)
  | bulk (endpoint : UInt8)
  | interrupt (endpoint : UInt8)
deriving DecidableEq, Repr

inductive Call
  /-- Sets how much the native library logs. -/
  | setDebug (level : Nat)
  | openDevice (device : Nat) (failure : Option Error)
  | closeDevice (device : Nat)
  | autoDetach (device : Nat) (failure : Option Error)
  | claim (device : Nat) (interface : UInt8) (failure : Option Error)
  | release (device : Nat) (interface : UInt8) (failure : Option Error)
  /-- `sent` holds the bytes of a transfer to the device. -/
  | transfer (device : Nat) (pipe : Pipe) (len : Nat) (timeoutMs : UInt32) (sent : Option (List UInt8))
deriving DecidableEq, Repr

namespace Call

def isOpenOf (d : Nat) : Call → Bool
  | openDevice e _ => e == d
  | _ => false

def isAutoDetachOf (d : Nat) : Call → Bool
  | autoDetach e _ => e == d
  | _ => false

def isClaimOf (d : Nat) : Call → Bool
  | claim e _ _ => e == d
  | _ => false

def isReleaseOf (d : Nat) : Call → Bool
  | release e _ _ => e == d
  | _ => false

def isTransferOf (d : Nat) : Call → Bool
  | transfer e .. => e == d
  | _ => false

end Call

end Peripheral.Usb
