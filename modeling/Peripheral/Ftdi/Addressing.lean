import Peripheral.Configuration

/-
  Peripheral.Ftdi.Addressing — how the interfaces of an FTDI chip are addressed. Endpoint
  addresses are bytes: those of interfaces from 63 or 64 on do not fit, and computing one is
  an overflow. The double of the interface number is computed first.
-/

namespace Peripheral

/-- Which step of a computation left the byte. -/
inductive Overflow
  | sum
  | product
deriving DecidableEq, Repr

def Overflow.message : Overflow → String
  | sum => "attempt to add with overflow"
  | product => "attempt to multiply with overflow"

namespace FtdiConfiguration

/-- The index of vendor requests to the interface. -/
def requestIndex (c : FtdiConfiguration) : UInt16 := UInt16.ofNat (c.interface.toNat + 1)

/-- `first + 2 * interface` as a byte. -/
def endpointFrom (first : Nat) (c : FtdiConfiguration) : Except Overflow UInt8 :=
  let twice := 2 * c.interface.toNat
  if 255 < twice then .error .product
  else if 255 < first + twice then .error .sum
  else .ok (UInt8.ofNat (first + twice))

def inEndpoint (c : FtdiConfiguration) : Except Overflow UInt8 := c.endpointFrom 0x81

def outEndpoint (c : FtdiConfiguration) : Except Overflow UInt8 := c.endpointFrom 0x02

/-- The mode in the high byte, the mask in the low one. -/
def bitModeValue (c : FtdiConfiguration) : UInt16 :=
  UInt16.ofNat (c.bitMode.toNat * 256 + c.bitMask.toNat)

end FtdiConfiguration

end Peripheral
