import Peripheral.Link.Error

/-
  Peripheral.Usb.Error — the failures of native USB calls: their codes, their symbolic names
  and the words that describe them.
-/

namespace Peripheral.Usb

inductive Error
  | io
  | invalidParam
  | access
  | noDevice
  | notFound
  | busy
  | timeout
  | overflow
  | pipe
  | interrupted
  | noMem
  | notSupported
  | other
deriving DecidableEq, Repr

namespace Error

def code : Error → Int
  | io => -1
  | invalidParam => -2
  | access => -3
  | noDevice => -4
  | notFound => -5
  | busy => -6
  | timeout => -7
  | overflow => -8
  | pipe => -9
  | interrupted => -10
  | noMem => -11
  | notSupported => -12
  | other => -99

def text : Error → String
  | io => "Input/Output Error"
  | invalidParam => "Invalid parameter"
  | access => "Access denied (insufficient permissions)"
  | noDevice => "No such device (it may have been disconnected)"
  | notFound => "Entity not found"
  | busy => "Resource busy"
  | timeout => "Operation timed out"
  | overflow => "Overflow"
  | pipe => "Pipe error"
  | interrupted => "System call interrupted (perhaps due to signal)"
  | noMem => "Insufficient memory"
  | notSupported => "Operation not supported or unimplemented on this platform"
  | other => "Other error"

/-- What is no name of a failure is some other failure. -/
def ofName : String → Error
  | "Io" => io
  | "InvalidParam" => invalidParam
  | "Access" => access
  | "NoDevice" => noDevice
  | "NotFound" => notFound
  | "Busy" => busy
  | "Timeout" => timeout
  | "Overflow" => overflow
  | "Pipe" => pipe
  | "Interrupted" => interrupted
  | "NoMem" => noMem
  | "NotSupported" => notSupported
  | _ => other

end Error

/-- The symbolic name of a code. -/
def codeName : Int → String
  | 0 => "LIBUSB_SUCCESS"
  | -1 => "LIBUSB_ERROR_IO"
  | -2 => "LIBUSB_ERROR_INVALID_PARAM"
  | -3 => "LIBUSB_ERROR_ACCESS"
  | -4 => "LIBUSB_ERROR_NO_DEVICE"
  | -5 => "LIBUSB_ERROR_NOT_FOUND"
  | -6 => "LIBUSB_ERROR_BUSY"
  | -7 => "LIBUSB_ERROR_TIMEOUT"
  | -8 => "LIBUSB_ERROR_OVERFLOW"
  | -9 => "LIBUSB_ERROR_PIPE"
  | -10 => "LIBUSB_ERROR_INTERRUPTED"
  | -11 => "LIBUSB_ERROR_NO_MEM"
  | -12 => "LIBUSB_ERROR_NOT_SUPPORTED"
  | -99 => "LIBUSB_ERROR_OTHER"
  | _ => "**UNKNOWN**"

/-- The failure as a caller sees it. -/
def Error.link (e : Error) : LinkError := .native e.code (codeName e.code)

end Peripheral.Usb
