import Peripheral.Text.Numeral

/-
  Peripheral.Usb.PortPath — the place of a device on its bus: the port numbers of the hubs
  from the root down, in decimal with colons between them.
-/

namespace Peripheral.Usb

def portPath (ports : List UInt8) : String :=
  String.ofList ([':'].intercalate (ports.map fun p => Text.Numeral.write 10 p.toNat))

end Peripheral.Usb
