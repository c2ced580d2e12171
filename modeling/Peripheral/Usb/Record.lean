import Peripheral.Json.Basic
import Peripheral.Text.Hex
import Peripheral.Usb.Call

/-
  Peripheral.Usb.Record — native calls as data. A device is named by its ports; `places` lists
  those of every device on the bus.
-/

namespace Peripheral.Usb

/-- The fields of a pipe. -/
def Pipe.fields : Pipe → List (String × Json)
  | control t r v i => [("request_type", .nat t.toNat), ("request", .nat r.toNat),
      ("value", .nat v.toNat), ("index", .nat i.toNat)]
  | bulk e | interrupt e => [("endpoint", .nat e.toNat)]

def Pipe.name : Pipe → String
  | control .. => "control"
  | bulk _ => "bulk"
  | interrupt _ => "interrupt"

namespace Call

def record (places : List Json) (name : String) (d : Nat) (fields : List (String × Json)) : Json :=
  .obj ([("call", .str name), ("ports", places.getD d (.arr []))] ++ fields)

def toJson (places : List Json) : Call → Json
  | setDebug n => .obj [("call", .str "set_debug"), ("level", .nat n)]
  | openDevice d e => record places "open" d [("result", .int (e.elim 0 Error.code))]
  | closeDevice d => record places "close" d []
  | autoDetach d _ => record places "auto_detach" d [("enable", .int 1)]
  | claim d i _ => record places "claim" d [("interface", .nat i.toNat)]
  | release d i _ => record places "release" d [("interface", .nat i.toNat)]
  | transfer d pipe len ms sent => record places pipe.name d (pipe.fields ++
      [("len", .nat len), ("timeout", .nat ms.toNat)] ++
      sent.elim [] fun bytes => [("data", .str (Text.Hex.encode bytes))])

end Call

end Peripheral.Usb
