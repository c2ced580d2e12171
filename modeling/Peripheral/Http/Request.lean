import Peripheral.Json.Basic
import Peripheral.Text.Hex

/-
  Peripheral.Http.Request — a request as a peer receives it.
-/

namespace Peripheral.Http

structure Request where
  /-- The place of the peer among all peers. -/
  peer : Nat
  line : String
  host : String
  contentLength : Option String
  body : List UInt8
deriving DecidableEq, Repr

def Request.toJson (r : Request) : Json :=
  .obj [("line", .str r.line), ("host", .str r.host),
    ("content_length", Json.ofOption .str r.contentLength), ("body", .str (Text.Hex.encode r.body))]

end Peripheral.Http
