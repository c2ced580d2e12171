import Peripheral.Address.Text

/-
  Peripheral.Mac — hardware addresses: six octets. The text has six parts between colons or
  dashes, each a number of one or two characters in hexadecimal; it is written in upper case
  with colons. The all-zero address stands for none.
-/

namespace Peripheral

structure Mac where
  octets : Vector UInt8 6
deriving DecidableEq, Repr

namespace Mac

def ofNats (l : List Nat) : Mac := ⟨Vector.ofFn fun i => UInt8.ofNat (l.getD i 0)⟩

def zero : Mac := ofNats []

instance : Inhabited Mac := ⟨zero⟩

def isZero (m : Mac) : Bool := m == zero

def isSeparator (c : Char) : Bool := c == ':' || c == '-'

/-- Bytes of UTF-8. -/
def byteLength (part : List Char) : Nat := part.foldr (fun c n => c.utf8Size + n) 0

/-- A part is at most two bytes long. -/
def readPart? (part : List Char) : Option Nat :=
  if part.isEmpty || 2 < byteLength part then none
  else Text.Numeral.read? 16 256 part

def ofText? (text : String) : Option Mac :=
  let parts := (Text.trim text.toList).splitOnP isSeparator
  if parts.length = 6 then (parts.mapM readPart?).map ofNats else none

def parse (text : String) : Except AddressError Mac :=
  match ofText? text with
  | some m => .ok m
  | none => .error (.invalidFormat text)

def upperOctet (n : Nat) : List Char := (Text.Numeral.padded 16 2 n).map Char.toUpper

def text (m : Mac) : String :=
  String.ofList ([':'].intercalate (m.octets.toList.map fun o => upperOctet o.toNat))

instance : ToString Mac := ⟨text⟩

end Mac

end Peripheral
