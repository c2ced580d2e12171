import Peripheral.Text.Numeral

/-
  Peripheral.Text.Hex — bytes as text, two hexadecimal digits for each.
-/

namespace Peripheral.Text.Hex

def encode (bytes : List UInt8) : String :=
  String.ofList (bytes.flatMap fun b => Numeral.padded 16 2 b.toNat)

/-- Reads pairs of digits in either case. -/
def decodeChars? : List Char → Option (List UInt8)
  | [] => some []
  | a :: b :: rest => do
    let n ← Numeral.unsigned? 16 [a, b]
    some (UInt8.ofNat n :: (← decodeChars? rest))
  | _ => none

def decode? (text : String) : Option (List UInt8) := decodeChars? text.toList

end Peripheral.Text.Hex
