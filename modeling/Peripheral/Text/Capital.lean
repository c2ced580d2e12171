/-
  Peripheral.Text.Capital — upper case as far as it yields Latin capitals. Besides the small
  Latin letters, the dotless i, the long s, the sharp s and the Latin ligatures have capitals
  among them; every other character stands for itself.
-/

namespace Peripheral.Text

def capital (c : Char) : List Char :=
  match c.toNat with
  | 0xDF => ['S', 'S']
  | 0x131 => ['I']
  | 0x17F => ['S']
  | 0xFB00 => ['F', 'F']
  | 0xFB01 => ['F', 'I']
  | 0xFB02 => ['F', 'L']
  | 0xFB03 => ['F', 'F', 'I']
  | 0xFB04 => ['F', 'F', 'L']
  | 0xFB05 => ['S', 'T']
  | 0xFB06 => ['S', 'T']
  | _ => [c.toUpper]

def capitals (s : String) : String := String.ofList (s.toList.flatMap capital)

end Peripheral.Text
