import Peripheral.Text.Hidden
import Peripheral.Text.Numeral

/-
  Peripheral.Text.Quoted — a text between double quotes, as messages show it: the quote, the
  backslash and the four control characters with a letter are escaped by a backslash, every
  other hidden character by its code point in hexadecimal, and the rest stands for itself.
-/

namespace Peripheral.Text

/-- One character inside the quotes. -/
def quoteChar (c : Char) : List Char :=
  match c with
  | '"' => ['\\', '"']
  | '\\' => ['\\', '\\']
  | '\n' => ['\\', 'n']
  | '\r' => ['\\', 'r']
  | '\t' => ['\\', 't']
  | '\x00' => ['\\', '0']
  | c =>
    if isHidden c then ['\\', 'u', '\x7b'] ++ Numeral.write 16 c.toNat ++ ['\x7d'] else [c]

def quoted (s : String) : String :=
  String.ofList ('"' :: s.toList.flatMap quoteChar ++ ['"'])

end Peripheral.Text
