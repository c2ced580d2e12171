import Peripheral.Text.Numeral

/-
  Peripheral.Json.Basic — JSON values and their compact text.

  An object keeps its members in order, repeated names included. A whole number of any size
  is an `int`; a number written with a fraction or an exponent, and `-0`, is a `decimal` and
  keeps its text. `unreadable` is a well-formed part of a text that stands for no value: an
  unpaired surrogate, a number beyond the range of doubles, arrays and objects nested deeper
  than the limit. It may be skipped and cannot be read.

  The compact text has no blanks. A string shows every character as it is, but for the quote,
  the backslash and the characters below the space.
-/

namespace Peripheral

inductive Json
  | null
  | bool (b : Bool)
  | int (n : Int)
  | decimal (text : String)
  | str (s : String)
  | arr (items : List Json)
  | obj (members : List (String × Json))
  | unreadable
deriving Repr, Inhabited, BEq

namespace Json

/-! ## Writing -/

/-- One character between the quotes. -/
def escape (c : Char) : List Char :=
  match c with
  | '"' => ['\\', '"']
  | '\\' => ['\\', '\\']
  | '\n' => ['\\', 'n']
  | '\r' => ['\\', 'r']
  | '\t' => ['\\', 't']
  | '\x08' => ['\\', 'b']
  | '\x0c' => ['\\', 'f']
  | c => if c.toNat < 32 then ['\\', 'u'] ++ Text.Numeral.padded 16 4 c.toNat else [c]

def writeString (s : String) : List Char := '"' :: s.toList.flatMap escape ++ ['"']

def writeInt : Int → List Char
  | .ofNat n => Text.Numeral.write 10 n
  | .negSucc n => '-' :: Text.Numeral.write 10 (n + 1)

mutual

def write : Json → List Char
  | null => "null".toList
  | bool true => "true".toList
  | bool false => "false".toList
  | int n => writeInt n
  | decimal text => text.toList
  | str s => writeString s
  | arr items => '[' :: writeItems items ++ [']']
  | obj members => '\x7b' :: writeMembers members ++ ['\x7d']
  | unreadable => []

def writeItems : List Json → List Char
  | [] => []
  | [j] => write j
  | j :: rest => write j ++ ',' :: writeItems rest

def writeMembers : List (String × Json) → List Char
  | [] => []
  | [(name, j)] => writeString name ++ ':' :: write j
  | (name, j) :: rest => writeString name ++ ':' :: write j ++ ',' :: writeMembers rest

end

def text (j : Json) : String := String.ofList (write j)

/-! ## Views -/

mutual

/-- Nothing in it is unreadable. -/
def isReadable : Json → Bool
  | unreadable => false
  | arr items => itemsReadable items
  | obj members => membersReadable members
  | _ => true

def itemsReadable : List Json → Bool
  | [] => true
  | j :: rest => isReadable j && itemsReadable rest

def membersReadable : List (String × Json) → Bool
  | [] => true
  | (_, j) :: rest => isReadable j && membersReadable rest

end

def nat (n : Nat) : Json := int n

def ofOption {α : Type} (f : α → Json) : Option α → Json
  | none => null
  | some a => f a

end Json

end Peripheral
