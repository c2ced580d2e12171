import Peripheral.Json.Basic
import Peripheral.Toml.Quotes

/-
  Peripheral.Toml.Writer — data as a settings file.

  Every member of the data is a table under its header, or a list of tables under repeated
  headers; a line is left free between tables. Within a table each member is a line. A whole
  number that does not fit 64 bits with a sign cannot be written.
-/

namespace Peripheral.Toml

/-- A value on the right of an equals sign. -/
def writeValue? : Json → Option (List Char)
  | .str s => some (Quotes.write (Quotes.of s.toList) s.toList)
  | .int n => if -(1 <<< 63) ≤ n ∧ n < 1 <<< 63 then some (Json.writeInt n) else none
  | .bool b => some (Json.write (.bool b))
  | _ => none

/-- The lines of a table. -/
def writeLines? : List (String × Json) → Option (List Char)
  | [] => some []
  | (name, j) :: rest => do
    some (name.toList ++ " = ".toList ++ (← writeValue? j) ++ '\n' :: (← writeLines? rest))

def writeTable? (header : List Char) : Json → Option (List Char)
  | .obj members => (writeLines? members).map fun lines => header ++ '\n' :: lines
  | _ => none

/-- The tables of one member. -/
def writeMember? (name : String) : Json → Option (List (List Char))
  | .arr items => items.mapM (writeTable? ("[[".toList ++ name.toList ++ "]]".toList))
  | j => (writeTable? ('[' :: name.toList ++ [']']) j).map ([·])

def writeMembers? : List (String × Json) → Option (List (List Char))
  | [] => some []
  | (name, j) :: rest => do some ((← writeMember? name j) ++ (← writeMembers? rest))

/-- The text of a file. -/
def text? : Json → Option String
  | .obj members => (writeMembers? members).map fun ts => String.ofList (['\n'].intercalate ts)
  | _ => none

end Peripheral.Toml
