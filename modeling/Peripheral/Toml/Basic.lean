import Peripheral.Json.Basic

/-
  Peripheral.Toml.Basic — the values of a settings file.

  A table remembers how it came about, for that decides whether it may still grow:
  - named by a header of its own, it is `explicit`: the lines below the header fill it;
  - passed through by the header of a table inside it, it is `implicit`, and a header of its
    own may still follow;
  - made by a dotted key, it is `dotted`, and only dotted keys may add to it;
  - written in braces, it is `closed`.
-/

namespace Peripheral.Toml

/-- How a table came about. -/
inductive Origin
  | explicit
  | implicit
  | dotted
  | closed
deriving DecidableEq, Repr

inductive Value
  | str (s : String)
  | int (n : Int)
  /-- The number as it was written. -/
  | float (text : String)
  | bool (b : Bool)
  | datetime (text : String)
  | arr (items : List Value)
  | table (origin : Origin) (entries : List (String × Value))
  /-- The tables under one repeated header, the last one last. -/
  | tables (elements : List (List (String × Value)))
deriving Repr, Inhabited

/-- The entries of a table in order. -/
abbrev Entries := List (String × Value)

/-! ## As data -/

mutual

def Value.toJson : Value → Json
  | .str s => .str s
  | .int n => .int n
  | .float text => .decimal text
  | .bool b => .bool b
  | .datetime text => .obj [("$__toml_private_datetime", .str text)]
  | .arr items => .arr (itemsToJson items)
  | .table _ entries => .obj (entriesToJson entries)
  | .tables elements => .arr (elementsToJson elements)

def itemsToJson : List Value → List Json
  | [] => []
  | v :: rest => v.toJson :: itemsToJson rest

def entriesToJson : List (String × Value) → List (String × Json)
  | [] => []
  | (name, v) :: rest => (name, v.toJson) :: entriesToJson rest

def elementsToJson : List (List (String × Value)) → List Json
  | [] => []
  | e :: rest => .obj (entriesToJson e) :: elementsToJson rest

end

end Peripheral.Toml
