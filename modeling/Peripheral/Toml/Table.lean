import Peripheral.Toml.Basic

/-
  Peripheral.Toml.Table — how the lines of a settings file fill its tables.

  - `add?` adds a value under a dotted key. The tables on the way are made or were made by
    dotted keys; a table with a header of its own, and one in braces, takes no dotted keys.
  - `open?` is a header `[path]`: it makes the table, or completes one that other headers have
    passed through. A table has one header.
  - `push?` is a header `[[path]]`: it adds a table to those under the same header.
  A header may pass through any table with a header or a dotted key, and through the last of
  repeated ones. No name of a table is given twice.
-/

namespace Peripheral.Toml

/-- Changes what a name stands for; `change` is given none for a new name, which then comes
    last, and refuses by none. -/
def alter? (name : String) (change : Option Value → Option Value) : Entries → Option Entries
  | [] => (change none).map fun v => [(name, v)]
  | (n, v) :: rest =>
    if n = name then (change (some v)).map fun v => (n, v) :: rest
    else (alter? name change rest).map ((n, v) :: ·)

/-- Changes the last of some tables. -/
def alterLast? (change : Entries → Option Entries) (elements : List Entries) : Option Value :=
  elements.getLast?.bind fun e => (change e).map fun e => .tables (elements.dropLast ++ [e])

/-- Changes the table that a path leads to; tables missing on the way are implied. -/
def within? (change : Entries → Option Entries) : List String → Entries → Option Entries
  | [], es => change es
  | name :: path, es =>
    alter? name (fun
      | none => (within? change path []).map (.table .implicit)
      | some (.table .closed _) => none
      | some (.table origin es) => (within? change path es).map (.table origin)
      | some (.tables elements) => alterLast? (within? change path) elements
      | some _ => none) es

/-- Adds a value under a dotted key. -/
def add? (v : Value) : List String → Entries → Option Entries
  | [], _ => none
  | [name], es => alter? name (fun old => if old.isNone then some v else none) es
  | name :: path, es =>
    alter? name (fun
      | none => (add? v path []).map (.table .dotted)
      | some (.table .dotted es) => (add? v path es).map (.table .dotted)
      | some (.table .implicit es) =>
        if path.length = 1 then none else (add? v path es).map (.table .implicit)
      | some (.tables elements) =>
        if path.length = 1 then none else alterLast? (add? v path) elements
      | some _ => none) es

/-- Makes the table of a header, or completes an implied one. -/
def open? (path : List String) (es : Entries) : Option Entries :=
  path.getLast?.bind fun name =>
    within? (alter? name fun
      | none => some (.table .explicit [])
      | some (.table .implicit es) => some (.table .explicit es)
      | some _ => none) path.dropLast es

/-- Adds a table to those of a repeated header. -/
def push? (path : List String) (es : Entries) : Option Entries :=
  path.getLast?.bind fun name =>
    within? (alter? name fun
      | none => some (.tables [[]])
      | some (.tables elements) => some (.tables (elements ++ [[]]))
      | some _ => none) path.dropLast es

end Peripheral.Toml
