import Peripheral.Toml.Scalar
import Peripheral.Toml.Table

/-
  Peripheral.Toml.Reader — reading a settings file.

  A file is a sequence of lines: `[path]`, `[[path]]` or `key = value`, each perhaps with a
  comment after it, and lines with nothing but a comment. Arrays may go over several lines and
  may end in a comma; tables in braces stay on one line and may not.
-/

namespace Peripheral.Toml

/-- Arrays and tables in braces nest less deep, and keys have fewer parts. -/
def depthLimit : Nat := 80

/-- Drops a comment. -/
def skipComment (s : List Char) : List Char := if s.head? = some '#' then s.dropWhile isText else s

/-- Drops blanks, comments and line ends. -/
def skipGap : Nat → List Char → List Char
  | 0, s => s
  | fuel + 1, s =>
    let s := skipSpace s
    match lineEnd? (skipComment s) with
    | some s => skipGap fuel s
    | none => s

def gap (s : List Char) : List Char := skipGap s.length s

/-- Drops one character. -/
def char? (c : Char) : List Char → Option (List Char)
  | d :: s => if c = d then some s else none
  | [] => none

def word? (w : String) (s : List Char) : Option (List Char) :=
  if w.toList.isPrefixOf s then some (s.drop w.length) else none

/-- A value that is no array and no table. -/
def scalar? (s : List Char) : Option (Value × List Char) :=
  match s with
  | [] => none
  | c :: _ =>
    if c = '"' ∨ c = '\'' then (string? s).map fun (t, s) => (.str t, s)
    else if c = 't' then (word? "true" s).map fun s => (.bool true, s)
    else if c = 'f' then (word? "false" s).map fun s => (.bool false, s)
    else number? s

mutual

/-- A value, given how many arrays and tables may still be entered. -/
def value? : Nat → Nat → List Char → Option (Value × List Char)
  | 0, _, _ => none
  | fuel + 1, depth, s =>
    match s with
    | '[' :: s =>
      match depth with
      | 0 => none
      | depth + 1 => (items? fuel depth (gap s)).map fun (items, s) => (.arr items, s)
    | '\x7b' :: s =>
      match depth with
      | 0 => none
      | depth + 1 =>
        match skipSpace s with
        | '\x7d' :: s => some (.table .closed [], s)
        | s => (pairs? fuel depth [] s).map fun (es, s) => (.table .closed es, s)
    | s => scalar? s

/-- The rest of an array, at an item or at the end. -/
def items? : Nat → Nat → List Char → Option (List Value × List Char)
  | 0, _, _ => none
  | _, _, ']' :: s => some ([], s)
  | fuel + 1, depth, s => do
    let (v, s) ← value? fuel depth s
    match gap s with
    | ',' :: s =>
      let (vs, s) ← items? fuel depth (gap s)
      some (v :: vs, s)
    | ']' :: s => some ([v], s)
    | _ => none

/-- The rest of a table in braces, at a key; the entries before it are given. -/
def pairs? : Nat → Nat → Entries → List Char → Option (Entries × List Char)
  | 0, _, _, _ => none
  | fuel + 1, depth, es, s => do
    let (path, s) ← key? (depthLimit - 1) s
    let (v, s) ← value? fuel depth (skipSpace (← char? '=' s))
    let es ← add? v path es
    match skipSpace s with
    | ',' :: s => pairs? fuel depth es s
    | '\x7d' :: s => some (es, s)
    | _ => none

end

/-- What follows a line: blanks and a comment are dropped, then the line has to end. -/
def lineRest? (s : List Char) : Option (List Char) :=
  match skipComment (skipSpace s) with
  | [] => some []
  | s => lineEnd? s

/-- What the lines so far say: all tables, and the path of the one that is being filled. -/
structure Document where
  root : Entries := []
  path : List String := []

/-- A line with `key = value`. -/
def assignment? (d : Document) (s : List Char) : Option (Document × List Char) := do
  let (key, s) ← key? (depthLimit - 1) s
  let (v, s) ← value? (s.length + 1) (depthLimit - 1) (skipSpace (← char? '=' s))
  let s ← lineRest? s
  some ({ d with root := ← within? (add? v key) d.path d.root }, s)

/-- A header, after its opening brackets. -/
def header? (close : String) (enter : List String → Entries → Option Entries) (d : Document)
    (s : List Char) : Option (Document × List Char) := do
  let (path, s) ← key? (depthLimit - 1) s
  let s ← lineRest? (← word? close s)
  some (⟨← enter path d.root, path⟩, s)

/-- One line that says something. -/
def statement? (d : Document) : List Char → Option (Document × List Char)
  | '[' :: '[' :: s => header? "]]" push? d s
  | '[' :: s => header? "]" open? d s
  | s => assignment? d s

/-- The lines of a file. -/
def statements? : Nat → Document → List Char → Option Document
  | 0, _, _ => none
  | fuel + 1, d, s =>
    match skipSpace s with
    | [] => some d
    | c :: s =>
      if c = '#' ∨ c = '\n' ∨ c = '\r' then (lineRest? (c :: s)).bind (statements? fuel d)
      else (statement? d (c :: s)).bind fun (d, s) => statements? fuel d s

/-- The tables of a file. A byte order mark in front does not count. -/
def ofText? (text : String) : Option Entries :=
  let s := match text.toList with
    | '\uFEFF' :: s => s
    | s => s
  (statements? (s.length + 1) {} s).map Document.root

end Peripheral.Toml
