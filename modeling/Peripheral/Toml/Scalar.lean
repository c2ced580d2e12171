import Peripheral.Json.Reader
import Peripheral.Toml.Basic

/-
  Peripheral.Toml.Scalar — reading strings, numbers, dates and keys of a settings file. Each
  function reads at the front of a text and gives what is left.
-/

namespace Peripheral.Toml

/-- Blanks within a line. -/
def isSpace (c : Char) : Bool := c == ' ' || c == '\t'

def skipSpace (s : List Char) : List Char := s.dropWhile isSpace

/-- A line end: a line feed, perhaps after a carriage return. -/
def lineEnd? : List Char → Option (List Char)
  | '\n' :: s => some s
  | '\r' :: '\n' :: s => some s
  | _ => none

/-- No control character but the tab. -/
def isText (c : Char) : Bool := c == '\t' || (0x20 ≤ c.toNat && c.toNat ≠ 0x7F)

def isDigit (c : Char) : Bool := '0' ≤ c && c ≤ '9'

/-! ## Strings -/

/-- The character of `count` hexadecimal digits. -/
def codePoint? (count : Nat) (s : List Char) : Option (Char × List Char) :=
  let ds := s.take count
  if ds.length = count then
    match Text.Numeral.digits? 16 ds 0 with
    | some n => if n.isValidChar then some (Char.ofNat n, s.drop count) else none
    | none => none
  else none

/-- The character that an escape stands for, after the backslash. -/
def escaped? : List Char → Option (Char × List Char)
  | 'b' :: s => some ('\x08', s)
  | 't' :: s => some ('\t', s)
  | 'n' :: s => some ('\n', s)
  | 'f' :: s => some ('\x0c', s)
  | 'r' :: s => some ('\r', s)
  | '"' :: s => some ('"', s)
  | '\\' :: s => some ('\\', s)
  | 'u' :: s => codePoint? 4 s
  | 'U' :: s => codePoint? 8 s
  | _ => none

/-- The rest of a string in double quotes. -/
def basic? : Nat → List Char → Option (List Char × List Char)
  | 0, _ | _, [] => none
  | fuel + 1, c :: s =>
    if c = '"' then some ([], s)
    else if c = '\\' then do
      let (c, s) ← escaped? s
      let (cs, s) ← basic? fuel s
      some (c :: cs, s)
    else if isText c then (basic? fuel s).map fun (cs, s) => (c :: cs, s)
    else none

/-- The rest of a string in single quotes. -/
def literal? : List Char → Option (List Char × List Char)
  | [] => none
  | c :: s =>
    if c = '\'' then some ([], s)
    else if isText c then (literal? s).map fun (cs, s) => (c :: cs, s)
    else none

/-- The end of a string over several lines: three quotes, before which one or two more may
    belong to the string. -/
def longEnd? (quote : Char) (s : List Char) : Option (List Char × List Char) :=
  let run := (s.takeWhile (· == quote)).length
  if run < 3 then none
  else
    let own := min run 5 - 3
    some (List.replicate own quote, s.drop (own + 3))

/-- Drops blanks and line ends. -/
def skipLines : Nat → List Char → List Char
  | 0, s => s
  | fuel + 1, s =>
    match lineEnd? (skipSpace s) with
    | some s => skipLines fuel s
    | none => skipSpace s

/-- The rest of a string in triple double quotes. A backslash at the end of a line takes the
    line end and the blanks after it away. -/
def longBasic? : Nat → List Char → Option (List Char × List Char)
  | 0, _ | _, [] => none
  | fuel + 1, c :: s =>
    if c = '"' then
      match longEnd? '"' (c :: s) with
      | some r => some r
      | none => (longBasic? fuel s).map fun (cs, s) => (c :: cs, s)
    else if c = '\\' then
      match lineEnd? (skipSpace s) with
      | some s => longBasic? fuel (skipLines s.length s)
      | none => do
        let (c, s) ← escaped? s
        let (cs, s) ← longBasic? fuel s
        some (c :: cs, s)
    else match lineEnd? (c :: s) with
      | some s => (longBasic? fuel s).map fun (cs, s) => ('\n' :: cs, s)
      | none =>
        if isText c then (longBasic? fuel s).map fun (cs, s) => (c :: cs, s) else none

/-- The rest of a string in triple single quotes. -/
def longLiteral? : Nat → List Char → Option (List Char × List Char)
  | 0, _ | _, [] => none
  | fuel + 1, c :: s =>
    if c = '\'' then
      match longEnd? '\'' (c :: s) with
      | some r => some r
      | none => (longLiteral? fuel s).map fun (cs, s) => (c :: cs, s)
    else match lineEnd? (c :: s) with
      | some s => (longLiteral? fuel s).map fun (cs, s) => ('\n' :: cs, s)
      | none =>
        if isText c then (longLiteral? fuel s).map fun (cs, s) => (c :: cs, s) else none

/-- A line end right after the opening quotes does not count. -/
def skipFirstLineEnd (s : List Char) : List Char := (lineEnd? s).getD s

/-- A string of any of the four kinds. -/
def string? (s : List Char) : Option (String × List Char) :=
  let fuel := s.length
  let read := match s with
    | '"' :: '"' :: '"' :: s => longBasic? fuel (skipFirstLineEnd s)
    | '"' :: s => basic? fuel s
    | '\'' :: '\'' :: '\'' :: s => longLiteral? fuel (skipFirstLineEnd s)
    | '\'' :: s => literal? s
    | _ => none
  read.map fun (cs, s) => (String.ofList cs, s)

/-! ## Keys -/

def isBareKeyChar (c : Char) : Bool :=
  isDigit c || ('a' ≤ c && c ≤ 'z') || ('A' ≤ c && c ≤ 'Z') || c == '-' || c == '_'

/-- A bare key, or a string on one line. -/
def simpleKey? (s : List Char) : Option (String × List Char) :=
  match s with
  | '"' :: s => (basic? s.length s).map fun (cs, s) => (String.ofList cs, s)
  | '\'' :: s => (literal? s).map fun (cs, s) => (String.ofList cs, s)
  | s =>
    let cs := s.takeWhile isBareKeyChar
    if cs.isEmpty then none else some (String.ofList cs, s.dropWhile isBareKeyChar)

/-- Simple keys with dots between them, blanks around each. -/
def key? : Nat → List Char → Option (List String × List Char)
  | 0, _ => none
  | fuel + 1, s => do
    let (k, s) ← simpleKey? (skipSpace s)
    match skipSpace s with
    | '.' :: s =>
      let (ks, s) ← key? fuel s
      some (k :: ks, s)
    | s => some ([k], s)

/-! ## Numbers -/

/-- One or more digits; an underscore may stand between two of them. -/
def digits? (isDigit : Char → Bool) : List Char → Option (List Char × List Char)
  | [] => none
  | c :: s =>
    if !isDigit c then none
    else match s with
      | '_' :: r => (digits? isDigit r).map fun (ds, r) => (c :: ds, r)
      | r =>
        match digits? isDigit r with
        | some (ds, r) => some (c :: ds, r)
        | none =>
          -- a second underscore, or one at the end, is an error of the whole number
          if (r.dropWhile isDigit).head? = some '_' then none else some ([c], r)

/-- A decimal whole number without sign and without leading zeros. -/
def whole? (s : List Char) : Option (List Char × List Char) :=
  match s with
  | '0' :: s => some (['0'], s)
  | s => digits? isDigit s

def sign (s : List Char) : Bool × List Char :=
  match s with
  | '+' :: s => (false, s)
  | '-' :: s => (true, s)
  | s => (false, s)

def inWord (n : Int) : Option Value := if -(1 <<< 63) ≤ n ∧ n < 1 <<< 63 then some (.int n) else none

def radixInt? (radix : Nat) (s : List Char) : Option (Value × List Char) := do
  let (ds, s) ← digits? (fun c => (Text.Numeral.digit? radix c).isSome) s
  some (← inWord (← Text.Numeral.digits? radix ds 0), s)

def integer? (s : List Char) : Option (Value × List Char) :=
  match s with
  | '0' :: 'x' :: s => radixInt? 16 s
  | '0' :: 'o' :: s => radixInt? 8 s
  | '0' :: 'b' :: s => radixInt? 2 s
  | s => do
    let (negative, s) := sign s
    let (ds, s) ← whole? s
    let n ← Text.Numeral.digits? 10 ds 0
    some (← inWord (if negative then -n else n), s)

/-- The exponent of a float. -/
def exponent? : List Char → Option (Option (Bool × List Char) × List Char)
  | c :: s =>
    if c = 'e' ∨ c = 'E' then
      let (negative, s) := sign s
      (digits? isDigit s).map fun (ds, s) => (some (negative, ds), s)
    else some (none, c :: s)
  | [] => some (none, [])

/-- A number with a fraction or an exponent. A positive one must be finite. -/
def decimal? (s : List Char) : Option (Value × List Char) := do
  let (negative, s) := sign s
  let (ds, s) ← whole? s
  let (fraction, s) ← match s with
    | '.' :: s => (digits? isDigit s).map fun (fs, s) => (some fs, s)
    | s => some (none, s)
  let (exponent, s) ← exponent? s
  if fraction.isNone && exponent.isNone then none
  else
    let all ← Text.Numeral.digits? 10 (ds ++ fraction.getD []) 0
    let scale : Int ← match exponent with
      | none => some 0
      | some (negative, es) =>
        (Text.Numeral.digits? 10 es 0).map fun (n : Nat) => if negative then -(n : Int) else n
    if !negative && Json.isBeyond all (scale - (fraction.getD []).length) then none
    else
      let mark := if negative then "-" else ""
      let point := fraction.elim "" fun fs => "." ++ String.ofList fs
      let power := exponent.elim "" fun (n, es) => "e" ++ (if n then "-" else "") ++ String.ofList es
      some (.float (mark ++ String.ofList ds ++ point ++ power), s)

/-- A special float, with or without a sign. -/
def special? (s : List Char) : Option (Value × List Char) :=
  let (negative, r) := sign s
  let mark := if negative then "-" else ""
  match r with
  | 'i' :: 'n' :: 'f' :: r => some (.float (mark ++ "inf"), r)
  | 'n' :: 'a' :: 'n' :: r => some (.float (mark ++ "nan"), r)
  | _ => none

/-! ## Dates -/

/-- A number of exactly `count` digits between two bounds. -/
def field? (count lo hi : Nat) (s : List Char) : Option (Nat × List Char) :=
  let ds := s.take count
  if ds.length = count && ds.all isDigit then
    match Text.Numeral.digits? 10 ds 0 with
    | some n => if lo ≤ n ∧ n ≤ hi then some (n, s.drop count) else none
    | none => none
  else none

def daysIn (year month : Nat) : Nat :=
  if month = 2 then
    if year % 4 = 0 ∧ (year % 100 ≠ 0 ∨ year % 400 = 0) then 29 else 28
  else if month = 4 ∨ month = 6 ∨ month = 9 ∨ month = 11 then 30
  else 31

/-- What is left after a date. -/
def date? (s : List Char) : Option (List Char) := do
  let (year, s) ← field? 4 0 9999 s
  let (month, s) ← field? 2 1 12 (← Json.expect? '-' s)
  let (_, s) ← field? 2 1 (daysIn year month) (← Json.expect? '-' s)
  some s

/-- What is left after a time of day. -/
def time? (s : List Char) : Option (List Char) := do
  let (_, s) ← field? 2 0 23 s
  let (_, s) ← field? 2 0 59 (← Json.expect? ':' s)
  let (_, s) ← field? 2 0 60 (← Json.expect? ':' s)
  match s with
  | '.' :: r => if (r.takeWhile isDigit).isEmpty then none else some (r.dropWhile isDigit)
  | s => some s

/-- What is left after an offset, if there is one. -/
def offset? (s : List Char) : Option (List Char) :=
  match s with
  | 'Z' :: s | 'z' :: s => some s
  | '+' :: s | '-' :: s => do
    let (_, s) ← field? 2 0 23 s
    let (_, s) ← field? 2 0 59 (← Json.expect? ':' s)
    some s
  | s => some s

def isDateMark (c : Char) : Bool := c == 'T' || c == 't' || c == ' '

/-- What is left after a date, a time or both. -/
def datetimeRest? (s : List Char) : Option (List Char) :=
  match date? s with
  | none => time? s
  | some r =>
    match r with
    | c :: t =>
      if isDateMark c then
        match time? t with
        | some u => offset? u
        | none => some r
      else some r
    | [] => some []

def datetime? (s : List Char) : Option (Value × List Char) :=
  (datetimeRest? s).map fun r => (.datetime (String.ofList (s.take (s.length - r.length))), r)

/-- A date, a float or an integer. -/
def number? (s : List Char) : Option (Value × List Char) :=
  datetime? s <|> decimal? s <|> special? s <|> integer? s

end Peripheral.Toml
