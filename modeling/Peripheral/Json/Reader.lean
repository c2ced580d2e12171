import Peripheral.Json.Basic

/-
  Peripheral.Json.Reader — reading JSON text.

  The grammar is strict: blanks are the space, the tab, the line feed and the carriage
  return; no digit follows a leading zero; a string holds no character below the space; after
  the value only blanks may follow. Names may repeat. What is well-formed but stands for no
  value becomes `Json.unreadable`.
-/

namespace Peripheral.Json

def isSpace (c : Char) : Bool := c == ' ' || c == '\n' || c == '\t' || c == '\r'

def skipSpace (s : List Char) : List Char := s.dropWhile isSpace

/-! ## Strings -/

/-- The code unit of four hexadecimal digits. -/
def unit? : List Char → Option (Nat × List Char)
  | a :: b :: c :: d :: rest => (Text.Numeral.digits? 16 [a, b, c, d] 0).map (·, rest)
  | _ => none

/-- The character after a backslash, other than the `u` of a code unit. -/
def unescape? : Char → Option Nat
  | '"' => some 0x22
  | '\\' => some 0x5c
  | '/' => some 0x2f
  | 'b' => some 8
  | 'f' => some 12
  | 'n' => some 10
  | 'r' => some 13
  | 't' => some 9
  | _ => none

/-- The code points up to the closing quote; an escaped surrogate stands as its code unit. -/
def readUnits : Nat → List Char → Option (List Nat × List Char)
  | 0, _ => none
  | _ + 1, [] => none
  | fuel + 1, c :: s =>
    if c = '"' then some ([], s)
    else if c.toNat < 32 then none
    else if c = '\\' then
      match s with
      | 'u' :: s => do
        let (n, s) ← unit? s
        let (ns, s) ← readUnits fuel s
        some (n :: ns, s)
      | e :: s => do
        let n ← unescape? e
        let (ns, s) ← readUnits fuel s
        some (n :: ns, s)
      | [] => none
    else do
      let (ns, s) ← readUnits fuel s
      some (c.toNat :: ns, s)

def isHighSurrogate (n : Nat) : Bool := 0xD800 ≤ n && n ≤ 0xDBFF

def isLowSurrogate (n : Nat) : Bool := 0xDC00 ≤ n && n ≤ 0xDFFF

/-- Joins each pair of surrogates; none if one stands alone. -/
def joinSurrogates : List Nat → Option (List Char)
  | [] => some []
  | [n] => if isHighSurrogate n || isLowSurrogate n then none else some [Char.ofNat n]
  | n :: m :: rest =>
    if isHighSurrogate n then
      if isLowSurrogate m then
        (joinSurrogates rest).map (Char.ofNat (0x10000 + (n - 0xD800) * 1024 + (m - 0xDC00)) :: ·)
      else none
    else if isLowSurrogate n then none
    else (joinSurrogates (m :: rest)).map (Char.ofNat n :: ·)

/-- The text after an opening quote; the inner `none` is a string with an unpaired surrogate. -/
def readText (s : List Char) : Option (Option String × List Char) :=
  (readUnits (s.length + 1) s).map fun (units, rest) =>
    ((joinSurrogates units).map String.ofList, rest)

/-! ## Numbers -/

def isDigit (c : Char) : Bool := '0' ≤ c && c ≤ '9'

/-- The least magnitude that rounds to no finite double. -/
def beyondDoubles : Nat := 1 <<< 1024 - 1 <<< 970

/-- Whether `digits × 10 ^ exponent` is beyond the doubles. -/
def isBeyond (digits : Nat) (exponent : Int) : Bool :=
  if digits = 0 then false
  else
    let places : Int := (Text.Numeral.write 10 digits).length + exponent
    if places > 310 then true
    else if places < 300 then false
    else if 0 ≤ exponent then beyondDoubles ≤ digits * Nat.pow 10 exponent.toNat
    else beyondDoubles * Nat.pow 10 (-exponent).toNat ≤ digits

/-- A point and one or more digits, or nothing. -/
def readFraction : List Char → Option (List Char × List Char)
  | '.' :: s =>
    let ds := s.takeWhile isDigit
    if ds.isEmpty then none else some (ds, s.dropWhile isDigit)
  | s => some ([], s)

/-- The letter, a sign and one or more digits, or nothing. -/
def readExponent : List Char → Option (Option Int × List Char)
  | c :: s =>
    if c = 'e' ∨ c = 'E' then
      let (negative, s) := match s with
        | '+' :: s => (false, s)
        | '-' :: s => (true, s)
        | s => (false, s)
      match Text.Numeral.unsigned? 10 (s.takeWhile isDigit) with
      | none => none
      | some n => some (some (if negative then -n else n), s.dropWhile isDigit)
    else some (none, c :: s)
  | [] => some (none, [])

/-- The digits of a whole part: no digit follows a leading zero. -/
def readWhole (s : List Char) : Option (List Char × List Char) :=
  let ds := s.takeWhile isDigit
  if ds.isEmpty || (ds.head? == some '0' && ds.length > 1) then none
  else some (ds, s.dropWhile isDigit)

def readNumber (s : List Char) : Option (Json × List Char) := do
  let (negative, s) := match s with
    | '-' :: s => (true, s)
    | s => (false, s)
  let (whole, s) ← readWhole s
  let (fraction, s) ← readFraction s
  let (exponent, rest) ← readExponent s
  let digits ← Text.Numeral.digits? 10 (whole ++ fraction) 0
  if isBeyond digits (exponent.getD 0 - fraction.length) then some (unreadable, rest)
  else if fraction.isEmpty && exponent.isNone && !(negative && digits == 0) then
    some (int (if negative then -digits else digits), rest)
  else
    let sign := if negative then "-" else ""
    let point := if fraction.isEmpty then "" else "." ++ String.ofList fraction
    let scale := match exponent with
      | none => ""
      | some e => "e" ++ String.ofList (writeInt e)
    some (decimal (sign ++ String.ofList whole ++ point ++ scale), rest)

/-! ## Values -/

/-- How many arrays and objects may stand one inside the other. -/
def depthLimit : Nat := 127

/-- A container inside `depth` others. -/
def bounded (depth : Nat) (j : Json) : Json := if depth < depthLimit then j else unreadable

/-- The members of an object, or none if one of their names is no text. -/
def namedMembers (members : List (Option String × Json)) : Json :=
  match members.mapM fun (name, j) => name.map (·, j) with
  | some members => obj members
  | none => unreadable

/-- Drops a given character at the front. -/
def expect? (c : Char) : List Char → Option (List Char)
  | d :: s => if c = d then some s else none
  | [] => none

def expectWord? (word : String) (j : Json) (s : List Char) : Option (Json × List Char) :=
  if word.toList.isPrefixOf s then some (j, s.drop word.length) else none

mutual

/-- A value at the front of a text, blanks before it skipped. -/
def readValue : Nat → Nat → List Char → Option (Json × List Char)
  | 0, _, _ => none
  | fuel + 1, depth, s =>
    match skipSpace s with
    | [] => none
    | c :: s =>
      match c with
      | 'n' => expectWord? "ull" null s
      | 't' => expectWord? "rue" (bool true) s
      | 'f' => expectWord? "alse" (bool false) s
      | '"' => (readText s).map fun (t, s) => (t.elim unreadable str, s)
      | '[' =>
        match skipSpace s with
        | ']' :: s => some (bounded depth (arr []), s)
        | s => (readItems fuel (depth + 1) s).map fun (items, s) => (bounded depth (arr items), s)
      | '\x7b' =>
        match skipSpace s with
        | '\x7d' :: s => some (bounded depth (obj []), s)
        | s => (readMembers fuel (depth + 1) s).map fun (members, s) =>
          (bounded depth (namedMembers members), s)
      | c => readNumber (c :: s)

/-- Values with commas between them, up to the closing bracket. -/
def readItems : Nat → Nat → List Char → Option (List Json × List Char)
  | 0, _, _ => none
  | fuel + 1, depth, s => do
    let (j, s) ← readValue fuel depth s
    match skipSpace s with
    | ',' :: s =>
      let (items, s) ← readItems fuel depth s
      some (j :: items, s)
    | ']' :: s => some ([j], s)
    | _ => none

/-- Named values with commas between them, up to the closing brace. -/
def readMembers : Nat → Nat → List Char → Option (List (Option String × Json) × List Char)
  | 0, _, _ => none
  | fuel + 1, depth, s => do
    let (name, s) ← readText (← expect? '"' (skipSpace s))
    let (j, s) ← readValue fuel depth (← expect? ':' (skipSpace s))
    match skipSpace s with
    | ',' :: s =>
      let (members, s) ← readMembers fuel depth s
      some ((name, j) :: members, s)
    | '\x7d' :: s => some ([(name, j)], s)
    | _ => none

end

/-- The value of a whole text. -/
def read? (s : List Char) : Option Json :=
  match readValue (2 * s.length + 1) 0 s with
  | some (j, rest) => if (skipSpace rest).isEmpty then some j else none
  | none => none

def ofText? (text : String) : Option Json := read? text.toList

end Peripheral.Json
