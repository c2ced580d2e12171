import Peripheral.Text.Numeral

/-
  Peripheral.Toml.Quotes — how a string is written in a settings file.

  The first style that can show the string without escapes is taken: double quotes, single
  quotes, triple double quotes, triple single quotes. A string with control characters, or
  with runs of both quotes, has escapes in double quotes, on one line or on several.
-/

namespace Peripheral.Toml

inductive Quotes
  /-- `"..."`, with escapes. -/
  | basic
  /-- `'...'`, without escapes. -/
  | literal
  /-- Triple double quotes, with escapes. -/
  | longBasic
  /-- Triple single quotes, without escapes. -/
  | longLiteral
deriving DecidableEq, Repr

namespace Quotes

/-- The longest run of a character. -/
def longestRun (q : Char) : (current : Nat) → List Char → Nat
  | current, [] => current
  | current, c :: s => if c = q then longestRun q (current + 1) s else max current (longestRun q 0 s)

/-- Control characters that no style shows as they are. -/
def isUnshowable (c : Char) : Bool :=
  (c.toNat < 0x20 && c != '\t' && c != '\n') || c.toNat == 0x7F

/-- The style of a string. -/
def of (s : List Char) : Quotes :=
  let doubles := longestRun '"' 0 s
  let singles := longestRun '\'' 0 s
  let isLong := s.contains '\n'
  let hasBackslash := s.contains '\\'
  if s.any isUnshowable then (if isLong then longBasic else basic)
  else if !hasBackslash && doubles = 0 && !isLong then basic
  else if singles = 0 && !isLong then literal
  else if !hasBackslash && doubles ≤ 2 then longBasic
  else if singles ≤ 2 then longLiteral
  else if isLong then longBasic
  else basic

/-- Double quotes that may stand together unescaped. -/
def quoteRun : Quotes → Nat
  | longBasic => 2
  | _ => 0

/-- One character other than the double quote. -/
def escape (style : Quotes) (c : Char) : List Char :=
  match c with
  | '\x08' => ['\\', 'b']
  | '\t' => ['\\', 't']
  | '\n' => if style = longBasic then ['\n'] else ['\\', 'n']
  | '\x0c' => ['\\', 'f']
  | '\r' => ['\\', 'r']
  | '\\' => ['\\', '\\']
  | c =>
    if isUnshowable c then
      ['\\', 'u'] ++ (Text.Numeral.padded 16 4 c.toNat).map Char.toUpper
    else [c]

/-- A string with escapes; `run` double quotes stand unescaped right before it. -/
def escapeAll (style : Quotes) : (run : Nat) → List Char → List Char
  | _, [] => []
  | run, c :: s =>
    if c = '"' then
      if style.quoteRun ≤ run then '\\' :: '"' :: escapeAll style 0 s
      else '"' :: escapeAll style (run + 1) s
    else escape style c ++ escapeAll style 0 s

/-- A string on several lines begins on a line of its own. -/
def firstLineEnd (s : List Char) : List Char := if s.contains '\n' then ['\n'] else []

/-- A string in the quotes of a style. -/
def write (style : Quotes) (s : List Char) : List Char :=
  match style with
  | basic => '"' :: escapeAll basic 0 s ++ ['"']
  | literal => '\'' :: s ++ ['\'']
  | longBasic =>
    ['"', '"', '"'] ++ firstLineEnd s ++ escapeAll longBasic 0 s ++ ['"', '"', '"']
  | longLiteral => ['\'', '\'', '\''] ++ firstLineEnd s ++ s ++ ['\'', '\'', '\'']

end Quotes

end Peripheral.Toml
