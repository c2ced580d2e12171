import Peripheral.Json.Basic

/-
  Peripheral.Json.Pretty — JSON on several lines: each item and each member on a line of its
  own, two blanks deeper than the brackets around it. What is empty stays on one line.
-/

namespace Peripheral.Json

def indent (depth : Nat) : List Char := '\n' :: List.replicate (2 * depth) ' '

mutual

def pretty (depth : Nat) : Json → List Char
  | arr [] => ['[', ']']
  | arr (j :: rest) => '[' :: prettyItems (depth + 1) (j :: rest) ++ indent depth ++ [']']
  | obj [] => ['\x7b', '\x7d']
  | obj (m :: rest) => '\x7b' :: prettyMembers (depth + 1) (m :: rest) ++ indent depth ++ ['\x7d']
  | j => write j

def prettyItems (depth : Nat) : List Json → List Char
  | [] => []
  | [j] => indent depth ++ pretty depth j
  | j :: rest => indent depth ++ pretty depth j ++ ',' :: prettyItems depth rest

def prettyMembers (depth : Nat) : List (String × Json) → List Char
  | [] => []
  | [(name, j)] => indent depth ++ writeString name ++ ':' :: ' ' :: pretty depth j
  | (name, j) :: rest =>
    indent depth ++ writeString name ++ ':' :: ' ' :: pretty depth j ++ ',' :: prettyMembers depth rest

end

def prettyText (j : Json) : String := String.ofList (pretty 0 j)

end Peripheral.Json
