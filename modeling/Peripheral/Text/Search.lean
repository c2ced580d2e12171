/-
  Peripheral.Text.Search — cutting a text at a part of it.
-/

namespace Peripheral.Text

/-- What follows the first occurrence of `part`. -/
def afterFirst? (part : List Char) : List Char → Option (List Char)
  | [] => if part.isEmpty then some [] else none
  | c :: s => if part.isPrefixOf (c :: s) then some ((c :: s).drop part.length) else afterFirst? part s

/-- Drops `part` from the front as often as it stands there. -/
def dropRepeated (part : List Char) : Nat → List Char → List Char
  | 0, s => s
  | fuel + 1, s =>
    if !part.isEmpty && part.isPrefixOf s then dropRepeated part fuel (s.drop part.length) else s

/-- Drops every `part` at the front. -/
def dropAll (part s : List Char) : List Char := dropRepeated part s.length s

/-- Drops every `c` at the end. -/
def dropEnd (c : Char) (s : List Char) : List Char := (s.reverse.dropWhile (· == c)).reverse

/-- What stands before the first `c` and what follows it. -/
def cutAt? (c : Char) (s : List Char) : Option (List Char × List Char) :=
  match s.dropWhile (· != c) with
  | [] => none
  | _ :: rest => some (s.takeWhile (· != c), rest)

end Peripheral.Text
