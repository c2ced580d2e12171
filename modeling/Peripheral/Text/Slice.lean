/-
  Peripheral.Text.Slice — positions in a text, counted in bytes of UTF-8.

  A position cuts a text unless it is behind its end or within a character.
-/

namespace Peripheral.Text.Slice

/-- The position of the first `c`. -/
def find? (c : Char) : List Char → Option Nat
  | [] => none
  | x :: s => if x = c then some 0 else (find? c s).map (x.utf8Size + ·)

/-- What stands behind position `n`. -/
def from? (n : Nat) : List Char → Option (List Char)
  | [] => if n = 0 then some [] else none
  | x :: s => if n = 0 then some (x :: s) else if x.utf8Size ≤ n then from? (n - x.utf8Size) s else none

/-- What stands before position `n`. -/
def upTo? (n : Nat) : List Char → Option (List Char)
  | [] => if n = 0 then some [] else none
  | x :: s => if n = 0 then some [] else if x.utf8Size ≤ n then (upTo? (n - x.utf8Size) s).map (x :: ·) else none

/-- What stands between positions `m` and `n`. -/
def between? (m n : Nat) (s : List Char) : Option (List Char) := (upTo? n s).bind (from? m)

end Peripheral.Text.Slice
