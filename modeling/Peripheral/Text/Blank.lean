/-
  Peripheral.Text.Blank — blank characters (the Unicode White_Space property), trimming
  and the cut of a line into words.

  - `isBlank` holds of the 25 code points with the property and of no other.
  - `trim` drops blanks at both ends and touches nothing between them.
  - `words` cuts at every run of blanks; no word is empty and none holds a blank.
-/

namespace Peripheral.Text

/-- The White_Space property. -/
def isBlank (c : Char) : Bool :=
  let n := c.toNat
  (9 ≤ n && n ≤ 13) || n == 0x20 || n == 0x85 || n == 0xA0 || n == 0x1680 ||
  (0x2000 ≤ n && n ≤ 0x200A) || n == 0x2028 || n == 0x2029 || n == 0x202F || n == 0x205F || n == 0x3000

def trimStart (s : List Char) : List Char := s.dropWhile isBlank

def trimEnd (s : List Char) : List Char := (s.reverse.dropWhile isBlank).reverse

def trim (s : List Char) : List Char := trimEnd (trimStart s)

/-- The text without blanks at its ends. -/
def strip (s : String) : String := String.ofList (trim s.toList)

/-- Adds one character in front of the words of the rest: a blank closes the word that
    begins there, any other character joins it. -/
def addToWords (c : Char) : Bool × List (List Char) → Bool × List (List Char)
  | (isOpen, ws) =>
    if isBlank c then (false, ws)
    else match isOpen, ws with
      | true, w :: ws => (true, (c :: w) :: ws)
      | _, ws => (true, [c] :: ws)

/-- The runs of characters that are no blanks, in order. -/
def words (s : List Char) : List (List Char) := (s.foldr addToWords (false, [])).2

/-- `words` over strings. -/
def wordsOf (s : String) : List String := (words s.toList).map String.ofList

/-- A line feed may follow one carriage return; both end the line. -/
def endLine (l : List Char) : List Char := if l.getLast? = some '\r' then l.dropLast else l

/-- The lines of a text. What follows the last line feed is a line of its own unless it is
    empty, and keeps its carriage return. -/
def lines (s : List Char) : List (List Char) :=
  let cut := s.splitOn '\n'
  cut.dropLast.map endLine ++ cut.getLast?.toList.filter (!·.isEmpty)

/-- `lines` over strings. -/
def linesOf (s : String) : List String := (lines s.toList).map String.ofList

end Peripheral.Text
