/-
  Peripheral.Text.Utf8 — bytes as text.

  `decode?` accepts well-formed UTF-8 only. `decodeLossy` puts one U+FFFD for each stretch
  that cannot be continued: a byte that starts no character, or the longest start of one.
-/

namespace Peripheral.Text.Utf8

/-- A byte that continues a character, given the range it must lie in. -/
def inRange (lo hi : Nat) (b : UInt8) : Bool := lo ≤ b.toNat && b.toNat ≤ hi

/-- What a first byte announces: the ranges of the bytes that must follow and the bits it
    carries itself. -/
def leading? (b : UInt8) : Option (List (Nat × Nat) × Nat) :=
  let n := b.toNat
  if n < 0x80 then some ([], n)
  else if n < 0xC2 then none
  else if n < 0xE0 then some ([(0x80, 0xBF)], n - 0xC0)
  else if n == 0xE0 then some ([(0xA0, 0xBF), (0x80, 0xBF)], 0)
  else if n == 0xED then some ([(0x80, 0x9F), (0x80, 0xBF)], 0xD)
  else if n < 0xF0 then some ([(0x80, 0xBF), (0x80, 0xBF)], n - 0xE0)
  else if n == 0xF0 then some ([(0x90, 0xBF), (0x80, 0xBF), (0x80, 0xBF)], 0)
  else if n < 0xF4 then some ([(0x80, 0xBF), (0x80, 0xBF), (0x80, 0xBF)], n - 0xF0)
  else if n == 0xF4 then some ([(0x80, 0x8F), (0x80, 0xBF), (0x80, 0xBF)], 4)
  else none

/-- Takes the announced bytes: the code point, if all are there, and the bytes left. -/
def continue? : List (Nat × Nat) → Nat → List UInt8 → Option Nat × List UInt8
  | [], acc, bs => (some acc, bs)
  | (lo, hi) :: more, acc, b :: bs =>
    if inRange lo hi b then continue? more (acc * 64 + (b.toNat - 0x80)) bs else (none, b :: bs)
  | _ :: _, _, [] => (none, [])

/-- The first character, none where a stretch cannot be continued, and the bytes left. -/
def next (b : UInt8) (bs : List UInt8) : Option Char × List UInt8 :=
  match leading? b with
  | none => (none, bs)
  | some (ranges, bits) =>
    let (n, rest) := continue? ranges bits bs
    (n.map Char.ofNat, rest)

/-- The characters of the bytes; at most `fuel` of them. -/
def characters : Nat → List UInt8 → List (Option Char)
  | 0, _ => []
  | _, [] => []
  | fuel + 1, b :: bs =>
    let (c, rest) := next b bs
    c :: characters fuel rest

def decode? (bs : List UInt8) : Option String :=
  ((characters bs.length bs).mapM id).map String.ofList

def decodeLossy (bs : List UInt8) : String :=
  String.ofList ((characters bs.length bs).map (·.getD '\ufffd'))

def encode (s : String) : List UInt8 := s.toUTF8.toList

end Peripheral.Text.Utf8
