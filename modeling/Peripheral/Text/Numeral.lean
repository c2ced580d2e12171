/-
  Peripheral.Text.Numeral — natural numbers as text in a radix up to sixteen.

  - `parse` accepts an optional `+` and one or more digits whose value is below the limit,
    and nothing else: no blanks, no other sign, no separator. `read?` does not say why not.
  - `write` prints the digits without leading zeros, `padded` with zeros up to a width.
-/

namespace Peripheral.Text.Numeral

/-- The value of one digit, in either case. -/
def digit? (radix : Nat) (c : Char) : Option Nat :=
  let n := c.toNat
  let v :=
    if 48 ≤ n ∧ n ≤ 57 then n - 48
    else if 97 ≤ n ∧ n ≤ 122 then n - 87
    else if 65 ≤ n ∧ n ≤ 90 then n - 55
    else radix
  if v < radix then some v else none

/-- The value of a run of digits after `acc`. -/
def digits? (radix : Nat) : List Char → Nat → Option Nat
  | [], acc => some acc
  | c :: cs, acc => (digit? radix c).bind fun d => digits? radix cs (acc * radix + d)

/-- One or more digits. -/
def unsigned? (radix : Nat) (s : List Char) : Option Nat :=
  if s.isEmpty then none else digits? radix s 0

/-- Why a text is no number. -/
inductive Fault
  | empty
  | badDigit
  | tooLarge
deriving DecidableEq, Repr

def Fault.message : Fault → String
  | empty => "cannot parse integer from empty string"
  | badDigit => "invalid digit found in string"
  | tooLarge => "number too large to fit in target type"

/-- The value of digits after `acc`; it has to stay below `limit` at every digit. -/
def bounded (radix limit : Nat) : List Char → Nat → Except Fault Nat
  | [], acc => .ok acc
  | c :: cs, acc =>
    match digit? radix c with
    | none => .error .badDigit
    | some d =>
      if acc * radix + d < limit then bounded radix limit cs (acc * radix + d)
      else .error .tooLarge

/-- An optional `+`, then one or more digits with a value below `limit`. Of two faults the
    first one from the left counts. -/
def parse (radix limit : Nat) : List Char → Except Fault Nat
  | [] => .error .empty
  | ['+'] => .error .badDigit
  | '+' :: ds => bounded radix limit ds 0
  | ds => bounded radix limit ds 0

def read? (radix limit : Nat) (s : List Char) : Option Nat := (parse radix limit s).toOption

def write (radix n : Nat) : List Char := Nat.toDigits radix n

/-- At least `width` digits, the missing ones zeros in front. -/
def padded (radix width n : Nat) : List Char :=
  let ds := write radix n
  List.replicate (width - ds.length) '0' ++ ds

end Peripheral.Text.Numeral
