/-
  Peripheral.Address.Basic — network addresses of both families and the arithmetic of
  subnets on their segments.

  An address is its segments from the most significant one down: four of 8 bits (v4) or
  eight of 16 bits (v6). `toBits` reads them as one number, `ofBits` cuts a number into
  them. The arithmetic works segment by segment:
  - `mask` fills segments with ones from the front;
  - `base` keeps the bits under a mask;
  - `offset` adds an index at the last segment and carries to the left; what leaves the
    first segment is dropped. `offset?` does the same in 128-bit numbers.
  A family's order puts v4 before v6 and compares segments from the front.
-/

namespace Peripheral

inductive Family
  | v4
  | v6
deriving DecidableEq, Repr, Inhabited

namespace Family

def segmentBits : Family → Nat
  | v4 => 8
  | v6 => 16

def segmentCount : Family → Nat
  | v4 => 4
  | v6 => 8

/-- Bits in an address. -/
def width : Family → Nat
  | v4 => 32
  | v6 => 128

def name : Family → String
  | v4 => "IPv4"
  | v6 => "IPv6"

end Family

inductive Address
  | v4 (octets : Vector UInt8 4)
  | v6 (groups : Vector UInt16 8)
deriving DecidableEq, Repr

inductive AddressError
  /-- The text is no address. -/
  | invalidFormat (text : String)
  | invalidPrefix (len : Nat) (family : Family)
  | familyMismatch (left right : Family)
deriving DecidableEq, Repr

namespace Address

def family : Address → Family
  | v4 _ => .v4
  | v6 _ => .v6

def segments : Address → List Nat
  | v4 octets => octets.toList.map UInt8.toNat
  | v6 groups => groups.toList.map UInt16.toNat

/-- The address with these segments; a missing one is zero. -/
def ofSegments : Family → List Nat → Address
  | .v4, l => v4 (Vector.ofFn fun i => UInt8.ofNat (l.getD i 0))
  | .v6, l => v6 (Vector.ofFn fun i => UInt16.ofNat (l.getD i 0))

/-- The number whose digits in base `2 ^ width` are these, the most significant first. -/
def valueOf (width : Nat) (segs : List Nat) : Nat :=
  segs.foldl (fun acc s => acc <<< width ||| s) 0

def toBits (a : Address) : Nat := valueOf a.family.segmentBits a.segments

/-- Bits above the family's width are dropped. -/
def ofBits (family : Family) (bits : Nat) : Address :=
  let width := family.segmentBits
  let count := family.segmentCount
  ofSegments family ((List.range count).map fun i =>
    (bits >>> (width * (count - 1 - i))) &&& (1 <<< width - 1))

def unspecified (family : Family) : Address :=
  ofSegments family (List.replicate family.segmentCount 0)

def isUnspecified (a : Address) : Bool := a.toBits == 0

/-- `count` segments with `ones` leading one bits between them. -/
def maskSegments (width : Nat) : Nat → Nat → List Nat
  | 0, _ => []
  | count + 1, ones =>
    let full := 1 <<< width - 1
    if width ≤ ones then full :: maskSegments width count (ones - width)
    else (full <<< (width - ones) &&& full) :: maskSegments width count 0

/-- The network mask with `len` leading one bits. -/
def mask (family : Family) (len : Nat) : Except AddressError Address :=
  if family.width < len then .error (.invalidPrefix len family)
  else .ok (ofSegments family (maskSegments family.segmentBits family.segmentCount len))

/-- The bits of `a` under the mask `m`. -/
def base (a m : Address) : Except AddressError Address :=
  if a.family = m.family then
    .ok (ofSegments a.family (List.zipWith (· &&& ·) a.segments m.segments))
  else .error (.familyMismatch a.family m.family)

/-- Adds `carry` to a number given by its digits in base `modulus`, the last digit first;
    gives the new digits and what is carried out of the first one. -/
def addCarry (modulus : Nat) (carry : Nat) : List Nat → List Nat × Nat
  | [] => ([], carry)
  | s :: rest =>
    let (rest, c) := addCarry modulus carry rest
    let sum := s + c % modulus
    (sum % modulus :: rest, c / modulus + sum / modulus)

/-- The address `index` places after `a`; past the last address it starts over. -/
def offset (a : Address) (index : Nat) : Address :=
  ofSegments a.family (addCarry (1 <<< a.family.segmentBits) index a.segments).1

/-- The greatest 128-bit number. -/
def greatestCount : Nat := 1 <<< 128 - 1

/-- The sum, if it is a 128-bit number. -/
def sum? (x y : Nat) : Option Nat := if x + y ≤ greatestCount then some (x + y) else none

/-- `addCarry` with every sum on the way checked. It is over as soon as nothing is carried. -/
def addCarry? (modulus carry : Nat) : List Nat → Option (List Nat × Nat)
  | [] => some ([], carry)
  | s :: rest => do
    let (rest, c) ← addCarry? modulus carry rest
    if c = 0 then return (s :: rest, 0)
    let sum ← sum? s (c % modulus)
    let carried ← sum? (c / modulus) (sum / modulus)
    return (sum % modulus :: rest, carried)

/-- `offset` with every sum on the way checked. -/
def offset? (a : Address) (index : Nat) : Option Address :=
  (addCarry? (1 <<< a.family.segmentBits) index a.segments).map fun r => ofSegments a.family r.1

/-- How many addresses share a prefix of `len` bits. The count stops at the greatest
    128-bit number. -/
def hostCount (len width : Nat) : Nat :=
  if width - len < 128 then 1 <<< (width - len) else greatestCount

/-- Rank of the family, then the segments from the front. -/
def key (a : Address) : List Nat := (match a with | v4 _ => 4 | v6 _ => 6) :: a.segments

/-- The first place where the keys differ decides. -/
instance : LT Address := ⟨fun a b => List.Lex (· < ·) a.key b.key⟩

instance : LE Address := ⟨fun a b => ¬ b < a⟩

instance : DecidableRel (α := Address) (· < ·) := fun a b =>
  List.decidableLex (· < ·) a.key b.key

instance : DecidableRel (α := Address) (· ≤ ·) := fun a b => inferInstanceAs (Decidable (¬ b < a))

end Address

end Peripheral
