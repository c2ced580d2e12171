import Peripheral.Address.Basic
import Peripheral.Text.Blank
import Peripheral.Text.Quoted

/-
  Peripheral.Address.Text — addresses as text.

  Dotted form: four decimal numbers below 256, no leading zeros. Colon form: eight groups of
  up to four hexadecimal digits; one `::` stands for one or more zero groups, and the last
  two groups may be written in dotted form. A text with a colon is read in colon form, any
  other text with a dot in dotted form; blanks around it do not count.

  The canonical text writes lower-case groups without leading zeros, puts `::` for the first
  of the longest runs of two or more zero groups, and writes an embedded dotted address
  (`::ffff:` and two groups) in dotted form.
-/

namespace Peripheral

namespace Address

/-! ## Reading -/

/-- One number of at most `most` digits at the front of a text. -/
def readNumber? (radix most : Nat) (zeroPadded : Bool) (s : List Char) :
    Option (Nat × List Char) :=
  let isDigit := fun c => (Text.Numeral.digit? radix c).isSome
  let ds := s.takeWhile isDigit
  if ds.length > most then none
  else if !zeroPadded && ds.head? == some '0' && ds.length > 1 then none
  else (Text.Numeral.unsigned? radix ds).map fun n => (n, s.dropWhile isDigit)

/-- Passes the separator, which stands in front of every part but the first. -/
def passSeparator? (sep : Char) (first : Bool) (s : List Char) : Option (List Char) :=
  if first then some s
  else match s with
    | c :: rest => if c = sep then some rest else none
    | [] => none

/-- `count` decimal numbers below 256 with dots between them. -/
def readOctets? (first : Bool) : Nat → List Char → Option (List Nat × List Char)
  | 0, s => some ([], s)
  | count + 1, s => do
    let s ← passSeparator? '.' first s
    let (n, s) ← readNumber? 10 3 false s
    if 255 < n then none
    else
      let (ns, s) ← readOctets? false count s
      some (n :: ns, s)

def readDotted? (s : List Char) : Option (List Nat × List Char) := readOctets? true 4 s

/-- The groups at the front of a text. -/
structure GroupRun where
  groups : List Nat
  /-- The last two groups were written in dotted form. -/
  dotted : Bool
  rest : List Char

/-- Two groups in dotted form. -/
def readEmbedded? (first : Bool) (s : List Char) : Option (List Nat × List Char) := do
  let s ← passSeparator? ':' first s
  let (ns, s) ← readDotted? s
  match ns with
  | [a, b, c, d] => some ([a * 256 + b, c * 256 + d], s)
  | _ => none

def readGroup? (first : Bool) (s : List Char) : Option (Nat × List Char) := do
  let s ← passSeparator? ':' first s
  readNumber? 16 4 true s

/-- As many groups as the text has at its front, at most `room`. A dotted form ends the run;
    it takes the room of two. -/
def readGroups (first : Bool) : Nat → List Char → GroupRun
  | 0, s => ⟨[], false, s⟩
  | room + 1, s =>
    match if 0 < room then readEmbedded? first s else none with
    | some (pair, s) => ⟨pair, true, s⟩
    | none =>
      match readGroup? first s with
      | none => ⟨[], false, s⟩
      | some (g, s) =>
        let run := readGroups false room s
        ⟨g :: run.groups, run.dotted, run.rest⟩

/-- The eight groups of a colon form. -/
def readColons? (s : List Char) : Option (List Nat) :=
  let head := readGroups true 8 s
  if head.groups.length = 8 then
    if head.rest.isEmpty then some head.groups else none
  else if head.dotted then none
  else match head.rest with
    | ':' :: ':' :: s =>
      let tail := readGroups true (7 - head.groups.length) s
      let gap := 8 - (head.groups.length + tail.groups.length)
      if tail.rest.isEmpty then some (head.groups ++ List.replicate gap 0 ++ tail.groups)
      else none
    | _ => none

/-- The address written in a text without blanks around it. -/
def ofChars? (s : List Char) : Option Address :=
  if s.contains ':' then (readColons? s).map (ofSegments .v6)
  else if s.contains '.' then
    match readDotted? s with
    | some (ns, []) => some (ofSegments .v4 ns)
    | _ => none
  else none

def ofText? (text : String) : Option Address := ofChars? (Text.trim text.toList)

def parse (text : String) : Except AddressError Address :=
  match ofText? text with
  | some a => .ok a
  | none => .error (.invalidFormat text)

/-! ## Writing -/

def dotted (segs : List Nat) : List Char :=
  ['.'].intercalate (segs.map (Text.Numeral.write 10))

def colons (segs : List Nat) : List Char :=
  [':'].intercalate (segs.map (Text.Numeral.write 16))

/-- Length of the run of zeros at the front. -/
def zeroRun (segs : List Nat) : Nat := (segs.takeWhile (· == 0)).length

/-- Place and length of the first of the longest runs of zeros, counted from `at`. -/
def longestZeros : List Nat → Nat → Nat × Nat
  | [], place => (place, 0)
  | s :: rest, place =>
    let here := zeroRun (s :: rest)
    let later := longestZeros rest (place + 1)
    if later.2 ≤ here then (place, here) else later

/-- Hexadecimal groups with `::` for the first of the longest runs of zeros. -/
def compressed (segs : List Nat) : List Char :=
  let (place, len) := longestZeros segs 0
  if 1 < len then colons (segs.take place) ++ [':', ':'] ++ colons (segs.drop (place + len))
  else colons segs

def groupsText (segs : List Nat) : List Char :=
  match segs with
  | [0, 0, 0, 0, 0, 0xffff, g, h] =>
    "::ffff:".toList ++ dotted [g / 256, g % 256, h / 256, h % 256]
  | segs => compressed segs

/-- The canonical text. -/
def chars (a : Address) : List Char :=
  match a with
  | v4 _ => dotted a.segments
  | v6 _ => groupsText a.segments

def text (a : Address) : String := String.ofList a.chars

instance : ToString Address := ⟨text⟩

/-- The address with a port: brackets set a colon form apart from the port. -/
def withPort (a : Address) (port : Nat) : String :=
  match a with
  | v4 _ => s!"{a.text}:{port}"
  | v6 _ => s!"[{a.text}]:{port}"

end Address

namespace AddressError

def message : AddressError → String
  | invalidFormat text => s!"Invalid IP address format: {Text.quoted text}"
  | invalidPrefix len family => s!"Prefix length {len} exceeds the {family.name} bit width"
  | familyMismatch left right => s!"Address family mismatch: {left.name} and {right.name}"

end AddressError

end Peripheral
