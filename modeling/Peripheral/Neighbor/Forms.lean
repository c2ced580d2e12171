import Peripheral.Neighbor.Basic
import Peripheral.Text.Capital
import Peripheral.Text.Search
import Peripheral.Text.Slice

/-
  Peripheral.Neighbor.Forms — the four forms in which systems print their neighbour tables.

  - `ofKeywordLine?`: `IP dev IFACE [lladdr MAC] FLAGS.. STATE`, fields found by keyword and
    the state by its place at the end.
  - `ofColumnLine?`: six columns, the third a flag word in hexadecimal.
  - `ofSentence?`: `NAME (IP) at MAC on IFACE ..`.
  - `ofGroups`: groups of `IP MAC KIND` lines below a header that names the interface.
  Words are separated by runs of blanks.

  `columnsAt?` and `sentenceAt?` do the same one step at a time, with columns asked for by number
  and a line cut at byte positions, and give up where there is no such column or position.
-/

namespace Peripheral.Neighbor

open Text.Slice (between? find? from?)

/-- The word after the first occurrence of a keyword. -/
def wordAfter? (key : String) : List String → Option String
  | [] => none
  | w :: ws => if w = key then ws.head? else wordAfter? key ws

/-- The state named by a word in any case. -/
def State.ofWord (word : String) : State :=
  match Text.capitals word with
  | "REACHABLE" => .reachable
  | "STALE" => .stale
  | "DELAY" => .delay
  | "PROBE" => .probe
  | "FAILED" => .failed
  | "INCOMPLETE" => .incomplete
  | "PERMANENT" => .permanent
  | _ => .unknown

def ofKeywordWords? (ws : List String) : Option Entry :=
  match ws with
  | first :: _ :: _ :: _ :: _ => do
    let ip ← Address.ofText? first
    let interface ← wordAfter? "dev" ws
    let mac := (wordAfter? "lladdr" ws).bind Mac.ofText?
    some ⟨ip, mac, interface, State.ofWord (ws.getLastD "")⟩
  | _ => none

def ofKeywordLine? (line : String) : Option Entry := ofKeywordWords? (Text.wordsOf line)

/-- A table of keyword lines; other lines are skipped. -/
def ofKeywordLines (output : String) : List Entry := (Text.linesOf output).filterMap ofKeywordLine?

/-- The value of a 32-bit flag word; a `0x` in front may be missing or repeated. -/
def flags? (word : String) : Option Nat :=
  Text.Numeral.read? 16 (1 <<< 32) (Text.dropAll "0x".toList word.toList)

/-- Bit 4 marks a permanent entry, bit 2 a complete one. -/
def State.ofFlags (flags : Nat) : State :=
  if flags &&& 4 ≠ 0 then .permanent
  else if flags &&& 2 ≠ 0 then .reachable
  else .incomplete

def ofColumns? (ws : List String) : Option Entry :=
  match ws with
  | ip :: _ :: flags :: mac :: _ :: interface :: _ => do
    let ip ← Address.ofText? ip
    let flags ← flags? flags
    some ⟨ip, Mac.ofText? mac, interface, State.ofFlags flags⟩
  | _ => none

/-- Reads the columns by their numbers; none if one that is asked for is missing. -/
def columnsAt? (ws : List String) : Option (Option Entry) :=
  if ws.length < 6 then some none
  else do
    let ipWord ← ws[0]?
    match Address.ofText? ipWord with
    | none => some none
    | some ip => do
      let flagWord ← ws[2]?
      match flags? flagWord with
      | none => some none
      | some flags => do
        let macWord ← ws[3]?
        let device ← ws[5]?
        some (some ⟨ip, Mac.ofText? macWord, device, State.ofFlags flags⟩)

def ofColumnLine? (line : String) : Option Entry := ofColumns? (Text.wordsOf line)

/-- What the words behind the address of a sentence say. -/
def ofPredicate? (ip : Address) (ws : List String) : Option Entry := do
  let macWord ← wordAfter? "at" ws
  let mac := Mac.ofText? macWord
  let state : State :=
    if mac.isNone then .incomplete
    else if ws.contains "permanent" then .permanent
    else .reachable
  some ⟨ip, mac, (wordAfter? "on" ws).getD "", state⟩

def ofSentence? (line : String) : Option Entry := do
  let (_, s) ← Text.cutAt? '(' line.toList
  let (ip, s) ← Text.cutAt? ')' s
  let ip ← Address.ofText? (String.ofList ip)
  ofPredicate? ip (Text.wordsOf (String.ofList s))

/-- Reads a sentence by the positions of its parentheses; none if the line cannot be cut at one. -/
def sentenceAt? (line : String) : Option (Option Entry) :=
  match find? '(' line.toList with
  | none => some none
  | some start => do
    let tail ← from? start line.toList
    match find? ')' tail with
    | none => some none
    | some length => do
      let ipText ← between? (start + 1) (start + length) line.toList
      match Address.ofText? (String.ofList ipText) with
      | none => some none
      | some ip => do
        let behind ← from? (start + length + 1) line.toList
        some (ofPredicate? ip (Text.wordsOf (String.ofList behind)))

/-- The state of a kind of entry. -/
def State.ofKind : String → State
  | "static" => .permanent
  | "dynamic" => .reachable
  | _ => .unknown

/-- Reads one line below the header of `interface`: the interface from here on, and the
    entry if the line is one. -/
def groupLine (interface : String) (ws : List String) : String × Option Entry :=
  match ws with
  | "Interface:" :: address :: _ => (address, none)
  | [ip, mac, kind] =>
    match Address.ofText? ip, Mac.ofText? mac with
    | some ip, some mac => (interface, some ⟨ip, some mac, interface, State.ofKind kind⟩)
    | _, _ => (interface, none)
  | _ => (interface, none)

/-- The entries of the lines after a header of `interface`. -/
def ofGroupLines (interface : String) : List String → List Entry
  | [] => []
  | line :: rest =>
    let (interface, entry) := groupLine interface (Text.wordsOf line)
    entry.toList ++ ofGroupLines interface rest

def ofGroups (output : String) : List Entry := ofGroupLines "" (Text.linesOf output)

end Peripheral.Neighbor
