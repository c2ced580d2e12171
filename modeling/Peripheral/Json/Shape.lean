import Peripheral.Json.Reader

/-
  Peripheral.Json.Shape — reading values of a wanted shape out of JSON.

  - A record is an object of its fields or an array of them in order. In an object, unknown
    members are ignored and a known name must not repeat; an array has no element too many.
    A missing field takes its default; without one it is an error.
  - A choice between records is an object with the tag among its members, or an array with the
    tag in front. All of it must be readable, unknown members too: it is held as a whole until
    the tag is known.
  - A choice between names is the name, or an object with the name as its only member and
    nothing as its value.
  - A number is a whole number within its range.

  What counts as nothing, and whether an array may be longer than its record, depends on
  where the value stands (`Place`).
-/

namespace Peripheral.Json

/-- Where a value stands. -/
inductive Place
  /-- In a JSON text. -/
  | text
  /-- In a value held until its tag is known. -/
  | held
  /-- In a settings table. -/
  | table
deriving DecidableEq, Repr

/-- The values that stand for nothing after a name. -/
def Place.isNothing : Place → Json → Bool
  | text, null | held, null => true
  | held, obj [] | table, obj [] | table, arr [] => true
  | _, _ => false

/-- Reads one value at a place. -/
abbrev Shape (α : Type) := Place → Json → Option α

namespace Shape

def string : Shape String
  | _, str s => some s
  | _, _ => none

def bool : Shape Bool
  | _, Json.bool b => some b
  | _, _ => none

/-- A whole number below `limit`. -/
def natBelow (limit : Nat) : Shape Nat
  | _, int (.ofNat n) => if n < limit then some n else none
  | _, _ => none

def uint8 : Shape UInt8 := fun p j => (natBelow (1 <<< 8) p j).map UInt8.ofNat

def uint16 : Shape UInt16 := fun p j => (natBelow (1 <<< 16) p j).map UInt16.ofNat

def uint32 : Shape UInt32 := fun p j => (natBelow (1 <<< 32) p j).map UInt32.ofNat

def uint64 : Shape UInt64 := fun p j => (natBelow (1 <<< 64) p j).map UInt64.ofNat

def int32 : Shape Int
  | _, int n => if -(1 <<< 31) ≤ n ∧ n < 1 <<< 31 then some n else none
  | _, _ => none

def listOf {α : Type} (item : Shape α) : Shape (List α)
  | p, arr items => items.mapM (item p)
  | _, _ => none

/-- `null` is none. -/
def optional {α : Type} (item : Shape α) : Shape (Option α)
  | _, null => some none
  | p, j => (item p j).map some

/-- A string that `f` accepts. -/
def textOf {α : Type} (f : String → Option α) : Shape α := fun p j => (string p j).bind f

/-- A name, or the name with nothing. -/
def named {α : Type} (f : String → Option α) : Shape α
  | _, str s => f s
  | place, obj [(name, j)] => if place.isNothing j then f name else none
  | _, _ => none

end Shape

/-! ## Records -/

/-- An opened record: the values given for its fields. -/
structure Record where
  place : Place
  /-- The fields were given in order, without names. -/
  positional : Bool
  given : List (String × Json)

namespace Record

/-- How many of the members have this name. -/
def occurrences (name : String) (members : List (String × Json)) : Nat :=
  members.countP (·.1 == name)

/-- Opens a record with these fields. -/
def open? (fields : List String) (place : Place) : Json → Option Record
  | obj members =>
    if fields.all fun f => occurrences f members ≤ 1 then some ⟨place, false, members⟩ else none
  | arr items =>
    if place == .table || items.length ≤ fields.length then some ⟨place, true, fields.zip items⟩
    else none
  | _ => none

def required {α : Type} (r : Record) (name : String) (shape : Shape α) : Option α :=
  (r.given.lookup name).bind (shape r.place)

def defaulted {α : Type} (r : Record) (name : String) (value : α) (shape : Shape α) : Option α :=
  match r.given.lookup name with
  | none => some value
  | some j => shape r.place j

end Record

/-- The tag and what remains of a choice between records. -/
def tagged? (tag : String) : Json → Option (String × Json)
  | obj members =>
    if membersReadable members && Record.occurrences tag members == 1 then
      match members.lookup tag with
      | some (str name) => some (name, obj (members.filter (·.1 != tag)))
      | _ => none
    else none
  | arr (str name :: items) => if itemsReadable items then some (name, arr items) else none
  | _ => none

/-- Reads a whole text as one value of a shape. -/
def decode? {α : Type} (shape : Shape α) (text : String) : Option α :=
  (ofText? text).bind (shape .text)

end Peripheral.Json
