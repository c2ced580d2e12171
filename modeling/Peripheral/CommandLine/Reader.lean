import Peripheral.CommandLine.Basic
import Peripheral.Text.Numeral

/-
  Peripheral.CommandLine.Reader — reading the words of a command line.

  An option with a value takes the rest of its own word, `--port=80`, `-lwarn`, or else the
  next word, which must not look like an option. A value is checked when the next option is
  met or the line ends; a word that is no option of its scope, or a value for a flag, is
  reported first. The options of the program may stand before the command or after it; after
  it they win.
-/

namespace Peripheral.CommandLine

/-- Options met so far in one scope. -/
structure Given where
  /-- In the order of their first appearance, with their values. -/
  options : List (Opt × List String) := []
  /-- The last option with a value, and the value once it is there. -/
  pending : Option (Opt × Option String) := none

/-! ## Values -/

/-- A whole number with a sign, within 64 bits. -/
def signed (s : List Char) : Except String Int :=
  match s with
  | '-' :: c :: ds =>
    match Text.Numeral.bounded 10 (1 <<< 63 + 1) (c :: ds) 0 with
    | .ok n => .ok (-n)
    | .error .tooLarge => .error "number too small to fit in target type"
    | .error e => .error e.message
  | s => ((Text.Numeral.parse 10 (1 <<< 63) s).map Int.ofNat).mapError Text.Numeral.Fault.message

def portOf (value : String) : Except String UInt16 := do
  let n ← signed value.toList
  if 0 ≤ n ∧ n ≤ 65535 then return UInt16.ofNat n.toNat
  throw s!"{n} is not in 0..=65535"

def levelOf (value : String) : Except String LogLevel :=
  match LogLevel.ofText? value with
  | some l => .ok l
  | none => .error (LogLevel.unknownMessage value)

/-- Refuses a value that does not fit its option. -/
def checkValue (o : Opt) (value : String) : Except Refusal Unit :=
  match o with
  | .config => if value.isEmpty then .error (.valueMissing o) else .ok ()
  | .port => (discard (portOf value)).mapError (.invalidValue value o)
  | .logLevel => (discard (levelOf value)).mapError (.invalidValue value o)
  | _ => .ok ()

/-! ## Options -/

namespace Given

def has (g : Given) (o : Opt) : Bool := g.options.any (·.1 == o)

def values (g : Given) (o : Opt) : List String := (g.options.lookup o).getD []

/-- Adds a value to those of an option, or a new option at the end. -/
def insertValue (o : Opt) (values : List String) :
    List (Opt × List String) → List (Opt × List String)
  | [] => [(o, values)]
  | (p, vs) :: rest =>
    if p = o then (p, vs ++ values) :: rest else (p, vs) :: insertValue o values rest

def add (g : Given) (o : Opt) (values : List String) : Except Refusal Given := do
  if g.has o && !o.isRepeatable then throw (.repeated o)
  values.forM (checkValue o)
  return { g with options := insertValue o values g.options }

/-- Takes the pending option in. -/
def settle (g : Given) : Except Refusal Given :=
  match g.pending with
  | none => .ok g
  | some (o, none) => .error (.valueMissing o)
  | some (o, some v) => Given.add { g with pending := none } o [v]

/-- The next word is the value of an option. -/
def isWaiting (g : Given) : Bool := g.pending.any (·.2.isNone)

/-- Meets an option, perhaps with a value in the same word. -/
def meet (g : Given) (scope : Scope) (o : Opt) (attached : Option String) :
    Except Refusal Given := do
  match o.valueName?, attached with
  | none, some v => throw (.unexpectedValue v o)
  | none, none =>
    let g ← g.settle
    match o with
    | .help => throw (.help (.of scope))
    | .version => throw .version
    | o => g.add o []
  | some _, some v => (← g.settle).add o [v]
  | some _, none => return { (← g.settle) with pending := some (o, none) }

/-- Meets the letters of a word with one dash. -/
def meetLetters (g : Given) (scope : Scope) : List Char → Except Refusal Given
  | [] => .ok g
  | c :: rest =>
    match scope.options.find? (·.short? == some c) with
    | none => .error (.unexpected s!"-{c}")
    | some o =>
      if o.valueName?.isSome then
        g.meet scope o (match rest with
          | [] => none
          | '=' :: value => some (String.ofList value)
          | value => some (String.ofList value))
      else do (← g.meet scope o none).meetLetters scope rest

/-- Meets the rest of a word with two dashes. -/
def meetLong (g : Given) (scope : Scope) (word : List Char) : Except Refusal Given :=
  let name := String.ofList (word.takeWhile (· != '='))
  let attached := match word.dropWhile (· != '=') with
    | [] => none
    | _ :: value => some (String.ofList value)
  match scope.options.find? (·.long == name) with
  | none => .error (.unexpected s!"--{name}")
  | some o => g.meet scope o attached

end Given

/-! ## Words -/

def isCommand (word : String) : Bool := ["interfaces", "devices", "help"].contains word

/-- A word where no word may stand. -/
def stray (scope : Scope) (isTrailing : Bool) (word : String) : Refusal :=
  if scope = .program && !(isTrailing && isCommand word) then .unknownCommand word
  else .unexpected word

/-- Reads the words of a scope up to a command; the command and the words after it are left.
    After two dashes alone, no word may stand. -/
def readWords (scope : Scope) (isTrailing : Bool) (g : Given) :
    List String → Except Refusal (Given × Option (String × List String))
  | [] => .ok (g, none)
  | word :: rest =>
    if isTrailing then .error (stray scope true word)
    else if scope = .program && !g.isWaiting && isCommand word then .ok (g, some (word, rest))
    else match word.toList with
      | ['-', '-'] => readWords scope true g rest
      | '-' :: '-' :: name => do readWords scope false (← g.meetLong scope name) rest
      | '-' :: c :: letters => do readWords scope false (← g.meetLetters scope (c :: letters)) rest
      | _ =>
        match g.pending with
        | some (o, none) => readWords scope false { g with pending := some (o, some word) } rest
        | _ => .error (stray scope false word)

/-- The help that is asked for by words after `help`. -/
def helpOn : List String → Refusal
  | [] => .help (.of .program)
  | word :: rest =>
    if !isCommand word then .unknownCommand word
    else match rest with
      | other :: _ => .unknownCommand other
      | [] =>
        if word = "devices" then .help (.of .devices)
        else if word = "interfaces" then .help (.of .interfaces)
        else .help .ofHelp

/-! ## The whole line -/

/-- The first of two options that exclude each other. -/
def checkConflicts (g : Given) : Except Refusal Unit :=
  match (g.options.map (·.1)).filter fun o => o == .udp || o == .http with
  | [first, second] => .error (.conflicting first second)
  | _ => .ok ()

/-- The value that was given last. -/
def lastOf {α : Type} (read : String → Except String α) (inner outer : Given) (o : Opt) : Option α :=
  (outer.values o ++ inner.values o).getLast?.bind fun v => (read v).toOption

def searchOf (g : Given) : Search where
  usb := g.values .usb
  ip := (g.values .ip).getLast?
  port := lastOf portOf g {} .port
  udp := g.has .udp
  http := g.has .http

def commandOf (scope : Scope) (g : Given) : Command :=
  match scope with
  | .devices => .devices (searchOf g) (g.has .json)
  | _ => .interfaces (g.has .json)

def scopeOf (word : String) : Scope := if word = "devices" then .devices else .interfaces

/-- Reads the words after the name of the program. -/
def read (words : List String) : Except Refusal Invocation := do
  let (outer, command) ← readWords .program false {} words
  match command with
  | none =>
    let outer ← outer.settle
    throw (if outer.options.isEmpty then .nothingGiven else .commandMissing)
  | some ("help", rest) => throw (helpOn rest)
  | some (word, rest) =>
    let scope := scopeOf word
    let (inner, _) ← readWords scope false {} rest
    let inner ← inner.settle
    checkConflicts inner
    let outer ← outer.settle
    return {
      config := (lastOf .ok inner outer .config).getD "tether.toml"
      logLevel := lastOf levelOf inner outer .logLevel
      command := commandOf scope inner }

end Peripheral.CommandLine
