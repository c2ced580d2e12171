import Peripheral.Json.Basic
import Peripheral.Text.Quoted

/-
  Peripheral.Log — log events as values, their severities, and the threshold that lets an
  event through. `critical` is a threshold only: it lets through what `error` does.
-/

namespace Peripheral

/-- The severity of an event, the least severe last. -/
inductive Severity
  | error
  | warn
  | info
  | debug
  | trace
deriving DecidableEq, Repr

namespace Severity

def rank : Severity → Nat
  | error => 1
  | warn => 2
  | info => 3
  | debug => 4
  | trace => 5

/-- The spelling in records. -/
def label : Severity → String
  | error => "ERROR"
  | warn => "WARN"
  | info => "INFO"
  | debug => "DEBUG"
  | trace => "TRACE"

/-- The spelling of a filter. -/
def name : Severity → String
  | error => "error"
  | warn => "warn"
  | info => "info"
  | debug => "debug"
  | trace => "trace"

def ofName? : String → Option Severity
  | "error" => some error
  | "warn" => some warn
  | "info" => some info
  | "debug" => some debug
  | "trace" => some trace
  | _ => none

end Severity

/-- A threshold. -/
inductive LogLevel
  | trace
  | debug
  | info
  | warn
  | error
  | critical
  | off
deriving DecidableEq, Repr, Inhabited

namespace LogLevel

def name : LogLevel → String
  | trace => "trace"
  | debug => "debug"
  | info => "info"
  | warn => "warn"
  | error => "error"
  | critical => "critical"
  | off => "off"

def ofName? : String → Option LogLevel
  | "trace" => some trace
  | "debug" => some debug
  | "info" => some info
  | "warn" => some warn
  | "error" => some error
  | "critical" => some critical
  | "off" => some off
  | _ => none

/-- The least severe events let through; none for no events. -/
def least : LogLevel → Option Severity
  | trace => some .trace
  | debug => some .debug
  | info => some .info
  | warn => some .warn
  | error | critical => some .error
  | off => none

def filterName (l : LogLevel) : String := l.least.elim "off" Severity.name

def admits (l : LogLevel) (s : Severity) : Bool := l.least.any (s.rank ≤ ·.rank)

/-- A level in any case; `warning` is a second name. -/
def ofText? (text : String) : Option LogLevel :=
  let lower := text.map Char.toLower
  if lower == "warning" then some warn else ofName? lower

def unknownMessage (text : String) : String := s!"Unknown log level '{text}'"

end LogLevel

/-- The layout of log lines. -/
inductive LogFormat
  | full
  | compact
deriving DecidableEq, Repr, Inhabited

namespace LogFormat

def name : LogFormat → String
  | full => "full"
  | compact => "compact"

def ofName? : String → Option LogFormat
  | "full" => some full
  | "compact" => some compact
  | _ => none

end LogFormat

/-- One event: its message and its named values in order. -/
structure LogEvent where
  severity : Severity
  message : String
  fields : List (String × String) := []
deriving DecidableEq, Repr

def LogEvent.toJson (e : LogEvent) : Json :=
  .obj [("level", .str e.severity.label), ("message", .str e.message),
    ("fields", .arr (e.fields.map fun f => .arr [.str f.1, .str f.2]))]

/-- The events that a threshold lets through. -/
def LogLevel.select (l : LogLevel) (events : List LogEvent) : List LogEvent :=
  events.filter fun e => l.admits e.severity

end Peripheral
