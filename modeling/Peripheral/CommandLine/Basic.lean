import Peripheral.Json.Basic
import Peripheral.Log

/-
  Peripheral.CommandLine.Basic — what can be asked for on the command line, and the ways in
  which a request can be wrong.
-/

namespace Peripheral.CommandLine

inductive Opt
  | config
  | logLevel
  | help
  | version
  | json
  | usb
  | ip
  | port
  | udp
  | http
deriving DecidableEq, Repr

namespace Opt

/-- The name after two dashes. -/
def long : Opt → String
  | config => "config"
  | logLevel => "log-level"
  | help => "help"
  | version => "version"
  | json => "json"
  | usb => "usb"
  | ip => "ip"
  | port => "port"
  | udp => "udp"
  | http => "http"

/-- The letter after one dash. -/
def short? : Opt → Option Char
  | config => some 'c'
  | logLevel => some 'l'
  | help => some 'h'
  | version => some 'V'
  | _ => none

/-- What the value of the option is called; none for a flag. -/
def valueName? : Opt → Option String
  | config => some "CONFIG"
  | logLevel => some "LOG_LEVEL"
  | usb => some "VID:PID"
  | ip => some "IP"
  | port => some "PORT"
  | _ => none

/-- May be given more than once. -/
def isRepeatable : Opt → Bool
  | usb => true
  | _ => false

def text (o : Opt) : String := s!"--{o.long}" ++ o.valueName?.elim "" fun v => s!" <{v}>"

end Opt

/-- The parts of the command line that have options of their own. -/
inductive Scope
  | program
  | interfaces
  | devices
deriving DecidableEq, Repr

def Scope.options : Scope → List Opt
  | program => [.config, .logLevel, .help, .version]
  | interfaces => [.config, .json, .logLevel, .help]
  | devices => [.config, .usb, .ip, .logLevel, .port, .udp, .http, .json, .help]

/-- A page of help: of a scope, or of the command that shows help. -/
inductive Page
  | of (scope : Scope)
  | ofHelp
deriving DecidableEq, Repr

/-- Why there is nothing to run. -/
inductive Refusal
  | help (page : Page)
  | version
  /-- No word at all was given. -/
  | nothingGiven
  | commandMissing
  | unknownCommand (word : String)
  /-- An option that does not exist, or a word where none may stand. -/
  | unexpected (word : String)
  /-- A flag with a value. -/
  | unexpectedValue (value : String) (flag : Opt)
  | valueMissing (option : Opt)
  | invalidValue (value : String) (option : Opt) (reason : String)
  | repeated (option : Opt)
  | conflicting (first second : Opt)
deriving DecidableEq, Repr

/-- What to look for. -/
structure Search where
  usb : List String := []
  ip : Option String := none
  port : Option UInt16 := none
  udp : Bool := false
  http : Bool := false
deriving DecidableEq, Repr

inductive Command
  /-- Lists the interfaces of this machine. -/
  | interfaces (json : Bool)
  /-- Discovers devices. -/
  | devices (search : Search) (json : Bool)
deriving DecidableEq, Repr

structure Invocation where
  /-- The settings file. -/
  config : String := "tether.toml"
  logLevel : Option LogLevel := none
  command : Command
deriving DecidableEq, Repr

/-! ## As data -/

def Search.fields (s : Search) : List (String × Json) :=
  [("usb", .arr (s.usb.map .str)), ("ip", Json.ofOption .str s.ip),
    ("port", Json.ofOption (fun p => .nat p.toNat) s.port), ("udp", .bool s.udp),
    ("http", .bool s.http)]

def Command.toJson : Command → Json
  | interfaces json => .obj [("interfaces", .obj [("json", .bool json)])]
  | devices s json => .obj [("devices", .obj (s.fields ++ [("json", .bool json)]))]

def Invocation.toJson (i : Invocation) : Json :=
  .obj [("config", .str i.config), ("log_level", Json.ofOption (fun l => .str l.name) i.logLevel),
    ("command", i.command.toJson)]

end Peripheral.CommandLine
