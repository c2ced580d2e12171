import Peripheral.CommandLine.Message
import Peripheral.CommandLine.Reader
import Peripheral.Discovery.Manager
import Peripheral.Json.Pretty
import Peripheral.Settings.File
import Peripheral.Text.Search

/-
  Peripheral.CommandLine.Run — what a command line does: the criteria that it stands for, and
  the output of each command.
-/

namespace Peripheral.CommandLine

/-- Why a command failed: what went wrong, and what was behind it. -/
structure Failure where
  message : String
  causes : List String := []
deriving DecidableEq, Repr

/-! ## Criteria -/

/-- An identifier of a vendor or a product, in hexadecimal; what stands in front of it as
    `0x` does not count. -/
def parseId (what : String) (word : List Char) : Except Failure UInt16 :=
  match Text.Numeral.parse 16 65536 (Text.dropAll "0x".toList word) with
  | .ok n => .ok (UInt16.ofNat n)
  | .error e => .error ⟨s!"invalid {what} id '{String.ofList word}'", [e.message]⟩

/-- Two identifiers with a colon between them. -/
def parseUsb (text : String) : Except Failure UsbCriteria := do
  let some (vendor, product) := Text.cutAt? ':' text.toList
    | throw ⟨s!"expected VID:PID, got '{text}'", []⟩
  return { vendorId := ← parseId "vendor" vendor, productId := ← parseId "product" product }

/-- The criteria of the options on hosts, if there are any. -/
def hostCriteria (ip : Option String) (port : Option UInt16) (udp http : Bool) : Option Criteria :=
  if ip.isNone && port.isNone && !http then none
  else
    let c := HostCriteria.host (ip.getD "*") (port.getD 0) (if udp then .udp else .tcp)
    some (if http then .http c else .ethernet c)

/-- All criteria of a search; without any, those of the settings. -/
def Search.criteria (s : Search) (saved : List Criteria) : Except Failure (List Criteria) := do
  let usb ← s.usb.mapM parseUsb
  let given := usb.map Criteria.usb ++ (hostCriteria s.ip s.port s.udp s.http).toList
  let criteria := if given.isEmpty then saved else given
  if criteria.isEmpty then
    throw ⟨"no criteria given; pass --usb, --ip/--port or add [[device]] entries to the config file", []⟩
  return criteria

/-! ## Commands -/

/-- What a program leaves behind. -/
structure Output where
  exit : Nat := 0
  stdout : String := ""
  stderr : String := ""
deriving DecidableEq, Repr

/-- A line for each cause, numbered from `i`. -/
def numbered : (i : Nat) → List String → String
  | _, [] => ""
  | i, cause :: rest => s!"\n    {i}: {cause}" ++ numbered (i + 1) rest

/-- The causes of a failure; only several are numbered. -/
def causesText : List String → String
  | [] => ""
  | [cause] => s!"\n\nCaused by:\n    {cause}"
  | causes => "\n\nCaused by:" ++ numbered 0 causes

def Failure.text (f : Failure) : String := s!"Error: {f.message}{causesText f.causes}\n"

/-- A heading and a line for each item. -/
def listing (heading : String) (items : List String) : String :=
  heading ++ "\n" ++ String.join (items.map fun item => s!"  - {item}\n")

/-- What a command works on. -/
structure Machine where
  surroundings : Surroundings
  interfaces : List Interface := []
  /-- The bytes of a file, if there is one. -/
  file : String → Option (List UInt8)

/-- The settings of the file, or the defaults without one. -/
def Machine.settings (m : Machine) (path : String) : Except Failure Settings :=
  match m.file path with
  | none => .ok {}
  | some bytes =>
    match Settings.ofBytes bytes with
    | .ok s => .ok s
    | .error e => .error ⟨s!"failed to load {path}", e.cause?.toList⟩

def runInterfaces (m : Machine) (json : Bool) : String :=
  if json then (Json.arr (m.interfaces.map Interface.toJson)).prettyText ++ "\n"
  else listing s!"Found {m.interfaces.length} interfaces:" (m.interfaces.map Interface.text)

/-- The devices that answer the criteria. -/
def discovered (m : Machine) (s : Settings) (criteria : List Criteria) : List Device :=
  let w := m.surroundings
  let probe := Net.socketProbe w.net w.resolver s.discovery.probeTimeoutMs
  let found : Act (Except Discovery.Error (List Device) × List Address) := do
    let manager ← Discovery.Manager.create w s.discovery.usb s.discovery.ethernet
      s.discovery.limits m.interfaces probe
    manager.discover w criteria
  match (found.run {}).1.1 with
  | .ok devices => devices
  | .error _ => []

def runDevices (m : Machine) (s : Settings) (search : Search) (json : Bool) :
    Except Failure String := do
  let devices := discovered m s (← search.criteria s.devices)
  if json then return (Json.arr (devices.map (·.identity.toJson))).prettyText ++ "\n"
  return listing s!"Discovered {devices.length} devices:" (devices.map Device.text)

def Invocation.run (i : Invocation) (m : Machine) : Except Failure String := do
  let settings ← m.settings i.config
  match i.command with
  | .interfaces json => return runInterfaces m json
  | .devices search json => runDevices m settings search json

/-- What the program prints for its words, and its exit code: 2 for a wrong command line, 1
    for a command that failed. -/
def run (m : Machine) (words : List String) : Output :=
  match read words with
  | .error r => if r.isAnswer then { stdout := r.text } else { exit := 2, stderr := r.text }
  | .ok i =>
    match i.run m with
    | .ok text => { stdout := text }
    | .error f => { exit := 1, stderr := f.text }

end Peripheral.CommandLine
