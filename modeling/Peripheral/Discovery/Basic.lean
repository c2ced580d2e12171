import Peripheral.Device
import Peripheral.Scan.Subnet

/-
  Peripheral.Discovery.Basic — what a discovery reports while it runs, and why it may be
  refused as a whole.
-/

namespace Peripheral.Discovery

/-- The phase of a discovery. -/
inductive Status
  /-- Waits for an earlier discovery to end. -/
  | queued
  | enumeratingUsb
  | enumeratingEthernet
  | completed
deriving DecidableEq, Repr

namespace Status

def text : Status → String
  | queued => "queued"
  | enumeratingUsb => "enumerating-usb"
  | enumeratingEthernet => "enumerating-ethernet"
  | completed => "completed"

/-- The spelling in data. -/
def name : Status → String
  | queued => "queued"
  | enumeratingUsb => "enumerating_usb"
  | enumeratingEthernet => "enumerating_ethernet"
  | completed => "completed"

end Status

inductive Error
  | shutDown
  /-- A blocking discovery was asked for where nothing may block. -/
  | nestedRuntime
  /-- Nothing could be made to block on. -/
  | runtime (code : Int)
deriving DecidableEq, Repr

def Error.message : Error → String
  | shutDown => "Device manager has been shut down"
  | nestedRuntime =>
    "Synchronous discovery cannot run inside an async runtime; use \x60discover\x60 instead"
  | runtime code => s!"Failed to start discovery runtime: {SystemError.text code}"

/-- One thing that a discovery reports. -/
inductive Report
  | notice (n : Notice)
  | status (s : Status)
  /-- The devices found over one transport; there is at least one. -/
  | found (devices : List Device)
deriving DecidableEq, Repr

namespace Report

def logged (severity : Severity) (message : String) (fields : List (String × String)) : Report :=
  .notice (.event ⟨severity, message, fields⟩)

def notices (reports : List Report) : List Notice :=
  reports.filterMap fun
    | .notice n => some n
    | _ => none

def statuses (reports : List Report) : List Status :=
  reports.filterMap fun
    | .status s => some s
    | _ => none

def batches (reports : List Report) : List (List Device) :=
  reports.filterMap fun
    | .found ds => some ds
    | _ => none

/-- A batch, unless it is empty. -/
def batch (devices : List Device) : List Report := if devices.isEmpty then [] else [.found devices]

end Report

end Peripheral.Discovery
