import Peripheral.Configuration
import Peripheral.Criteria.Basic
import Peripheral.Log

/-
  Peripheral.Settings.Basic — the settings of a discovery run and the limits they must keep.
-/

namespace Peripheral

structure LoggingSettings where
  level : LogLevel := .info
  format : LogFormat := .full
deriving DecidableEq, Repr, Inhabited

structure DiscoverySettings where
  usb : Bool := true
  ethernet : Bool := true
  probeTimeoutMs : UInt32 := defaultTimeout
  maxConcurrent : UInt64 := 256
deriving DecidableEq, Repr, Inhabited

def DiscoverySettings.limits (d : DiscoverySettings) : ScanLimits :=
  ⟨d.probeTimeoutMs, d.maxConcurrent⟩

structure Settings where
  logging : LoggingSettings := {}
  discovery : DiscoverySettings := {}
  /-- Saved searches. -/
  devices : List Criteria := []
deriving DecidableEq, Repr

inductive SettingsError
  /-- The file could not be read; the kind of failure. -/
  | read (kind : String)
  | write (kind : String)
  /-- The text is no settings file. -/
  | malformed
  /-- The settings cannot be written. -/
  | unwritable
  | invalid (reason : String)
deriving DecidableEq, Repr

/-- What went wrong, where it is known. -/
def SettingsError.cause? : SettingsError → Option String
  | invalid reason => some s!"Invalid settings: {reason}"
  | _ => none

namespace Settings

/-- The limits that loaded settings keep. -/
def check (s : Settings) : Except SettingsError Unit :=
  if s.discovery.probeTimeoutMs = 0 then
    .error (.invalid "discovery.probe_timeout_ms must be positive")
  else if s.discovery.maxConcurrent = 0 ∨ mostConcurrentProbes < s.discovery.maxConcurrent.toNat then
    .error (.invalid
      s!"discovery.max_concurrent_probes must be between 1 and {mostConcurrentProbes}")
  else .ok ()

end Settings

end Peripheral
