import Peripheral.Criteria.Json
import Peripheral.Settings.Basic

/-
  Peripheral.Settings.Json — settings as JSON; the tables of a settings file have the same
  shape. An empty list of searches is not written.
-/

namespace Peripheral

open Json (Shape Record)

namespace LogLevel

def toJson (l : LogLevel) : Json := .str l.name

def shape : Shape LogLevel := Shape.named ofName?

end LogLevel

namespace LogFormat

def toJson (f : LogFormat) : Json := .str f.name

def shape : Shape LogFormat := Shape.named ofName?

end LogFormat

namespace LoggingSettings

def toJson (s : LoggingSettings) : Json :=
  .obj [("level", s.level.toJson), ("format", s.format.toJson)]

def shape : Shape LoggingSettings := fun p j => do
  let r ← Record.open? ["level", "format"] p j
  return ⟨← r.defaulted "level" .info LogLevel.shape, ← r.defaulted "format" .full LogFormat.shape⟩

end LoggingSettings

namespace DiscoverySettings

def toJson (s : DiscoverySettings) : Json :=
  .obj [("usb", .bool s.usb), ("ethernet", .bool s.ethernet),
    ("probe_timeout_ms", .nat s.probeTimeoutMs.toNat),
    ("max_concurrent_probes", .nat s.maxConcurrent.toNat)]

def shape : Shape DiscoverySettings := fun p j => do
  let r ← Record.open? ["usb", "ethernet", "probe_timeout_ms", "max_concurrent_probes"] p j
  return ⟨← r.defaulted "usb" true Shape.bool, ← r.defaulted "ethernet" true Shape.bool,
    ← r.defaulted "probe_timeout_ms" defaultTimeout Shape.uint32,
    ← r.defaulted "max_concurrent_probes" 256 Shape.uint64⟩

end DiscoverySettings

namespace Settings

def toJson (s : Settings) : Json :=
  .obj ([("logging", s.logging.toJson), ("discovery", s.discovery.toJson)] ++
    if s.devices.isEmpty then [] else [("device", .arr (s.devices.map Criteria.toJson))])

def shape : Shape Settings := fun p j => do
  let r ← Record.open? ["logging", "discovery", "device"] p j
  return ⟨← r.defaulted "logging" {} LoggingSettings.shape,
    ← r.defaulted "discovery" {} DiscoverySettings.shape,
    ← r.defaulted "device" [] (Shape.listOf Criteria.shape)⟩

end Settings

end Peripheral
