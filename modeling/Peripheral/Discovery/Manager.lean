import Peripheral.Discovery.Basic

/-
  Peripheral.Discovery.Manager — discoveries over all transports.

  Criteria are grouped by transport. USB devices come first, libusb before FTDI, then hosts,
  then hosts that speak HTTP; of each group every device comes once, however many criteria it
  answers. A manager that is shut down refuses every discovery.
-/

namespace Peripheral.Discovery

structure Manager where
  /-- USB devices can be listed. -/
  usb : Bool
  /-- Hosts may be probed. -/
  ethernet : Bool
  limits : ScanLimits
  interfaces : List Interface
  probe : Probe
  isShutDown : Bool := false

namespace Manager

/-- How many probes run at once. -/
def cap (m : Manager) : Nat := ScanLimits.cap m.limits.maxConcurrent.toNat

/-- A manager; `usb` asks for a USB context, which may not be had. -/
def create (w : Surroundings) (usb ethernet : Bool) (limits : ScanLimits)
    (interfaces : List Interface) (probe : Probe) : Act Manager := do
  let available ← do
    if !usb then pure false
    else match ← w.bus.create with
      | .ok _ => pure true
      | .error e =>
        Act.log ⟨.warn, "USB discovery unavailable", [("error", e.message)]⟩
        pure false
  let m : Manager := { usb := available, ethernet, limits, interfaces, probe }
  Act.log ⟨.info, "Device manager ready", [("usb", s!"{available}"), ("ethernet", s!"{ethernet}"),
    ("max_concurrent_probes", s!"{m.cap}")]⟩
  return m

/-! ## Criteria by transport -/

def usbCriteria (cs : List Criteria) : List UsbCriteria :=
  cs.filterMap fun
    | .usb c => some c
    | _ => none

def ethernetCriteria (cs : List Criteria) : List HostCriteria :=
  cs.filterMap fun
    | .ethernet c => some c
    | _ => none

/-- HTTP is spoken over TCP, and on the default port unless another one is asked for. -/
def httpCriteria (cs : List Criteria) : List HostCriteria :=
  cs.filterMap fun
    | .http c => some
        { c with port := if c.port = 0 then Http.defaultPort else c.port, protocol := .tcp }
    | _ => none

/-! ## One discovery -/

/-- Work on another thread: what it logs is not heard here. -/
def elsewhere {α : Type} (a : Act α) : Act α := do
  let before ← get
  let r ← a
  modify fun j => { j with events := before.events }
  return r

def discoverUsb (m : Manager) (w : Surroundings) (cs : List UsbCriteria) :
    Act (List Device × List Report) := do
  if cs.isEmpty then return ([], [])
  if !m.usb then
    return ([], [.logged .debug "USB discovery unavailable, skipping USB criteria" []])
  let devices ← elsewhere do
    let plain ← Usb.libusbDevices w.bus cs
    let chips ← Usb.ftdiDevices w.bus cs
    return plain.map (fun id => Device.libusb { identity := id }) ++
      chips.map fun id => Device.ftdi { identity := id }
  return (devices, [.notice (.pause .enumeration)])

/-- The hosts that answer any of the criteria, each once. -/
def scan (m : Manager) (cs : List HostCriteria) : Scan.Report :=
  let r := cs.foldl (fun r c => r ++ Scan.discover m.probe m.cap m.interfaces c) {}
  { r with hosts := Scan.distinct r.hosts }

/-- What a discovery found among the hosts: reports, count and probed addresses. -/
def discoverHosts (m : Manager) (ethernet http : List HostCriteria) :
    List Report × Nat × List Address :=
  if ethernet.isEmpty && http.isEmpty then ([], 0, [])
  else if !m.ethernet then
    ([.logged .debug "Ethernet discovery disabled, skipping Ethernet and HTTP criteria" []], 0, [])
  else
    let e := m.scan ethernet
    let h := m.scan http
    ([.logged .debug "Interfaces available for scanning"
        [("interfaces", s!"{m.interfaces.length}")]] ++
      e.notices.map .notice ++
      Report.batch (e.hosts.map fun host => Device.ethernet { identity := host }) ++
      h.notices.map .notice ++
      Report.batch (h.hosts.map fun host => Device.http { identity := host }),
      e.hosts.length + h.hosts.length, e.probed ++ h.probed)

/-- What a discovery reports before it asks for the USB context. -/
def announced (cs : List Criteria) : List Report :=
  [.logged .info "Starting discovery" [("usb", s!"{(usbCriteria cs).length}"),
      ("ethernet", s!"{(ethernetCriteria cs).length}"), ("http", s!"{(httpCriteria cs).length}")],
    .status .enumeratingUsb]

/-- What it reports from there on, and the addresses it probes. -/
def course (m : Manager) (w : Surroundings) (cs : List Criteria) : Act (List Report × List Address) := do
  let (devices, usbReports) ← m.discoverUsb w (usbCriteria cs)
  let (hostReports, hostCount, probed) := m.discoverHosts (ethernetCriteria cs) (httpCriteria cs)
  return (usbReports ++ Report.batch devices ++ [.status .enumeratingEthernet] ++ hostReports ++
    [.logged .info "Discovery complete"
      [("usb", s!"{devices.length}"), ("ethernet", s!"{hostCount}")],
      .status .completed], probed)

/-- All that one discovery reports, and the addresses it probes. -/
def run (m : Manager) (w : Surroundings) (cs : List Criteria) : Act (List Report × List Address) := do
  let (reports, probed) ← m.course w cs
  return (announced cs ++ reports, probed)

/-- The devices that answer any of the criteria. -/
def discover (m : Manager) (w : Surroundings) (cs : List Criteria) :
    Act (Except Error (List Device) × List Address) := do
  if m.isShutDown then return (.error .shutDown, [])
  let (reports, probed) ← m.run w cs
  modify fun j => (Notice.events (Report.notices reports)).foldl Journal.log j
  return (.ok (Report.batches reports).flatten, probed)

/-- A discovery that the caller waits for, unless it may not block (`nested`) or the system lets
    it have nothing to block on. -/
def getDevices (m : Manager) (w : Surroundings) (nested : Bool) (failure : Option Int) (cs : List Criteria) :
    Act (Except Error (List Device) × List Address) := do
  if nested then return (.error .nestedRuntime, [])
  if let some code := failure then return (.error (.runtime code), [])
  m.discover w cs

/-! ## Sessions -/

/-- What a session reports before all else. -/
def queued (cs : List Criteria) : List Report :=
  [.logged .debug "Discovery session queued" [("session", "<id>"), ("criteria", s!"{cs.length}")],
    .status .queued]

/-- What a refused session reports in place of a discovery. -/
def aborted : List Report :=
  [.logged .warn "Discovery session aborted"
      [("session", "<id>"), ("error", Error.shutDown.message)],
    .status .completed]

/-- All that one queued session reports, and the addresses it probes. -/
def session (m : Manager) (w : Surroundings) (cs : List Criteria) :
    Act (List Report × List Address) := do
  if m.isShutDown then return (queued cs ++ aborted, [])
  let (reports, probed) ← m.run w cs
  return (queued cs ++ reports, probed)

/-- Sessions queued together, in the order in which they run: one at a time. -/
def sessions (m : Manager) (w : Surroundings) :
    List (List Criteria) → Act (List (List Report) × List Address)
  | [] => pure ([], [])
  | cs :: rest => do
    let (reports, probed) ← m.session w cs
    let (others, more) ← m.sessions w rest
    return (reports :: others, probed ++ more)

/-- The notices before the first pause, and those after it if there is one. -/
def untilPause : List Notice → List Notice × Option (List Notice)
  | [] => ([], none)
  | .pause _ :: rest => ([], some rest)
  | n :: rest =>
    let (before, after) := untilPause rest
    (n :: before, after)

/-- What is heard of sessions queued together in one thread. The first event of a session is
    heard when it is its turn, or when an earlier session pauses for the first time: then all
    the others get as far as waiting for it. -/
def interleaved (waiting : Bool) : List (List Notice) → List LogEvent
  | [] => []
  | notices :: rest =>
    let (before, after) := untilPause (if waiting then notices.drop 1 else notices)
    match after with
    | none => Notice.events before ++ interleaved waiting rest
    | some after =>
      Notice.events before ++
        (if waiting then [] else rest.flatMap fun l => Notice.events (l.take 1)) ++
        Notice.events after ++ interleaved true rest

/-! ## The end -/

/-- Refuses all discoveries from now on and gives up the USB context. -/
def shutdown (m : Manager) : Act Manager := do
  Act.log ⟨.info, "Device manager shut down", [("usb", s!"{m.usb}")]⟩
  return { m with usb := false, isShutDown := true }

end Manager

end Peripheral.Discovery
