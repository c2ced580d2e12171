import Peripheral.Proofs.Discovery.Manager
import Peripheral.Proofs.Scan.Discover

/-
  Peripheral.Proofs.Discovery.Combined — what several criteria find together.

  A discovery looks for each group of criteria on its own, so only the order within a group
  counts. On the bus it keeps what answers any of the criteria (`usbDevices_eq`). Of the hosts
  it keeps the first of each identity (`hosts_scan`), so a later criterion adds the hosts that
  the earlier ones have not found (`hosts_scan_append`), and one that was there before adds
  nothing (`hosts_scan_repeated`).
-/

namespace Peripheral

/-- The criteria that are looked for together. -/
inductive Criteria.Group
  | usb
  | ethernet
  | http
deriving DecidableEq, Repr

def Criteria.group : Criteria → Criteria.Group
  | usb _ => .usb
  | ethernet _ => .ethernet
  | http _ => .http

/-- The place of a transport in the order of a discovery. -/
def Transport.rank : Transport → Nat
  | libusb => 0
  | ftdi => 1
  | ethernet => 2
  | http => 3

def Device.isUsb (d : Device) : Bool := d.transport = .libusb || d.transport = .ftdi

/-- The host that a device is, if it is reached over the transport. -/
def Device.hostOver? (t : Transport) : Device → Option HostIdentity
  | ethernet s => if t = .ethernet then some s.identity else none
  | http s => if t = .http then some s.identity else none
  | _ => none

/-- The hosts among devices that are reached over a transport. -/
def Device.hostsOver (t : Transport) (ds : List Device) : List HostIdentity := ds.filterMap (hostOver? t)

/-- The devices on the bus with a readable descriptor and an admitted vendor, in bus order. -/
def Usb.readable (bus : Bus) (vendor : UInt16 → Bool) : List UsbIdentity :=
  if bus.listFailure.isSome then []
  else (bus.devices.filter fun dev => dev.descriptorFailure.isNone && vendor dev.vendorId).map identityOf

namespace Discovery.Manager

open Scan (identityKey)
open Device (hostsOver)

/-- The devices on the bus as a discovery lists them, whatever is asked for. -/
def attached (m : Manager) (w : Surroundings) : List Device :=
  if m.usb then
    (Usb.readable w.bus (· != Usb.ftdiVendor)).map (fun id => .libusb { identity := id }) ++
      (Usb.readable w.bus (· == Usb.ftdiVendor)).map fun id => .ftdi { identity := id }
  else []

/-- How the devices that several criteria find come from those that parts of them find. -/
structure Combines (m : Manager) (w : Surroundings) (found : List Criteria → List Device) : Prop where
  /-- Only the order within a group counts. -/
  interleaved : ∀ cs ds, (∀ g, cs.filter (·.group = g) = ds.filter (·.group = g)) → found cs = found ds
  /-- libusb first, then FTDI, then hosts, then hosts over HTTP. -/
  ordered : ∀ cs, (found cs).Pairwise fun d e => d.transport.rank ≤ e.transport.rank
  usb : ∀ cs, (found cs).filter Device.isUsb = (m.attached w).filter fun d => cs.any (·.admits d.identity)
  usb_append : ∀ cs ds, (found (cs ++ ds)).filter Device.isUsb =
    (m.attached w).filter fun d => d ∈ found cs ∨ d ∈ found ds
  hosts_append : ∀ t cs ds, hostsOver t (found (cs ++ ds)) = hostsOver t (found cs) ++
    (hostsOver t (found ds)).filter fun h => identityKey h ∉ (hostsOver t (found cs)).map identityKey
  hosts_once : ∀ t cs, ((hostsOver t (found cs)).map identityKey).Nodup
  repeated : ∀ cs c ds, c ∈ cs → found (cs ++ c :: ds) = found (cs ++ ds)

variable {m : Manager} {w : Surroundings} {cs ds : List Criteria}

/-! ## Groups -/

theorem usbCriteria_filter (cs : List Criteria) : usbCriteria (cs.filter (·.group = .usb)) = usbCriteria cs := by
  unfold usbCriteria
  rw [List.filterMap_filter]
  congr 1
  funext c
  cases c <;> rfl

theorem ethernetCriteria_filter (cs : List Criteria) :
    ethernetCriteria (cs.filter (·.group = .ethernet)) = ethernetCriteria cs := by
  unfold ethernetCriteria
  rw [List.filterMap_filter]
  congr 1
  funext c
  cases c <;> rfl

theorem httpCriteria_filter (cs : List Criteria) : httpCriteria (cs.filter (·.group = .http)) = httpCriteria cs := by
  unfold httpCriteria
  rw [List.filterMap_filter]
  congr 1
  funext c
  cases c <;> rfl

/-! ## The bus -/

theorem any_usbCriteria (cs : List Criteria) (id : UsbIdentity) :
    (usbCriteria cs).any (·.admits id) = cs.any (·.admits (.usb id)) := by
  unfold usbCriteria
  rw [List.any_filterMap]
  congr 1
  funext c
  cases c <;> rfl

theorem listed_eq (bus : Usb.Bus) (cs : List Criteria) (vendor : UInt16 → Bool) :
    Usb.listed bus (usbCriteria cs) vendor = (Usb.readable bus vendor).filter fun id => cs.any (·.admits (.usb id)) := by
  unfold Usb.listed Usb.readable
  split
  · rfl
  · unfold Usb.wantedIdentities
    simp only [any_usbCriteria]

/-- Of the devices on the bus those that answer a criterion are found. -/
theorem usbDevices_eq (m : Manager) (w : Surroundings) (cs : List Criteria) :
    m.usbDevices w cs = (m.attached w).filter fun d => cs.any (·.admits d.identity) := by
  unfold usbDevices attached
  split
  · rw [listed_eq, listed_eq, List.filter_append, List.filter_map, List.filter_map]
    rfl
  · rfl

/-! ## The hosts -/

/-- What the searches for the criteria find, one after the other. -/
def answering (m : Manager) (cs : List HostCriteria) : List HostIdentity :=
  cs.flatMap fun c => (Scan.discover m.probe m.cap m.interfaces c).hosts

theorem hosts_scan (m : Manager) (cs : List HostCriteria) : (m.scan cs).hosts = Scan.distinct (m.answering cs) := by
  have hfold : ∀ r : Scan.Report,
      (cs.foldl (fun r c => r ++ Scan.discover m.probe m.cap m.interfaces c) r).hosts = r.hosts ++ m.answering cs := by
    induction cs with
    | nil => simp [answering]
    | cons c cs ih =>
      intro r
      rw [List.foldl_cons, ih, Scan.hosts_append, List.append_assoc]
      rfl
  exact congrArg Scan.distinct (hfold {})

/-- A later criterion adds what the earlier ones have not found. -/
theorem hosts_scan_append (m : Manager) (cs ds : List HostCriteria) :
    (m.scan (cs ++ ds)).hosts = (m.scan cs).hosts ++
      (m.scan ds).hosts.filter fun h => identityKey h ∉ (m.scan cs).hosts.map identityKey := by
  rw [hosts_scan, hosts_scan, hosts_scan, answering, List.flatMap_append]
  exact Scan.distinct_append _ _

/-- A criterion that was there before adds nothing. -/
theorem hosts_scan_repeated (m : Manager) {cs es : List HostCriteria} (hes : es ⊆ cs) (ds : List HostCriteria) :
    (m.scan (cs ++ (es ++ ds))).hosts = (m.scan (cs ++ ds)).hosts := by
  simp only [hosts_scan, answering, List.flatMap_append]
  apply Scan.distinct_append_of_subset
  apply List.map_subset
  intro h hh
  obtain ⟨c, hc, hh⟩ := List.mem_flatMap.mp hh
  exact List.mem_flatMap.mpr ⟨c, hes hc, hh⟩

/-- The hosts of one group. -/
def hostsOf (m : Manager) (cs : List HostCriteria) : List HostIdentity := if m.ethernet then (m.scan cs).hosts else []

theorem hostsOf_append (m : Manager) (cs ds : List HostCriteria) : m.hostsOf (cs ++ ds) = m.hostsOf cs ++
    (m.hostsOf ds).filter fun h => identityKey h ∉ (m.hostsOf cs).map identityKey := by
  unfold hostsOf
  split
  · exact hosts_scan_append m cs ds
  · rfl

theorem hostsOf_repeated (m : Manager) {cs es : List HostCriteria} (hes : es ⊆ cs) (ds : List HostCriteria) :
    m.hostsOf (cs ++ (es ++ ds)) = m.hostsOf (cs ++ ds) := by
  unfold hostsOf
  rw [hosts_scan_repeated m hes]

theorem nodup_keys_hostsOf (m : Manager) (cs : List HostCriteria) : ((m.hostsOf cs).map identityKey).Nodup := by
  unfold hostsOf
  split
  · rw [hosts_scan]
    exact Scan.nodup_keys_distinctAfter _ _
  · exact .nil

/-! ## All groups -/

/-- What a discovery finds on a bus that does not change. -/
def finds (m : Manager) (w : Surroundings) (cs : List Criteria) : List Device :=
  m.usbDevices w cs ++ m.ethernetDevices cs ++ m.httpDevices cs

theorem hostDevices_eq (toDevice : HostIdentity → Device) (cs : List HostCriteria) :
    m.hostDevices toDevice cs = (m.hostsOf cs).map toDevice := by
  unfold hostDevices hostsOf
  split <;> rfl

theorem hostsOver_of_mem_usb {t : Transport} {ds : List Device}
    (h : ∀ d ∈ ds, d.transport = .libusb ∨ d.transport = .ftdi) :
    hostsOver t ds = [] := by
  unfold hostsOver
  rw [List.filterMap_eq_nil_iff]
  intro d hd
  cases d with
  | libusb s => rfl
  | ftdi s => rfl
  | ethernet s => rcases h _ hd with h | h <;> cases h
  | http s => rcases h _ hd with h | h <;> cases h

theorem hostsOver_finds (m : Manager) (w : Surroundings) (t : Transport) (cs : List Criteria) :
    hostsOver t (m.finds w cs) = match t with
      | .ethernet => m.hostsOf (ethernetCriteria cs)
      | .http => m.hostsOf (httpCriteria cs)
      | _ => [] := by
  have husb : hostsOver t (m.usbDevices w cs) = [] := hostsOver_of_mem_usb fun d => transport_of_mem_usbDevices
  unfold hostsOver at husb
  unfold hostsOver finds ethernetDevices httpDevices
  rw [List.filterMap_append, List.filterMap_append, husb, hostDevices_eq, hostDevices_eq, List.filterMap_map,
    List.filterMap_map]
  cases t <;> simp [Device.hostOver?, Function.comp_def]

theorem filter_isUsb_finds (m : Manager) (w : Surroundings) (cs : List Criteria) :
    (m.finds w cs).filter Device.isUsb = m.usbDevices w cs := by
  unfold finds
  have husb : (m.usbDevices w cs).filter Device.isUsb = m.usbDevices w cs := by
    rw [List.filter_eq_self]
    intro d hd
    simpa [Device.isUsb] using transport_of_mem_usbDevices hd
  have hethernet : (m.ethernetDevices cs).filter Device.isUsb = [] := by
    rw [List.filter_eq_nil_iff]
    intro d hd
    simp [Device.isUsb, transport_of_mem_ethernetDevices hd]
  have hhttp : (m.httpDevices cs).filter Device.isUsb = [] := by
    rw [List.filter_eq_nil_iff]
    intro d hd
    simp [Device.isUsb, transport_of_mem_httpDevices hd]
  rw [List.filter_append, List.filter_append, husb, hethernet, hhttp, List.append_nil, List.append_nil]

/-- Devices of one transport, then others of later transports. -/
theorem ordered_append {t : Transport} {ds es : List Device} (hds : ∀ d ∈ ds, d.transport = t)
    (hes : es.Pairwise fun d e => d.transport.rank ≤ e.transport.rank)
    (hlater : ∀ e ∈ es, t.rank ≤ e.transport.rank) :
    (ds ++ es).Pairwise fun d e => d.transport.rank ≤ e.transport.rank := by
  induction ds with
  | nil => exact hes
  | cons d ds ih =>
    have hd : d.transport = t := hds d List.mem_cons_self
    have htail : ∀ e ∈ ds, e.transport = t := fun e he => hds e (List.mem_cons_of_mem d he)
    refine List.pairwise_cons.mpr ⟨?_, ih htail⟩
    intro e he
    rw [hd]
    rcases List.mem_append.mp he with he | he
    · rw [htail e he]
    · exact hlater e he

theorem ordered_attached (m : Manager) (w : Surroundings) :
    (m.attached w).Pairwise fun d e => d.transport.rank ≤ e.transport.rank := by
  unfold attached
  split
  · refine ordered_append (t := .libusb) ?_ ?_ ?_
    · simp [Device.transport]
    · rw [← List.append_nil (List.map _ _)]
      refine ordered_append (t := .ftdi) ?_ .nil ?_
      · simp [Device.transport]
      · simp
    · intro e _
      exact Nat.zero_le _
  · exact .nil

theorem ordered_finds (m : Manager) (w : Surroundings) (cs : List Criteria) :
    (m.finds w cs).Pairwise fun d e => d.transport.rank ≤ e.transport.rank := by
  unfold finds
  rw [List.append_assoc, List.pairwise_append]
  refine ⟨?_, ?_, ?_⟩
  · rw [usbDevices_eq]
    exact (ordered_attached m w).filter _
  · refine ordered_append (t := .ethernet) (fun d => transport_of_mem_ethernetDevices) ?_ ?_
    · rw [← List.append_nil (m.httpDevices cs)]
      refine ordered_append (t := .http) (fun d => transport_of_mem_httpDevices) .nil ?_
      simp
    · intro e he
      rw [transport_of_mem_httpDevices he]
      decide
  · intro d hd e he
    have hd' : d.transport.rank ≤ 1 := by
      rcases transport_of_mem_usbDevices hd with h | h <;> rw [h] <;> decide
    have he' : 2 ≤ e.transport.rank := by
      rcases List.mem_append.mp he with he | he
      · rw [transport_of_mem_ethernetDevices he]
        decide
      · rw [transport_of_mem_httpDevices he]
        decide
    omega

theorem finds_congr_of_groups (hgroups : ∀ g, cs.filter (·.group = g) = ds.filter (·.group = g)) :
    m.finds w cs = m.finds w ds := by
  have husb : usbCriteria cs = usbCriteria ds := by
    rw [← usbCriteria_filter cs, hgroups, usbCriteria_filter]
  have hethernet : ethernetCriteria cs = ethernetCriteria ds := by
    rw [← ethernetCriteria_filter cs, hgroups, ethernetCriteria_filter]
  have hhttp : httpCriteria cs = httpCriteria ds := by
    rw [← httpCriteria_filter cs, hgroups, httpCriteria_filter]
  unfold finds usbDevices ethernetDevices httpDevices
  rw [husb, hethernet, hhttp]

theorem isUsb_of_mem_attached {d : Device} (hd : d ∈ m.attached w) : d.isUsb = true := by
  unfold attached at hd
  split at hd
  · simp only [List.mem_append, List.mem_map] at hd
    rcases hd with ⟨id, -, rfl⟩ | ⟨id, -, rfl⟩ <;> rfl
  · cases hd

/-- The devices on the bus that two lists of criteria find together. -/
theorem usbDevices_append (m : Manager) (w : Surroundings) (cs ds : List Criteria) :
    m.usbDevices w (cs ++ ds) = (m.attached w).filter fun d => d ∈ m.finds w cs ∨ d ∈ m.finds w ds := by
  rw [usbDevices_eq]
  apply List.filter_congr
  intro d hd
  have hmem : ∀ es, d ∈ m.finds w es ↔ es.any (·.admits d.identity) = true := by
    intro es
    have husb : d.isUsb = true := isUsb_of_mem_attached hd
    rw [← and_iff_left (a := d ∈ m.finds w es) husb, ← List.mem_filter, filter_isUsb_finds, usbDevices_eq,
      List.mem_filter]
    exact and_iff_right hd
  rw [List.any_append, Bool.eq_iff_iff, Bool.or_eq_true, decide_eq_true_iff, hmem, hmem]

theorem finds_repeated (m : Manager) (w : Surroundings) {c : Criteria} (hc : c ∈ cs) (ds : List Criteria) :
    m.finds w (cs ++ c :: ds) = m.finds w (cs ++ ds) := by
  have hsub : [c] ⊆ cs := List.cons_subset.mpr ⟨hc, List.nil_subset cs⟩
  have husb : m.usbDevices w (cs ++ c :: ds) = m.usbDevices w (cs ++ ds) := by
    rw [usbDevices_eq, usbDevices_eq]
    apply List.filter_congr
    intro d _
    rw [Bool.eq_iff_iff]
    simp only [List.any_append, List.any_cons, Bool.or_eq_true]
    constructor
    · rintro (h | h | h)
      · exact .inl h
      · exact .inl (List.any_eq_true.mpr ⟨c, hc, h⟩)
      · exact .inr h
    · exact Or.imp_right .inr
  have hethernet : m.ethernetDevices (cs ++ c :: ds) = m.ethernetDevices (cs ++ ds) := by
    unfold ethernetDevices ethernetCriteria
    rw [← List.singleton_append, List.filterMap_append, List.filterMap_append, List.filterMap_append, hostDevices_eq,
      hostsOf_repeated m (List.filterMap_subset _ hsub), ← hostDevices_eq]
  have hhttp : m.httpDevices (cs ++ c :: ds) = m.httpDevices (cs ++ ds) := by
    unfold httpDevices httpCriteria
    rw [← List.singleton_append, List.filterMap_append, List.filterMap_append, List.filterMap_append, hostDevices_eq,
      hostsOf_repeated m (List.filterMap_subset _ hsub), ← hostDevices_eq]
  unfold finds
  rw [husb, hethernet, hhttp]

theorem combines_finds (m : Manager) (w : Surroundings) : m.Combines w (m.finds w) where
  interleaved cs ds := finds_congr_of_groups
  ordered := ordered_finds m w
  usb cs := by rw [filter_isUsb_finds, usbDevices_eq]
  usb_append cs ds := by rw [filter_isUsb_finds, usbDevices_append]
  hosts_append t cs ds := by
    simp only [hostsOver_finds]
    cases t with
    | ethernet =>
      unfold ethernetCriteria
      rw [List.filterMap_append]
      exact hostsOf_append m _ _
    | http =>
      unfold httpCriteria
      rw [List.filterMap_append]
      exact hostsOf_append m _ _
    | _ => rfl
  hosts_once t cs := by
    rw [hostsOver_finds]
    cases t with
    | ethernet => exact nodup_keys_hostsOf m _
    | http => exact nodup_keys_hostsOf m _
    | _ => exact .nil
  repeated cs c ds hc := finds_repeated m w hc ds

/-- On a bus that does not change, a discovery finds the same whatever happened before it, and what it finds for
    several criteria comes from what it finds for parts of them: no criterion hides or repeats what another one finds.
    The probe may be any function. -/
theorem discoveries_combine (hbus : w.bus.IsSteady) (m : Manager) : ∃ found : List Criteria → List Device,
    (∀ cs j, ((m.discover w cs).run j).1.1 = if m.isShutDown then .error .shutDown else .ok (found cs)) ∧
      m.Combines w found := by
  refine ⟨m.finds w, ?_, combines_finds m w⟩
  intro cs j
  cases hm : m.isShutDown with
  | false => exact discover_eq hbus hm j
  | true =>
    unfold discover
    rw [hm]
    rfl

/-- One chip on the bus, and no network. -/
def bench : Surroundings where
  bus := Usb.oneChip
  net := .ofPeers []
  resolver := .ofLists [] []
  client := .ofPeers []

/-- Searches the bus and two overlapping subnets where every host answers. -/
def labManager : Manager where
  usb := true
  ethernet := true
  limits := {}
  interfaces := Scan.nested
  probe := Scan.everywhere

/-- The chip is found once for two criteria, the second of which repeats the first. -/
theorem labManager_combines : Usb.oneChip.IsSteady ∧ ∃ found : List Criteria → List Device,
    (∀ cs j, ((labManager.discover bench cs).run j).1.1 = .ok (found cs)) ∧ labManager.Combines bench found ∧
      (found [.usb {}, .usb {}]).filter Device.isUsb = [.ftdi { identity := ⟨"", "", "", "1", Usb.ftdiVendor, 0x6010⟩ }] := by
  obtain ⟨found, hfound, hcombines⟩ := @discoveries_combine bench Usb.isSteady_oneChip labManager
  refine ⟨Usb.isSteady_oneChip, found, hfound, hcombines, ?_⟩
  rw [hcombines.usb]
  decide +kernel

end Discovery.Manager

end Peripheral
