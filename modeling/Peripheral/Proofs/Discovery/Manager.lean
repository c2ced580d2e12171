import Peripheral.Discovery.Manager
import Peripheral.Proofs.Usb.Enumerate

/-
  Peripheral.Proofs.Discovery.Manager — what a discovery tells its caller.

  The caller is told of statuses and of devices (`Report.told`); the rest is log and pauses.
  The devices of each transport come in this order between the statuses (`told_course_eq`). On
  a bus that does not change they are the same whatever happened before: those of each
  transport form a list of their own (`usbDevices`, `ethernetDevices`, `httpDevices`;
  `told_course`). A discovery returns the lists one after the other (`discover_eq`), and so does one
  that its caller waits for, unless nothing may block there (`getDevices_eq_ok_iff`). One that fails
  has called for nothing (`run_discover_of_error`, `run_getDevices_of_error`).
-/

namespace Peripheral.Discovery

/-! ## What the caller is told -/

namespace Report

/-- The reports that reach the caller. -/
def told (reports : List Report) : List Report :=
  reports.filter fun
    | .notice _ => false
    | _ => true

@[simp] theorem told_append (rs ts : List Report) : told (rs ++ ts) = told rs ++ told ts := List.filter_append ..

@[simp] theorem told_notices (ns : List Notice) : told (ns.map .notice) = [] := by
  apply List.filter_eq_nil_iff.mpr
  intro r hr
  obtain ⟨n, -, rfl⟩ := List.mem_map.mp hr
  exact Bool.false_ne_true

@[simp] theorem told_batch (devices : List Device) : told (batch devices) = batch devices := by
  unfold batch
  by_cases hd : devices.isEmpty = true
  · rw [if_pos hd]
    rfl
  · rw [if_neg hd]
    rfl

theorem statuses_append (rs ts : List Report) : statuses (rs ++ ts) = statuses rs ++ statuses ts :=
  List.filterMap_append

theorem batches_append (rs ts : List Report) : batches (rs ++ ts) = batches rs ++ batches ts :=
  List.filterMap_append

theorem statuses_told (rs : List Report) : statuses (told rs) = statuses rs := by
  induction rs with
  | nil => rfl
  | cons r rs ih =>
    cases r with
    | notice n => exact ih
    | status s => exact congrArg (s :: ·) ih
    | found ds => exact ih

theorem batches_told (rs : List Report) : batches (told rs) = batches rs := by
  induction rs with
  | nil => rfl
  | cons r rs ih =>
    cases r with
    | notice n => exact ih
    | status s => exact ih
    | found ds => exact congrArg (ds :: ·) ih

/-- The reports that are made. A pause is none of them. -/
def spoken (reports : List Report) : List Report :=
  reports.filter fun
    | .notice (.pause _) => false
    | _ => true

@[simp] theorem spoken_append (rs ts : List Report) : spoken (rs ++ ts) = spoken rs ++ spoken ts :=
  List.filter_append ..

/-- The caller is told what he would be if there were no pauses. -/
theorem told_spoken (rs : List Report) : told (spoken rs) = told rs := by
  unfold told spoken
  rw [List.filter_filter]
  apply List.filter_congr
  intro r _
  cases r with
  | notice n => cases n <;> rfl
  | status s => rfl
  | found ds => rfl

theorem statuses_batch (devices : List Device) : statuses (batch devices) = [] := by
  unfold batch
  by_cases hd : devices.isEmpty = true
  · rw [if_pos hd]
    rfl
  · rw [if_neg hd]
    rfl

theorem flatten_batches_batch (devices : List Device) : (batches (batch devices)).flatten = devices := by
  unfold batch
  by_cases hd : devices.isEmpty = true
  · rw [if_pos hd, List.isEmpty_iff.mp hd]
    rfl
  · rw [if_neg hd]
    exact List.append_nil devices

theorem ne_nil_of_mem_batches_batch {devices ds : List Device} (h : ds ∈ batches (batch devices)) : ds ≠ [] := by
  unfold batch at h
  by_cases hd : devices.isEmpty = true
  · rw [if_pos hd] at h
    cases h
  · rw [if_neg hd] at h
    intro hds
    rw [List.mem_singleton.mp h] at hds
    exact hd (List.isEmpty_iff.mpr hds)

end Report

open Report (told batch)

namespace Manager

/-! ## The devices of each transport -/

/-- The devices on the bus that answer one of the criteria, FTDI chips last. -/
def usbDevices (m : Manager) (w : Surroundings) (cs : List Criteria) : List Device :=
  if m.usb then
    (Usb.listed w.bus (usbCriteria cs) (· != Usb.ftdiVendor)).map (fun id => .libusb { identity := id }) ++
      (Usb.listed w.bus (usbCriteria cs) (· == Usb.ftdiVendor)).map fun id => .ftdi { identity := id }
  else []

/-- The hosts that answer one of the criteria, as devices of one kind. -/
def hostDevices (m : Manager) (toDevice : HostIdentity → Device) (cs : List HostCriteria) : List Device :=
  if m.ethernet then (m.scan cs).hosts.map toDevice else []

def ethernetDevices (m : Manager) (cs : List Criteria) : List Device :=
  m.hostDevices (fun host => .ethernet { identity := host }) (ethernetCriteria cs)

def httpDevices (m : Manager) (cs : List Criteria) : List Device :=
  m.hostDevices (fun host => .http { identity := host }) (httpCriteria cs)

/-- What the caller is told from the enumeration on. -/
def phases (m : Manager) (w : Surroundings) (cs : List Criteria) : List Report :=
  batch (m.usbDevices w cs) ++ [.status .enumeratingEthernet] ++
    (batch (m.ethernetDevices cs) ++ batch (m.httpDevices cs)) ++ [.status .completed]

variable {m : Manager} {w : Surroundings} {cs : List Criteria}

theorem statuses_phases : Report.statuses (m.phases w cs) = [.enumeratingEthernet, .completed] := by
  unfold phases
  simp only [Report.statuses_append, Report.statuses_batch]
  rfl

theorem flatten_batches_phases : (Report.batches (m.phases w cs)).flatten =
    m.usbDevices w cs ++ m.ethernetDevices cs ++ m.httpDevices cs := by
  unfold phases
  simp only [Report.batches_append, List.flatten_append, Report.flatten_batches_batch]
  simp [Report.batches]

theorem ne_nil_of_mem_batches_phases {ds : List Device} (h : ds ∈ Report.batches (m.phases w cs)) : ds ≠ [] := by
  unfold phases at h
  simp only [Report.batches_append, List.mem_append] at h
  rcases h with ((h | h) | h | h) | h
  · exact Report.ne_nil_of_mem_batches_batch h
  · cases h
  · exact Report.ne_nil_of_mem_batches_batch h
  · exact Report.ne_nil_of_mem_batches_batch h
  · cases h

theorem transport_of_mem_usbDevices {d : Device} (hd : d ∈ m.usbDevices w cs) :
    d.transport = .libusb ∨ d.transport = .ftdi := by
  unfold usbDevices at hd
  by_cases hm : m.usb = true
  · rw [if_pos hm] at hd
    rcases List.mem_append.mp hd with hd | hd
    · obtain ⟨id, -, rfl⟩ := List.mem_map.mp hd
      exact .inl rfl
    · obtain ⟨id, -, rfl⟩ := List.mem_map.mp hd
      exact .inr rfl
  · rw [if_neg hm] at hd
    cases hd

theorem exists_of_mem_hostDevices {toDevice : HostIdentity → Device} {cs : List HostCriteria} {d : Device}
    (hd : d ∈ m.hostDevices toDevice cs) : ∃ host, toDevice host = d := by
  unfold hostDevices at hd
  by_cases hm : m.ethernet = true
  · rw [if_pos hm] at hd
    obtain ⟨host, -, hhost⟩ := List.mem_map.mp hd
    exact ⟨host, hhost⟩
  · rw [if_neg hm] at hd
    cases hd

theorem transport_of_mem_ethernetDevices {d : Device} (hd : d ∈ m.ethernetDevices cs) : d.transport = .ethernet := by
  obtain ⟨host, rfl⟩ := exists_of_mem_hostDevices hd
  rfl

theorem transport_of_mem_httpDevices {d : Device} (hd : d ∈ m.httpDevices cs) : d.transport = .http := by
  obtain ⟨host, rfl⟩ := exists_of_mem_hostDevices hd
  rfl

theorem hostDevices_nil (m : Manager) (toDevice : HostIdentity → Device) : m.hostDevices toDevice [] = [] := by
  unfold hostDevices
  cases m.ethernet <;> rfl

/-! ## One discovery -/

/-- What a discovery finds on a bus that does not change. -/
theorem devices_discoverUsb (m : Manager) (cs : List Criteria) (hbus : w.bus.IsSteady) (j : Journal) :
    ((m.discoverUsb w (usbCriteria cs)).run j).1.1 = m.usbDevices w cs := by
  unfold discoverUsb usbDevices
  by_cases hcs : (usbCriteria cs).isEmpty = true
  · rw [if_pos hcs, List.isEmpty_iff.mp hcs, Usb.listed_nil, Usb.listed_nil]
    simp only [List.map_nil, List.append_nil, ite_self]
    rfl
  · rw [if_neg hcs]
    by_cases hm : m.usb = true
    · simp only [hm, Bool.not_true, Bool.false_eq_true, if_false, if_true]
      show ((Usb.libusbDevices w.bus (usbCriteria cs)).run j).1.map (fun id => Device.libusb { identity := id }) ++
        ((Usb.ftdiDevices w.bus (usbCriteria cs)).run _).1.map (fun id => Device.ftdi { identity := id }) = _
      rw [Usb.run_libusbDevices hbus, Usb.run_ftdiDevices hbus]
    · simp only [hm, Bool.not_false, if_true]
      rfl

theorem told_discoverUsb (m : Manager) (w : Surroundings) (cs : List Criteria) (j : Journal) :
    told ((m.discoverUsb w (usbCriteria cs)).run j).1.2 = [] := by
  unfold discoverUsb
  split
  · rfl
  · split
    · rfl
    · rfl

theorem told_discoverHosts (m : Manager) (cs : List Criteria) :
    told (m.discoverHosts (ethernetCriteria cs) (httpCriteria cs)).1 =
      batch (m.ethernetDevices cs) ++ batch (m.httpDevices cs) := by
  unfold discoverHosts ethernetDevices httpDevices
  by_cases hcs : ((ethernetCriteria cs).isEmpty && (httpCriteria cs).isEmpty) = true
  · have hboth := Bool.and_eq_true_iff.mp hcs
    rw [if_pos hcs, List.isEmpty_iff.mp hboth.1, List.isEmpty_iff.mp hboth.2, hostDevices_nil, hostDevices_nil]
    rfl
  · rw [if_neg hcs]
    unfold hostDevices
    by_cases hm : m.ethernet = true
    · simp only [hm, Bool.not_true, Bool.false_eq_true, if_false, if_true, Report.told_append, Report.told_notices,
        Report.told_batch]
      simp [told, Report.logged]
    · simp only [hm, Bool.not_false, if_true]
      rfl

/-- What a discovery reports is what its searches report, in their order. -/
theorem reports_course (m : Manager) (w : Surroundings) (cs : List Criteria) (j : Journal) :
    ((m.course w cs).run j).1.1 =
      ((m.discoverUsb w (usbCriteria cs)).run j).1.2 ++ batch ((m.discoverUsb w (usbCriteria cs)).run j).1.1 ++
      [.status .enumeratingEthernet] ++ (m.discoverHosts (ethernetCriteria cs) (httpCriteria cs)).1 ++
      [.logged .info "Discovery complete" [("usb", s!"{((m.discoverUsb w (usbCriteria cs)).run j).1.1.length}"),
        ("ethernet", s!"{(m.discoverHosts (ethernetCriteria cs) (httpCriteria cs)).2.1}")], .status .completed] := rfl

/-- What a discovery tells from the enumeration on, whatever becomes of the bus. -/
theorem told_course_eq (m : Manager) (w : Surroundings) (cs : List Criteria) (j : Journal) :
    told ((m.course w cs).run j).1.1 = batch ((m.discoverUsb w (usbCriteria cs)).run j).1.1 ++
      [.status .enumeratingEthernet] ++ (batch (m.ethernetDevices cs) ++ batch (m.httpDevices cs)) ++
      [.status .completed] := by
  simp only [reports_course, Report.told_append, told_discoverUsb, Report.told_batch, told_discoverHosts]
  rfl

theorem told_course (m : Manager) (cs : List Criteria) (hbus : w.bus.IsSteady) (j : Journal) :
    told ((m.course w cs).run j).1.1 = m.phases w cs := by
  rw [told_course_eq, devices_discoverUsb m cs hbus]
  rfl

theorem reports_run (j : Journal) : ((m.run w cs).run j).1.1 = announced cs ++ ((m.course w cs).run j).1.1 := rfl

/-- What a discovery returns, whatever happened before it. -/
theorem discover_eq (hbus : w.bus.IsSteady) (hm : m.isShutDown = false) (j : Journal) :
    ((m.discover w cs).run j).1.1 = .ok (m.usbDevices w cs ++ m.ethernetDevices cs ++ m.httpDevices cs) := by
  unfold discover
  rw [hm, if_neg Bool.false_ne_true]
  show Except.ok (Report.batches ((m.run w cs).run j).1.1).flatten = _
  rw [reports_run, Report.batches_append, ← Report.batches_told ((m.course w cs).run j).1.1, told_course m cs hbus,
    List.flatten_append, flatten_batches_phases]
  rfl

/-- A discovery that fails has called for nothing. -/
theorem run_discover_of_error {e : Error} {j : Journal} (h : ((m.discover w cs).run j).1.1 = .error e) :
    (m.discover w cs).run j = ((.error e, []), j) := by
  unfold discover at h ⊢
  by_cases hm : m.isShutDown = true
  · rw [if_pos hm] at h ⊢
    cases h
    rfl
  · rw [if_neg hm] at h
    cases h

/-! ## One that its caller waits for -/

variable {nested : Bool} {failure : Option Int}

/-- It is a discovery where its caller may block and has something to block on. -/
theorem getDevices_eq_ok_iff {ds : List Device} {j : Journal} :
    ((m.getDevices w nested failure cs).run j).1.1 = .ok ds ↔
      nested = false ∧ failure = none ∧ ((m.discover w cs).run j).1.1 = .ok ds := by
  unfold getDevices
  cases nested with
  | true => exact iff_of_false nofun (fun h => nomatch h.1)
  | false =>
    cases failure with
    | some code => exact iff_of_false nofun (fun h => nomatch h.2.1)
    | none => exact ⟨fun h => ⟨rfl, rfl, h⟩, fun h => h.2.2⟩

/-- And where it fails, for whatever reason, nothing is called for. -/
theorem run_getDevices_of_error {e : Error} {j : Journal}
    (h : ((m.getDevices w nested failure cs).run j).1.1 = .error e) :
    (m.getDevices w nested failure cs).run j = ((.error e, []), j) := by
  unfold getDevices at h ⊢
  cases nested with
  | true =>
    cases h
    rfl
  | false =>
    cases failure with
    | some code =>
      cases h
      rfl
    | none => exact run_discover_of_error h

end Manager

end Peripheral.Discovery
