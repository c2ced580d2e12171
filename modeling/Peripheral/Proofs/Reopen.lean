import Peripheral.Ftdi.Session
import Peripheral.Proofs.Usb.OneDevice
import Peripheral.Proofs.Usb.Partition
import Peripheral.Proofs.Usb.PortPath

/-
  Peripheral.Proofs.Reopen — which device a session opens for an identity that was reported.

  An identity is looked for by its vendor, its product and its ports alone, and those name a
  list of port numbers (`portPath_injective`). Devices that agree in them are twins: an open
  goes to the first twin on the bus (`find_identity`), whatever its strings and whatever bus
  it is on, and to no other device (`OpensAt`).
-/

namespace Peripheral

namespace Usb

/-- Nothing that an open looks at tells the two devices apart. -/
structure Device.IsTwin (dev' dev : Device) : Prop where
  readable : dev'.descriptorFailure = none
  vendorId : dev'.vendorId = dev.vendorId
  productId : dev'.productId = dev.productId
  portNumbers : dev'.portNumbers = dev.portNumbers

/-- The first twin of a device on the bus. -/
structure Bus.IsFirstTwin (bus : Bus) (x : Spot) (dev : Device) : Prop where
  place : bus.devices[x.2]? = some x.1
  twin : x.1.IsTwin dev
  first : ∀ e < x.2, ∀ other, bus.devices[e]? = some other → ¬ other.IsTwin dev

variable {bus : Bus} {d : Nat} {dev : Device}

theorem portPath_eq_iff {dev' : Device} (hport : dev.portPath ≠ "") :
    dev'.portPath = dev.portPath ↔ dev'.portNumbers = dev.portNumbers := by
  unfold Device.portPath at hport ⊢
  cases hp : dev.portNumbers with
  | error e =>
    rw [hp] at hport
    exact absurd rfl hport
  | ok ps =>
    rw [hp] at hport
    cases hp' : dev'.portNumbers with
    | error e => exact ⟨fun h => absurd h.symm hport, nofun⟩
    | ok qs =>
      constructor
      · intro h
        exact congrArg Except.ok (portPath_injective h)
      · intro h
        exact congrArg Usb.portPath (Except.ok.inj h)

theorem isDeviceOf_identity {dev' : Device} {failure : Option Error} (hport : dev.portPath ≠ "") :
    isDeviceOf (dev.identity failure) dev' = true ↔ dev'.IsTwin dev := by
  have hid : (dev.identity failure).vendorId = dev.vendorId ∧ (dev.identity failure).productId = dev.productId ∧
      (dev.identity failure).port = dev.portPath := by
    cases failure <;> exact ⟨rfl, rfl, rfl⟩
  obtain ⟨hvendor, hproduct, hpath⟩ := hid
  unfold isDeviceOf
  rw [hvendor, hproduct, hpath, Bool.and_eq_true, Bool.and_eq_true, Bool.and_eq_true, Option.isNone_iff_eq_none,
    beq_iff_eq, beq_iff_eq, beq_iff_eq, portPath_eq_iff hport]
  constructor
  · rintro ⟨⟨⟨hreadable, hv⟩, hp⟩, hports⟩
    exact ⟨hreadable, hv, hp, hports⟩
  · rintro ⟨hreadable, hv, hp, hports⟩
    exact ⟨⟨⟨hreadable, hv⟩, hp⟩, hports⟩

theorem port_identity (dev : Device) (failure : Option Error) : (dev.identity failure).port = dev.portPath := by
  cases failure <;> rfl

theorem findIdx?_isDeviceOf_iff {failure : Option Error} (hport : dev.portPath ≠ "") :
    bus.devices.findIdx? (isDeviceOf (dev.identity failure)) = some d ↔ ∃ other, bus.IsFirstTwin (other, d) dev := by
  rw [List.findIdx?_eq_some_iff_getElem]
  constructor
  · rintro ⟨hlt, htwin, hbefore⟩
    refine ⟨bus.devices[d], List.getElem?_eq_getElem hlt, (isDeviceOf_identity hport).mp htwin, ?_⟩
    intro e he other hother htwin'
    obtain ⟨hlte, heq⟩ := List.getElem?_eq_some_iff.mp hother
    apply hbefore e he
    rw [heq]
    exact (isDeviceOf_identity hport).mpr htwin'
  · rintro ⟨other, hfirst⟩
    obtain ⟨hlt, heq⟩ := List.getElem?_eq_some_iff.mp hfirst.place
    refine ⟨hlt, ?_, fun e he hdevice => ?_⟩
    · rw [heq]
      exact (isDeviceOf_identity hport).mpr hfirst.twin
    · exact hfirst.first e he _ (List.getElem?_eq_getElem (by omega)) ((isDeviceOf_identity hport).mp hdevice)

/-- The way back from the identity of a device leads to its first twin. -/
theorem find_identity {failure : Option Error} (hlist : bus.listFailure = none) (hd : bus.devices[d]? = some dev)
    (hreadable : dev.descriptorFailure = none) (hport : dev.portPath ≠ "") :
    ∃ x, find bus (dev.identity failure) = .ok x.2 ∧ x.2 ≤ d ∧ bus.IsFirstTwin x dev := by
  have hself : dev.IsTwin dev := ⟨hreadable, rfl, rfl, rfl⟩
  have hany : (bus.devices.findIdx? (isDeviceOf (dev.identity failure))).isSome = true := by
    rw [List.findIdx?_isSome]
    exact List.any_eq_true.mpr ⟨dev, List.mem_of_getElem? hd, (isDeviceOf_identity hport).mpr hself⟩
  obtain ⟨d', hfound⟩ := Option.isSome_iff_exists.mp hany
  obtain ⟨other, hfirst⟩ := (findIdx?_isDeviceOf_iff hport).mp hfound
  refine ⟨(other, d'), ?_, ?_, hfirst⟩
  · unfold find
    rw [port_identity, hlist, hfound, if_neg (mt String.isEmpty_iff.mp hport)]
  · by_contra hgt
    exact hfirst.first d (not_le.mp hgt) dev hd hself

/-- A device is its own first twin unless another one comes before it. -/
theorem Bus.IsFirstTwin.place_eq_iff {x : Spot} (hx : bus.IsFirstTwin x dev) (hle : x.2 ≤ d) :
    x.2 = d ↔ ∀ e < d, ∀ other, bus.devices[e]? = some other → ¬ other.IsTwin dev := by
  constructor
  · rintro rfl
    exact hx.first
  · intro hnone
    by_contra hne
    exact hnone x.2 (lt_of_le_of_ne hle hne) x.1 hx.place hx.twin

/-! ## Opening -/

/-- How an open ends that goes to one device: it opens that device first and calls for nothing on any other. -/
structure OpensAt {σ : Type} (handle : σ → Option Handle) (x : Spot) (s : σ) (j : Journal)
    (outcome : Except Failure Unit × σ × Journal) : Prop where
  calls : ∃ rest, outcome.2.2.calls = j.calls ++ .openDevice x.2 (nextOpen j x) :: rest ∧ AllOn x.2 rest
  refused : ∀ e, nextOpen j x = some e →
    outcome = (.error (.error e.link), s, j.call (.openDevice x.2 (some e)))
  opened : outcome.1 = .ok () → ∃ h, handle outcome.2.1 = some h ∧ h.device = x.2
  failed : ∀ f, outcome.1 = .error f → outcome.2.1 = s

variable {σ : Type} {handle : σ → Option Handle} {x : Spot} {s : σ} {id : UsbIdentity}

theorem opensAt_of_find {rest : Handle → Op σ Unit} (hfind : find bus id = .ok x.2) (hx : bus.devices[x.2]? = some x.1)
    (hrest : StaysOn x.2 s (· = s) (fun _ => True) (fun t => ∃ h, handle t = some h ∧ h.device = x.2) (rest ⟨x.2, []⟩))
    (j : Journal) : OpensAt handle x s j ((Session.openHandle bus id >>= rest).perform s j) := by
  rw [Op.perform_eq, Op.run_bind]
  cases hnext : nextOpen j x with
  | some e =>
    have hopen : (Session.openHandle bus id).run.run ⟨s, j⟩ =
        (.error (.error e.link), ⟨s, j.call (.openDevice x.2 (some e))⟩) := by
      rw [Session.run_openHandle_found hfind, run_openDevice_at hx, hnext]
      rfl
    rw [hopen]
    refine ⟨⟨[], by rw [hnext]; rfl, allOn_nil _⟩, ?_, nofun, fun _ _ => rfl⟩
    intro e' he
    rw [← Option.some.inj (hnext.symm.trans he)]
  | none =>
    have hopen : (Session.openHandle bus id).run.run ⟨s, j⟩ = (.ok ⟨x.2, []⟩, ⟨s, j.call (.openDevice x.2 none)⟩) := by
      rw [Session.run_openHandle_found hfind, run_openDevice_at hx, hnext]
      rfl
    rw [hopen]
    obtain ⟨r, t, k, new, hrun, hk, hon, hend⟩ := hrest s (j.call (.openDevice x.2 none)) rfl
    simp only [hrun]
    refine ⟨⟨new, ?_, hon⟩, ?_, ?_, ?_⟩
    · rw [hk, hnext, Journal.calls_call, List.append_assoc]
      rfl
    · intro e he
      cases hnext.symm.trans he
    · rintro rfl
      exact hend.2
    · rintro f rfl
      exact hend

theorem staysOn_claimOn (h : Handle) (i : UInt8) :
    StaysOn h.device s (· = s) (fun h' => h'.device = h.device) (· = s) (Session.claimOn bus h i) := by
  refine (StaysOn.act .autoDetach).bind fun _ _ => ?_
  refine (StaysOn.act (.claim i)).bind ?_
  rintro ⟨failure, h'⟩ hdevice
  cases failure with
  | none => exact .pure hdevice
  | some e => exact (hdevice : h'.device = h.device) ▸ .giveUp h' e

theorem opensAt_openSession {s : Session} (hfind : find bus s.identity = .ok x.2) (hx : bus.devices[x.2]? = some x.1)
    (hs : s.handle = none) (j : Journal) : OpensAt Session.handle x s j ((Session.openSession bus).perform s j) := by
  unfold Session.openSession Session.isOpen
  rw [Op.perform_eq, Op.run_bind, Op.run_session]
  simp only [hs, Option.isSome_none, Bool.false_eq_true, if_false]
  refine opensAt_of_find hfind hx ?_ j
  cases s.configuration.interface with
  | none =>
    refine StaysOn.bind (.set ?_) fun _ _ => .log _
    exact ⟨_, rfl, rfl⟩
  | some i =>
    refine (staysOn_claimOn ⟨x.2, []⟩ i).bind fun h hdevice => ?_
    refine StaysOn.bind (.set ?_) fun _ _ => .log _
    exact ⟨h, rfl, hdevice⟩

end Usb

namespace Ftdi

open Usb (Bus Handle Spot OpensAt)

variable {bus : Bus} {x : Spot} {s : Session}

theorem staysOn_request (h : Handle) (c : FtdiConfiguration) (r : UInt8) (value : UInt16) :
    (Session.request bus h c r value).StaysOn h.device fun _ => True := by
  refine (Act.StaysOn.write _ _ _).bind fun w _ => ?_
  cases w with
  | ok n => exact .pure trivial
  | error e => exact .pure trivial

theorem staysOn_setUp (h : Handle) (c : FtdiConfiguration) :
    (Session.setUp bus h c).StaysOn h.device fun r => r.2.device = h.device := by
  refine Act.StaysOn.autoDetach.bind fun _ _ => ?_
  refine (Act.StaysOn.claim c.interface).bind ?_
  rintro ⟨failure, h'⟩ hdevice
  cases failure with
  | some e => exact .pure hdevice
  | none =>
    have hrequest : ∀ r value, (Session.request bus h' c r value).StaysOn h.device fun _ => True := by
      intro r value
      exact (hdevice : h'.device = h.device) ▸ staysOn_request h' c r value
    refine (hrequest _ _).bind fun f _ => ?_
    cases f with
    | some e => exact .pure hdevice
    | none => exact (hrequest _ _).bind fun f _ => .pure hdevice

theorem opensAt_openSession (hfind : Usb.find bus s.identity = .ok x.2) (hx : bus.devices[x.2]? = some x.1)
    (hs : s.handle = none) (j : Journal) : OpensAt Session.handle x s j ((Session.openSession bus).perform s j) := by
  unfold Session.openSession Session.isOpen
  rw [Op.perform_eq, Op.run_bind, Op.run_session]
  simp only [hs, Option.isSome_none, Bool.false_eq_true, if_false]
  refine Usb.opensAt_of_find hfind hx ?_ j
  refine (StaysOn.act (staysOn_setUp ⟨x.2, []⟩ s.configuration)).bind ?_
  rintro ⟨failure, h⟩ hdevice
  cases failure with
  | some e =>
    refine (StaysOn.log _).bind fun _ _ => ?_
    have hrelease : (bus.release h s.configuration.interface).StaysOn h.device _ := .release _
    rw [show h.device = x.2 from hdevice] at hrelease
    refine (StaysOn.act hrelease).bind ?_
    rintro ⟨f, h'⟩ hdevice'
    exact (hdevice' : h'.device = x.2) ▸ .giveUp h' e
  | none =>
    refine (StaysOn.within _).bind fun address _ => ?_
    refine StaysOn.bind (.set ?_) fun _ _ => .log _
    exact ⟨h, rfl, hdevice⟩

end Ftdi

/-! ## Reported identities -/

open Usb (Bus Spot OpensAt report)

/-- The way of an identity from the device at place `d` to the device at `x`: the first on the bus with its vendor, its
    product and its ports, which is the device itself unless another one comes before it. -/
structure Usb.LeadsBack (bus : Bus) (d : Nat) (dev : Usb.Device) (x : Spot) : Prop where
  source : bus.devices[d]? = some dev
  before : x.2 ≤ d
  isFirstTwin : bus.IsFirstTwin x dev
  place_eq_iff : x.2 = d ↔ ∀ e < d, ∀ other, bus.devices[e]? = some other → ¬ other.IsTwin dev

variable {bus : Bus} {cs : List UsbCriteria} {j : Journal} {p : Nat} {id : UsbIdentity}

/-- Nothing is reported of a bus that cannot be listed, nor without a criterion. -/
theorem Usb.listable_of_reported {vendor : UInt16 → Bool} (hid : ((Usb.enumerate bus cs vendor).run j).1[p]? = some id) :
    bus.listFailure = none ∧ cs ≠ [] := by
  unfold enumerate at hid
  by_cases hcs : cs = []
  · subst hcs
    cases hid
  · rw [if_neg (mt List.isEmpty_iff.mp hcs)] at hid
    cases hlist : bus.listFailure with
    | some e =>
      rw [hlist] at hid
      cases hid
    | none => exact ⟨rfl, hcs⟩

theorem Usb.leadsBack_of_reported {vendor : UInt16 → Bool} (hid : ((Usb.enumerate bus cs vendor).run j).1[p]? = some id)
    (hport : id.port ≠ "") : ∃ d dev x, (report bus cs vendor j)[p]? = some (d, id) ∧ find bus id = .ok x.2 ∧
      LeadsBack bus d dev x := by
  obtain ⟨hlist, hcs⟩ := listable_of_reported hid
  rw [(run_enumerate_visits hlist hcs j).1, ← map_snd_report, List.getElem?_map, Option.map_eq_some_iff] at hid
  obtain ⟨⟨d, id'⟩, hreport, rfl⟩ := hid
  obtain ⟨dev, hd, hreadable, -, rfl, -⟩ := mem_report_iff.mp (List.mem_of_getElem? hreport)
  rw [port_identity] at hport
  obtain ⟨x, hfind, hle, hfirst⟩ := find_identity hlist hd hreadable hport
  exact ⟨d, dev, x, hreport, hfind, hd, hle, hfirst, hfirst.place_eq_iff hle⟩

/-- A session for an identity that was reported with a port path opens the first device of the bus that has its
    vendor, its product and its ports, and calls for nothing on any other device. That is the device the identity
    was read from unless such a device comes before it. -/
theorem reported_identity_opens_first_twin (hport : id.port ≠ "") :
    (((Usb.libusbDevices bus cs).run j).1[p]? = some id → ∃ d dev x,
      (report bus cs (· != Usb.ftdiVendor) j)[p]? = some (d, id) ∧ Usb.LeadsBack bus d dev x ∧
      ∀ (s : Usb.Session) (k : Journal), s.identity = id → s.handle = none →
        OpensAt Usb.Session.handle x s k ((Usb.Session.openSession bus).perform s k)) ∧
    (((Usb.ftdiDevices bus cs).run j).1[p]? = some id → ∃ d dev x,
      (report bus cs (· == Usb.ftdiVendor) j)[p]? = some (d, id) ∧ Usb.LeadsBack bus d dev x ∧
      ∀ (s : Ftdi.Session) (k : Journal), s.identity = id → s.handle = none →
        OpensAt Ftdi.Session.handle x s k ((Ftdi.Session.openSession bus).perform s k)) := by
  constructor
  · intro hid
    obtain ⟨d, dev, x, hreport, hfind, hback⟩ := Usb.leadsBack_of_reported hid hport
    refine ⟨d, dev, x, hreport, hback, ?_⟩
    rintro s k rfl hs
    exact Usb.opensAt_openSession hfind hback.isFirstTwin.place hs k
  · intro hid
    obtain ⟨d, dev, x, hreport, hfind, hback⟩ := Usb.leadsBack_of_reported hid hport
    refine ⟨d, dev, x, hreport, hback, ?_⟩
    rintro s k rfl hs
    exact Ftdi.opensAt_openSession hfind hback.isFirstTwin.place hs k

/-- The chip of `Usb.mixed`. -/
def mixedChip : UsbIdentity := ⟨"chip", "", "", "2:4", 0x0403, 1⟩

/-- It has no twin and is opened where it was found. -/
theorem mixed_chip_is_opened : mixedChip.port ≠ "" ∧
    ((Usb.ftdiDevices Usb.mixed [{}]).run {}).1[0]? = some mixedChip ∧ ∃ x : Spot, x.2 = 1 ∧
      OpensAt Ftdi.Session.handle x { identity := mixedChip } {}
        ((Ftdi.Session.openSession Usb.mixed).perform { identity := mixedChip } {}) := by
  have hid : ((Usb.ftdiDevices Usb.mixed [{}]).run {}).1[0]? = some mixedChip := by decide +kernel
  obtain ⟨d, dev, x, hreport, hback, hopens⟩ :=
    (@reported_identity_opens_first_twin Usb.mixed [{}] {} 0 mixedChip (by decide)).2 hid
  have hplace : (report Usb.mixed [{}] (· == Usb.ftdiVendor) {})[0]? = some (1, mixedChip) := by decide +kernel
  obtain rfl : d = 1 := congrArg Prod.fst (Option.some.inj (hreport.symm.trans hplace))
  refine ⟨by decide, hid, x, hback.place_eq_iff.mpr ?_, hopens _ _ rfl rfl⟩
  intro e he other hother htwin
  obtain rfl : e = 0 := by omega
  obtain rfl := Option.some.inj hother
  obtain rfl := Option.some.inj hback.source
  exact absurd htwin.vendorId (by decide)

/-- Two boards of a kind that hang on the same port of different buses. -/
def twinBoards : Bus where
  devices := [{ Usb.specimen with serialNumber := some "A" }, { Usb.specimen with serialNumber := some "B" }]

def boardB : UsbIdentity := ⟨"", "", "B", "1", 0x1234, 1⟩

/-- The identity read from the second board opens the first one, though the second can be opened. -/
theorem second_board_opens_first : boardB.port ≠ "" ∧
    ((Usb.libusbDevices twinBoards [{}]).run {}).1[1]? = some boardB ∧
    (report twinBoards [{}] (· != Usb.ftdiVendor) {})[1]? = some (1, boardB) ∧
    (∀ dev ∈ twinBoards.devices, ∀ n, dev.opens n = none) ∧
    ((Usb.Session.openSession twinBoards).perform { identity := boardB } {}).1 = .ok () ∧
    ((Usb.Session.openSession twinBoards).perform { identity := boardB } {}).2.1.handle = some ⟨0, []⟩ := by
  refine ⟨by decide, by decide +kernel, by decide +kernel, ?_, by decide +kernel, by decide +kernel⟩
  intro dev hdev n
  simp only [twinBoards, List.mem_cons, List.not_mem_nil, or_false] at hdev
  rcases hdev with rfl | rfl
  · rfl
  · rfl

end Peripheral
