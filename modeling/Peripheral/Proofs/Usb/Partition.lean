import Mathlib.Data.List.Sort
import Peripheral.Proofs.Usb.Visits

/-
  Peripheral.Proofs.Usb.Partition — the two enumerations of a bus share its devices.

  Each reports the devices of its vendors that answer a criterion, each once and in bus order
  (`mem_report_iff`, `pairwise_report`), and opens no others. What fails on one device blanks
  fields of its own identity or leaves it out (`isBlanked_identity`); the reports of the others
  stay (`report_set`).
-/

namespace Peripheral.Usb

/-- The place and the identity of each device that an enumeration after `j` finds. -/
def report (bus : Bus) (cs : List UsbCriteria) (vendor : UInt16 → Bool) (j : Journal) : List (Nat × UsbIdentity) :=
  (reported cs vendor (nextOpen j) bus.devices.zipIdx).map fun x => (x.2, x.1.identity (nextOpen j x))

/-- A device like another one in which more may fail: an open, the descriptors, the strings, the ports. -/
structure Device.IsImpaired (dev' dev : Device) : Prop where
  vendorId : dev'.vendorId = dev.vendorId
  productId : dev'.productId = dev.productId
  ports : dev'.ports = dev.ports ∨ ∃ e, dev'.ports = .error e
  name : dev'.name = dev.name ∨ dev'.name = none
  manufacturer : dev'.manufacturer = dev.manufacturer ∨ dev'.manufacturer = none
  serialNumber : dev'.serialNumber = dev.serialNumber ∨ dev'.serialNumber = none
  opens : ∀ n, dev'.opens n = dev.opens n ∨ ∃ e, dev'.opens n = some e

/-- The same identity with some of its texts blank. -/
structure IsBlanked (id' id : UsbIdentity) : Prop where
  vendorId : id'.vendorId = id.vendorId
  productId : id'.productId = id.productId
  port : id'.port = id.port ∨ id'.port = ""
  name : id'.name = id.name ∨ id'.name = ""
  manufacturer : id'.manufacturer = id.manufacturer ∨ id'.manufacturer = ""
  serialNumber : id'.serialNumber = id.serialNumber ∨ id'.serialNumber = ""

variable {bus : Bus} {cs : List UsbCriteria} {vendor : UInt16 → Bool} {j : Journal}

theorem mem_report_iff {d : Nat} {id : UsbIdentity} :
    (d, id) ∈ report bus cs vendor j ↔ ∃ dev, bus.devices[d]? = some dev ∧ dev.descriptorFailure = none ∧
      vendor dev.vendorId = true ∧ id = dev.identity (nextOpen j (dev, d)) ∧ ∃ c ∈ cs, c.admits id = true := by
  unfold report
  rw [List.mem_map]
  constructor
  · rintro ⟨⟨dev, e⟩, hx, heq⟩
    obtain ⟨rfl, rfl⟩ := Prod.mk.inj heq
    obtain ⟨hdev, hdesc, hvendor, hwanted⟩ := mem_reported_iff.mp hx
    exact ⟨dev, hdev, hdesc, hvendor, rfl, hwanted⟩
  · rintro ⟨dev, hdev, hdesc, hvendor, rfl, hwanted⟩
    exact ⟨(dev, d), mem_reported_iff.mpr ⟨hdev, hdesc, hvendor, hwanted⟩, rfl⟩

theorem pairwise_report (bus : Bus) (cs : List UsbCriteria) (vendor : UInt16 → Bool) (j : Journal) :
    (report bus cs vendor j).Pairwise fun x y => x.1 < y.1 := by
  unfold report
  rw [List.pairwise_map]
  exact pairwise_reported bus cs vendor (nextOpen j)

/-! ## What fails on one device -/

theorem isBlanked_identity {dev' dev : Device} (h : dev'.IsImpaired dev) (j : Journal) (d : Nat) :
    IsBlanked (dev'.identity (nextOpen j (dev', d))) (dev.identity (nextOpen j (dev, d))) := by
  have hport : dev'.portPath = dev.portPath ∨ dev'.portPath = "" := by
    unfold Device.portPath Device.portNumbers
    rcases h.ports with hports | ⟨e, hports⟩
    · rw [hports]
      exact .inl rfl
    · rw [hports]
      exact .inr rfl
  have htext : ∀ {s' s : Option String}, s' = s ∨ s' = none →
      descriptorText s' = descriptorText s ∨ descriptorText s' = "" := by
    rintro s' s (rfl | rfl)
    · exact .inl rfl
    · exact .inr rfl
  have hopen : nextOpen j (dev', d) = nextOpen j (dev, d) ∨ ∃ e, nextOpen j (dev', d) = some e := h.opens _
  rcases hopen with hsame | ⟨e, hfails⟩
  · rw [hsame]
    cases nextOpen j (dev, d) with
    | some e => exact ⟨h.vendorId, h.productId, hport, .inl rfl, .inl rfl, .inl rfl⟩
    | none => exact ⟨h.vendorId, h.productId, hport, htext h.name, htext h.manufacturer, htext h.serialNumber⟩
  · rw [hfails]
    cases nextOpen j (dev, d) <;> exact ⟨h.vendorId, h.productId, hport, .inr rfl, .inr rfl, .inr rfl⟩

/-- Another device in one place changes nothing for the other places. -/
theorem report_set (bus : Bus) (cs : List UsbCriteria) (vendor : UInt16 → Bool) (j : Journal) (d : Nat) (dev : Device) :
    (report { bus with devices := bus.devices.set d dev } cs vendor j).filter (·.1 != d) =
      (report bus cs vendor j).filter (·.1 != d) := by
  let before : Nat × UsbIdentity → Nat × UsbIdentity → Prop := fun x y => x.1 < y.1
  have : Std.Irrefl before := ⟨fun x => Nat.lt_irrefl x.1⟩
  have : Std.Antisymm before := ⟨fun x y hxy hyx => absurd (Nat.lt_trans hxy hyx) (Nat.lt_irrefl x.1)⟩
  refine List.Pairwise.eq_of_mem_iff (r := before) ((pairwise_report _ _ _ _).filter _)
    ((pairwise_report _ _ _ _).filter _) ?_
  rintro ⟨e, id⟩
  rw [List.mem_filter, List.mem_filter, mem_report_iff, mem_report_iff]
  refine and_congr_left fun hne => ?_
  rw [List.getElem?_set_ne (Ne.symm (bne_iff_ne.mp hne))]

/-! ## Both enumerations -/

/-- What two enumerations, one after the other, give when they share the devices of a bus. -/
structure Shares (bus : Bus) (cs : List UsbCriteria) (j : Journal) (plain chips : List UsbIdentity × Journal) : Prop where
  plain_found : plain.1 = (report bus cs (· != 0x0403) j).map Prod.snd
  chips_found : chips.1 = (report bus cs (· == 0x0403) j).map Prod.snd
  /-- No other devices than those that answer a criterion, and all of those. -/
  mem_report : ∀ vendor d id, (d, id) ∈ report bus cs vendor j ↔ ∃ dev, bus.devices[d]? = some dev ∧
    dev.descriptorFailure = none ∧ vendor dev.vendorId = true ∧ id = dev.identity (nextOpen j (dev, d)) ∧
      ∃ c ∈ cs, c.admits id = true
  /-- Each once, in bus order. -/
  ascending : ∀ vendor, (report bus cs vendor j).Pairwise fun x y => x.1 < y.1
  /-- What fails on one device blanks texts of its own identity. -/
  blanked : ∀ (dev' dev : Device) (d : Nat), dev'.IsImpaired dev →
    IsBlanked (dev'.identity (nextOpen j (dev', d))) (dev.identity (nextOpen j (dev, d)))
  /-- The others are reported as they were. -/
  others : ∀ vendor d dev', (report { bus with devices := bus.devices.set d dev' } cs vendor j).filter (·.1 != d) =
    (report bus cs vendor j).filter (·.1 != d)
  plain_calls : plain.2.calls = j.calls ++ (visited (· != 0x0403) bus.devices.zipIdx).flatMap (visit (nextOpen j))
  chips_calls : chips.2.calls = plain.2.calls ++ (visited (· == 0x0403) bus.devices.zipIdx).flatMap (visit (nextOpen j))
  mem_visited : ∀ vendor dev d, (dev, d) ∈ visited vendor bus.devices.zipIdx ↔
    bus.devices[d]? = some dev ∧ dev.descriptorFailure = none ∧ vendor dev.vendorId = true

theorem map_snd_report (bus : Bus) (cs : List UsbCriteria) (vendor : UInt16 → Bool) (j : Journal) :
    (report bus cs vendor j).map Prod.snd =
      identitiesOf (nextOpen j) (reported cs vendor (nextOpen j) bus.devices.zipIdx) :=
  List.map_map

/-- An enumeration leaves the devices of other vendors as they were. -/
theorem nextOpen_after_others {k : Journal} {other : UInt16 → Bool}
    (hk : k.calls = j.calls ++ (visited vendor bus.devices.zipIdx).flatMap (visit (nextOpen j)))
    (hother : ∀ v, other v = true → vendor v = false) {x : Spot} (hx : x ∈ visited other bus.devices.zipIdx) :
    nextOpen k x = nextOpen j x := by
  apply nextOpen_after hk
  intro y hy hplace
  obtain ⟨hxdev, -, hxvendor⟩ := mem_visited_iff.mp hx
  obtain ⟨hydev, -, hyvendor⟩ := mem_visited_iff.mp hy
  -- one place holds one device
  rw [hplace, hxdev] at hydev
  rw [← Option.some.inj hydev, hother _ hxvendor] at hyvendor
  cases hyvendor

/-- The two enumerations share the devices that answer a criterion: each such device with a readable descriptor is
    reported once, in bus order, a chip among the chips and any other one among the rest. What fails on one device
    shows in its own identity alone. Each opens the devices of its own vendors, one after the other, and closes
    what it has opened. -/
theorem enumerations_share_the_bus (hlist : bus.listFailure = none) (hcs : cs ≠ []) (j : Journal) :
    Shares bus cs j ((libusbDevices bus cs).run j) ((ftdiDevices bus cs).run ((libusbDevices bus cs).run j).2) := by
  obtain ⟨hplain, hplainCalls⟩ : ((libusbDevices bus cs).run j).1 = _ ∧ ((libusbDevices bus cs).run j).2.calls = _ :=
    run_enumerate_visits hlist hcs j
  generalize hk : ((libusbDevices bus cs).run j).2 = k at hplainCalls
  obtain ⟨hchips, hchipsCalls⟩ : ((ftdiDevices bus cs).run k).1 = _ ∧ ((ftdiDevices bus cs).run k).2.calls = _ :=
    run_enumerate_visits hlist hcs k
  have hsame : ∀ x ∈ visited (· == ftdiVendor) bus.devices.zipIdx, nextOpen k x = nextOpen j x := by
    intro x hx
    apply nextOpen_after_others hplainCalls _ hx
    intro v hv
    rw [bne, hv]
    rfl
  constructor
  case plain_found =>
    rw [map_snd_report]
    exact hplain
  case chips_found =>
    rw [hchips, map_snd_report, identitiesOf_reported_congr hsame]
    rfl
  case mem_report => exact fun vendor d id => mem_report_iff
  case ascending => exact fun vendor => pairwise_report bus cs vendor j
  case blanked => exact fun dev' dev d h => isBlanked_identity h j d
  case others => exact fun vendor d dev' => report_set bus cs vendor j d dev'
  case plain_calls =>
    rw [hk]
    exact hplainCalls
  case chips_calls =>
    rw [hchipsCalls, flatMap_visit_congr hsame, hk]
    rfl
  case mem_visited => exact fun vendor dev d => mem_visited_iff

/-- A device that refuses nothing. -/
def specimen : Device where
  vendorId := 0x1234
  productId := 1
  descriptorFailure := none
  ports := .ok [1]
  config := .ok []
  manufacturer := none
  name := none
  serialNumber := none
  opens := fun _ => none
  autoDetach := fun _ => none
  claim := fun _ => none
  release := fun _ => none
  transfers := fun _ => {}

/-- One device cannot be opened, one hides its descriptor and one its ports; the second is a chip. -/
def mixed : Bus where
  devices := [{ specimen with name := some "board", opens := fun _ => some .access },
    { specimen with name := some "chip", vendorId := ftdiVendor, ports := .ok [2, 4] },
    { specimen with name := some "ghost", descriptorFailure := some .io },
    { specimen with name := some "meter", ports := .error .overflow }]

/-- Of four devices three are reported, the one that cannot be opened without its name. -/
theorem three_of_mixed : mixed.listFailure = none ∧ ([{}] : List UsbCriteria) ≠ [] ∧
    Shares mixed [{}] {} ((libusbDevices mixed [{}]).run {})
      ((ftdiDevices mixed [{}]).run ((libusbDevices mixed [{}]).run {}).2) ∧
    ((libusbDevices mixed [{}]).run {}).1 = [⟨"", "", "", "1", 0x1234, 1⟩, ⟨"meter", "", "", "", 0x1234, 1⟩] ∧
    ((ftdiDevices mixed [{}]).run ((libusbDevices mixed [{}]).run {}).2).1 = [⟨"chip", "", "", "2:4", 0x0403, 1⟩] := by
  have hshares := @enumerations_share_the_bus mixed [{}] rfl (List.cons_ne_nil _ _) {}
  refine ⟨rfl, List.cons_ne_nil _ _, hshares, ?_, ?_⟩
  · rw [hshares.plain_found]
    decide +kernel
  · rw [hshares.chips_found]
    decide +kernel

end Peripheral.Usb
