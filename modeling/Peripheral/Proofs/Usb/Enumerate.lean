import Peripheral.Proofs.Usb.Visits

/-
  Peripheral.Proofs.Usb.Enumerate — what an enumeration finds on a bus that does not change.

  On such a bus a device can be opened every time or never (`Bus.IsSteady`), so an identity
  reads the same whenever it is read (`identityOf`), and an enumeration finds the same list
  whatever was called for before (`run_enumerate`).
-/

namespace Peripheral.Usb

/-- Whether a device can be opened does not change. -/
def Bus.IsSteady (bus : Bus) : Prop := ∀ dev ∈ bus.devices, ∀ n, dev.opens n = dev.opens 0

/-- One chip on port 1 that refuses nothing. -/
def oneChip : Bus where
  devices := [{
    vendorId := ftdiVendor, productId := 0x6010, descriptorFailure := none, ports := .ok [1], config := .ok [],
    manufacturer := none, name := none, serialNumber := none, opens := fun _ => none, autoDetach := fun _ => none,
    claim := fun _ => none, release := fun _ => none, transfers := fun _ => {} }]

theorem isSteady_oneChip : oneChip.IsSteady := by
  intro dev hdev n
  rw [List.mem_singleton.mp hdev]

/-- The identity of a device: its strings are blank if it cannot be opened. -/
def identityOf (dev : Device) : UsbIdentity :=
  match dev.opens 0 with
  | some _ => ⟨"", "", "", dev.portPath, dev.vendorId, dev.productId⟩
  | none => ⟨descriptorText dev.name, descriptorText dev.manufacturer, descriptorText dev.serialNumber,
      dev.portPath, dev.vendorId, dev.productId⟩

/-- The identities of the devices with a readable descriptor and an admitted vendor that answer one of the criteria. -/
def wantedIdentities (cs : List UsbCriteria) (vendor : UInt16 → Bool) (devices : List Device) : List UsbIdentity :=
  ((devices.filter fun dev => dev.descriptorFailure.isNone && vendor dev.vendorId).map identityOf).filter
    fun id => cs.any (·.admits id)

/-- What an enumeration of a bus that does not change finds. -/
def listed (bus : Bus) (cs : List UsbCriteria) (vendor : UInt16 → Bool) : List UsbIdentity :=
  if bus.listFailure.isSome then [] else wantedIdentities cs vendor bus.devices

variable {bus : Bus} {cs : List UsbCriteria} {vendor : UInt16 → Bool}

theorem identity_nextOpen (hbus : bus.IsSteady) {x : Spot} (hx : bus.devices[x.2]? = some x.1) (j : Journal) :
    x.1.identity (nextOpen j x) = identityOf x.1 := by
  have hopens : nextOpen j x = x.1.opens 0 := hbus x.1 (List.mem_of_getElem? hx) _
  rw [hopens]
  unfold identityOf
  cases x.1.opens 0 <;> rfl

theorem identitiesOf_reported (hbus : bus.IsSteady) (j : Journal) :
    identitiesOf (nextOpen j) (reported cs vendor (nextOpen j) bus.devices.zipIdx) =
      wantedIdentities cs vendor bus.devices := by
  have hsame : ∀ x ∈ visited vendor bus.devices.zipIdx, x.1.identity (nextOpen j x) = identityOf x.1 :=
    fun x hx => identity_nextOpen hbus (mem_visited_iff.mp hx).1 j
  calc
    identitiesOf (nextOpen j) (reported cs vendor (nextOpen j) bus.devices.zipIdx)
    _ = ((visited vendor bus.devices.zipIdx).map fun x => x.1.identity (nextOpen j x)).filter
          fun id => cs.any (·.admits id) := by
      rw [List.filter_map]
      rfl
    _ = ((visited vendor bus.devices.zipIdx).map fun x => identityOf x.1).filter fun id => cs.any (·.admits id) := by
      rw [List.map_congr_left hsame]
    _ = wantedIdentities cs vendor (bus.devices.zipIdx.map Prod.fst) := by
      unfold wantedIdentities
      rw [List.filter_map (f := Prod.fst), List.map_map]
      rfl
    _ = wantedIdentities cs vendor bus.devices := by rw [List.zipIdx_map_fst]

@[simp] theorem listed_nil (bus : Bus) (vendor : UInt16 → Bool) : listed bus [] vendor = [] := by
  unfold listed wantedIdentities
  simp

theorem run_enumerate (hbus : bus.IsSteady) (j : Journal) :
    ((enumerate bus cs vendor).run j).1 = listed bus cs vendor := by
  by_cases hcs : cs = []
  · subst hcs
    rw [listed_nil]
    rfl
  · unfold listed
    cases hlist : bus.listFailure with
    | some e =>
      unfold enumerate
      rw [if_neg (mt List.isEmpty_iff.mp hcs), hlist]
      rfl
    | none =>
      rw [(run_enumerate_visits hlist hcs j).1, identitiesOf_reported hbus]
      rfl

theorem run_libusbDevices (hbus : bus.IsSteady) (j : Journal) :
    ((libusbDevices bus cs).run j).1 = listed bus cs (· != ftdiVendor) := by
  unfold libusbDevices
  rw [Act.run_bind, run_enumerate hbus]
  rfl

theorem run_ftdiDevices (hbus : bus.IsSteady) (j : Journal) :
    ((ftdiDevices bus cs).run j).1 = listed bus cs (· == ftdiVendor) := by
  unfold ftdiDevices
  rw [Act.run_bind, run_enumerate hbus]
  rfl

end Peripheral.Usb
