import Peripheral.Proofs.Reopen

/-
  Peripheral.Proofs.Usb.Recognition — the devices that an identity is recognized in.

  An identity keeps the port numbers of its device as a text. Different lists have different
  texts (`portPath_injective`), and only the empty list has the text of a device that told no
  numbers (`portPath_eq_empty_iff`). An identity without numbers is given up before any device
  is looked at; with numbers, the text of a device on the bus agrees with it just where the
  numbers do, whatever became of the bus in the meantime.
-/

namespace Peripheral.Usb

/-- An identity that was read from `dev` recognizes, on any bus, the devices that have its port numbers. -/
structure Recognizes (id : UsbIdentity) (dev : Device) : Prop where
  port_eq_empty_iff : id.port = "" ↔ ∀ ps, dev.portNumbers = .ok ps → ps = []
  refused : id.port = "" → ∀ live : Bus, find live id = .error (.invalidArgument "device port path is empty")
  portPath_eq_iff : ∀ ps, dev.portNumbers = .ok ps → ps ≠ [] →
    ∀ live : Device, live.portPath = id.port ↔ live.portNumbers = .ok ps
  isDeviceOf_iff : id.port ≠ "" → ∀ live : Device, isDeviceOf id live = true ↔ live.IsTwin dev
  find_eq_ok_iff : id.port ≠ "" → ∀ (live : Bus) d,
    find live id = .ok d ↔ live.listFailure = none ∧ ∃ other, live.IsFirstTwin (other, d) dev

variable {dev : Device}

theorem Device.portPath_eq_empty_iff : dev.portPath = "" ↔ ∀ ps, dev.portNumbers = .ok ps → ps = [] := by
  unfold portPath
  cases dev.portNumbers with
  | error e => simp
  | ok ps => simp [Usb.portPath_eq_empty_iff]

theorem find_identity_eq_ok_iff {failure : Option Error} (hport : dev.portPath ≠ "") (live : Bus) (d : Nat) :
    find live (dev.identity failure) = .ok d ↔
      live.listFailure = none ∧ ∃ other, live.IsFirstTwin (other, d) dev := by
  unfold find
  rw [port_identity, if_neg (mt String.isEmpty_iff.mp hport), ← findIdx?_isDeviceOf_iff hport]
  cases live.listFailure with
  | some e => simp
  | none => cases live.devices.findIdx? (isDeviceOf (dev.identity failure)) <;> simp

theorem recognizes_identity (dev : Device) (failure : Option Error) : Recognizes (dev.identity failure) dev := by
  have hpath := port_identity dev failure
  constructor
  case port_eq_empty_iff =>
    rw [hpath]
    exact Device.portPath_eq_empty_iff
  case refused =>
    intro hport live
    rw [find, hport]
    rfl
  case portPath_eq_iff =>
    intro ps hps hne live
    have hport : dev.portPath ≠ "" := fun h => hne (Device.portPath_eq_empty_iff.mp h ps hps)
    rw [hpath, Usb.portPath_eq_iff hport, hps]
  case isDeviceOf_iff =>
    intro hport live
    exact isDeviceOf_identity (hpath ▸ hport)
  case find_eq_ok_iff =>
    intro hport live d
    exact find_identity_eq_ok_iff (hpath ▸ hport) live d

/-- What is read from a device, whether it could be opened or not. -/
theorem exists_identity_of_identify (bus : Bus) (d : Nat) (dev : Device) (j : Journal) :
    ∃ failure, ((identify bus d dev).run j).1 = dev.identity failure := by
  unfold identify
  rw [Act.run_bind]
  generalize (bus.openDevice d).run j = opened
  obtain ⟨outcome, k⟩ := opened
  cases outcome with
  | error e => exact ⟨some e, rfl⟩
  | ok h => exact ⟨none, rfl⟩

/-- Port numbers are told by their text, and an identity that was read from a device is recognized, on any bus and at any
    later time, in those devices that have its port numbers, of the ones with its vendor and its product. -/
theorem port_numbers_are_told_by_their_text :
    Function.Injective portPath ∧ (∀ ps, portPath ps = "" ↔ ps = []) ∧
      ∀ (bus : Bus) (d : Nat) (dev : Device) (j : Journal), Recognizes ((identify bus d dev).run j).1 dev := by
  refine ⟨fun _ _ => portPath_injective, fun _ => portPath_eq_empty_iff, fun bus d dev j => ?_⟩
  obtain ⟨failure, hidentity⟩ := exists_identity_of_identify bus d dev j
  rw [hidentity]
  exact recognizes_identity dev failure

/-- Where one number ends and the next begins can be told. -/
example : portPath [1, 12] = "1:12" ∧ portPath [11, 2] = "11:2" ∧ portPath [112] = "112" := by decide

end Peripheral.Usb
