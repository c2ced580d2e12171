import Peripheral.Proofs.Ftdi.Buffers

/-
  Peripheral.Proofs.Ftdi.Addresses — where an operation on a session ends without a result.

  The addresses of the two endpoints are bytes, and the interface of a configuration is any
  byte: from interface 64 on the inward address does not fit, from 127 on the outward one
  (`endpointFrom_eq_error_iff`). Nothing looks at the interface before an address is computed.
  So opening stops if the chip lets a far interface be claimed, and reading and writing stop on
  a session that was opened with another one (`Stops`, `overflow_iff_stops`).

  All other numbers have room where they are kept: the sizes of reads (`rawSize_lt`), the
  places in the buffer and the values of vendor requests. So an operation ends with a value or
  an error wherever no address leaves its range (`operations_stop_only_at_addresses`).
-/

namespace Peripheral.Ftdi

open Op (KeepsRange)
open Usb (Bus Handle oneChip)

variable {bus : Bus} {s : Session} {j : Journal}

/-! ## Addresses -/

theorem endpointFrom_eq_error_iff (first : Nat) (c : FtdiConfiguration) (o : Overflow) :
    c.endpointFrom first = .error o ↔
      255 < first + 2 * c.interface.toNat ∧ o = if 128 ≤ c.interface.toNat then .product else .sum := by
  have hfirst : 255 < 2 * c.interface.toNat ↔ 128 ≤ c.interface.toNat := by omega
  unfold FtdiConfiguration.endpointFrom
  simp only [hfirst]
  by_cases hproduct : 128 ≤ c.interface.toNat
  · rw [if_pos hproduct, if_pos hproduct, Except.error.injEq]
    exact ⟨fun ho => ⟨by omega, ho.symm⟩, fun ho => ho.2.symm⟩
  · rw [if_neg hproduct, if_neg hproduct]
    by_cases hsum : 255 < first + 2 * c.interface.toNat
    · rw [if_pos hsum, Except.error.injEq]
      exact ⟨fun ho => ⟨hsum, ho.symm⟩, fun ho => ho.2.symm⟩
    · rw [if_neg hsum]
      exact ⟨nofun, fun ho => absurd ho.1 hsum⟩

/-! ## Operations -/

theorem readyFor_eq_ok_iff {t : Transfer} {len : Nat} {h : Handle} :
    s.readyFor t len = .ok h ↔ Transport.ftdi.carries t = true ∧ 0 < len ∧ s.handle = some h := by
  unfold Session.readyFor Transport.check checkBuffer
  by_cases ht : Transport.ftdi.carries t = true
  · by_cases hlen : len = 0
    · rw [if_pos ht, if_pos hlen]
      exact ⟨nofun, fun hall => absurd hlen (Nat.ne_of_gt hall.2.1)⟩
    · rw [if_pos ht, if_neg hlen]
      cases hs : s.handle with
      | none => exact ⟨nofun, fun hall => nomatch hall.2.2⟩
      | some h' =>
        constructor
        · intro heq
          exact ⟨ht, Nat.pos_of_ne_zero hlen, congrArg some (Except.ok.inj heq)⟩
        · intro hall
          exact congrArg Except.ok (Option.some.inj hall.2.2)
  · rw [if_neg ht]
    exact ⟨nofun, fun hall => absurd hall.1 ht⟩

/-- The operation gets as far as an address that leaves its range. -/
inductive Stops (bus : Bus) (s : Session) (j : Journal) : Action → Overflow → Prop
  | openSession (h : Handle) (k : Journal) (o : Overflow) : s.handle = none → Ready bus s j h k →
      s.configuration.inEndpoint = .error o → Stops bus s j .openSession o
  | read (h : Handle) (e : UInt8) (len : Nat) (o : Overflow) : s.handle = some h → 0 < len →
      s.configuration.inEndpoint = .error o → Stops bus s j (.read (.bulk e) len) o
  | write (h : Handle) (e : UInt8) (bytes : List UInt8) (o : Overflow) : s.handle = some h → 0 < bytes.length →
      s.configuration.outEndpoint = .error o → Stops bus s j (.write (.bulk e) bytes) o

theorem openSession_overflow_iff (o : Overflow) :
    ((Session.openSession bus).perform s j).1 = .error (.overflow o) ↔ Stops bus s j .openSession o := by
  cases hs : s.handle with
  | some h =>
    rw [openSession_of_open bus j hs]
    refine ⟨nofun, ?_⟩
    intro hstops
    cases hstops with
    | openSession h' k o hnone =>
      rw [hs] at hnone
      cases hnone
  | none =>
    obtain ⟨r, t, k, hperform, hopening⟩ := openSession_opening bus j hs
    rw [hperform]
    cases hopening with
    | failed e hnot =>
      refine ⟨nofun, ?_⟩
      intro hstops
      cases hstops with
      | openSession h l o _ hready => exact absurd hready (hnot h l)
    | unaddressed h l o' hready haddress =>
      constructor
      · intro heq
        cases heq
        exact .openSession h l o hs hready haddress
      · intro hstops
        cases hstops with
        | openSession h' l' o _ _ haddress' =>
          cases haddress.symm.trans haddress'
          rfl
    | opened h l address hready haddress =>
      refine ⟨nofun, ?_⟩
      intro hstops
      cases hstops with
      | openSession h' l' o _ _ haddress' => cases haddress.symm.trans haddress'

theorem keepsRange_finish {σ α : Type} (message : String) (id : UsbIdentity) (t : Transfer) (r : Except Usb.Error α) :
    KeepsRange (Usb.Session.finish message id t r : Op σ α) := by
  cases r with
  | ok a => exact .pure a
  | error e => exact (KeepsRange.log _).bind fun _ => .fail _

theorem read_overflow_iff (t : Transfer) (len : Nat) (o : Overflow) :
    ((Session.read bus t len).perform s j).1 = .error (.overflow o) ↔
      ∃ h, s.readyFor t len = .ok h ∧ (∃ e, t = .bulk e) ∧ s.configuration.inEndpoint = .error o := by
  unfold Session.read
  rw [Op.overflow_of_checked_iff (fun s : Session => s.readyFor t len)]
  refine exists_congr fun h => and_congr_right fun hready => ?_
  have hfinish : ∀ r : Except Usb.Error (List UInt8),
      KeepsRange (Usb.Session.finish "FTDI read failed" s.identity t r : Op Session _) := by
    intro r
    exact keepsRange_finish _ _ _ r
  cases t with
  | bulk e =>
    unfold Session.readBulk
    dsimp only
    rw [Op.overflow_of_bind_iff hfinish,
      Op.overflow_of_bind_iff fun address => KeepsRange.bind (.act _) fun raw => .pure _, Op.overflow_of_within_iff]
    exact ⟨fun hend => ⟨⟨e, rfl⟩, hend⟩, And.right⟩
  | control rt r v i =>
    refine ⟨fun hstop => ?_, nofun⟩
    dsimp only at hstop
    by_cases hr : r = requestReadPins
    · rw [if_pos hr] at hstop
      exact absurd hstop (KeepsRange.bind (.act _) hfinish s j o)
    · rw [if_neg hr] at hstop
      exact absurd hstop (KeepsRange.bind (.act _) hfinish s j o)
  | _ => exact ⟨nofun, nofun⟩

theorem write_overflow_iff (t : Transfer) (bytes : List UInt8) (o : Overflow) :
    ((Session.write bus t bytes).perform s j).1 = .error (.overflow o) ↔
      ∃ h, s.readyFor t bytes.length = .ok h ∧ (∃ e, t = .bulk e) ∧ s.configuration.outEndpoint = .error o := by
  unfold Session.write
  rw [Op.overflow_of_checked_iff (fun s : Session => s.readyFor t bytes.length)]
  refine exists_congr fun h => and_congr_right fun hready => ?_
  have hfinish : ∀ r : Except Usb.Error Nat,
      KeepsRange (Usb.Session.finish "FTDI write failed" s.identity t r : Op Session _) := by
    intro r
    exact keepsRange_finish _ _ _ r
  cases t with
  | bulk e =>
    dsimp only
    rw [Op.overflow_of_bind_iff fun address => KeepsRange.bind (.act _) hfinish, Op.overflow_of_within_iff]
    exact ⟨fun hend => ⟨⟨e, rfl⟩, hend⟩, And.right⟩
  | control rt r v i => exact ⟨fun hstop => absurd hstop (KeepsRange.bind (.act _) hfinish s j o), nofun⟩
  | _ => exact ⟨nofun, nofun⟩

/-- An operation ends without a result exactly where it gets as far as an address that leaves its range. -/
theorem overflow_iff_stops (a : Action) (o : Overflow) :
    ((a.run bus).perform s j).1 = .error (.overflow o) ↔ Stops bus s j a o := by
  cases a with
  | openSession => exact openSession_overflow_iff o
  | close =>
    obtain ⟨k, hclose⟩ := close_leaves bus s j
    refine ⟨fun hstop => ?_, nofun⟩
    rw [Action.run, hclose] at hstop
    cases hstop
  | configure c => exact ⟨nofun, nofun⟩
  | read t len =>
    rw [Action.run, Op.overflow_of_bind_iff fun _ => .pure _, read_overflow_iff]
    constructor
    · rintro ⟨h, hready, ⟨e, rfl⟩, haddress⟩
      obtain ⟨-, hlen, hs⟩ := readyFor_eq_ok_iff.mp hready
      exact .read h e len o hs hlen haddress
    · intro hstops
      cases hstops with
      | read h e len o hs hlen haddress => exact ⟨h, readyFor_eq_ok_iff.mpr ⟨rfl, hlen, hs⟩, ⟨e, rfl⟩, haddress⟩
  | write t bytes =>
    rw [Action.run, Op.overflow_of_bind_iff fun _ => .pure _, write_overflow_iff]
    constructor
    · rintro ⟨h, hready, ⟨e, rfl⟩, haddress⟩
      obtain ⟨-, hlen, hs⟩ := readyFor_eq_ok_iff.mp hready
      exact .write h e bytes o hs hlen haddress
    · intro hstops
      cases hstops with
      | write h e bytes o hs hlen haddress => exact ⟨h, readyFor_eq_ok_iff.mpr ⟨rfl, hlen, hs⟩, ⟨e, rfl⟩, haddress⟩

/-! ## Sizes and cuts -/

/-- A packet of three bytes carries one, so no more than three times as many bytes are asked for. -/
theorem rawSize_lt {len packetSize : Nat} (hsize : statusLength < packetSize) :
    rawSize len packetSize < 3 * (len + packetSize) := by
  have hstatus : statusLength = 2 := rfl
  obtain ⟨room, hroom⟩ : ∃ room, packetSize = room + statusLength := ⟨packetSize - statusLength, by omega⟩
  have hpackets : (len + room - 1) / room * room ≤ len + room - 1 := Nat.div_mul_le_self _ _
  calc rawSize len packetSize = (len + room - 1) / room * packetSize := by rw [rawSize, hroom, Nat.add_sub_cancel]
    _ ≤ (len + room - 1) / room * (3 * room) := Nat.mul_le_mul_left _ (by omega)
    _ = 3 * ((len + room - 1) / room * room) := by rw [Nat.mul_left_comm]
    _ < 3 * (len + packetSize) := by omega

/-- What a read with room for `len` bytes computes and cuts, an address apart. -/
structure ReadsInRange (bus : Bus) (s : Session) (h : Handle) (len : Nat) : Prop where
  /-- There is a byte to read the pins into. -/
  room : 0 < len
  size : ∀ limit, 3 * (len + s.packetSize) ≤ limit → rawSize? limit len s.packetSize = some (rawSize len s.packetSize)
  received : ∀ pipe ms j bytes, ((bus.read h pipe (rawSize len s.packetSize) ms).run j).1 = .ok bytes →
    bytes.length ≤ rawSize len s.packetSize
  cuts : ∀ raw buffer, strip? s.packetSize raw buffer = some (strip s.packetSize raw buffer)

theorem readsInRange {t : Transfer} {len : Nat} {h : Handle} (hsize : statusLength < s.packetSize)
    (hready : s.readyFor t len = .ok h) : ReadsInRange bus s h len where
  room := (readyFor_eq_ok_iff.mp hready).2.1
  size _ hlimit := rawSize?_eq hsize (Nat.lt_of_lt_of_le (rawSize_lt hsize) hlimit)
  received _ _ j _ hread := bus.length_le_of_read h j hread
  cuts := strip?_eq s.packetSize

/-- Whatever the bus does and whatever came before: an operation on a session ends with a value or an error unless it
    gets as far as an endpoint address and the interface is too large for it, from 64 on for the inward endpoint and
    from 127 on for the outward one. Every other number has room where it is kept, and every cut is in range. -/
theorem operations_stop_only_at_addresses {id : UsbIdentity} {j₀ : Journal} (hran : Ran bus id j₀ s j) :
    (∀ a o, ((a.run bus).perform s j).1 = .error (.overflow o) ↔ Stops bus s j a o) ∧
    (∀ o, s.configuration.inEndpoint = .error o ↔ 64 ≤ s.configuration.interface.toNat ∧
      o = if 128 ≤ s.configuration.interface.toNat then .product else .sum) ∧
    (∀ o, s.configuration.outEndpoint = .error o ↔ 127 ≤ s.configuration.interface.toNat ∧
      o = if 128 ≤ s.configuration.interface.toNat then .product else .sum) ∧
    s.configuration.requestIndex.toNat = s.configuration.interface.toNat + 1 ∧
    s.configuration.bitModeValue.toNat = s.configuration.bitMode.toNat * 256 + s.configuration.bitMask.toNat ∧
    ∀ t len h, s.readyFor t len = .ok h → ReadsInRange bus s h len := by
  have hinterface : s.configuration.interface.toNat < 256 := s.configuration.interface.toNat_lt
  have hmode : s.configuration.bitMode.toNat < 256 := s.configuration.bitMode.toNat_lt
  have hmask : s.configuration.bitMask.toNat < 256 := s.configuration.bitMask.toNat_lt
  refine ⟨overflow_iff_stops, ?_, ?_, ?_, ?_, fun _ _ _ => readsInRange hran.isPacketSize.1⟩
  · intro o
    rw [FtdiConfiguration.inEndpoint, endpointFrom_eq_error_iff]
    exact and_congr_left fun _ => by omega
  · intro o
    rw [FtdiConfiguration.outEndpoint, endpointFrom_eq_error_iff]
    exact and_congr_left fun _ => by omega
  · exact UInt16.toNat_ofNat_of_lt (show _ < 65536 by omega)
  · exact UInt16.toNat_ofNat_of_lt (show _ < 65536 by omega)

/-- A chip that was opened and is then configured for interface 100: bytes can be written, but reading stops. -/
theorem far_interface_is_written : ∃ s j, Ran oneChip oneChipIdentity {} s j ∧ s.handle = some ⟨0, [0]⟩ ∧
    s.configuration.interface = 100 ∧
    (∀ e bytes o, (((Action.write (.bulk e) bytes).run oneChip).perform s j).1 ≠ .error (.overflow o)) ∧
    (((Action.read (.bulk 0x81) 62).run oneChip).perform s j).1 = .error (.overflow .sum) := by
  have hnew : Ran oneChip oneChipIdentity {} { identity := oneChipIdentity } {} := .new
  have hran := (hnew.act .openSession rfl).act (.configure { interface := 100 }) rfl
  obtain ⟨hstops, hin, hout, -⟩ := operations_stop_only_at_addresses hran
  refine ⟨_, _, hran, rfl, rfl, ?_, ?_⟩
  · intro e bytes o hstop
    cases (hstops _ _).mp hstop with
    | write h e bytes o hs hlen haddress => exact absurd ((hout o).mp haddress).1 (by decide)
  · exact (hstops _ _).mpr (.read ⟨0, [0]⟩ 0x81 62 .sum rfl (by decide) ((hin .sum).mpr (by decide)))

/-- A session that is configured for interface 64 while it is open stops at its next read. -/
theorem read_of_far_interface : ∃ s j, Ran oneChip oneChipIdentity {} s j ∧ s.handle = some ⟨0, [0]⟩ ∧
    s.configuration.interface = 64 ∧
    (((Action.read (.bulk 0x81) 1).run oneChip).perform s j).1 = .error (.overflow .sum) :=
  ⟨_, _, .act (.configure { interface := 64 }) (.act .openSession .new rfl) rfl, rfl, rfl, rfl⟩

end Peripheral.Ftdi
