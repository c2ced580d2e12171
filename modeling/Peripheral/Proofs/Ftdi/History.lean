import Peripheral.Proofs.Ftdi.Claims

/-
  Peripheral.Proofs.Ftdi.History — a session through any history, whatever becomes of its
  operations.

  An operation whose address computation leaves its range changes nothing of the session, and
  the history goes on (`Ran`). Opening a closed session ends in one of three ways: the chip is
  not ready for use, it is and the inward address leaves its range, or the session is open
  (`openSession_opening`). The packet size is set there and nowhere else, to one that has room
  for payload and fits a descriptor (`Ran.isPacketSize`).
-/

namespace Peripheral.Ftdi

open Usb (Bus Handle)

/-- The sessions that a new one becomes, and their journals, however its operations end. -/
inductive Ran (bus : Bus) (id : UsbIdentity) (j₀ : Journal) : Session → Journal → Prop
  | new : Ran bus id j₀ { identity := id } j₀
  | act {s t : Session} {j k : Journal} {r : Except Failure Unit} (a : Action) : Ran bus id j₀ s j →
      (a.run bus).perform s j = (r, t, k) → Ran bus id j₀ t k

variable {bus : Bus} {s t : Session} {j k : Journal}

/-! ## Opening -/

/-- The chip of a session is found, opened, claimed and set up; the handle on it then. -/
def Ready (bus : Bus) (s : Session) (j : Journal) (h : Handle) (k : Journal) : Prop :=
  ∃ h₀ k₀, (Usb.Session.openHandle bus s.identity : Op Session Handle).run.run ⟨s, j⟩ = (.ok h₀, ⟨s, k₀⟩) ∧
    (Session.setUp bus h₀ s.configuration).run k₀ = ((none, h), k)

/-- How opening a closed session ends, and the session it leaves. -/
inductive Opening (bus : Bus) (s : Session) (j : Journal) : Except Failure Unit → Session → Prop
  | failed (e : LinkError) : (∀ h k, ¬ Ready bus s j h k) → Opening bus s j (.error (.error e)) s
  | unaddressed (h : Handle) (k : Journal) (o : Overflow) : Ready bus s j h k →
      s.configuration.inEndpoint = .error o → Opening bus s j (.error (.overflow o)) s
  | opened (h : Handle) (k : Journal) (address : UInt8) : Ready bus s j h k →
      s.configuration.inEndpoint = .ok address →
      Opening bus s j (.ok ()) { s with handle := some h, packetSize := Session.packetSizeOf bus h address }

theorem openSession_opening (bus : Bus) (j : Journal) (hs : s.handle = none) : ∃ r t k,
    (Session.openSession bus).perform s j = (r, t, k) ∧ Opening bus s j r t := by
  unfold Session.openSession Session.isOpen
  rw [Op.perform_eq, Op.run_bind, Op.run_session]
  simp only [hs, Option.isSome_none, Bool.false_eq_true, if_false]
  obtain ⟨r, k, hopen, ⟨e, -, rfl, -⟩ | ⟨d, rfl, -⟩⟩ := Usb.Session.run_openHandle bus s.identity s j
  · rw [Op.run_bind, hopen]
    refine ⟨_, _, _, rfl, .failed e ?_⟩
    rintro h k ⟨h₀, k₀, hopen', -⟩
    cases hopen.symm.trans hopen'
  rw [Op.run_bind, hopen]
  simp only
  obtain ⟨f, h, k', a, hsetUp, rfl, -⟩ := run_setUp bus k d s.configuration
  rw [Op.run_bind, Op.run_act, hsetUp]
  cases f with
  | some e =>
    simp only
    rw [Op.run_bind, Op.run_log]
    simp only
    obtain ⟨k'', hundo, -⟩ := run_undo bus s (k'.log _) h e
    rw [hundo]
    refine ⟨_, _, _, rfl, .failed e.link ?_⟩
    rintro h' l ⟨h₀, k₀, hopen', hsetUp'⟩
    cases hopen.symm.trans hopen'
    cases hsetUp.symm.trans hsetUp'
  | none =>
    have hready : Ready bus s j h k' := ⟨_, _, hopen, hsetUp⟩
    simp only
    rw [Op.run_bind, Op.run_within]
    cases haddress : s.configuration.inEndpoint with
    | error o => exact ⟨_, _, _, rfl, .unaddressed h k' o hready haddress⟩
    | ok address => exact ⟨_, _, _, rfl, .opened h k' address hready haddress⟩

/-! ## The packet size -/

/-- A packet of this size has room for payload, and a descriptor can hold the size. -/
def IsPacketSize (n : Nat) : Prop := statusLength < n ∧ n < 65536

theorem isPacketSize_default : IsPacketSize defaultPacketSize := ⟨by decide, by decide⟩

theorem isPacketSize_packetSizeOf (bus : Bus) (h : Handle) (address : UInt8) :
    IsPacketSize (Session.packetSizeOf bus h address) := by
  unfold Session.packetSizeOf
  split
  · rename_i config _
    cases hfind : config.flatten.flatten.find? (Session.isInEndpoint address) with
    | none => exact isPacketSize_default
    | some e =>
      have hin := List.find?_some hfind
      simp only [Session.isInEndpoint, Bool.and_eq_true, decide_eq_true_eq] at hin
      exact ⟨hin.2, e.maxPacketSize.toNat_lt⟩
  · exact isPacketSize_default

theorem isPacketSize_step {r : Except Failure Unit} (a : Action) (hs : IsPacketSize s.packetSize)
    (hrun : (a.run bus).perform s j = (r, t, k)) : IsPacketSize t.packetSize := by
  cases a with
  | openSession =>
    cases hopen : s.handle with
    | some h =>
      cases hrun.symm.trans (openSession_of_open bus j hopen)
      exact hs
    | none =>
      obtain ⟨r', t', k', hperform, hopening⟩ := openSession_opening bus j hopen
      cases hperform.symm.trans hrun
      cases hopening with
      | failed => exact hs
      | unaddressed => exact hs
      | opened h k address => exact isPacketSize_packetSizeOf bus h address
  | close =>
    obtain ⟨k', hclose⟩ := close_leaves bus s j
    cases hrun.symm.trans hclose
    exact hs
  | configure c =>
    cases hrun
    exact hs
  | read x len =>
    obtain ⟨r', k', ts, hread, -⟩ := run_read bus s j x len
    cases hrun.symm.trans (Op.perform_unread _ hread)
    exact hs
  | write x bytes =>
    obtain ⟨r', k', ts, hwrite, -⟩ := run_write bus s j x bytes
    cases hrun.symm.trans (Op.perform_unread _ hwrite)
    exact hs

theorem Ran.isPacketSize {id : UsbIdentity} {j₀ : Journal} (h : Ran bus id j₀ s j) : IsPacketSize s.packetSize := by
  induction h with
  | new => exact isPacketSize_default
  | act a _ hrun ih => exact isPacketSize_step a ih hrun

end Peripheral.Ftdi
