import Peripheral.Ftdi.Session
import Peripheral.Proofs.Usb.Calls

/-
  Peripheral.Proofs.Ftdi.Session — the native calls that the operations on a session make.

  Setting up claims the configured interface first (`run_setUp`). An open that fails later asks
  for the release of that interface (`run_undo`), a close for the one in the configuration of
  that moment (`run_close`); dropping the handle releases what is claimed then
  (`run_releasing`). Reading and writing call for transfers only (`run_read`, `run_write`).
-/

namespace Peripheral.Ftdi

open Usb (Bus Call Handle Transfers TransfersOnly)

/-- The calls up to a claim that succeeded. -/
def claiming (d : Nat) (a : Option Usb.Error) (i : UInt8) : List Call :=
  [.openDevice d none, .autoDetach d a, .claim d i none]

/-- The calls that end the use of the interface `i`: the session asks for the release of `asked`; the
    handle, when it is dropped, releases `i` unless that was it. -/
def releasing (d : Nat) (i asked : UInt8) (f g : Option Usb.Error) : List Call :=
  .release d asked f :: (if asked = i ∧ f = none then [] else [.release d i g]) ++ [.closeDevice d]

variable {bus : Bus} {s : Session} {j : Journal}

/-! ## Opening and closing -/

/-- Opening an open session does nothing. -/
theorem openSession_of_open (bus : Bus) (j : Journal) {h : Handle} (hs : s.handle = some h) :
    (Session.openSession bus).perform s j = (.ok (), s, j) := by
  unfold Session.openSession Session.isOpen
  rw [Op.perform_eq, Op.run_bind, Op.run_session]
  simp only [hs, Option.isSome_some, if_true]
  rfl

/-- Nor does closing a closed one. -/
theorem close_of_closed (bus : Bus) (j : Journal) (hs : s.handle = none) :
    (Session.close bus).perform s j = (.ok (), s, j) := by
  unfold Session.close
  rw [Op.perform_eq, Op.run_bind, Op.run_session]
  simp only [hs]
  rfl

theorem run_request (bus : Bus) (j : Journal) (h : Handle) (c : FtdiConfiguration) (r : UInt8) (value : UInt16) :
    ∃ f k ts, (Session.request bus h c r value).run j = (f, k) ∧ k.calls = j.calls ++ ts ∧
      Transfers h.device ts := by
  obtain ⟨w, k, ts, hw, hk, hts⟩ := bus.run_write h j (.control 0x40 r value c.requestIndex) [] c.timeoutMs
  unfold Session.request
  rw [Act.run_bind, hw]
  cases w with
  | ok n => exact ⟨_, k, ts, rfl, hk, hts⟩
  | error e => exact ⟨_, k, ts, rfl, hk, hts⟩

/-- Either the claim fails, or the handle has the interface whatever comes after. -/
theorem run_setUp (bus : Bus) (j : Journal) (d : Nat) (c : FtdiConfiguration) : ∃ f h k a,
    (Session.setUp bus ⟨d, []⟩ c).run j = ((f, h), k) ∧ h.device = d ∧
      ((∃ e, f = some e ∧ h.claimed = [] ∧
          k.calls = j.calls ++ [.autoDetach d a, .claim d c.interface (some e)]) ∨
        ∃ ts, h.claimed = [c.interface] ∧ Transfers d ts ∧
          k.calls = j.calls ++ [.autoDetach d a, .claim d c.interface none] ++ ts) := by
  obtain ⟨a, ha⟩ := bus.run_autoDetach ⟨d, []⟩ j
  obtain ⟨f, hf⟩ := bus.run_claim ⟨d, []⟩ (j.call (.autoDetach d a)) c.interface
  unfold Session.setUp
  rw [Act.run_bind, ha, Act.run_bind, hf]
  cases f with
  | some e =>
    refine ⟨some e, ⟨d, []⟩, _, a, rfl, rfl, .inl ⟨e, rfl, rfl, ?_⟩⟩
    simp
  | none =>
    obtain ⟨f₁, k₁, ts₁, h₁, hk₁, hts₁⟩ := run_request bus
      ((j.call (.autoDetach d a)).call (.claim d c.interface none)) ⟨d, [c.interface]⟩ c requestReset 0
    obtain ⟨f₂, k₂, ts₂, h₂, hk₂, hts₂⟩ := run_request bus k₁ ⟨d, [c.interface]⟩ c
      requestSetBitMode c.bitModeValue
    show ∃ f h k a, (Session.request bus ⟨d, [c.interface]⟩ c requestReset 0 >>= _ : Act _).run _ = _ ∧ _
    rw [Act.run_bind, h₁]
    cases f₁ with
    | some e =>
      refine ⟨some e, ⟨d, [c.interface]⟩, k₁, a, rfl, rfl, .inr ⟨ts₁, rfl, hts₁, ?_⟩⟩
      rw [hk₁]
      simp
    | none =>
      show ∃ f h k a,
        (Session.request bus ⟨d, [c.interface]⟩ c requestSetBitMode c.bitModeValue >>= _ : Act _).run _ = _ ∧ _
      rw [Act.run_bind, h₂]
      refine ⟨f₂, ⟨d, [c.interface]⟩, k₂, a, rfl, rfl, .inr ⟨ts₁ ++ ts₂, rfl, hts₁.append hts₂, ?_⟩⟩
      rw [hk₂, hk₁]
      simp

/-- Asking for a release and dropping the handle some log events later. -/
theorem run_releasing (bus : Bus) (j : Journal) (h : Handle) {i : UInt8} (hc : h.claimed = [i]) (asked : UInt8) :
    ∃ f h' k, (bus.release h asked).run j = ((f, h'), k) ∧ ∀ j' : Journal,
      j'.calls = k.calls → ∃ g, ((bus.drop h').run j').2.calls = j.calls ++ releasing h.device i asked f g := by
  obtain ⟨f, hf⟩ := bus.run_release h j asked
  cases f with
  | some e =>
    refine ⟨some e, h, _, hf, ?_⟩
    intro j' hj'
    obtain ⟨g, hg⟩ := bus.run_drop_one h j' hc
    refine ⟨g, ?_⟩
    rw [hg]
    simp [hj', releasing]
  | none =>
    by_cases ha : asked = i
    · have hnone : h.claimed.filter (· != asked) = [] := by simp [hc, ha]
      refine ⟨none, { h with claimed := [] }, _, hnone ▸ hf, ?_⟩
      intro j' hj'
      refine ⟨none, ?_⟩
      rw [bus.run_drop_none _ j' rfl]
      simp [hj', releasing, ha]
    · have hone : h.claimed.filter (· != asked) = [i] := by simp [hc, Ne.symm ha]
      refine ⟨none, { h with claimed := [i] }, _, hone ▸ hf, ?_⟩
      intro j' hj'
      obtain ⟨g, hg⟩ := bus.run_drop_one { h with claimed := [i] } j' rfl
      refine ⟨g, ?_⟩
      rw [hg]
      simp [hj', releasing, ha]

/-- However the native calls end, a session is closed after a close and otherwise as it was. -/
theorem close_leaves (bus : Bus) (s : Session) (j : Journal) : ∃ k,
    (Session.close bus).perform s j = (.ok (), { s with handle := none }, k) := by
  cases hs : s.handle with
  | none => exact ⟨j, by rw [close_of_closed bus j hs, ← hs]⟩
  | some h =>
    unfold Session.close
    rw [Op.perform_eq, Op.run_bind, Op.run_session]
    simp only [hs]
    rw [Op.run_bind, Op.run_set]
    simp only
    rw [Op.run_bind, Op.run_act]
    rcases (bus.release h s.configuration.interface).run j with ⟨⟨_ | e, h'⟩, l⟩ <;> exact ⟨_, rfl⟩

/-- A close asks for the interface in the configuration of that moment. -/
theorem run_close (bus : Bus) (j : Journal) {h : Handle} (hs : s.handle = some h) {i : UInt8}
    (hc : h.claimed = [i]) :
    ∃ k f g, (Session.close bus).perform s j = (.ok (), { s with handle := none }, k) ∧
      k.calls = j.calls ++ releasing h.device i s.configuration.interface f g := by
  obtain ⟨f, h', k, hrelease, hdrop⟩ := run_releasing bus j h hc s.configuration.interface
  unfold Session.close
  rw [Op.perform_eq, Op.run_bind, Op.run_session]
  simp only [hs]
  rw [Op.run_bind, Op.run_set]
  simp only
  rw [Op.run_bind, Op.run_act, hrelease]
  cases f with
  | some e =>
    obtain ⟨g, hg⟩ := hdrop (k.log _ |>.log _) rfl
    exact ⟨_, some e, g, rfl, hg⟩
  | none =>
    obtain ⟨g, hg⟩ := hdrop (k.log _) rfl
    exact ⟨_, none, g, rfl, hg⟩

/-- The error path of an open: a release of the configured interface, then the handle is dropped. -/
theorem run_undo (bus : Bus) (s : Session) (j : Journal) (h : Handle) (e : Usb.Error) : ∃ k,
    (do let (_, h) ← Op.act (bus.release h s.configuration.interface)
        Usb.Session.giveUp bus h e : Op Session Unit).run.run ⟨s, j⟩ = (.error (.error e.link), ⟨s, k⟩) ∧
      (h.claimed = [] → ∃ f, k.calls = j.calls ++
        [.release h.device s.configuration.interface f, .closeDevice h.device]) ∧
      (h.claimed = [s.configuration.interface] → ∃ f g, k.calls = j.calls ++
        releasing h.device s.configuration.interface s.configuration.interface f g) := by
  refine ⟨_, rfl, fun hc => ?_, fun hc => ?_⟩
  · obtain ⟨f, hf⟩ := bus.run_release h j s.configuration.interface
    have hnone : (if f.isNone then { h with claimed := h.claimed.filter (· != s.configuration.interface) } else h) = h := by
      cases h
      simp_all
    refine ⟨f, ?_⟩
    show ((bus.drop ((bus.release h s.configuration.interface).run j).1.2).run
      ((bus.release h s.configuration.interface).run j).2).2.calls = _
    rw [hf, hnone, bus.run_drop_none h _ hc]
    simp
  · obtain ⟨f, h', k, hrelease, hdrop⟩ := run_releasing bus j h hc s.configuration.interface
    obtain ⟨g, hg⟩ := hdrop k rfl
    refine ⟨f, g, ?_⟩
    show ((bus.drop ((bus.release h s.configuration.interface).run j).1.2).run
      ((bus.release h s.configuration.interface).run j).2).2.calls = _
    rw [hrelease, hg]

/-! ## Reading and writing -/

theorem run_read (bus : Bus) (s : Session) (j : Journal) (t : Transfer) (len : Nat) : ∃ r k ts,
    (Session.read bus t len).run.run ⟨s, j⟩ = (r, ⟨s, k⟩) ∧ k.calls = j.calls ++ ts ∧
      (ts = [] ∨ ∃ h, s.handle = some h ∧ Transfers h.device ts) := by
  unfold Session.read
  rw [Op.run_bind, Op.run_session]
  refine Usb.run_ready (fun _ => Usb.handle_of_checks) (fun h _ => ?_) s j
  have hfinish : ∀ r : Except Usb.Error (List UInt8),
      TransfersOnly h.device (Usb.Session.finish "FTDI read failed" s.identity t r : Op Session _) := by
    intro r
    exact .finish _ _ _ r
  cases t with
  | bulk e =>
    refine TransfersOnly.bind ?_ hfinish
    refine TransfersOnly.bind (.within _) fun address => ?_
    exact TransfersOnly.bind (.read bus h _ _ _) fun raw => .pure _
  | control rt r v i =>
    by_cases hr : r = requestReadPins
    · simp only [hr, if_true]
      exact TransfersOnly.bind (.read bus h _ _ _) (hr ▸ hfinish)
    · simp only [hr, if_false]
      exact TransfersOnly.bind (.read bus h _ _ _) hfinish
  | _ => exact TransfersOnly.bind (.fail _) hfinish

theorem run_write (bus : Bus) (s : Session) (j : Journal) (t : Transfer) (bytes : List UInt8) : ∃ r k ts,
    (Session.write bus t bytes).run.run ⟨s, j⟩ = (r, ⟨s, k⟩) ∧ k.calls = j.calls ++ ts ∧
      (ts = [] ∨ ∃ h, s.handle = some h ∧ Transfers h.device ts) := by
  unfold Session.write
  rw [Op.run_bind, Op.run_session]
  refine Usb.run_ready (fun _ => Usb.handle_of_checks) (fun h _ => ?_) s j
  have hfinish : ∀ r : Except Usb.Error Nat,
      TransfersOnly h.device (Usb.Session.finish "FTDI write failed" s.identity t r : Op Session _) := by
    intro r
    exact .finish _ _ _ r
  cases t with
  | bulk e =>
    refine TransfersOnly.bind (.within _) fun address => ?_
    exact TransfersOnly.bind (.write bus h _ _ _) hfinish
  | control rt r v i => exact TransfersOnly.bind (.write bus h _ _ _) hfinish
  | _ => exact TransfersOnly.bind (.fail _) hfinish

end Peripheral.Ftdi
