import Peripheral.Proofs.Ftdi.Session
import Peripheral.Proofs.Usb.Enumerate

/-
  Peripheral.Proofs.Ftdi.Claims — what becomes of the interface that a session has claimed.

  A history is any order of opening, closing, configuring, reading and writing in which no
  address computation leaves its range (`Reach`). Its native calls are rounds (`Round`), one
  for each device that was opened or could not be; while the session is open, one more round
  has begun (`rounds_step`, `rounds`).

  In a round the session asks for one release, and dropping the handle releases what is still
  claimed then. So a claimed interface is always released before the device is closed: once,
  or a second time if it was asked for and that failed (`Round.releasesOf_eq`).

  An open that fails asks for the number it has claimed. A close asks for the number in the
  configuration of that moment, which need not be the claimed one (`close_of_reconfigured`).
-/

namespace Peripheral.Ftdi

open Usb (Bus Call Handle Transfers oneChip)

/-! ## Histories -/

/-- What a caller does with a session. -/
inductive Action
  | openSession
  | close
  | configure (c : FtdiConfiguration)
  | read (t : Transfer) (len : Nat)
  | write (t : Transfer) (bytes : List UInt8)

def Action.run (bus : Bus) : Action → Op Session Unit
  | openSession => Session.openSession bus
  | close => Session.close bus
  | configure c => Op.update fun s => { s with configuration := c }
  | read t len => do
    let _ ← Session.read bus t len
  | write t bytes => do
    let _ ← Session.write bus t bytes

/-- The sessions that a new one becomes, and their journals, as long as no address leaves its range. -/
inductive Reach (bus : Bus) (id : UsbIdentity) (j₀ : Journal) : Session → Journal → Prop
  | new : Reach bus id j₀ { identity := id } j₀
  | act {s t : Session} {j k : Journal} {r : Except Failure Unit} (a : Action) : Reach bus id j₀ s j →
      (a.run bus).perform s j = (r, t, k) → (∀ o, r ≠ .error (.overflow o)) → Reach bus id j₀ t k

/-! ## Rounds -/

/-- The native calls of one opening, up to the end of what it has opened. -/
inductive Round : List Call → Prop
  | notOpened (d : Nat) (e : Usb.Error) : Round [.openDevice d (some e)]
  | notClaimed (d : Nat) (a : Option Usb.Error) (i : UInt8) (e : Usb.Error) (f : Option Usb.Error) :
      Round [.openDevice d none, .autoDetach d a, .claim d i (some e), .release d i f, .closeDevice d]
  /-- The chip could not be set up. -/
  | notSetUp (d : Nat) (a : Option Usb.Error) (i : UInt8) (ts : List Call) (f g : Option Usb.Error) :
      Transfers d ts → Round (claiming d a i ++ ts ++ releasing d i i f g)
  | closed (d : Nat) (a : Option Usb.Error) (i asked : UInt8) (ts : List Call) (f g : Option Usb.Error) :
      Transfers d ts → Round (claiming d a i ++ ts ++ releasing d i asked f g)

/-- How often an interface of a device is given to a release. -/
def releasesOf (d : Nat) (i : UInt8) (calls : List Call) : Nat :=
  calls.countP fun
    | .release e k _ => e == d && k == i
    | _ => false

theorem releasesOf_append (d : Nat) (i : UInt8) (cs ds : List Call) :
    releasesOf d i (cs ++ ds) = releasesOf d i cs + releasesOf d i ds := List.countP_append

theorem releasesOf_transfers {d : Nat} {ts : List Call} (h : Transfers d ts) (i : UInt8) : releasesOf d i ts = 0 := by
  apply List.countP_eq_zero.mpr
  intro c hc
  have := h c hc
  cases c <;> simp_all [Call.isTransferOf]

theorem releasesOf_releasing (d : Nat) (i asked : UInt8) (f g : Option Usb.Error) :
    releasesOf d i (releasing d i asked f g) = if asked = i ∧ f ≠ none then 2 else 1 := by
  unfold releasing releasesOf
  by_cases ha : asked = i
  · by_cases hf : f = none
    · simp [ha, hf]
    · simp [ha, hf]
  · simp [ha]

theorem releasesOf_used {d : Nat} {ts : List Call} (h : Transfers d ts) (a : Option Usb.Error) (i asked : UInt8)
    (f g : Option Usb.Error) : releasesOf d i (claiming d a i ++ ts ++ releasing d i asked f g) =
      if asked = i ∧ f ≠ none then 2 else 1 := by
  rw [releasesOf_append, releasesOf_append, releasesOf_transfers h, releasesOf_releasing]
  simp [claiming, releasesOf]

/-- Before the device is closed a claimed interface is released under its number, and a second time only if the
    first release failed. -/
theorem Round.releasesOf_eq {r : List Call} (h : Round r) {d : Nat} {i : UInt8} (hi : .claim d i none ∈ r) :
    releasesOf d i r = 1 ∨ releasesOf d i r = 2 ∧ ∃ e, .release d i (some e) ∈ r := by
  -- the one claim of the round
  have hclaim : ∀ {d' : Nat} {a f g : Option Usb.Error} {i' asked : UInt8} {ts : List Call}, Transfers d' ts →
      .claim d i none ∈ claiming d' a i' ++ ts ++ releasing d' i' asked f g → d = d' ∧ i = i' := by
    intro d' a f g i' asked ts hts hmem
    simp only [List.mem_append] at hmem
    rcases hmem with (hmem | hmem) | hmem
    · simpa [claiming] using hmem
    · exact absurd (hts _ hmem) (by simp [Call.isTransferOf])
    · unfold releasing at hmem
      split at hmem <;> simp at hmem
  have hused : ∀ {a f g : Option Usb.Error} {asked : UInt8} {ts : List Call}, Transfers d ts →
      releasesOf d i (claiming d a i ++ ts ++ releasing d i asked f g) = 1 ∨
        releasesOf d i (claiming d a i ++ ts ++ releasing d i asked f g) = 2 ∧
          ∃ e, .release d i (some e) ∈ claiming d a i ++ ts ++ releasing d i asked f g := by
    intro a f g asked ts hts
    rw [releasesOf_used hts]
    by_cases hf : asked = i ∧ f ≠ none
    · obtain ⟨rfl, hf⟩ := hf
      obtain ⟨e, rfl⟩ := Option.ne_none_iff_exists'.mp hf
      exact .inr ⟨by simp, e, by simp [releasing]⟩
    · exact .inl (if_neg hf)
  cases h with
  | notOpened => simp at hi
  | notClaimed => simp at hi
  | notSetUp d' a i' ts f g hts =>
    obtain ⟨rfl, rfl⟩ := hclaim hts hi
    exact hused hts
  | closed d' a i' asked ts f g hts =>
    obtain ⟨rfl, rfl⟩ := hclaim hts hi
    exact hused hts

/-- A round closes the device that it has opened. -/
theorem Round.whole {r : List Call} (h : Round r) : Usb.Whole r := by
  have hused : ∀ (d : Nat) (a f g : Option Usb.Error) (i asked : UInt8) (ts : List Call), Transfers d ts →
      Usb.Whole (claiming d a i ++ ts ++ releasing d i asked f g) := by
    intro d a f g i asked ts hts
    obtain ⟨releases, hsplit, hreleases⟩ : ∃ releases, releasing d i asked f g = releases ++ [.closeDevice d] ∧
        ∀ c ∈ releases, c.isInside = true := by
      refine ⟨.release d asked f :: (if asked = i ∧ f = none then [] else [.release d i g]), rfl, ?_⟩
      split <;> simp [Call.isInside]
    have hinside := Usb.Whole.closed d ([.autoDetach d a, .claim d i none] ++ ts ++ releases) ?_
    · rw [hsplit]
      simpa [claiming] using hinside
    · intro c hc
      simp only [List.mem_append] at hc
      rcases hc with (hc | hc) | hc
      · rcases List.mem_pair.mp hc with rfl | rfl <;> rfl
      · obtain ⟨_, _, _, _, rfl⟩ := hts.eq_transfer hc
        rfl
      · exact hreleases c hc
  cases h with
  | notOpened d e => exact .refused d e
  | notClaimed d a i e f =>
    exact .closed d [.autoDetach d a, .claim d i (some e), .release d i f] (by simp [Call.isInside])
  | notSetUp d a i ts f g hts => exact hused d a f g i i ts hts
  | closed d a i asked ts f g hts => exact hused d a f g i asked ts hts

/-! ## Opening begins a round -/

variable {bus : Bus} {s : Session} {j : Journal}

/-- How opening a closed session ends, and the native calls it makes. -/
inductive Opened (s : Session) : Except Failure Unit → Session → List Call → Prop
  | overflow (o : Overflow) (t : Session) (new : List Call) : Opened s (.error (.overflow o)) t new
  | failed (e : LinkError) (new : List Call) : new = [] ∨ Round new → Opened s (.error (.error e)) s new
  | opened (h : Handle) (size : Nat) (a : Option Usb.Error) (ts : List Call) :
      h.claimed = [s.configuration.interface] → Transfers h.device ts →
      Opened s (.ok ()) { s with handle := some h, packetSize := size }
        (claiming h.device a s.configuration.interface ++ ts)

theorem openSession_opened (bus : Bus) (j : Journal) (hs : s.handle = none) : ∃ r t k new,
    (Session.openSession bus).perform s j = (r, t, k) ∧ k.calls = j.calls ++ new ∧ Opened s r t new := by
  unfold Session.openSession Session.isOpen
  rw [Op.perform_eq, Op.run_bind, Op.run_session]
  simp only [hs, Option.isSome_none, Bool.false_eq_true, if_false]
  obtain ⟨r, k, hrun, ⟨e, new, rfl, hk, hnew⟩ | ⟨d, rfl, hk⟩⟩ := Usb.Session.run_openHandle bus s.identity s j
  · rw [Op.run_bind, hrun]
    refine ⟨_, _, _, new, rfl, hk, .failed e new ?_⟩
    rcases hnew with hnone | ⟨d, f, rfl⟩
    · exact .inl hnone
    · exact .inr (.notOpened d f)
  rw [Op.run_bind, hrun]
  simp only
  obtain ⟨f, h, k', a, hsetUp, rfl, hcases⟩ := run_setUp bus k d s.configuration
  rw [Op.run_bind, Op.run_act, hsetUp]
  cases f with
  | some e =>
    simp only
    rw [Op.run_bind, Op.run_log]
    simp only
    obtain ⟨k'', hundo, hunclaimed, hclaimed⟩ := run_undo bus s (k'.log _) h e
    rw [hundo]
    rcases hcases with ⟨e', -, hc, hk'⟩ | ⟨ts, hc, hts, hk'⟩
    · obtain ⟨g, hg⟩ := hunclaimed hc
      refine ⟨_, _, _, _, rfl, ?_, .failed e.link _ (.inr (.notClaimed h.device a s.configuration.interface e' g))⟩
      rw [hg, Journal.calls_log, hk', hk]
      simp
    · obtain ⟨f, g, hg⟩ := hclaimed hc
      refine ⟨_, _, _, _, rfl, ?_, .failed e.link _ (.inr (.notSetUp h.device a s.configuration.interface ts f g hts))⟩
      rw [hg, Journal.calls_log, hk', hk]
      simp [claiming]
  | none =>
    rcases hcases with ⟨e', he', -⟩ | ⟨ts, hc, hts, hk'⟩
    · cases he'
    simp only
    rw [Op.run_bind, Op.run_within]
    cases s.configuration.inEndpoint with
    | error o =>
      refine ⟨_, _, _, claiming h.device a s.configuration.interface ++ ts, rfl, ?_, .overflow o _ _⟩
      show k'.calls = _
      rw [hk', hk]
      simp [claiming]
    | ok address =>
      simp only [Op.mapError_ok]
      rw [Op.run_bind, Op.run_set]
      refine ⟨_, _, _, _, rfl, ?_, .opened h _ a ts hc hts⟩
      show k'.calls = _
      rw [hk', hk]
      simp [claiming]

/-! ## Whole histories -/

/-- What a session has called for since the last round ended. -/
inductive Current (s : Session) : List Call → Prop
  | closed : s.handle = none → Current s []
  | opened (h : Handle) (a : Option Usb.Error) (i : UInt8) (ts : List Call) : s.handle = some h →
      h.claimed = [i] → Transfers h.device ts → Current s (claiming h.device a i ++ ts)

theorem Current.transfers {cs ts : List Call} (h : Current s cs)
    (hts : ts = [] ∨ ∃ d, s.handle = some d ∧ Transfers d.device ts) : Current s (cs ++ ts) := by
  rcases hts with rfl | ⟨d, hd, hts⟩
  · rwa [List.append_nil]
  · cases h with
    | closed hs => rw [hs] at hd; cases hd
    | opened h a i us hs hc hus =>
      rw [hs] at hd
      cases hd
      rw [List.append_assoc]
      exact .opened d a i _ hs hc (hus.append hts)

/-- Rounds that have ended, and the one that has begun. -/
def Rounds (j₀ : Journal) (s : Session) (j : Journal) : Prop :=
  ∃ (rounds : List (List Call)) (current : List Call), j.calls = j₀.calls ++ rounds.flatten ++ current ∧
    (∀ r ∈ rounds, Round r) ∧ Current s current

theorem rounds_of_ended {j₀ k : Journal} {t : Session} {rounds : List (List Call)} {new : List Call}
    (hcalls : k.calls = j₀.calls ++ rounds.flatten ++ new) (hrounds : ∀ r ∈ rounds, Round r) (hnew : Round new)
    (ht : t.handle = none) : Rounds j₀ t k := by
  refine ⟨rounds ++ [new], [], ?_, ?_, .closed ht⟩
  · rw [hcalls]
    simp
  · intro r hr
    rcases List.mem_append.mp hr with hr | hr
    · exact hrounds r hr
    · rwa [List.mem_singleton.mp hr]

theorem rounds_step {j₀ k : Journal} {t : Session} {r : Except Failure Unit} (a : Action) (hj : Rounds j₀ s j)
    (hrun : (a.run bus).perform s j = (r, t, k)) (hr : ∀ o, r ≠ .error (.overflow o)) : Rounds j₀ t k := by
  obtain ⟨rounds, current, hcalls, hrounds, hcurrent⟩ := hj
  cases a with
  | openSession =>
    cases hs : s.handle with
    | some h =>
      cases hrun.symm.trans (openSession_of_open bus j hs)
      exact ⟨rounds, current, hcalls, hrounds, hcurrent⟩
    | none =>
      have hnil : current = [] := by
        cases hcurrent with
        | closed => rfl
        | opened h a i ts hh => rw [hs] at hh; cases hh
      rw [hnil, List.append_nil] at hcalls
      obtain ⟨r', t', k', new, hopen, hk, hnew⟩ := openSession_opened bus j hs
      cases hopen.symm.trans hrun
      cases hnew with
      | overflow o => exact absurd rfl (hr o)
      | failed e new hround =>
        rcases hround with rfl | hround
        · exact ⟨rounds, [], by rw [hk, hcalls], hrounds, .closed hs⟩
        · exact rounds_of_ended (by rw [hk, hcalls]) hrounds hround hs
      | opened h size a ts hc hts =>
        exact ⟨rounds, _, by rw [hk, hcalls], hrounds, .opened h a _ ts rfl hc hts⟩
  | close =>
    cases hcurrent with
    | closed hs =>
      cases hrun.symm.trans (close_of_closed bus j hs)
      exact ⟨rounds, [], hcalls, hrounds, .closed hs⟩
    | opened h a i ts hs hc hts =>
      obtain ⟨k', f, g, hclose, hk⟩ := run_close bus j hs hc
      cases hrun.symm.trans hclose
      have hround := Round.closed h.device a i s.configuration.interface ts f g hts
      refine rounds_of_ended ?_ hrounds hround rfl
      rw [hk, hcalls, List.append_assoc _ _ (releasing _ _ _ _ _)]
  | configure c =>
    cases hrun
    refine ⟨rounds, current, hcalls, hrounds, ?_⟩
    cases hcurrent with
    | closed hs => exact .closed hs
    | opened h a i ts hs hc hts => exact .opened h a i ts hs hc hts
  | read x len =>
    obtain ⟨r', k', ts, hread, hk, hts⟩ := run_read bus s j x len
    cases hrun.symm.trans (Op.perform_unread _ hread)
    exact ⟨rounds, current ++ ts, by rw [hk, hcalls, List.append_assoc], hrounds, hcurrent.transfers hts⟩
  | write x bytes =>
    obtain ⟨r', k', ts, hwrite, hk, hts⟩ := run_write bus s j x bytes
    cases hrun.symm.trans (Op.perform_unread _ hwrite)
    exact ⟨rounds, current ++ ts, by rw [hk, hcalls, List.append_assoc], hrounds, hcurrent.transfers hts⟩

theorem rounds {id : UsbIdentity} {j₀ : Journal} (h : Reach bus id j₀ s j) : Rounds j₀ s j := by
  induction h with
  | new => exact ⟨[], [], by simp, nofun, .closed rfl⟩
  | act a _ hrun hr ih => exact rounds_step a ih hrun hr

/-- A closed session has closed what it has opened. -/
theorem Rounds.whole {j₀ : Journal} (h : Rounds j₀ s j) (hs : s.handle = none) : ∃ rounds : List (List Call),
    j.calls = j₀.calls ++ rounds.flatten ∧ ∀ r ∈ rounds, Usb.Whole r := by
  obtain ⟨rounds, current, hcalls, hrounds, hcurrent⟩ := h
  cases hcurrent with
  | closed => exact ⟨rounds, hcalls.trans (List.append_nil _), fun r hr => (hrounds r hr).whole⟩
  | opened h a i ts hopen =>
    rw [hs] at hopen
    cases hopen

/-- In every history a claimed interface is released before its device is closed. The close of an open session asks
    for the interface in the configuration of that moment, whichever is claimed. -/
theorem claimed_interfaces_are_released {id : UsbIdentity} {j₀ : Journal} (hreach : Reach bus id j₀ s j) :
    ∃ (rounds : List (List Call)) (current : List Call),
      j.calls = j₀.calls ++ rounds.flatten ++ current ∧
      (∀ r ∈ rounds, Round r ∧ ∀ d i, .claim d i none ∈ r →
        releasesOf d i r = 1 ∨ releasesOf d i r = 2 ∧ ∃ e, .release d i (some e) ∈ r) ∧
      Current s current ∧
      ∀ h, s.handle = some h → ∃ i f g k, h.claimed = [i] ∧
        (Session.close bus).perform s j = (.ok (), { s with handle := none }, k) ∧
        k.calls = j.calls ++ releasing h.device i s.configuration.interface f g := by
  obtain ⟨rounds, current, hcalls, hrounds, hcurrent⟩ := rounds hreach
  refine ⟨rounds, current, hcalls, ?_, hcurrent, ?_⟩
  · intro r hr
    refine ⟨hrounds r hr, ?_⟩
    intro d i hi
    exact (hrounds r hr).releasesOf_eq hi
  · intro h hs
    cases hcurrent with
    | closed hnone =>
      rw [hnone] at hs
      cases hs
    | opened h' a i ts hs' hc hts =>
      cases hs.symm.trans hs'
      obtain ⟨k, f, g, hclose, hk⟩ := run_close bus j hs' hc
      exact ⟨i, f, g, k, hc, hclose, hk⟩

/-- The chip of `Usb.oneChip`. -/
def oneChipIdentity : UsbIdentity := ⟨"", "", "", "1", Usb.ftdiVendor, 0x6010⟩

/-- The chip is opened with interface 0 and configured for interface 1. -/
theorem claimed_interfaces_are_released_of_reconfigured : ∃ s j, Reach oneChip oneChipIdentity {} s j ∧
    s.handle = some ⟨0, [0]⟩ ∧ s.configuration.interface = 1 ∧ ∃ f g k,
      (Session.close oneChip).perform s j = (.ok (), { s with handle := none }, k) ∧
      k.calls = j.calls ++ releasing 0 0 1 f g := by
  have hnew : Reach oneChip oneChipIdentity {} { identity := oneChipIdentity } {} := .new
  have hreach := (hnew.act .openSession rfl nofun).act (.configure { interface := 1 }) rfl nofun
  obtain ⟨-, -, -, -, -, hclose⟩ := claimed_interfaces_are_released hreach
  obtain ⟨i, f, g, k, hi, hperform, hk⟩ := hclose ⟨0, [0]⟩ rfl
  obtain rfl : 0 = i := by simpa using hi
  exact ⟨_, _, hreach, rfl, rfl, f, g, k, hperform, hk⟩

/-- There the close asks for interface 1, which was never claimed; what releases interface 0 is the end of the
    handle. -/
theorem close_of_reconfigured : ∃ s j, Reach oneChip oneChipIdentity {} s j ∧ s.handle = some ⟨0, [0]⟩ ∧
    ((Session.close oneChip).perform s j).2.2.calls =
      j.calls ++ [.release 0 1 none, .release 0 0 none, .closeDevice 0] := by
  refine ⟨_, _, .act (.configure { interface := 1 }) (.act .openSession .new rfl nofun) rfl nofun, ?_, ?_⟩
  · decide
  · rfl

end Peripheral.Ftdi
