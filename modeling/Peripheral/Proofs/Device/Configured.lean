import Peripheral.Device
import Peripheral.Proofs.SideBySide
import Peripheral.Proofs.Usb.Enumerate

/-
  Peripheral.Proofs.Device.Configured — what an open session keeps of its configuration.

  A configuration is meant for the next opening. Sessions over a socket and over HTTP take
  what they need of it when they are opened. The two kinds of USB sessions read parts of it
  again with each transfer: the timeout, and with an FTDI chip the number of the interface. So
  configurations that leave these parts alone are not noticed before the next opening
  (`kept_configurations_go_unnoticed`), and others are (`write_of_reconfigured`).
-/

namespace Peripheral

/-- The configuration `c'` has the same for an open session as `c`. A session of another kind refuses it. -/
def Configuration.KeepsTransfers : Configuration → Configuration → Prop
  | libusb c', libusb c => c'.timeoutMs = c.timeoutMs
  | ftdi c', ftdi c => c'.interface = c.interface ∧ c'.timeoutMs = c.timeoutMs
  | _, _ => True

/-- The session `s` is `t`, which has the configuration `c`, with another one that is as good as `c`. -/
structure Reconfigured {σ κ : Type} (configuration : σ → κ) (configured : σ → κ → σ) (asGood : κ → κ → Prop)
    (c : κ) (s t : σ) : Prop where
  plain : configuration t = c
  other : ∃ c', asGood c' c ∧ s = configured t c'

/-! ## libusb -/

namespace Usb.Session

/-- Configured anew with the same timeout. -/
abbrev Reconfigured : UsbConfiguration → Session → Session → Prop :=
  Peripheral.Reconfigured configuration (fun s c => { s with configuration := c }) fun c' c => c'.timeoutMs = c.timeoutMs

variable {bus : Bus} {c : UsbConfiguration} {x : Transfer}

theorem alike_finish {σ τ α : Type} {R : σ → τ → Prop} (message : String) (id : UsbIdentity) (r : Except Error α) :
    Op.Alike R (finish message id x r) (finish message id x r) := by
  cases r with
  | ok a => exact .pure a
  | error e => exact (Op.Alike.log _).bind fun _ => .fail _

theorem alike_read (len : Nat) : Op.Alike (Reconfigured c) (read bus x len) (read bus x len) := by
  refine .session_bind ?_
  rintro _ t ⟨rfl, c', hms, rfl⟩
  refine (Op.Alike.require (t.readyFor x len)).bind fun h => ?_
  simp only [hms]
  cases pipeOf? inward x with
  | none => exact .fail _
  | some pipe => exact (Op.Alike.act _).bind fun r => alike_finish _ _ r

theorem alike_write (bytes : List UInt8) : Op.Alike (Reconfigured c) (write bus x bytes) (write bus x bytes) := by
  refine .session_bind ?_
  rintro _ t ⟨rfl, c', hms, rfl⟩
  refine (Op.Alike.require (t.readyFor x bytes.length)).bind fun h => ?_
  simp only [hms]
  cases pipeOf? outward x with
  | none => exact .fail _
  | some pipe => exact (Op.Alike.act _).bind fun r => alike_finish _ _ r

end Usb.Session

/-! ## FTDI -/

namespace Ftdi.Session

open Usb (Bus)
open Usb.Session (alike_finish)

/-- Configured anew for the same interface and with the same timeout. -/
abbrev Reconfigured : FtdiConfiguration → Session → Session → Prop :=
  Peripheral.Reconfigured configuration (fun s c => { s with configuration := c })
    fun c' c => c'.interface = c.interface ∧ c'.timeoutMs = c.timeoutMs

variable {bus : Bus} {c c' : FtdiConfiguration} {x : Transfer}

/-- The addresses are those of the interface. -/
theorem addresses_eq (h : c'.interface = c.interface) :
    c'.inEndpoint = c.inEndpoint ∧ c'.outEndpoint = c.outEndpoint ∧ c'.requestIndex = c.requestIndex := by
  unfold FtdiConfiguration.inEndpoint FtdiConfiguration.outEndpoint FtdiConfiguration.requestIndex
    FtdiConfiguration.endpointFrom
  rw [h]
  exact ⟨rfl, rfl, rfl⟩

theorem alike_read (len : Nat) : Op.Alike (Reconfigured c) (read bus x len) (read bus x len) := by
  refine .session_bind ?_
  rintro _ t ⟨rfl, c', ⟨hinterface, hms⟩, rfl⟩
  obtain ⟨hin, -, hindex⟩ := addresses_eq hinterface
  refine (Op.Alike.require (t.readyFor x len)).bind fun h => ?_
  simp only [readBulk, hms, hin, hindex]
  cases x with
  | bulk e =>
    refine Op.Alike.bind ?_ fun r => alike_finish _ _ r
    refine (Op.Alike.within _).bind fun address => ?_
    exact (Op.Alike.act _).bind fun raw => .pure _
  | control rt request v i =>
    dsimp only
    split
    · exact (Op.Alike.act _).bind fun r => alike_finish _ _ r
    · exact (Op.Alike.act _).bind fun r => alike_finish _ _ r
  | _ => exact (Op.Alike.fail _).bind fun r => alike_finish _ _ r

theorem alike_write (bytes : List UInt8) : Op.Alike (Reconfigured c) (write bus x bytes) (write bus x bytes) := by
  refine .session_bind ?_
  rintro _ t ⟨rfl, c', ⟨hinterface, hms⟩, rfl⟩
  obtain ⟨-, hout, -⟩ := addresses_eq hinterface
  refine (Op.Alike.require (t.readyFor x bytes.length)).bind fun h => ?_
  simp only [hms, hout]
  cases x with
  | bulk e => exact (Op.Alike.within _).bind fun address => (Op.Alike.act _).bind fun r => alike_finish _ _ r
  | control rt request v i => exact (Op.Alike.act _).bind fun r => alike_finish _ _ r
  | _ => exact (Op.Alike.fail _).bind fun r => alike_finish _ _ r

end Ftdi.Session

/-! ## Sockets and HTTP -/

namespace Net.EthernetSession

/-- Configured anew in any way. -/
abbrev Reconfigured : EthernetConfiguration → EthernetSession → EthernetSession → Prop :=
  Peripheral.Reconfigured configuration (fun s c => { s with configuration := c }) fun _ _ => True

variable {net : Network} {c : EthernetConfiguration} {x : Transfer}

theorem alike_onSocket {α : Type} (op : Op Socket α) : Op.Alike (Reconfigured c) (onSocket op) (onSocket op) := by
  refine .session_bind ?_
  rintro _ t ⟨rfl, c', -, rfl⟩
  refine Op.Alike.onPart (.refl op) rfl ?_
  rintro socket _ rfl
  exact ⟨rfl, c', trivial, rfl⟩

theorem alike_read (len : Nat) : Op.Alike (Reconfigured c) (read net x len) (read net x len) := by
  refine .session_bind ?_
  rintro _ t ⟨rfl, c', -, rfl⟩
  exact (Op.Alike.require (t.readyFor x len)).bind fun _ => alike_onSocket _

theorem alike_write (bytes : List UInt8) : Op.Alike (Reconfigured c) (write net x bytes) (write net x bytes) := by
  refine .session_bind ?_
  rintro _ t ⟨rfl, c', -, rfl⟩
  exact (Op.Alike.require (t.readyFor x bytes.length)).bind fun _ => alike_onSocket _

end Net.EthernetSession

namespace Http.Session

/-- Configured anew in any way. -/
abbrev Reconfigured : HttpConfiguration → Session → Session → Prop :=
  Peripheral.Reconfigured configuration (fun s c => { s with configuration := c }) fun _ _ => True

variable {client : Client} {c : HttpConfiguration} {x : Transfer}

theorem alike_send (ms : UInt32) (verb : Verb) (path : String) (body : List UInt8) :
    Op.Alike (Reconfigured c) (send client ms verb path body) (send client ms verb path body) := by
  refine .session_bind ?_
  rintro _ t ⟨rfl, c', -, rfl⟩
  refine (Op.Alike.act _).bind fun result => ?_
  cases result with
  | brokenDown => exact .fail _
  | failed fault =>
    refine (Op.Alike.log _).bind fun _ => ?_
    split
    · exact .fail _
    · exact .fail _
  | response status content =>
    refine (Op.Alike.log _).bind fun _ => ?_
    split
    · exact .pure _
    · exact .fail _

theorem alike_read (len : Nat) : Op.Alike (Reconfigured c) (read client x len) (read client x len) := by
  refine .session_bind ?_
  rintro _ t ⟨rfl, c', -, rfl⟩
  refine (Op.Alike.require (t.readyFor x len)).bind ?_
  rintro ⟨verb, path, ms⟩
  dsimp only
  have hsend : Op.Alike (Reconfigured t.configuration)
      (do return (← send client ms .get path []).take len) (do return (← send client ms .get path []).take len) :=
    (alike_send ms .get path []).bind fun _ => .pure _
  split
  · exact (Op.Alike.fail _).bind fun _ => hsend
  · exact hsend

theorem alike_write (bytes : List UInt8) : Op.Alike (Reconfigured c) (write client x bytes) (write client x bytes) := by
  refine .session_bind ?_
  rintro _ t ⟨rfl, c', -, rfl⟩
  refine (Op.Alike.require (t.readyFor x bytes.length)).bind ?_
  rintro ⟨verb, path, ms⟩
  dsimp only
  have hsend : Op.Alike (Reconfigured t.configuration)
      (do let _ ← send client ms verb path bytes; return bytes.length)
      (do let _ ← send client ms verb path bytes; return bytes.length) :=
    (alike_send ms verb path bytes).bind fun _ => .pure _
  split
  · exact (Op.Alike.fail _).bind fun _ => hsend
  · exact hsend

end Http.Session

/-! ## Devices -/

namespace Device

/-- What is done with a device between two openings. -/
inductive Use
  | configure (c : Configuration)
  | read (t : Transfer) (len : Nat)
  | write (t : Transfer) (bytes : List UInt8)
deriving DecidableEq, Repr

/-- What comes of it. -/
inductive Gain
  | nothing
  | bytes (received : List UInt8)
  | count (sent : Nat)
deriving DecidableEq, Repr

def Use.isTransfer : Use → Bool
  | configure _ => false
  | _ => true

def Use.run (w : Surroundings) : Use → Op Device Gain
  | configure c => do
    Device.configure c
    return .nothing
  | read t len => return .bytes (← Device.read w t len)
  | write t bytes => return .count (← Device.write w t bytes)

/-- How each of several uses ends, and the device and the journal after the last. -/
def outcomes (w : Surroundings) : List Use → Device → Journal → List (Use × Except Failure Gain) × Device × Journal
  | [], d, j => ([], d, j)
  | u :: us, d, j =>
    let (r, d, j) := (u.run w).perform d j
    let (rs, d, j) := outcomes w us d j
    ((u, r) :: rs, d, j)

/-- The second device has the configuration, the first one another that is as good for an open session. -/
inductive Reconfigured : Configuration → Device → Device → Prop
  | libusb {c : UsbConfiguration} {s t : Usb.Session} :
      Usb.Session.Reconfigured c s t → Reconfigured (.libusb c) (.libusb s) (.libusb t)
  | ftdi {c : FtdiConfiguration} {s t : Ftdi.Session} :
      Ftdi.Session.Reconfigured c s t → Reconfigured (.ftdi c) (.ftdi s) (.ftdi t)
  | ethernet {c : EthernetConfiguration} {s t : Net.EthernetSession} :
      Net.EthernetSession.Reconfigured c s t → Reconfigured (.ethernet c) (.ethernet s) (.ethernet t)
  | http {c : HttpConfiguration} {s t : Http.Session} :
      Http.Session.Reconfigured c s t → Reconfigured (.http c) (.http s) (.http t)

variable {w : Surroundings} {c c' : Configuration} {d s t : Device} {j : Journal}

theorem Reconfigured.refl (d : Device) : Reconfigured d.configuration d d := by
  cases d with
  | libusb s => exact .libusb ⟨rfl, s.configuration, rfl, rfl⟩
  | ftdi s => exact .ftdi ⟨rfl, s.configuration, ⟨rfl, rfl⟩, rfl⟩
  | ethernet s => exact .ethernet ⟨rfl, s.configuration, trivial, rfl⟩
  | http s => exact .http ⟨rfl, s.configuration, trivial, rfl⟩

theorem alike_read (x : Transfer) (len : Nat) :
    Op.Alike (Reconfigured c) (Device.read w x len) (Device.read w x len) := by
  refine .session_bind ?_
  rintro _ _ (h | h | h | h)
  · exact (Usb.Session.alike_read len).onPart h fun _ _ => .libusb
  · exact (Ftdi.Session.alike_read len).onPart h fun _ _ => .ftdi
  · exact (Net.EthernetSession.alike_read len).onPart h fun _ _ => .ethernet
  · exact (Http.Session.alike_read len).onPart h fun _ _ => .http

theorem alike_write (x : Transfer) (bytes : List UInt8) :
    Op.Alike (Reconfigured c) (Device.write w x bytes) (Device.write w x bytes) := by
  refine .session_bind ?_
  rintro _ _ (h | h | h | h)
  · exact (Usb.Session.alike_write bytes).onPart h fun _ _ => .libusb
  · exact (Ftdi.Session.alike_write bytes).onPart h fun _ _ => .ftdi
  · exact (Net.EthernetSession.alike_write bytes).onPart h fun _ _ => .ethernet
  · exact (Http.Session.alike_write bytes).onPart h fun _ _ => .http

theorem Use.alike_run {u : Use} (hu : u.isTransfer = true) :
    Op.Alike (Reconfigured c) (u.run w) (u.run w) := by
  cases u with
  | configure c => cases hu
  | read x len => exact (alike_read x len).bind fun _ => .pure _
  | write x bytes => exact (alike_write x bytes).bind fun _ => .pure _

/-- A configuration is taken or refused without a word to the world outside, and one that leaves transfers alone
    leaves related devices related. -/
theorem run_configure (hst : Reconfigured c s t) (hkeeps : c'.KeepsTransfers c) (j : Journal) :
    ∃ r s', ((Use.configure c').run w).perform s j = (r, s', j) ∧ Reconfigured c s' t := by
  cases hst with
  | @libusb c s t h =>
    cases c' with
    | libusb c' =>
      obtain ⟨hplain, _, -, rfl⟩ := h
      exact ⟨_, _, rfl, .libusb ⟨hplain, c', hkeeps, rfl⟩⟩
    | _ => exact ⟨_, _, rfl, .libusb h⟩
  | @ftdi c s t h =>
    cases c' with
    | ftdi c' =>
      obtain ⟨hplain, _, -, rfl⟩ := h
      exact ⟨_, _, rfl, .ftdi ⟨hplain, c', hkeeps, rfl⟩⟩
    | _ => exact ⟨_, _, rfl, .ftdi h⟩
  | @ethernet c s t h =>
    cases c' with
    | ethernet c' =>
      obtain ⟨hplain, _, -, rfl⟩ := h
      exact ⟨_, _, rfl, .ethernet ⟨hplain, c', hkeeps, rfl⟩⟩
    | _ => exact ⟨_, _, rfl, .ethernet h⟩
  | @http c s t h =>
    cases c' with
    | http c' =>
      obtain ⟨hplain, _, -, rfl⟩ := h
      exact ⟨_, _, rfl, .http ⟨hplain, c', hkeeps, rfl⟩⟩
    | _ => exact ⟨_, _, rfl, .http h⟩

/-- The transfers among some uses of a device end as they would without the configurations between them. -/
theorem outcomes_filter (us : List Use) (hst : Reconfigured c s t)
    (hkeeps : ∀ c', .configure c' ∈ us → c'.KeepsTransfers c) (j : Journal) :
    ∃ rs s' t' k, outcomes w us s j = (rs, s', k) ∧
      outcomes w (us.filter Use.isTransfer) t j = (rs.filter (·.1.isTransfer), t', k) ∧ Reconfigured c s' t' := by
  induction us generalizing s t j with
  | nil => exact ⟨[], s, t, j, rfl, rfl, hst⟩
  | cons u us ih =>
    have hrest : ∀ c', .configure c' ∈ us → c'.KeepsTransfers c := fun c' hc' => hkeeps c' (List.mem_cons_of_mem _ hc')
    cases hu : u.isTransfer with
    | false =>
      obtain ⟨c', rfl⟩ : ∃ c', u = .configure c' := by
        cases u with
        | configure c' => exact ⟨c', rfl⟩
        | _ => cases hu
      obtain ⟨r, s₁, hrun, hst₁⟩ := run_configure (w := w) hst (hkeeps c' List.mem_cons_self) j
      obtain ⟨rs, s', t', k, hs, ht, hst'⟩ := ih hst₁ hrest j
      refine ⟨(.configure c', r) :: rs, s', t', k, ?_, ?_, hst'⟩
      · rw [outcomes, hrun]
        dsimp only
        rw [hs]
      · rw [List.filter_cons_of_neg (by simp [Use.isTransfer]), List.filter_cons_of_neg (by simp [Use.isTransfer]), ht]
    | true =>
      obtain ⟨r, s₁, t₁, k₁, hs₁, ht₁, hst₁⟩ := Use.alike_run (w := w) hu s t j hst
      obtain ⟨rs, s', t', k, hs, ht, hst'⟩ := ih hst₁ hrest k₁
      refine ⟨(u, r) :: rs, s', t', k, ?_, ?_, hst'⟩
      · rw [outcomes, Op.perform_eq, hs₁]
        dsimp only
        rw [hs]
      · rw [List.filter_cons_of_pos hu, List.filter_cons_of_pos (by exact hu), outcomes, Op.perform_eq, ht₁]
        dsimp only
        rw [ht]

variable (w) in
/-- Until the next opening, configurations that leave alone what transfers read again are not noticed. With a socket
    and over HTTP these are all configurations. -/
theorem kept_configurations_go_unnoticed (us : List Use) (d : Device) (j : Journal)
    (hkeeps : ∀ c, .configure c ∈ us → c.KeepsTransfers d.configuration) :
    ∃ rs d' plain k, outcomes w us d j = (rs, d', k) ∧
      outcomes w (us.filter Use.isTransfer) d j = (rs.filter (·.1.isTransfer), plain, k) ∧
      Reconfigured d.configuration d' plain :=
  outcomes_filter us (.refl d) hkeeps j

/-- One FTDI chip, and no network. -/
def chipOnly : Surroundings where
  bus := Usb.oneChip
  net := .ofPeers []
  resolver := .ofLists [] []
  client := .ofPeers []

/-- The chip, not yet opened. -/
def chip : Device := .ftdi { identity := ⟨"", "", "", "1", Usb.ftdiVendor, 0x6010⟩ }

/-- Another bit mode is for the next opening. -/
theorem bit_mode_goes_unnoticed : ∃ d j, (openDevice chipOnly).perform chip {} = (.ok (), d, j) ∧
    (∀ c, .configure c ∈ [.configure (.ftdi { bitMode := 2 }), Use.write (.bulk 2) [97]] →
      c.KeepsTransfers d.configuration) ∧
    ∃ rs d' plain k,
      outcomes chipOnly [.configure (.ftdi { bitMode := 2 }), .write (.bulk 2) [97]] d j = (rs, d', k) ∧
      outcomes chipOnly [.write (.bulk 2) [97]] d j = (rs.filter (·.1.isTransfer), plain, k) ∧
      Reconfigured d.configuration d' plain := by
  have hkeeps : ∀ c, .configure c ∈ [.configure (.ftdi { bitMode := 2 }), Use.write (.bulk 2) [97]] →
      c.KeepsTransfers (.ftdi {}) := by
    intro c hc
    obtain rfl : c = .ftdi { bitMode := 2 } := by simpa using hc
    exact ⟨rfl, rfl⟩
  exact ⟨_, _, rfl, hkeeps, kept_configurations_go_unnoticed chipOnly _ _ _ hkeeps⟩

/-- Another interface and another timeout are noticed at once: what is written goes to the endpoint of an interface
    that was never claimed. -/
theorem write_of_reconfigured : ∃ d j, (openDevice chipOnly).perform chip {} = (.ok (), d, j) ∧
    (outcomes chipOnly [.configure (.ftdi { interface := 1, timeoutMs := 500 }), .write (.bulk 2) [97]] d j).2.2.calls =
      j.calls ++ [.transfer 0 (.bulk 4) 1 500 (some [97])] ∧
    (outcomes chipOnly [.write (.bulk 2) [97]] d j).2.2.calls =
      j.calls ++ [.transfer 0 (.bulk 2) 1 2000 (some [97])] :=
  ⟨_, _, rfl, by rfl, by rfl⟩

end Device

end Peripheral
