import Peripheral.Device
import Peripheral.Proofs.Op

/-
  Peripheral.Proofs.Device.Refusals — transfers that never get as far as the device.

  The four backends check a transfer in one order: its shape, its buffer, whether the session
  is open, and over HTTP its path and its verb (`refusal?`). The first check that fails is
  reported, before anything is done to the session or to the world (`refused_transfers_do_nothing`).
-/

namespace Peripheral

namespace Op

variable {σ τ α β : Type} {s : σ} {j : Journal}

theorem perform_onPart_unchanged (whole : σ → τ) {op : Op σ α} {r : Except Failure α} {t : τ}
    (h : op.perform s j = (r, s, j)) (ht : whole s = t) : (onPart s whole op).perform t j = (r, t, j) := by
  rw [perform_onPart whole h, ht]

end Op

namespace Device

/-- The kinds of transfers that a backend carries. -/
def carriedKinds : Transport → List String
  | .libusb => ["bulk", "control", "interrupt"]
  | .ftdi => ["bulk", "control"]
  | .ethernet => ["stream"]
  | .http => ["http"]

inductive Way
  | reading
  | writing
deriving DecidableEq, Repr

/-- What is wrong with the verb of a request. -/
def verbFault? (verb : Verb) : Way → Option String
  | .reading => if verb = .get then none else some s!"HTTP reads use GET, not {verb.name}"
  | .writing => if verb = .get then some "HTTP writes cannot use GET" else none

/-- What is wrong with a request. -/
def requestFault? (way : Way) : Transfer → Option String
  | .http verb path => if path = "" then some "resource path must not be empty" else verbFault? verb way
  | _ => none

/-- The first check that a transfer of a device fails. -/
def refusal? (d : Device) (way : Way) (t : Transfer) (len : Nat) : Option LinkError :=
  if t.kind ∉ carriedKinds d.transport then some (.unsupported d.transport t.kind)
  else if len = 0 then some (.invalidArgument "buffer must not be empty")
  else if d.isOpen = false then some .notOpen
  else (requestFault? way t).map .invalidArgument

theorem carries_iff (transport : Transport) (t : Transfer) :
    transport.carries t = true ↔ t.kind ∈ carriedKinds transport := by
  unfold Transport.carries
  cases transport <;> cases t <;> simp [Transfer.kind, carriedKinds]

variable {d : Device} {way : Way} {t : Transfer} {len : Nat} {e : LinkError} {w : Surroundings} {j : Journal}

/-- Only HTTP has requests. -/
theorem requestFault?_of_carries (hd : d.transport ≠ .http) (ht : d.transport.carries t = true) :
    requestFault? way t = none := by
  cases t with
  | http verb path =>
    cases hk : d.transport with
    | http => exact absurd hk hd
    | _ =>
      rw [hk] at ht
      cases ht
  | _ => rfl

/-- The checks of the backends other than HTTP; the last one tells an open session. -/
theorem checks_of_refusal {α : Type} (hd : d.transport ≠ .http) {last : Except LinkError α}
    (hlast : d.isOpen = false → last = .error .notOpen) (h : refusal? d way t len = some e) :
    (do d.transport.check t; checkBuffer len; last) = .error e := by
  unfold refusal? at h
  split at h
  case isTrue hkind =>
    have hcheck : d.transport.check t = .error (.unsupported d.transport t.kind) :=
      if_neg fun ht => hkind ((carries_iff _ _).mp ht)
    rw [hcheck, ← Option.some.inj h]
    rfl
  case isFalse hkind =>
    have ht : d.transport.carries t = true := (carries_iff _ _).mpr (Decidable.not_not.mp hkind)
    have hcheck : d.transport.check t = .ok () := if_pos ht
    rw [hcheck]
    split at h
    case isTrue hlen =>
      rw [hlen, ← Option.some.inj h]
      rfl
    case isFalse hlen =>
      have hbuffer : checkBuffer len = .ok () := if_neg hlen
      rw [hbuffer]
      split at h
      case isTrue hopen =>
        rw [hlast hopen, ← Option.some.inj h]
        rfl
      case isFalse hopen =>
        rw [requestFault?_of_carries hd ht] at h
        cases h

theorem usb_readyFor {s : Usb.Session} (h : refusal? (libusb s) way t len = some e) : s.readyFor t len = .error e := by
  refine @checks_of_refusal (libusb s) _ _ _ _ _ nofun _ ?_ h
  intro hopen
  rw [Option.not_isSome_iff_eq_none.mp (Bool.eq_false_iff.mp hopen)]

theorem ftdi_readyFor {s : Ftdi.Session} (h : refusal? (ftdi s) way t len = some e) : s.readyFor t len = .error e := by
  refine @checks_of_refusal (ftdi s) _ _ _ _ _ nofun _ ?_ h
  intro hopen
  rw [Option.not_isSome_iff_eq_none.mp (Bool.eq_false_iff.mp hopen)]

theorem ethernet_readyFor {s : Net.EthernetSession} (h : refusal? (ethernet s) way t len = some e) :
    s.readyFor t len = .error e := by
  refine @checks_of_refusal (ethernet s) _ _ _ _ _ nofun _ ?_ h
  intro hopen
  exact if_neg (Bool.eq_false_iff.mp hopen)

/-- The checks of HTTP are those before a request and one of its verb. -/
theorem http_readyFor {s : Http.Session} (h : refusal? (http s) way t len = some e) :
    s.readyFor t len = .error e ∨ ∃ verb path ms, s.readyFor t len = .ok (verb, path, ms) ∧
      (verbFault? verb way).map .invalidArgument = some e := by
  cases t with
  | http verb path =>
    have hkind : ¬ (Transfer.http verb path).kind ∉ carriedKinds (http s).transport := by
      simp [Transfer.kind, carriedKinds, transport]
    rw [refusal?, if_neg hkind] at h
    unfold Http.Session.readyFor checkBuffer
    split at h
    case isTrue hlen =>
      rw [if_pos hlen, ← Option.some.inj h]
      exact .inl rfl
    case isFalse hlen =>
      rw [if_neg hlen]
      cases hms : s.requestMs with
      | none =>
        have hopen : (http s).isOpen = false := congrArg Option.isSome hms
        rw [if_pos hopen] at h
        rw [← Option.some.inj h]
        exact .inl rfl
      | some ms =>
        have hopen : (http s).isOpen = true := congrArg Option.isSome hms
        rw [if_neg (Bool.not_eq_false _ ▸ hopen)] at h
        by_cases hpath : path = ""
        · subst hpath
          rw [← Option.some.inj h]
          exact .inl rfl
        · rw [requestFault?, if_neg hpath] at h
          have hpath' : path.isEmpty = false := Bool.eq_false_iff.mpr (mt String.isEmpty_iff.mp hpath)
          refine .inr ⟨verb, path, ms, ?_, h⟩
          dsimp only [bind, Except.bind, pure, Except.pure]
          rw [hpath']
          rfl
  | _ =>
    cases h
    exact .inl rfl

/-! ## Transfers -/

theorem http_read_refused {s : Http.Session} {client : Http.Client} (h : refusal? (http s) .reading t len = some e) :
    (Http.Session.read client t len).perform s j = (.error (.error e), s, j) := by
  rcases http_readyFor h with hready | ⟨verb, path, ms, hready, hfault⟩
  · exact Op.perform_refused (fun s : Http.Session => s.readyFor t len) hready
  · refine (Op.perform_checked (fun s : Http.Session => s.readyFor t len) hready).trans ?_
    have hverb : verb ≠ .get := by
      rintro rfl
      cases hfault
    rw [verbFault?, if_neg hverb] at hfault
    dsimp only
    rw [if_pos hverb, ← Option.some.inj hfault]
    rfl

theorem http_write_refused {s : Http.Session} {client : Http.Client} {bytes : List UInt8}
    (h : refusal? (http s) .writing t bytes.length = some e) :
    (Http.Session.write client t bytes).perform s j = (.error (.error e), s, j) := by
  rcases http_readyFor h with hready | ⟨verb, path, ms, hready, hfault⟩
  · exact Op.perform_refused (fun s : Http.Session => s.readyFor t bytes.length) hready
  · refine (Op.perform_checked (fun s : Http.Session => s.readyFor t bytes.length) hready).trans ?_
    by_cases hverb : verb = .get
    · rw [verbFault?, if_pos hverb] at hfault
      dsimp only
      rw [if_pos hverb, ← Option.some.inj hfault]
      rfl
    · rw [verbFault?, if_neg hverb] at hfault
      cases hfault

theorem read_refused (h : refusal? d .reading t len = some e) :
    (Device.read w t len).perform d j = (.error (.error e), d, j) := by
  cases d with
  | libusb s =>
    have hs : (Usb.Session.read w.bus t len).perform s j = (.error (.error e), s, j) :=
      Op.perform_refused (fun s : Usb.Session => s.readyFor t len) (usb_readyFor h)
    exact Op.perform_onPart_unchanged libusb hs rfl
  | ftdi s =>
    have hs : (Ftdi.Session.read w.bus t len).perform s j = (.error (.error e), s, j) :=
      Op.perform_refused (fun s : Ftdi.Session => s.readyFor t len) (ftdi_readyFor h)
    exact Op.perform_onPart_unchanged ftdi hs rfl
  | ethernet s =>
    have hs : (Net.EthernetSession.read w.net t len).perform s j = (.error (.error e), s, j) :=
      Op.perform_refused (fun s : Net.EthernetSession => s.readyFor t len) (ethernet_readyFor h)
    exact Op.perform_onPart_unchanged ethernet hs rfl
  | http s => exact Op.perform_onPart_unchanged http (http_read_refused h) rfl

theorem write_refused {bytes : List UInt8} (h : refusal? d .writing t bytes.length = some e) :
    (Device.write w t bytes).perform d j = (.error (.error e), d, j) := by
  cases d with
  | libusb s =>
    have hs : (Usb.Session.write w.bus t bytes).perform s j = (.error (.error e), s, j) :=
      Op.perform_refused (fun s : Usb.Session => s.readyFor t bytes.length) (usb_readyFor h)
    exact Op.perform_onPart_unchanged libusb hs rfl
  | ftdi s =>
    have hs : (Ftdi.Session.write w.bus t bytes).perform s j = (.error (.error e), s, j) :=
      Op.perform_refused (fun s : Ftdi.Session => s.readyFor t bytes.length) (ftdi_readyFor h)
    exact Op.perform_onPart_unchanged ftdi hs rfl
  | ethernet s =>
    have hs : (Net.EthernetSession.write w.net t bytes).perform s j = (.error (.error e), s, j) :=
      Op.perform_refused (fun s : Net.EthernetSession => s.readyFor t bytes.length) (ethernet_readyFor h)
    exact Op.perform_onPart_unchanged ethernet hs rfl
  | http s => exact Op.perform_onPart_unchanged http (http_write_refused h) rfl

/-- The first check that a transfer fails is what it reports, and all that it does: whatever the surroundings are like,
    the device and the journal stay as they were. -/
theorem refused_transfers_do_nothing (d : Device) (t : Transfer) (j : Journal) :
    (∀ w len e, refusal? d .reading t len = some e →
      (Device.read w t len).perform d j = (.error (.error e), d, j)) ∧
    ∀ w bytes e, refusal? d .writing t bytes.length = some e →
      (Device.write w t bytes).perform d j = (.error (.error e), d, j) :=
  ⟨fun _ _ _ => read_refused, fun _ _ _ => write_refused⟩

/-- Nothing to talk to. -/
def nowhere : Surroundings where
  bus := { devices := [] }
  net := .ofPeers []
  resolver := .ofLists [] []
  client := .ofPeers []

/-- A host that was not opened. -/
def closedHost : Device := .http { identity := ⟨"device.test", .v4 #v[127, 0, 0, 1], .zero, 80, .tcp⟩ }

/-- Of several faults the first one counts: an empty buffer before the closed session, and that before the path and the
    verb. -/
theorem closedHost_refuses :
    refusal? closedHost .reading (.http .post "") 0 = some (.invalidArgument "buffer must not be empty") ∧
    (Device.read nowhere (.http .post "") 0).perform closedHost {} =
      (.error (.error (.invalidArgument "buffer must not be empty")), closedHost, {}) ∧
    refusal? closedHost .writing (.http .get "") [97].length = some .notOpen ∧
    (Device.write nowhere (.http .get "") [97]).perform closedHost {} = (.error (.error .notOpen), closedHost, {}) := by
  have hread := (refused_transfers_do_nothing closedHost (.http .post "") {}).1 nowhere 0 _ rfl
  have hwrite := (refused_transfers_do_nothing closedHost (.http .get "") {}).2 nowhere [97] _ rfl
  exact ⟨rfl, hread, rfl, hwrite⟩

end Device

end Peripheral
