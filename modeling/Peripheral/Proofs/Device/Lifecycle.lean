import Peripheral.Proofs.Device.Configured
import Peripheral.Proofs.Device.Refusals
import Peripheral.Proofs.Ftdi.Claims
import Peripheral.Proofs.Http.Session
import Peripheral.Proofs.Net.Socket
import Peripheral.Proofs.Usb.Claims

/-
  Peripheral.Proofs.Device.Lifecycle — one law of opening and closing for the four backends.

  A history is any order of opening, closing, configuring, reading and writing, each in
  surroundings of its own (`Reach`), and `Past` is what was done in it and how it ended. What a
  device shows after an action follows from the action, how it ended and what the device showed
  before (`Follows`), whatever the backend. So a device is open if one of the opens since the
  last close ended well (`Reach.isOpen_eq`).

  Behind that, what a session has taken is given back by a close (`Sound`). An open over a
  socket that cannot set its timeout leaves the native socket to the next open or close
  (`failed_open_keeps_untimable_socket`). In that state alone a close does something although
  the session is closed (`one_law_of_opening_and_closing`, `close_drops_idle_socket`).

  Giving a device up is a last close.
-/

namespace Peripheral.Device

/-! ## Histories -/

/-- What a caller does with a device. -/
inductive Action
  | openDevice
  | close
  | use (u : Use)
deriving DecidableEq, Repr

def Action.run (w : Surroundings) : Action → Op Device Gain
  | openDevice => do
    Device.openDevice w
    return .nothing
  | close => do
    Device.close w
    return .nothing
  | use u => u.run w

/-- A device as it is made: not open, with the default configuration. -/
inductive New : Device → Prop
  | libusb (id : UsbIdentity) : New (.libusb { identity := id })
  | ftdi (id : UsbIdentity) : New (.ftdi { identity := id })
  | ethernet (id : HostIdentity) : New (.ethernet { identity := id })
  | http (id : HostIdentity) : New (.http { identity := id })

/-- What was done with a device and how it ended, the last thing first. -/
abbrev Past := List (Action × Except Failure Gain)

/-- The devices that one becomes, their journals and what was done, as long as no address leaves its range. -/
inductive Reach (d₀ : Device) (j₀ : Journal) : Past → Device → Journal → Prop
  | new : Reach d₀ j₀ [] d₀ j₀
  | act {past : Past} {d e : Device} {j k : Journal} {r : Except Failure Gain} (w : Surroundings) (a : Action) :
      Reach d₀ j₀ past d j → (a.run w).perform d j = (r, e, k) → (∀ o, r ≠ .error (.overflow o)) →
      Reach d₀ j₀ ((a, r) :: past) e k

/-- One of the opens since the last close ended well. -/
def openedSinceClose (past : Past) : Bool :=
  (past.takeWhile fun x => x.1 != .close).any fun x => x.1 == .openDevice && x.2.isOk

/-- The last open or close. -/
def lastTurn (past : Past) : Option (Action × Except Failure Gain) :=
  past.find? fun x => x.1 == .openDevice || x.1 == .close

/-! ## What an action does -/

/-- Whether a device is open after an action. -/
def openAfter (isOpen : Bool) : Action → Except Failure Gain → Bool
  | .openDevice, .ok _ => true
  | .close, _ => false
  | _, _ => isOpen

/-- The configuration after an action: another one for the same backend is taken. -/
def configurationAfter (c : Configuration) : Action → Configuration
  | .use (.configure c') => if c'.transport = c.transport then c' else c
  | _ => c

/-- What a device shows after an action. -/
structure Follows (a : Action) (r : Except Failure Gain) (d e : Device) : Prop where
  transport : e.transport = d.transport
  identity : e.identity = d.identity
  configuration : e.configuration = configurationAfter d.configuration a
  isOpen : e.isOpen = openAfter d.isOpen a r
  /-- A closed device has a native handle if it has had it before, or if an open has just failed over the timeout. -/
  idle : e.isOpen = false → e.hasNativeHandle = true →
    (∃ u, a = .use u ∧ d.isOpen = false ∧ d.hasNativeHandle = true) ∨
      a = .openDevice ∧ ∃ x, r = .error (.error x) ∧ Net.EthernetSession.TimeoutFailure x

/-- What the session of a device keeps: what it has called for, or the state of its socket. -/
def Sound (j₀ : Journal) : Device → Journal → Prop
  | libusb s, j => Usb.Rounds j₀ s j
  | ftdi s, j => Ftdi.Rounds j₀ s j
  | ethernet s, _ => s.socket.Consistent
  | http _, _ => True

variable {d₀ d e : Device} {j₀ j k : Journal} {past : Past} {r : Except Failure Gain}

theorem sound_new (h : New d₀) (j₀ : Journal) : Sound j₀ d₀ j₀ := by
  cases h with
  | libusb id => exact Usb.rounds (@Usb.Reach.new id j₀)
  | ftdi id => exact ⟨[], [], by simp, nofun, .closed rfl⟩
  | ethernet id => exact Net.Socket.consistent_new
  | http id => trivial

/-- How an action of a device ends. -/
def Does (w : Surroundings) (j₀ : Journal) (a : Action) (d : Device) (j : Journal) : Prop :=
  ∃ r e k, (a.run w).perform d j = (r, e, k) ∧
    ((∀ o, r ≠ .error (.overflow o)) → Sound j₀ e k ∧ Follows a r d e)

/-- A configuration for another backend is refused, and another one for the same backend replaces the one there is. -/
theorem configure_does (w : Surroundings) (c : Configuration) (h : Sound j₀ d j) :
    Does w j₀ (.use (.configure c)) d j := by
  cases d with
  | libusb s =>
    cases c with
    | libusb c =>
      have hrounds : Usb.Rounds j₀ { s with configuration := c } j := @Usb.rounds_step w.bus _ _ _ _ _ _ (.configure c) h rfl
      exact ⟨_, _, j, rfl, fun _ => ⟨hrounds, rfl, rfl, rfl, rfl, fun ho hn => .inl ⟨_, rfl, ho, hn⟩⟩⟩
    | _ => exact ⟨_, _, j, rfl, fun _ => ⟨h, rfl, rfl, rfl, rfl, fun ho hn => .inl ⟨_, rfl, ho, hn⟩⟩⟩
  | ftdi s =>
    cases c with
    | ftdi c =>
      have hrounds : Ftdi.Rounds j₀ { s with configuration := c } j :=
        @Ftdi.rounds_step w.bus _ _ _ _ _ _ (.configure c) h rfl nofun
      exact ⟨_, _, j, rfl, fun _ => ⟨hrounds, rfl, rfl, rfl, rfl, fun ho hn => .inl ⟨_, rfl, ho, hn⟩⟩⟩
    | _ => exact ⟨_, _, j, rfl, fun _ => ⟨h, rfl, rfl, rfl, rfl, fun ho hn => .inl ⟨_, rfl, ho, hn⟩⟩⟩
  | ethernet s =>
    cases c <;> exact ⟨_, _, j, rfl, fun _ => ⟨h, rfl, rfl, rfl, rfl, fun ho hn => .inl ⟨_, rfl, ho, hn⟩⟩⟩
  | http s =>
    cases c <;> exact ⟨_, _, j, rfl, fun _ => ⟨h, rfl, rfl, rfl, rfl, fun ho hn => .inl ⟨_, rfl, ho, hn⟩⟩⟩

/-- The native handle of a USB session is there while the session is open. -/
theorem follows_of_handle {a : Action} (hnative : e.hasNativeHandle = e.isOpen) (htransport : e.transport = d.transport)
    (hidentity : e.identity = d.identity) (hconfiguration : e.configuration = configurationAfter d.configuration a)
    (hopen : e.isOpen = openAfter d.isOpen a r) : Follows a r d e := by
  refine ⟨htransport, hidentity, hconfiguration, hopen, ?_⟩
  intro hclosed hhandle
  rw [hnative, hclosed] at hhandle
  cases hhandle

theorem open_libusb_does (w : Surroundings) {s : Usb.Session} (h : Usb.Rounds j₀ s j) :
    Does w j₀ .openDevice (libusb s) j := by
  obtain ⟨rounds, current, hcalls, hrounds, hcurrent⟩ := id h
  cases hcurrent with
  | opened handle a ts hs hc hts =>
    refine ⟨_, _, j, Op.perform_map _ (Op.perform_part libusb rfl (Usb.openSession_of_open w.bus j hs)), fun _ => ⟨h, ?_⟩⟩
    exact follows_of_handle rfl rfl rfl rfl (congrArg Option.isSome hs)
  | closed hs hc =>
    obtain ⟨r, t, k, new, hrun, -, hopened⟩ := Usb.openSession_opened w.bus j hs hc
    refine ⟨_, _, k, Op.perform_map _ (Op.perform_part libusb rfl hrun), fun _ => ⟨Usb.rounds_step .openSession h hrun, ?_⟩⟩
    cases hopened with
    | failed e new => exact follows_of_handle rfl rfl rfl rfl rfl
    | opened handle claimed a => exact follows_of_handle rfl rfl rfl rfl rfl

theorem open_ftdi_does (w : Surroundings) {s : Ftdi.Session} (h : Ftdi.Rounds j₀ s j) :
    Does w j₀ .openDevice (ftdi s) j := by
  obtain ⟨rounds, current, hcalls, hrounds, hcurrent⟩ := id h
  cases hcurrent with
  | opened handle a i ts hs hc hts =>
    refine ⟨_, _, j, Op.perform_map _ (Op.perform_part ftdi rfl (Ftdi.openSession_of_open w.bus j hs)), fun _ => ⟨h, ?_⟩⟩
    exact follows_of_handle rfl rfl rfl rfl (congrArg Option.isSome hs)
  | closed hs =>
    obtain ⟨r, t, k, new, hrun, -, hopened⟩ := Ftdi.openSession_opened w.bus j hs
    refine ⟨_, _, k, Op.perform_map _ (Op.perform_part ftdi rfl hrun), fun hr => ?_⟩
    cases hopened with
    | overflow o => exact absurd rfl (hr o)
    | failed e new =>
      exact ⟨Ftdi.rounds_step .openSession h hrun nofun, follows_of_handle rfl rfl rfl rfl rfl⟩
    | opened handle size a ts =>
      exact ⟨Ftdi.rounds_step .openSession h hrun nofun, follows_of_handle rfl rfl rfl rfl rfl⟩

theorem open_ethernet_does (w : Surroundings) {s : Net.EthernetSession} (h : s.socket.Consistent) :
    Does w j₀ .openDevice (ethernet s) j := by
  cases hs : s.isOpen with
  | true =>
    refine ⟨_, _, j, Op.perform_map _ (Op.perform_part ethernet rfl
      (Net.EthernetSession.openSession_of_open w.net w.resolver j hs)), fun _ => ⟨h, rfl, rfl, rfl, hs, ?_⟩⟩
    intro hclosed
    exact absurd (hs.symm.trans hclosed) (by decide)
  | false =>
    obtain ⟨r, t, k, hrun, hopened⟩ := Net.EthernetSession.run_openSession w.net w.resolver j hs h
    refine ⟨_, _, k, Op.perform_map _ (Op.perform_part ethernet rfl hrun), fun _ => ?_⟩
    cases hopened with
    | failed x socket hnative hconsistent =>
      have hclosed : socket.isConnected = false := hconsistent.isConnected_of_native_none hnative
      refine ⟨hconsistent, rfl, rfl, rfl, hclosed.trans hs.symm, ?_⟩
      intro _ hhandle
      have hsome : socket.native.isSome = true := hhandle
      rw [hnative] at hsome
      cases hsome
    | untimed x socket hx hnative hstate =>
      have hclosed : socket.isConnected = false := by simp [Net.Socket.isConnected, hstate]
      have hconsistent : socket.Consistent := by simp [Net.Socket.Consistent, hnative, hstate]
      exact ⟨hconsistent, rfl, rfl, rfl, hclosed.trans hs.symm, fun _ _ => .inr ⟨rfl, x, rfl, hx⟩⟩
    | opened socket hnative hstate =>
      have hopen : socket.isConnected = true := by simp [Net.Socket.isConnected, hstate]
      have hconsistent : socket.Consistent := by simp [Net.Socket.Consistent, hnative, hstate]
      refine ⟨hconsistent, rfl, rfl, rfl, hopen, ?_⟩
      intro hclosed
      exact absurd (hopen.symm.trans hclosed) (by decide)

theorem open_http_does (w : Surroundings) (s : Http.Session) : Does w j₀ .openDevice (http s) j := by
  cases hs : s.isOpen with
  | true =>
    exact ⟨_, _, j, Op.perform_map _ (Op.perform_part http rfl (Http.Session.openSession_of_open w.httpFailure j hs)),
      fun _ => ⟨trivial, rfl, rfl, rfl, hs, nofun⟩⟩
  | false =>
    cases hf : w.httpFailure with
    | none =>
      have hrun : (Http.Session.openSession w.httpFailure).perform s j = _ :=
        hf ▸ Http.Session.run_openSession j hs
      exact ⟨_, _, _, Op.perform_map _ (Op.perform_part http rfl hrun), fun _ => ⟨trivial, rfl, rfl, rfl, rfl, nofun⟩⟩
    | some f =>
      have hrun : (Http.Session.openSession w.httpFailure).perform s j = _ :=
        hf ▸ Http.Session.openSession_of_failure f j hs
      exact ⟨_, _, _, Op.perform_map _ (Op.perform_part http rfl hrun), fun _ => ⟨trivial, rfl, rfl, rfl, rfl, nofun⟩⟩

theorem open_does (w : Surroundings) (h : Sound j₀ d j) : Does w j₀ .openDevice d j := by
  cases d with
  | libusb s => exact open_libusb_does w h
  | ftdi s => exact open_ftdi_does w h
  | ethernet s => exact open_ethernet_does w h
  | http s => exact open_http_does w s

/-- However it is closed, a device is not open afterwards, and no native handle is left. -/
theorem close_does (w : Surroundings) (h : Sound j₀ d j) : ∃ e k, (Device.close w).perform d j = (.ok (), e, k) ∧
    Sound j₀ e k ∧ Follows .close (.ok .nothing) d e ∧ e.hasNativeHandle = false := by
  cases d with
  | libusb s =>
    obtain ⟨k, hrun⟩ := Usb.close_of_rounds w.bus h
    have hrounds : Usb.Rounds j₀ { s with handle := none, claimed := none } k := Usb.rounds_step .close h hrun
    exact ⟨libusb _, k, Op.perform_part libusb rfl hrun, hrounds, follows_of_handle rfl rfl rfl rfl rfl, rfl⟩
  | ftdi s =>
    obtain ⟨k, hrun⟩ := Ftdi.close_leaves w.bus s j
    have hrounds : Ftdi.Rounds j₀ { s with handle := none } k := Ftdi.rounds_step .close h hrun nofun
    exact ⟨ftdi _, k, Op.perform_part ftdi rfl hrun, hrounds, follows_of_handle rfl rfl rfl rfl rfl, rfl⟩
  | ethernet s =>
    obtain ⟨k, hrun, -⟩ := Net.EthernetSession.run_close s j
    have hconsistent : s.socket.disconnected.Consistent := Net.Socket.Consistent.disconnected h
    have hnative : s.socket.disconnected.native.isSome = false := by rw [Net.Socket.native_disconnected]; rfl
    have hclosed : s.socket.disconnected.isConnected = false :=
      hconsistent.isConnected_of_native_none (Net.Socket.native_disconnected _)
    refine ⟨ethernet { s with socket := s.socket.disconnected }, k, Op.perform_part ethernet rfl hrun, hconsistent,
      ⟨rfl, rfl, rfl, hclosed, ?_⟩, hnative⟩
    intro _ hhandle
    exact absurd (hnative.symm.trans hhandle) (by decide)
  | http s =>
    obtain ⟨k, hrun, -⟩ := Http.Session.run_close s j
    exact ⟨http _, k, Op.perform_part http rfl hrun, trivial, ⟨rfl, rfl, rfl, rfl, nofun⟩, rfl⟩

/-- Transfers leave what a device shows as it is, however they end. -/
theorem follows_transfer {u : Use} (hu : u.isTransfer = true) (htransport : e.transport = d.transport)
    (hidentity : e.identity = d.identity) (hconfiguration : e.configuration = d.configuration)
    (hopen : e.isOpen = d.isOpen) (hnative : e.hasNativeHandle = d.hasNativeHandle) : Follows (.use u) r d e := by
  refine ⟨htransport, hidentity, ?_, hopen, fun ho hn => .inl ⟨u, rfl, hopen ▸ ho, hnative ▸ hn⟩⟩
  cases u with
  | configure c => cases hu
  | _ => exact hconfiguration

theorem not_overflow_of_map {α β γ : Type} {r : Except Failure α} {f : α → β} (g : α → γ)
    (hr : ∀ o, r.map f ≠ .error (.overflow o)) : ∀ o, r.map g ≠ .error (.overflow o) := by
  intro o ho
  cases r with
  | ok a => cases ho
  | error x =>
    cases ho
    exact hr o rfl

theorem read_does (w : Surroundings) (x : Transfer) (len : Nat) (h : Sound j₀ d j) : Does w j₀ (.use (.read x len)) d j := by
  cases d with
  | libusb s =>
    obtain ⟨r, k, ts, hrun, -⟩ := Usb.run_read w.bus s j x len
    have hrounds := Usb.rounds_step (.read x len) h (Op.perform_unread () hrun)
    refine ⟨_, _, k, Op.perform_map Gain.bytes (Op.perform_part libusb rfl (Op.perform_of_run hrun)), fun _ => ⟨hrounds, ?_⟩⟩
    exact follows_transfer rfl rfl rfl rfl rfl rfl
  | ftdi s =>
    obtain ⟨r, k, ts, hrun, -⟩ := Ftdi.run_read w.bus s j x len
    refine ⟨_, _, k, Op.perform_map Gain.bytes (Op.perform_part ftdi rfl (Op.perform_of_run hrun)), fun hr => ⟨?_, ?_⟩⟩
    · exact Ftdi.rounds_step (.read x len) h (Op.perform_unread () hrun) (not_overflow_of_map _ hr)
    · exact follows_transfer rfl rfl rfl rfl rfl rfl
  | ethernet s =>
    obtain ⟨r, socket, k, hrun, hsocket⟩ := Net.EthernetSession.run_read w.net x len s j
    have hconsistent : socket.Consistent := Net.Socket.Consistent.transferred h hsocket
    refine ⟨_, _, k, Op.perform_map Gain.bytes (Op.perform_part ethernet rfl hrun), fun _ => ⟨hconsistent, ?_⟩⟩
    exact follows_transfer rfl rfl rfl rfl hsocket.isConnected_eq hsocket.isSome_native
  | http s =>
    obtain ⟨r, k, hrun⟩ := Http.Session.run_read w.client x len s j
    refine ⟨_, _, k, Op.perform_map Gain.bytes (Op.perform_part http rfl hrun), fun _ => ⟨trivial, ?_⟩⟩
    exact follows_transfer rfl rfl rfl rfl rfl rfl

theorem write_does (w : Surroundings) (x : Transfer) (bytes : List UInt8) (h : Sound j₀ d j) :
    Does w j₀ (.use (.write x bytes)) d j := by
  cases d with
  | libusb s =>
    obtain ⟨r, k, ts, hrun, -⟩ := Usb.run_write w.bus s j x bytes
    have hrounds := Usb.rounds_step (.write x bytes) h (Op.perform_unread () hrun)
    refine ⟨_, _, k, Op.perform_map Gain.count (Op.perform_part libusb rfl (Op.perform_of_run hrun)),
      fun _ => ⟨hrounds, ?_⟩⟩
    exact follows_transfer rfl rfl rfl rfl rfl rfl
  | ftdi s =>
    obtain ⟨r, k, ts, hrun, -⟩ := Ftdi.run_write w.bus s j x bytes
    refine ⟨_, _, k, Op.perform_map Gain.count (Op.perform_part ftdi rfl (Op.perform_of_run hrun)),
      fun hr => ⟨?_, ?_⟩⟩
    · exact Ftdi.rounds_step (.write x bytes) h (Op.perform_unread () hrun) (not_overflow_of_map _ hr)
    · exact follows_transfer rfl rfl rfl rfl rfl rfl
  | ethernet s =>
    obtain ⟨r, socket, k, hrun, hsocket⟩ := Net.EthernetSession.run_write w.net x bytes s j
    have hconsistent : socket.Consistent := Net.Socket.Consistent.transferred h hsocket
    refine ⟨_, _, k, Op.perform_map Gain.count (Op.perform_part ethernet rfl hrun), fun _ => ⟨hconsistent, ?_⟩⟩
    exact follows_transfer rfl rfl rfl rfl hsocket.isConnected_eq hsocket.isSome_native
  | http s =>
    obtain ⟨r, k, hrun⟩ := Http.Session.run_write w.client x bytes s j
    refine ⟨_, _, k, Op.perform_map Gain.count (Op.perform_part http rfl hrun), fun _ => ⟨trivial, ?_⟩⟩
    exact follows_transfer rfl rfl rfl rfl rfl rfl

theorem does (w : Surroundings) (a : Action) (h : Sound j₀ d j) : Does w j₀ a d j := by
  cases a with
  | openDevice => exact open_does w h
  | close =>
    obtain ⟨e, k, hrun, hsound, hfollows, -⟩ := close_does w h
    exact ⟨_, e, k, Op.perform_map _ hrun, fun _ => ⟨hsound, hfollows⟩⟩
  | use u =>
    cases u with
    | configure c => exact configure_does w c h
    | read x len => exact read_does w x len h
    | write x bytes => exact write_does w x bytes h

/-! ## Whole histories -/

theorem step {w : Surroundings} {a : Action} (h : Sound j₀ d j) (hrun : (a.run w).perform d j = (r, e, k))
    (hr : ∀ o, r ≠ .error (.overflow o)) : Sound j₀ e k ∧ Follows a r d e := by
  obtain ⟨r', e', k', hrun', hdoes⟩ := does w a h
  cases hrun'.symm.trans hrun
  exact hdoes hr

theorem Reach.sound (h : Reach d₀ j₀ past d j) (hnew : New d₀) : Sound j₀ d j := by
  induction h with
  | new => exact sound_new hnew j₀
  | act w a _ hrun hr ih => exact (step ih hrun hr).1

theorem openedSinceClose_cons (a : Action) (r : Except Failure Gain) (past : Past) :
    openedSinceClose ((a, r) :: past) = openAfter (openedSinceClose past) a r := by
  cases a with
  | openDevice => cases r <;> simp [openedSinceClose, openAfter, Except.isOk, Except.toBool]
  | close => simp [openedSinceClose, openAfter]
  | use u => simp [openedSinceClose, openAfter]

theorem isOpen_of_new (h : New d₀) : d₀.isOpen = false ∧ d₀.hasNativeHandle = false := by
  cases h <;> exact ⟨rfl, rfl⟩

/-- A device is open if one of the opens since the last close ended well. -/
theorem Reach.isOpen_eq (h : Reach d₀ j₀ past d j) (hnew : New d₀) : d.isOpen = openedSinceClose past := by
  induction h with
  | new => exact (isOpen_of_new hnew).1
  | act w a hreach hrun hr ih =>
    rw [(step (hreach.sound hnew) hrun hr).2.isOpen, ih, openedSinceClose_cons]

theorem Reach.identity_eq (h : Reach d₀ j₀ past d j) (hnew : New d₀) :
    d.identity = d₀.identity ∧ d.transport = d₀.transport := by
  induction h with
  | new => exact ⟨rfl, rfl⟩
  | act w a hreach hrun hr ih =>
    have hfollows := (step (hreach.sound hnew) hrun hr).2
    exact ⟨hfollows.identity.trans ih.1, hfollows.transport.trans ih.2⟩

/-- A closed device has a native handle only if the last open failed over the timeout. -/
theorem Reach.idle (h : Reach d₀ j₀ past d j) (hnew : New d₀) (hclosed : d.isOpen = false)
    (hhandle : d.hasNativeHandle = true) :
    ∃ x, lastTurn past = some (.openDevice, .error (.error x)) ∧ Net.EthernetSession.TimeoutFailure x := by
  induction h with
  | new =>
    rw [(isOpen_of_new hnew).2] at hhandle
    cases hhandle
  | act w a hreach hrun hr ih =>
    rcases (step (hreach.sound hnew) hrun hr).2.idle hclosed hhandle with ⟨u, rfl, hd, hn⟩ | ⟨rfl, x, rfl, hx⟩
    · exact ih hd hn
    · exact ⟨x, rfl, hx⟩

/-! ## Nothing to do -/

theorem openDevice_of_open (w : Surroundings) (j : Journal) (hd : d.isOpen = true) :
    (Device.openDevice w).perform d j = (.ok (), d, j) := by
  cases d with
  | libusb s =>
    obtain ⟨h, hs⟩ := Option.isSome_iff_exists.mp hd
    exact Op.perform_part libusb rfl (Usb.openSession_of_open w.bus j hs)
  | ftdi s =>
    obtain ⟨h, hs⟩ := Option.isSome_iff_exists.mp hd
    exact Op.perform_part ftdi rfl (Ftdi.openSession_of_open w.bus j hs)
  | ethernet s => exact Op.perform_part ethernet rfl (Net.EthernetSession.openSession_of_open w.net w.resolver j hd)
  | http s => exact Op.perform_part http rfl (Http.Session.openSession_of_open w.httpFailure j hd)

/-- A close of a closed device drops a native socket that is left, and does nothing else. -/
theorem close_of_closed (w : Surroundings) (j : Journal) (hd : d.isOpen = false) :
    ∃ e, (Device.close w).perform d j = (.ok (), e, j) ∧ (d.hasNativeHandle = false → e = d) := by
  cases d with
  | libusb s =>
    have hs : s.handle = none := Option.not_isSome_iff_eq_none.mp (Bool.eq_false_iff.mp hd)
    exact ⟨_, Op.perform_part libusb rfl (Usb.close_of_closed w.bus j hs), fun _ => rfl⟩
  | ftdi s =>
    have hs : s.handle = none := Option.not_isSome_iff_eq_none.mp (Bool.eq_false_iff.mp hd)
    exact ⟨_, Op.perform_part ftdi rfl (Ftdi.close_of_closed w.bus j hs), fun _ => rfl⟩
  | ethernet s =>
    obtain ⟨k, hrun, hk⟩ := Net.EthernetSession.run_close s j
    rw [hk hd] at hrun
    refine ⟨_, Op.perform_part ethernet rfl hrun, ?_⟩
    intro hnative
    rw [Net.Socket.disconnected_of_native_none (Option.not_isSome_iff_eq_none.mp (Bool.eq_false_iff.mp hnative))]
  | http s =>
    obtain ⟨k, hrun, hk⟩ := Http.Session.run_close s j
    have hs : s.requestMs = none := Option.not_isSome_iff_eq_none.mp (Bool.eq_false_iff.mp hd)
    rw [hk hd, ← hs] at hrun
    exact ⟨_, Op.perform_part http rfl hrun, fun _ => rfl⟩

/-- A configuration of another backend is refused. -/
theorem configure_refused (w : Surroundings) (j : Journal) {c : Configuration} (hc : c.transport ≠ d.transport) :
    ((Use.configure c).run w).perform d j = (.error (.error (.invalidArgument
      s!"{c.transport.name} configuration cannot be applied to a {d.transport.name} device")), d, j) := by
  cases d <;> cases c <;> first | rfl | exact absurd rfl hc

/-- A closed USB session has closed what it has opened. -/
theorem Sound.whole (h : Sound j₀ d j) (hd : d.isOpen = false) (husb : d.transport = .libusb ∨ d.transport = .ftdi) :
    ∃ rounds : List (List Usb.Call), j.calls = j₀.calls ++ rounds.flatten ∧ ∀ r ∈ rounds, Usb.Whole r := by
  cases d with
  | libusb s => exact Usb.Rounds.whole h (Option.not_isSome_iff_eq_none.mp (Bool.eq_false_iff.mp hd))
  | ftdi s => exact Ftdi.Rounds.whole h (Option.not_isSome_iff_eq_none.mp (Bool.eq_false_iff.mp hd))
  | _ => rcases husb with h | h <;> cases h

/-- For every backend, in every history and whatever the world answers: a device is open if one of the opens since the
    last close ended well; what it shows changes with opens that end well, closes, and configurations for its own
    backend; an open of an open device does nothing, nor does a close of a closed one, unless the last open has left a
    native socket because it failed over the timeout; and a last close leaves nothing open. -/
theorem one_law_of_opening_and_closing (hnew : New d₀) (hreach : Reach d₀ j₀ past d j) :
    d.isOpen = openedSinceClose past ∧
    (d.identity = d₀.identity ∧ d.transport = d₀.transport) ∧
    (∀ w a r e k, (a.run w).perform d j = (r, e, k) → (∀ o, r ≠ .error (.overflow o)) →
      e.isOpen = openAfter d.isOpen a r ∧ e.identity = d.identity ∧
      e.configuration = configurationAfter d.configuration a) ∧
    (∀ w c, c.transport ≠ d.transport → ((Use.configure c).run w).perform d j = (.error (.error (.invalidArgument
      s!"{c.transport.name} configuration cannot be applied to a {d.transport.name} device")), d, j)) ∧
    (d.isOpen = true → ∀ w, (Device.openDevice w).perform d j = (.ok (), d, j)) ∧
    (d.isOpen = false → ∀ w, ∃ e, (Device.close w).perform d j = (.ok (), e, j) ∧
      (d.hasNativeHandle = false → e = d)) ∧
    (d.isOpen = false → d.hasNativeHandle = true →
      ∃ x, lastTurn past = some (.openDevice, .error (.error x)) ∧ Net.EthernetSession.TimeoutFailure x) ∧
    ∀ w, ∃ e k, (Device.close w).perform d j = (.ok (), e, k) ∧ e.isOpen = false ∧ e.hasNativeHandle = false ∧
      (d.transport = .libusb ∨ d.transport = .ftdi →
        ∃ rounds : List (List Usb.Call), k.calls = j₀.calls ++ rounds.flatten ∧ ∀ r ∈ rounds, Usb.Whole r) := by
  have hsound := hreach.sound hnew
  refine ⟨hreach.isOpen_eq hnew, hreach.identity_eq hnew, ?_, fun w c => configure_refused w j,
    fun hd w => openDevice_of_open w j hd, fun hd w => close_of_closed w j hd, hreach.idle hnew, ?_⟩
  · intro w a r e k hrun hr
    have hfollows := (step hsound hrun hr).2
    exact ⟨hfollows.isOpen, hfollows.identity, hfollows.configuration⟩
  · intro w
    obtain ⟨e, k, hrun, hsound', hfollows, hnative⟩ := close_does w hsound
    exact ⟨e, k, hrun, hfollows.isOpen, hnative, fun husb => hsound'.whole hfollows.isOpen (hfollows.transport ▸ husb)⟩

/-- The chip is opened, and giving it up closes what the open has opened. -/
theorem chip_is_given_back : New chip ∧ ∃ past d j, Reach chip {} past d j ∧ openedSinceClose past = true ∧
    d.isOpen = true ∧ ∃ e k, (Device.close chipOnly).perform d j = (.ok (), e, k) ∧ e.isOpen = false ∧
      ∃ rounds : List (List Usb.Call), k.calls = rounds.flatten ∧ ∀ r ∈ rounds, Usb.Whole r := by
  have hnew : New chip := .ftdi _
  have hreach := (@Reach.new chip {}).act chipOnly .openDevice rfl nofun
  obtain ⟨hopen, -, -, -, -, -, -, hdrop⟩ := one_law_of_opening_and_closing hnew hreach
  obtain ⟨e, k, hrun, hclosed, -, hwhole⟩ := hdrop chipOnly
  exact ⟨hnew, _, _, _, hreach, rfl, hopen, e, k, hrun, hclosed, hwhole (.inr rfl)⟩

/-- A host on the machine itself, not yet opened. -/
def ownHost : Device := .ethernet { identity := ⟨"", .v6 #v[0, 0, 0, 0, 0, 0, 0, 1], .zero, 80, .tcp⟩ }

/-- A timeout of zero lets the open fail with the native socket there, and the close of the closed device drops it. -/
theorem close_drops_idle_socket : ∃ past d j, New ownHost ∧ Reach ownHost {} past d j ∧ d.isOpen = false ∧
    d.hasNativeHandle = true ∧
    ∃ e, (Device.close nowhere).perform d j = (.ok (), e, j) ∧ e.hasNativeHandle = false := by
  have hreach := ((@Reach.new ownHost {}).act nowhere (.use (.configure (.ethernet { timeoutMs := 0 })))
    rfl nofun).act nowhere .openDevice rfl nofun
  exact ⟨_, _, _, .ethernet _, hreach, rfl, rfl, _, rfl, rfl⟩

/-! ## An open that fails -/

theorem Reach.ethernet {id : HostIdentity} (h : Reach (.ethernet { identity := id }) j₀ past d j) :
    ∃ s, d = .ethernet s ∧ s.socket.Consistent := by
  have hsound := h.sound (.ethernet id)
  have htransport := (h.identity_eq (.ethernet id)).2
  cases d with
  | ethernet s => exact ⟨s, rfl, hsound⟩
  | _ => cases htransport

/-- In every history of a session over a socket: an open that fails leaves the session closed, and it gives back the
    native socket it has made unless this socket could not get a timeout. Then it stays, and the error says so. -/
theorem failed_open_keeps_untimable_socket {id : HostIdentity} {f : Failure}
    (hreach : Reach (.ethernet { identity := id }) j₀ past d j) (w : Surroundings)
    (hopen : (Device.openDevice w).perform d j = (.error f, e, k)) :
    e.isOpen = false ∧ ∃ s, d = .ethernet s ∧
      (¬ s.Untimable w.net → e.hasNativeHandle = false) ∧
      (s.Untimable w.net → e.hasNativeHandle = true ∧ ∃ x, f = .error x ∧ Net.EthernetSession.TimeoutFailure x) := by
  obtain ⟨s, rfl, hconsistent⟩ := hreach.ethernet
  cases hs : s.isOpen with
  | true => cases (@openDevice_of_open (ethernet s) w j hs).symm.trans hopen
  | false =>
    obtain ⟨r, t, k', hrun, hopened⟩ := Net.EthernetSession.run_openSession w.net w.resolver j hs hconsistent
    cases (Op.perform_part ethernet rfl hrun : (Device.openDevice w).perform (ethernet s) j = _).symm.trans hopen
    cases hopened with
    | failed x socket hnative hsocket htimed =>
      have hhandle : socket.native.isSome = false := by rw [hnative]; rfl
      exact ⟨hsocket.isConnected_of_native_none hnative, s, rfl, fun _ => hhandle, fun h => absurd h htimed⟩
    | untimed x socket hx hnative hstate huntimable =>
      have hclosed : socket.isConnected = false := by simp [Net.Socket.isConnected, hstate]
      exact ⟨hclosed, s, rfl, fun h => absurd huntimable h, fun _ => ⟨hnative, x, rfl, hx⟩⟩

/-- Nobody answers on a machine without an interface, and the open gives its native socket back. -/
theorem failed_open_gives_back_native_socket : ∃ d j f e k, Reach ownHost {} [] d j ∧
    (Device.openDevice nowhere).perform d j = (.error f, e, k) ∧ e.isOpen = false ∧ e.hasNativeHandle = false := by
  have hreach := @Reach.new ownHost {}
  obtain ⟨hclosed, s, hs, hgiven, -⟩ := failed_open_keeps_untimable_socket hreach nowhere rfl
  cases hs
  refine ⟨_, _, _, _, _, hreach, rfl, hclosed, hgiven ?_⟩
  rintro ⟨-, ⟨ms, code, hms, -⟩ | hzero | ⟨code, hrefused⟩⟩
  · cases hms
  · cases hzero
  · cases hrefused

/-- With a timeout of zero the open fails with the native socket made, and keeps it. -/
theorem failed_open_keeps_native_socket : ∃ past d j f e k, Reach ownHost {} past d j ∧
    (Device.openDevice nowhere).perform d j = (.error f, e, k) ∧ e.hasNativeHandle = true := by
  have hreach := (@Reach.new ownHost {}).act nowhere (.use (.configure (.ethernet { timeoutMs := 0 }))) rfl nofun
  exact ⟨_, _, _, _, _, _, hreach, rfl, rfl⟩

end Peripheral.Device
