import Peripheral.Net.Ethernet
import Peripheral.Proofs.Op

/-
  Peripheral.Proofs.Net.Socket — what the operations on a socket, and on a session over one, leave.

  A socket is consistent: the native socket is there when the state says so (`Consistent`).
  Each operation that can fail half way has the list of its ends, with the answers that lead to
  each (`Created`, `TimeoutSet`, `Connected`), and opening a session is one after the other
  (`Opened`): an open that cannot set the timeout (`Untimable`) ends with the native socket
  still there, every other one that fails has dropped it.
-/

namespace Peripheral.Net

namespace Socket

variable {net : Network} {resolver : Resolver} {s : Socket} {j : Journal}

/-- The native socket is there from its creation to its end. -/
def Consistent (s : Socket) : Prop := s.native.isSome = true ↔ s.state = .initialized ∨ s.state = .connected

theorem consistent_new : Consistent {} := by simp [Consistent]

@[simp] theorem native_disconnected (s : Socket) : s.disconnected.native = none := by
  unfold disconnected
  cases hs : s.native with
  | none => exact hs
  | some c => rfl

theorem disconnected_of_native_none (hs : s.native = none) : s.disconnected = s := by
  unfold disconnected
  rw [hs]
  rfl

theorem disconnected_of_native_some (hs : s.native.isSome = true) :
    s.disconnected = { s with native := none, state := .closed } := if_pos hs

theorem timeoutMs_disconnected (s : Socket) : s.disconnected.timeoutMs = s.timeoutMs := by
  unfold disconnected
  split <;> rfl

theorem Consistent.disconnected (hs : s.Consistent) : s.disconnected.Consistent := by
  cases hnative : s.native with
  | none => rwa [disconnected_of_native_none hnative]
  | some c =>
    rw [disconnected_of_native_some (by rw [hnative]; rfl)]
    simp [Consistent]

theorem Consistent.state_of_native_none (hs : s.Consistent) (hnative : s.native = none) :
    s.state ≠ .initialized ∧ s.state ≠ .connected := by
  have hstate : ¬ (s.state = .initialized ∨ s.state = .connected) := by
    intro h
    have := hs.mpr h
    rw [hnative] at this
    cases this
  exact not_or.mp hstate

theorem Consistent.isConnected_of_native_none (hs : s.Consistent) (hnative : s.native = none) :
    s.isConnected = false := beq_eq_false_iff_ne.mpr (hs.state_of_native_none hnative).2

/-! ## How the operations end -/

/-- Handing a timeout to the native socket. -/
inductive Timed (net : Network) (ms : UInt32) (s : Socket) : Except Failure Unit → Socket → Prop
  | absent : s.native = none → Timed net ms s (.ok ()) s
  | applied (c : Connection) : s.native = some c → net.setTimeout c ms = .ok () →
      Timed net ms s (.ok ()) { s with native := some { c with timeoutMs := some ms } }
  | refused (c : Connection) (code : Int) : s.native = some c → net.setTimeout c ms = .error code →
      Timed net ms s (.error (.error (.system code))) s

theorem run_applyTimeout (net : Network) (ms : UInt32) (s : Socket) (j : Journal) : ∃ r t,
    (applyTimeout net ms).run.run ⟨s, j⟩ = (r, ⟨t, j⟩) ∧ Timed net ms s r t := by
  unfold applyTimeout
  rw [Op.run_bind, Op.run_session]
  dsimp only
  cases hs : s.native with
  | none => exact ⟨_, s, rfl, .absent hs⟩
  | some c =>
    dsimp only
    cases htimeout : net.setTimeout c ms with
    | error code => exact ⟨_, s, rfl, .refused c code hs htimeout⟩
    | ok u => exact ⟨_, _, rfl, .applied c hs htimeout⟩

/-- A socket whose native socket was just created. -/
def created (s : Socket) (ip : Address) (port : UInt16) (protocol : Protocol) : Socket :=
  { s.disconnected with
    native := some {}, peer := some (ip, port), protocol, hostname := "", mac := .zero, state := .initialized }

/-- How `create` ends. A timeout that was set before is set on the new native socket. -/
inductive Created (net : Network) (s : Socket) (ip : Address) (port : UInt16) (protocol : Protocol) :
    Except Failure Unit → Socket → Prop
  | refused (code : Int) : net.create ip port protocol = .error code →
      Created net s ip port protocol (.error (.error (.resource
        s!"failed to create {protocol.label} socket for {targetText (ip, port)}: {SystemError.text code}")))
        s.disconnected
  | untimed (ms : UInt32) (code : Int) : net.create ip port protocol = .ok () → s.timeoutMs = some ms →
      net.setTimeout {} ms = .error code →
      Created net s ip port protocol (.error (.error (.system code))) (s.created ip port protocol)
  | made : net.create ip port protocol = .ok () → (∀ ms, s.timeoutMs = some ms → net.setTimeout {} ms = .ok ()) →
      Created net s ip port protocol (.ok ())
        { s.created ip port protocol with native := some { timeoutMs := s.timeoutMs } }

theorem run_create (net : Network) (ip : Address) (port : UInt16) (protocol : Protocol) (s : Socket) (j : Journal) :
    ∃ r t k, (create net ip port protocol).run.run ⟨s, j⟩ = (r, ⟨t, k⟩) ∧ Created net s ip port protocol r t := by
  have hdisconnect : disconnect.run.run ⟨s, j⟩ = (.ok (), ⟨s.disconnected, j⟩) := rfl
  unfold create
  rw [Op.run_bind, hdisconnect]
  dsimp only
  cases hcreate : net.create ip port protocol with
  | error code => exact ⟨_, _, j, rfl, .refused code hcreate⟩
  | ok u =>
    dsimp only
    have hupdate : (Op.update fun s : Socket => { s with
        native := some {}, peer := some (ip, port), protocol, hostname := "", mac := .zero,
        state := .initialized }).run.run ⟨s.disconnected, j⟩ = (.ok (), ⟨s.created ip port protocol, j⟩) := rfl
    have htimeout : (s.created ip port protocol).timeoutMs = s.timeoutMs := timeoutMs_disconnected s
    rw [Op.run_bind, hupdate]
    dsimp only
    rw [Op.run_bind, Op.run_session]
    dsimp only
    rw [htimeout]
    have hmade := @Created.made net s ip port protocol hcreate
    cases hms : s.timeoutMs with
    | none =>
      rw [hms] at hmade
      exact ⟨_, _, _, rfl, hmade nofun⟩
    | some ms =>
      dsimp only
      rw [hms] at hmade
      obtain ⟨r, t, hrun, htimed⟩ := run_applyTimeout net ms (s.created ip port protocol) j
      rw [Op.run_bind, hrun]
      cases htimed with
      | absent hnone => cases hnone
      | applied c hc hset =>
        cases hc
        refine ⟨_, _, _, rfl, hmade ?_⟩
        intro ms' hms'
        cases hms'
        exact hset
      | refused c code hc hset =>
        cases hc
        exact ⟨_, _, j, rfl, .untimed ms code hcreate hms hset⟩

/-- How `setTimeout` ends: a time of zero is refused, any other is remembered even if the native socket refuses it. -/
inductive TimeoutSet (net : Network) (ms : UInt32) (s : Socket) : Except Failure Unit → Socket → Prop
  | zero : ms = 0 →
      TimeoutSet net ms s (.error (.error (.invalidArgument "timeout must be greater than zero"))) s
  | handed {r : Except Failure Unit} {t : Socket} : ms ≠ 0 → Timed net ms { s with timeoutMs := some ms } r t →
      TimeoutSet net ms s r t

theorem run_setTimeout (net : Network) (ms : UInt32) (s : Socket) (j : Journal) : ∃ r t,
    (setTimeout net ms).run.run ⟨s, j⟩ = (r, ⟨t, j⟩) ∧ TimeoutSet net ms s r t := by
  unfold setTimeout
  by_cases hms : ms = 0
  · rw [if_pos hms]
    exact ⟨_, s, rfl, .zero hms⟩
  · rw [if_neg hms]
    obtain ⟨r, t, hrun, htimed⟩ := run_applyTimeout net ms { s with timeoutMs := some ms } j
    exact ⟨r, t, hrun, .handed hms htimed⟩

/-- How `connect` ends. -/
inductive Connected (net : Network) (resolver : Resolver) (s : Socket) : Except Failure Unit → Socket → Prop
  | already : s.isConnected = true → Connected net resolver s (.ok ()) s
  | notInitialized : s.isConnected = false → s.native = none ∨ s.peer = none →
      Connected net resolver s (.error (.error (.resource "socket is not initialized"))) s
  | unreachable (idle : Connection) (peer : Address × UInt16) (code : Int) : s.isConnected = false →
      s.native = some idle → s.peer = some peer →
      net.connect peer.1 peer.2 s.protocol s.connectLimit = .error code →
      Connected net resolver s (.error (.error (.unreachable s!"{targetText peer}: {SystemError.text code}")))
        s.disconnected
  /-- The peer is there, but its hardware address is not known. -/
  | unresolved (idle c : Connection) (peer : Address × UInt16) (e : LinkError) : s.isConnected = false →
      s.native = some idle → s.peer = some peer →
      net.connect peer.1 peer.2 s.protocol s.connectLimit = .ok c → resolver.mac peer.1 = .error e →
      Connected net resolver s (.error (.error e)) { s with
        native := some { c with timeoutMs := idle.timeoutMs }, hostname := resolver.hostname peer.1 }.disconnected
  | connected (idle c : Connection) (peer : Address × UInt16) (mac : Mac) : s.isConnected = false →
      s.native = some idle → s.peer = some peer →
      net.connect peer.1 peer.2 s.protocol s.connectLimit = .ok c → resolver.mac peer.1 = .ok mac →
      Connected net resolver s (.ok ()) { s with
        native := some { c with timeoutMs := idle.timeoutMs }, hostname := resolver.hostname peer.1, mac,
        state := .connected }

theorem run_connect (net : Network) (resolver : Resolver) (s : Socket) (j : Journal) : ∃ r t k,
    (connect net resolver).run.run ⟨s, j⟩ = (r, ⟨t, k⟩) ∧ Connected net resolver s r t := by
  unfold connect
  rw [Op.run_bind, Op.run_session]
  dsimp only
  cases hconnected : s.isConnected with
  | true => exact ⟨.ok (), s, j, rfl, .already hconnected⟩
  | false =>
    simp only [Bool.false_eq_true, if_false]
    cases hnative : s.native with
    | none => exact ⟨_, s, j, rfl, .notInitialized hconnected (.inl hnative)⟩
    | some idle =>
      cases hpeer : s.peer with
      | none => exact ⟨_, s, j, rfl, .notInitialized hconnected (.inr hpeer)⟩
      | some peer =>
        dsimp only
        cases hconnect : net.connect peer.1 peer.2 s.protocol s.connectLimit with
        | error code =>
          exact ⟨_, _, _, rfl, .unreachable idle peer code hconnected hnative hpeer hconnect⟩
        | ok c =>
          dsimp only
          cases hmac : resolver.mac peer.1 with
          | error e =>
            exact ⟨_, _, _, rfl, .unresolved idle c peer e hconnected hnative hpeer hconnect hmac⟩
          | ok mac =>
            exact ⟨_, _, _, rfl, .connected idle c peer mac hconnected hnative hpeer hconnect hmac⟩

/-- What a transfer leaves: the same socket, but for what has arrived on the connection of a connected one. -/
inductive Transferred (s : Socket) : Socket → Prop
  | unchanged : Transferred s s
  | used (c : Connection) : s.isConnected = true → s.native.isSome = true → Transferred s { s with native := some c }

theorem Transferred.state_eq {t : Socket} (h : Transferred s t) : t.state = s.state := by
  cases h <;> rfl

theorem Transferred.isSome_native {t : Socket} (h : Transferred s t) : t.native.isSome = s.native.isSome := by
  cases h with
  | unchanged => rfl
  | used c _ hnative => exact hnative.symm

theorem Transferred.isConnected_eq {t : Socket} (h : Transferred s t) : t.isConnected = s.isConnected := by
  unfold isConnected
  rw [h.state_eq]

theorem Consistent.transferred {t : Socket} (hs : s.Consistent) (h : Transferred s t) : t.Consistent := by
  unfold Consistent
  rw [h.isSome_native, h.state_eq]
  exact hs

theorem connection_ok {c : Connection} (h : s.connection = .ok c) : s.isConnected = true ∧ s.native = some c := by
  unfold connection at h
  split at h
  case h_1 d hnative hstate =>
    cases h
    exact ⟨beq_iff_eq.mpr hstate, hnative⟩
  case h_2 => cases h

theorem connection_of_not_connected (hstate : s.state ≠ .connected) : s.connection = .error .notOpen := by
  unfold connection
  split
  · contradiction
  · rfl

/-- The checks of a transfer, and what follows on the connection. -/
theorem run_onConnection_eq {α : Type} (len : Nat) (f : Connection → Op Socket α) (s : Socket) (j : Journal) :
    (do
      Op.require (checkBuffer len)
      let c ← Op.require (← Op.session).connection
      f c : Op Socket α).run.run ⟨s, j⟩ =
    match (do checkBuffer len; s.connection : Except LinkError Connection) with
    | .ok c => (f c).run.run ⟨s, j⟩
    | .error e => (.error (.error e), ⟨s, j⟩) := by
  rw [Op.run_bind, Op.run_require]
  cases checkBuffer len with
  | error e => rfl
  | ok u =>
    simp only [Op.mapError_ok]
    rw [Op.run_bind, Op.run_session]
    dsimp only
    rw [Op.run_bind, Op.run_require]
    show _ = match s.connection with
      | .ok c => (f c).run.run ⟨s, j⟩
      | .error e => (.error (.error e), ⟨s, j⟩)
    cases s.connection <;> rfl

theorem run_onConnection {α : Type} {len : Nat} {f : Connection → Op Socket α}
    (hf : ∀ c, s.isConnected = true → s.native = some c → ∃ r t k, (f c).run.run ⟨s, j⟩ = (r, ⟨t, k⟩) ∧ Transferred s t) :
    ∃ r t k, (do
      Op.require (checkBuffer len)
      let c ← Op.require (← Op.session).connection
      f c : Op Socket α).run.run ⟨s, j⟩ = (r, ⟨t, k⟩) ∧ Transferred s t := by
  rw [run_onConnection_eq]
  cases hready : (do checkBuffer len; s.connection : Except LinkError Connection) with
  | error e => exact ⟨_, s, j, rfl, .unchanged⟩
  | ok c =>
    cases hbuffer : checkBuffer len with
    | error e =>
      rw [hbuffer] at hready
      cases hready
    | ok u =>
      rw [hbuffer] at hready
      obtain ⟨hconnected, hnative⟩ := connection_ok hready
      exact hf c hconnected hnative

/-- A transfer on a socket that is not connected asks nothing of the network. -/
theorem run_onConnection_of_not_connected {α : Type} (len : Nat) (hstate : s.state ≠ .connected) (j : Journal) :
    ∃ e, ∀ f : Connection → Op Socket α, (do
      Op.require (checkBuffer len)
      let c ← Op.require (← Op.session).connection
      f c : Op Socket α).run.run ⟨s, j⟩ = (.error (.error e), ⟨s, j⟩) := by
  simp only [run_onConnection_eq, connection_of_not_connected hstate]
  cases checkBuffer len with
  | error e => exact ⟨e, fun _ => rfl⟩
  | ok u => exact ⟨.notOpen, fun _ => rfl⟩

theorem run_read (net : Network) (len : Nat) (s : Socket) (j : Journal) : ∃ r t k,
    (read net len).run.run ⟨s, j⟩ = (r, ⟨t, k⟩) ∧ Transferred s t := by
  refine run_onConnection ?_
  intro c hconnected hnative
  exact ⟨_, _, _, Op.run_require _ _, .used (net.receive c len).2 hconnected (by rw [hnative]; rfl)⟩

theorem run_write (net : Network) (bytes : List UInt8) (s : Socket) (j : Journal) : ∃ r t k,
    (write net bytes).run.run ⟨s, j⟩ = (r, ⟨t, k⟩) ∧ Transferred s t := by
  refine run_onConnection ?_
  intro c hconnected hnative
  exact ⟨_, _, _, Op.run_require _ _, .used (net.send c bytes).2 hconnected (by rw [hnative]; rfl)⟩

end Socket

/-! ## Sessions -/

namespace EthernetSession

variable {net : Network} {resolver : Resolver} {s : EthernetSession} {j : Journal}

theorem run_onSocket {α : Type} {op : Op Socket α} {r : Except Failure α} {socket : Socket} {k : Journal}
    (h : op.run.run ⟨s.socket, j⟩ = (r, ⟨socket, k⟩)) :
    (onSocket op).run.run ⟨s, j⟩ = (r, ⟨{ s with socket }, k⟩) := by
  unfold onSocket
  rw [Op.run_bind, Op.run_session]
  dsimp only
  rw [Op.run_onPart, Op.perform_eq, h]

/-- Errors for a timeout that is zero or that the native socket refuses. -/
def TimeoutFailure (e : LinkError) : Prop :=
  e = .invalidArgument "timeout must be greater than zero" ∨ ∃ code, e = .system code

/-- The native socket of a session can be created, but not get the timeout of the socket or of the configuration. -/
def Untimable (net : Network) (s : EthernetSession) : Prop :=
  net.create s.identity.ip s.identity.port s.identity.protocol = .ok () ∧
    ((∃ ms code, s.socket.timeoutMs = some ms ∧ net.setTimeout {} ms = .error code) ∨
      s.configuration.timeoutMs = 0 ∨
      ∃ code, net.setTimeout { timeoutMs := s.socket.timeoutMs } s.configuration.timeoutMs = .error code)

/-- How opening a closed session ends. -/
inductive Opened (net : Network) (s : EthernetSession) : Except Failure Unit → EthernetSession → Prop
  | failed (e : LinkError) (socket : Socket) : socket.native = none → socket.Consistent → ¬ Untimable net s →
      Opened net s (.error (.error e)) { s with socket }
  /-- The native socket is created and the timeout is not set. -/
  | untimed (e : LinkError) (socket : Socket) : TimeoutFailure e → socket.native.isSome = true →
      socket.state = .initialized → Untimable net s → Opened net s (.error (.error e)) { s with socket }
  | opened (socket : Socket) : socket.native.isSome = true → socket.state = .connected →
      Opened net s (.ok ()) { s with socket }

/-- Opening an open session does nothing. -/
theorem openSession_of_open (net : Network) (resolver : Resolver) (j : Journal) (hs : s.isOpen = true) :
    (openSession net resolver).perform s j = (.ok (), s, j) := by
  unfold openSession
  rw [Op.perform_eq, Op.run_bind, Op.run_session]
  simp only [hs, if_true]
  rfl

/-- The last part of an open, on a socket that was just created. -/
theorem run_connecting (net : Network) (resolver : Resolver) {socket : Socket} (j : Journal)
    (hnative : socket.native.isSome = true) (hstate : socket.state = .initialized) (hpeer : socket.peer.isSome = true)
    (htimed : ¬ Untimable net s) :
    ∃ r t k, (do
      onSocket (Socket.connect net resolver)
      Op.log ⟨.info, "Ethernet device opened", [("device", s.identity.text)]⟩ : Op EthernetSession Unit).run.run
        ⟨{ s with socket }, j⟩ = (r, ⟨t, k⟩) ∧ Opened net s r t := by
  obtain ⟨r, t, k, hrun, hconnected⟩ := Socket.run_connect net resolver socket j
  have hconsistent : socket.Consistent := by simp [Socket.Consistent, hnative, hstate]
  rw [Op.run_bind, run_onSocket (s := { s with socket }) hrun]
  cases hconnected with
  | already h =>
    rw [Socket.isConnected, hstate] at h
    cases h
  | notInitialized _ h =>
    rcases h with h | h
    · rw [h] at hnative
      cases hnative
    · rw [h] at hpeer
      cases hpeer
  | unreachable idle peer code =>
    exact ⟨_, _, _, rfl, .failed _ _ (Socket.native_disconnected _) hconsistent.disconnected htimed⟩
  | unresolved idle c peer e =>
    have hused : Socket.Consistent { socket with
        native := some { c with timeoutMs := idle.timeoutMs }, hostname := resolver.hostname peer.1 } := by
      simp [Socket.Consistent, hstate]
    exact ⟨_, _, _, rfl, .failed _ _ (Socket.native_disconnected _) hused.disconnected htimed⟩
  | connected idle c peer mac => exact ⟨_, _, _, rfl, .opened _ rfl rfl⟩

theorem run_openSession (net : Network) (resolver : Resolver) (j : Journal) (hs : s.isOpen = false)
    (hconsistent : s.socket.Consistent) :
    ∃ r t k, (openSession net resolver).perform s j = (r, t, k) ∧ Opened net s r t := by
  unfold openSession
  rw [Op.perform_eq, Op.run_bind, Op.run_session]
  simp only [hs, Bool.false_eq_true, if_false]
  obtain ⟨r, made, k, hcreate, hcreated⟩ :=
    Socket.run_create net s.identity.ip s.identity.port s.identity.protocol s.socket j
  rw [Op.run_bind, run_onSocket hcreate]
  cases hcreated with
  | refused code hrefused =>
    refine ⟨_, _, _, rfl, .failed _ _ (Socket.native_disconnected _) hconsistent.disconnected ?_⟩
    rintro ⟨hmade, -⟩
    cases hrefused.symm.trans hmade
  | untimed ms code hmade hms hset =>
    exact ⟨_, _, _, rfl, .untimed _ _ (.inr ⟨code, rfl⟩) rfl rfl ⟨hmade, .inl ⟨ms, code, hms, hset⟩⟩⟩
  | made hmade hkept =>
    dsimp only
    obtain ⟨r, timed, hset, htimed⟩ := Socket.run_setTimeout net s.configuration.timeoutMs
      { s.socket.created s.identity.ip s.identity.port s.identity.protocol with
        native := some { timeoutMs := s.socket.timeoutMs } } k
    rw [Op.run_bind, run_onSocket (s := { s with socket := _ }) hset]
    cases htimed with
    | zero hms => exact ⟨_, _, _, rfl, .untimed _ _ (.inl rfl) rfl rfl ⟨hmade, .inr (.inl hms)⟩⟩
    | handed hms htimed =>
      cases htimed with
      | absent hnone => cases hnone
      | refused c code hc hrefused =>
        cases hc
        exact ⟨_, _, _, rfl, .untimed _ _ (.inr ⟨code, rfl⟩) rfl rfl ⟨hmade, .inr (.inr ⟨code, hrefused⟩)⟩⟩
      | applied c hc hgiven =>
        cases hc
        have htimed : ¬ Untimable net s := by
          rintro ⟨-, ⟨ms', code, hms', hrefused⟩ | hzero | ⟨code, hrefused⟩⟩
          · cases (hkept ms' hms').symm.trans hrefused
          · exact hms hzero
          · cases hgiven.symm.trans hrefused
        obtain ⟨r, t, k', hrun, hopened⟩ := @run_connecting s net resolver { s.socket.created
          s.identity.ip s.identity.port s.identity.protocol with
          native := some { timeoutMs := some s.configuration.timeoutMs },
          timeoutMs := some s.configuration.timeoutMs } k rfl rfl rfl htimed
        exact ⟨r, t, k', by dsimp only; rw [hrun], hopened⟩

/-- A close drops the native socket, whether or not the session is open. -/
theorem run_close (s : EthernetSession) (j : Journal) : ∃ k,
    close.perform s j = (.ok (), { s with socket := s.socket.disconnected }, k) ∧ (s.isOpen = false → k = j) := by
  unfold close
  rw [Op.perform_eq, Op.run_bind, Op.run_session]
  dsimp only
  cases hs : s.isOpen with
  | true => exact ⟨_, rfl, nofun⟩
  | false => exact ⟨j, rfl, fun _ => rfl⟩

theorem run_read (net : Network) (x : Transfer) (len : Nat) (s : EthernetSession) (j : Journal) : ∃ r socket k,
    (read net x len).perform s j = (r, { s with socket }, k) ∧ s.socket.Transferred socket := by
  unfold read
  rw [Op.perform_eq, Op.run_bind, Op.run_session]
  dsimp only
  rw [Op.run_bind, Op.run_require]
  cases s.readyFor x len with
  | error e => exact ⟨_, s.socket, j, rfl, .unchanged⟩
  | ok u =>
    obtain ⟨r, t, k, hrun, htransferred⟩ := Socket.run_read net len s.socket j
    exact ⟨r, t, k, by simp only [Op.mapError_ok]; rw [run_onSocket hrun], htransferred⟩

theorem run_write (net : Network) (x : Transfer) (bytes : List UInt8) (s : EthernetSession) (j : Journal) : ∃ r socket k,
    (write net x bytes).perform s j = (r, { s with socket }, k) ∧ s.socket.Transferred socket := by
  unfold write
  rw [Op.perform_eq, Op.run_bind, Op.run_session]
  dsimp only
  rw [Op.run_bind, Op.run_require]
  cases s.readyFor x bytes.length with
  | error e => exact ⟨_, s.socket, j, rfl, .unchanged⟩
  | ok u =>
    obtain ⟨r, t, k, hrun, htransferred⟩ := Socket.run_write net bytes s.socket j
    exact ⟨r, t, k, by simp only [Op.mapError_ok]; rw [run_onSocket hrun], htransferred⟩

end EthernetSession

end Peripheral.Net
