import Peripheral.Proofs.Net.Socket

/-
  Peripheral.Proofs.Net.History — the life of a socket, whatever is done with it.

  A history is any order of creating, setting the time, connecting, disconnecting, reading and
  writing; each operation meets a network and a resolver of its own (`Reach`). What an operation
  leaves follows from the operation, the answers it got and what the socket showed before
  (`Moved`); this is said once, and everything else is read off it.

  - A native socket is there while the socket is initialized or connected; only a create that
    has made one leads out of `uninitialized`, and only a connect that has reached its peer and
    found the hardware address leads to `connected`.
  - A connected socket has been the same connection since that connect (`Reach.connecting`).

  All of it is put together in `life_of_a_socket`.
-/

namespace Peripheral.Net

/-- The state once the native socket is gone. -/
def SocketState.dropped : SocketState → SocketState
  | .initialized | .connected => .closed
  | state => state

namespace Socket

/-! ## Histories -/

/-- What a caller does with a socket. -/
inductive Action
  | create (ip : Address) (port : UInt16) (protocol : Protocol)
  | setTimeout (ms : UInt32)
  | connect
  | disconnect
  | read (len : Nat)
  | write (bytes : List UInt8)
deriving DecidableEq, Repr

def Action.run (net : Network) (resolver : Resolver) : Action → Op Socket Unit
  | create ip port protocol => Socket.create net ip port protocol
  | setTimeout ms => Socket.setTimeout net ms
  | connect => Socket.connect net resolver
  | disconnect => Socket.disconnect
  | read len => do
    let _ ← Socket.read net len
  | write bytes => do
    let _ ← Socket.write net bytes

/-- An operation: who answered, the socket it was done on, and how it ended. -/
structure Turn where
  net : Network
  resolver : Resolver
  action : Action
  before : Socket
  result : Except Failure Unit

/-- What was done with a socket, the last thing first. -/
abbrev Past := List Turn

/-- The sockets that a new one becomes, and what was done. -/
inductive Reach : Past → Socket → Prop
  | new : Reach [] {}
  | act {past : Past} {s t : Socket} {j k : Journal} {r : Except Failure Unit} (net : Network) (resolver : Resolver)
      (a : Action) : Reach past s → (a.run net resolver).perform s j = (r, t, k) →
      Reach (⟨net, resolver, a, s, r⟩ :: past) t

/-! ## What an operation does -/

namespace Turn

/-- A create that has made its native socket. -/
def makes (x : Turn) : Bool :=
  match x.action with
  | .create ip port protocol => (x.net.create ip port protocol).isOk
  | _ => false

/-- The peer that a connect has reached. -/
def reached (x : Turn) : Option (Address × UInt16) :=
  match x.action, x.before.state, x.before.peer with
  | .connect, .initialized, some peer =>
    if (x.net.connect peer.1 peer.2 x.before.protocol x.before.connectLimit).isOk then some peer else none
  | _, _, _ => none

end Turn

/-- Operations after which a connected socket is the same connection. -/
def Action.keepsConnection : Action → Bool
  | create .. | disconnect => false
  | _ => true

/-- Two sockets show the same peer. -/
structure SamePeer (s t : Socket) : Prop where
  peer : t.peer = s.peer
  hostname : t.hostname = s.hostname
  mac : t.mac = s.mac

/-- How an operation ends, and what the socket shows then. -/
inductive Moved (x : Turn) (t : Socket) : Prop
  | made : x.makes = true → t.state = .initialized → t.hostname = "" → t.mac = .zero → Moved x t
  | connected {peer : Address × UInt16} : x.reached = some peer → x.resolver.mac peer.1 = .ok t.mac →
      x.result = .ok () → t.state = .connected → t.peer = some peer → t.hostname = x.resolver.hostname peer.1 →
      Moved x t
  /-- The peer is there, but its hardware address is not known. -/
  | unresolved {peer : Address × UInt16} {e : LinkError} : x.reached = some peer → x.resolver.mac peer.1 = .error e →
      x.result = .error (.error e) → t.state = .closed →
      SamePeer { x.before with hostname := x.resolver.hostname peer.1 } t → Moved x t
  | unreached : x.action = .connect → x.reached = none → x.before.state = .initialized → x.result.isOk = false →
      t.state = .closed → SamePeer x.before t → Moved x t
  /-- A disconnect, or a create that could not make a native socket. -/
  | dropped : x.action.keepsConnection = false → x.makes = false → x.action = .disconnect ∨ x.result.isOk = false →
      t.state = x.before.state.dropped → SamePeer x.before t → Moved x t
  | kept : x.action.keepsConnection = true → x.reached = none →
      (x.action = .connect → x.before.state ≠ .initialized ∧ (x.result.isOk = true → x.before.state = .connected)) →
      t.state = x.before.state → SamePeer x.before t → Moved x t

/-- A socket has a native socket while its state says so, and a peer once it was created. -/
structure Sound (s : Socket) : Prop where
  consistent : s.Consistent
  peer : s.state ≠ .uninitialized → s.peer.isSome = true

theorem sound_new : Sound {} := ⟨consistent_new, fun h => absurd rfl h⟩

variable {net : Network} {resolver : Resolver} {past : Past} {s t : Socket} {x : Turn} {j k : Journal}
  {r : Except Failure Unit}

/-! ### Dropping the native socket -/

theorem Sound.state_disconnected (hs : Sound s) : s.disconnected.state = s.state.dropped := by
  cases hnative : s.native with
  | none =>
    rw [disconnected_of_native_none hnative]
    obtain ⟨hinitialized, hconnected⟩ := hs.consistent.state_of_native_none hnative
    cases h : s.state with
    | uninitialized | closed => rfl
    | initialized => exact absurd h hinitialized
    | connected => exact absurd h hconnected
  | some c =>
    have hsome : s.native.isSome = true := by rw [hnative]; rfl
    rw [disconnected_of_native_some hsome]
    rcases hs.consistent.mp hsome with h | h <;> rw [h] <;> rfl

theorem samePeer_disconnected (s : Socket) : SamePeer s s.disconnected := by
  unfold disconnected
  split <;> exact ⟨rfl, rfl, rfl⟩

theorem dropped_eq_uninitialized {state : SocketState} : state.dropped = .uninitialized ↔ state = .uninitialized := by
  cases state <;> simp [SocketState.dropped]

theorem dropped_ne_connected (state : SocketState) : state.dropped ≠ .connected := by
  cases state <;> simp [SocketState.dropped]

theorem Sound.disconnected (hs : Sound s) : Sound s.disconnected := by
  refine ⟨hs.consistent.disconnected, ?_⟩
  rw [hs.state_disconnected, (samePeer_disconnected s).peer]
  exact fun h => hs.peer (mt dropped_eq_uninitialized.mpr h)

/-! ### One operation after the other -/

theorem create_moved {ip : Address} {port : UInt16} {protocol : Protocol} (hs : Sound s)
    (h : Created net s ip port protocol r t) : Sound t ∧ Moved ⟨net, resolver, .create ip port protocol, s, r⟩ t := by
  cases h with
  | refused code hcreate =>
    have hmakes : (net.create ip port protocol).isOk = false := congrArg Except.isOk hcreate
    exact ⟨hs.disconnected, .dropped rfl hmakes (.inr rfl) hs.state_disconnected (samePeer_disconnected s)⟩
  | untimed ms code hcreate =>
    have hmakes : (net.create ip port protocol).isOk = true := congrArg Except.isOk hcreate
    exact ⟨⟨by simp [Consistent, Socket.created], fun _ => rfl⟩, .made hmakes rfl rfl rfl⟩
  | made hcreate =>
    have hmakes : (net.create ip port protocol).isOk = true := congrArg Except.isOk hcreate
    exact ⟨⟨by simp [Consistent, Socket.created], fun _ => rfl⟩, .made hmakes rfl rfl rfl⟩

/-- Setting the time leaves what a socket shows as it is, whether the time is taken or not. -/
theorem setTimeout_moved {ms : UInt32} (hs : Sound s) (h : TimeoutSet net ms s r t) :
    Sound t ∧ Moved ⟨net, resolver, .setTimeout ms, s, r⟩ t := by
  have hkept : t.native.isSome = s.native.isSome ∧ t.state = s.state ∧ SamePeer s t := by
    cases h with
    | zero => exact ⟨rfl, rfl, rfl, rfl, rfl⟩
    | handed _ htimed =>
      cases htimed with
      | absent | refused => exact ⟨rfl, rfl, rfl, rfl, rfl⟩
      | applied c hc =>
        have hsome : s.native.isSome = true := by rw [show s.native = some c from hc]; rfl
        exact ⟨hsome.symm, rfl, rfl, rfl, rfl⟩
  obtain ⟨hnative, hstate, hpeer⟩ := hkept
  refine ⟨⟨?_, ?_⟩, .kept rfl rfl nofun hstate hpeer⟩
  · unfold Consistent
    rw [hnative, hstate]
    exact hs.consistent
  · rw [hstate, hpeer.peer]
    exact hs.peer

/-- A native socket that is not connected belongs to an initialized socket. -/
theorem Sound.initialized_of_idle (hs : Sound s) {idle : Connection} (hidle : s.native = some idle)
    (hconnected : s.isConnected = false) : s.state = .initialized := by
  rcases hs.consistent.mp (by rw [hidle]; rfl) with h | h
  · exact h
  · exact absurd h (beq_eq_false_iff_ne.mp hconnected)

theorem reached_eq (hstate : s.state = .initialized) {peer : Address × UInt16} (hpeer : s.peer = some peer) :
    Turn.reached ⟨net, resolver, .connect, s, r⟩ =
      if (net.connect peer.1 peer.2 s.protocol s.connectLimit).isOk then some peer else none := by
  simp only [Turn.reached, hstate, hpeer]

theorem reached_of_not_initialized (hstate : s.state ≠ .initialized) :
    Turn.reached ⟨net, resolver, .connect, s, r⟩ = none := by
  unfold Turn.reached
  split
  · contradiction
  · rfl

theorem connect_moved (hs : Sound s) (h : Connected net resolver s r t) :
    Sound t ∧ Moved ⟨net, resolver, .connect, s, r⟩ t := by
  cases h with
  | already hconnected =>
    have hstate : s.state = .connected := beq_iff_eq.mp hconnected
    have hinitialized : s.state ≠ .initialized := by rw [hstate]; decide
    exact ⟨hs, .kept rfl (reached_of_not_initialized hinitialized) (fun _ => ⟨hinitialized, fun _ => hstate⟩) rfl
      ⟨rfl, rfl, rfl⟩⟩
  | notInitialized hconnected hmissing =>
    have hinitialized : s.state ≠ .initialized := by
      intro hstate
      rcases hmissing with hnative | hpeer
      · exact (hs.consistent.state_of_native_none hnative).1 hstate
      · have hsome := hs.peer (by rw [hstate]; decide)
        rw [hpeer] at hsome
        cases hsome
    exact ⟨hs, .kept rfl (reached_of_not_initialized hinitialized) (fun _ => ⟨hinitialized, nofun⟩) rfl ⟨rfl, rfl, rfl⟩⟩
  | unreachable idle peer code hconnected hidle hpeer hconnect =>
    have hstate := hs.initialized_of_idle hidle hconnected
    refine ⟨hs.disconnected, .unreached rfl ?_ hstate rfl ?_ (samePeer_disconnected s)⟩
    · rw [reached_eq hstate hpeer, hconnect]
      rfl
    · rw [hs.state_disconnected, hstate]
      rfl
  | unresolved idle c peer e hconnected hidle hpeer hconnect hmac =>
    have hstate := hs.initialized_of_idle hidle hconnected
    have hused : Sound { s with
        native := some { c with timeoutMs := idle.timeoutMs }, hostname := resolver.hostname peer.1 } :=
      ⟨by simp [Consistent, hstate], hs.peer⟩
    refine ⟨hused.disconnected, .unresolved ?_ hmac rfl rfl ⟨rfl, rfl, rfl⟩⟩
    rw [reached_eq hstate hpeer, hconnect]
    rfl
  | connected idle c peer mac hconnected hidle hpeer hconnect hmac =>
    have hstate := hs.initialized_of_idle hidle hconnected
    refine ⟨⟨by simp [Consistent], fun _ => hs.peer (by rw [hstate]; decide)⟩, .connected ?_ hmac rfl rfl hpeer rfl⟩
    rw [reached_eq hstate hpeer, hconnect]
    rfl

theorem transfer_moved {a : Action} (ha : (∃ len, a = .read len) ∨ ∃ bytes, a = .write bytes) (hs : Sound s)
    (h : Transferred s t) : Sound t ∧ Moved ⟨net, resolver, a, s, r⟩ t := by
  have hpeer : SamePeer s t := by
    cases h <;> exact ⟨rfl, rfl, rfl⟩
  refine ⟨⟨hs.consistent.transferred h, ?_⟩, ?_⟩
  · rw [h.state_eq, hpeer.peer]
    exact hs.peer
  · rcases ha with ⟨len, rfl⟩ | ⟨bytes, rfl⟩
    · exact .kept rfl rfl nofun h.state_eq hpeer
    · exact .kept rfl rfl nofun h.state_eq hpeer

theorem step {a : Action} (hs : Sound s) (hrun : (a.run net resolver).perform s j = (r, t, k)) :
    Sound t ∧ Moved ⟨net, resolver, a, s, r⟩ t := by
  cases a with
  | create ip port protocol =>
    obtain ⟨r', t', k', hrun', hcreated⟩ := run_create net ip port protocol s j
    cases hrun.symm.trans (Op.perform_of_run hrun')
    exact create_moved hs hcreated
  | setTimeout ms =>
    obtain ⟨r', t', hrun', hset⟩ := run_setTimeout net ms s j
    cases hrun.symm.trans (Op.perform_of_run hrun')
    exact setTimeout_moved hs hset
  | connect =>
    obtain ⟨r', t', k', hrun', hconnected⟩ := run_connect net resolver s j
    cases hrun.symm.trans (Op.perform_of_run hrun')
    exact connect_moved hs hconnected
  | disconnect =>
    cases hrun
    exact ⟨hs.disconnected, .dropped rfl rfl (.inl rfl) hs.state_disconnected (samePeer_disconnected s)⟩
  | read len =>
    obtain ⟨r', t', k', hrun', htransferred⟩ := run_read net len s j
    cases hrun.symm.trans (Op.perform_unread () hrun')
    exact transfer_moved (.inl ⟨len, rfl⟩) hs htransferred
  | write bytes =>
    obtain ⟨r', t', k', hrun', htransferred⟩ := run_write net bytes s j
    cases hrun.symm.trans (Op.perform_unread () hrun')
    exact transfer_moved (.inr ⟨bytes, rfl⟩) hs htransferred

/-! ## The state -/

theorem Reach.sound (h : Reach past s) : Sound s := by
  induction h with
  | new => exact sound_new
  | act net resolver a _ hrun ih => exact (step ih hrun).1

/-- A connect that has reached a peer was done on an initialized socket with this peer. -/
theorem connect_of_reached {peer : Address × UInt16} (h : x.reached = some peer) :
    x.action = .connect ∧ x.before.state = .initialized ∧ x.before.peer = some peer ∧
      ∃ c, x.net.connect peer.1 peer.2 x.before.protocol x.before.connectLimit = .ok c := by
  unfold Turn.reached at h
  split at h
  case h_2 => cases h
  case h_1 peer' haction hstate hpeer =>
    cases hconnect : x.net.connect peer'.1 peer'.2 x.before.protocol x.before.connectLimit with
    | error code =>
      rw [hconnect] at h
      cases h
    | ok c =>
      rw [hconnect] at h
      cases h
      exact ⟨haction, hstate, hpeer, c, hconnect⟩

theorem makes_of_keepsConnection (h : x.action.keepsConnection = true) : x.makes = false := by
  unfold Turn.makes
  split
  case h_1 haction =>
    rw [haction] at h
    cases h
  case h_2 => rfl

theorem makes_of_connect (h : x.action = .connect) : x.makes = false :=
  makes_of_keepsConnection (by rw [h]; rfl)

/-- A socket is as it was made as long as no create has made a native socket. -/
theorem Moved.uninitialized_iff (h : Moved x t) :
    t.state = .uninitialized ↔ x.makes = false ∧ x.before.state = .uninitialized := by
  cases h with
  | made hmakes hstate => simp [hmakes, hstate]
  | connected hreached _ _ hstate => simp [hstate, (connect_of_reached hreached).2.1]
  | unresolved hreached _ _ hstate => simp [hstate, (connect_of_reached hreached).2.1]
  | unreached _ _ hbefore _ hstate => simp [hstate, hbefore]
  | dropped _ hmakes _ hstate => simp [hstate, hmakes, dropped_eq_uninitialized]
  | kept hkeeps _ _ hstate => simp [hstate, makes_of_keepsConnection hkeeps]

theorem Reach.uninitialized_iff (h : Reach past s) : s.state = .uninitialized ↔ ∀ x ∈ past, x.makes = false := by
  induction h with
  | new => simp
  | act net resolver a hreach hrun ih =>
    rw [(step hreach.sound hrun).2.uninitialized_iff, ih, List.forall_mem_cons]

/-- A connect that has reached its peer and found its hardware address, both as the socket shows them. -/
structure Turn.Connects (x : Turn) (s : Socket) : Prop where
  action : x.action = .connect
  result : x.result = .ok ()
  before : x.before.state = .initialized
  peer : ∃ peer c, x.before.peer = some peer ∧ s.peer = some peer ∧
    x.net.connect peer.1 peer.2 x.before.protocol x.before.connectLimit = .ok c ∧ x.resolver.mac peer.1 = .ok s.mac

/-- A socket is connected after an operation because the operation has connected it, or has left it as it was. -/
theorem Moved.connected_cases (h : Moved x t) (hstate : t.state = .connected) :
    x.Connects t ∨ x.action.keepsConnection = true ∧ x.before.state = .connected ∧ SamePeer x.before t := by
  cases h with
  | connected hreached hmac hresult _ hpeer =>
    obtain ⟨haction, hbefore, hpeer', c, hconnect⟩ := connect_of_reached hreached
    exact .inl ⟨haction, hresult, hbefore, _, c, hpeer', hpeer, hconnect, hmac⟩
  | kept hkeeps _ _ hkept hpeer => exact .inr ⟨hkeeps, hkept.symm.trans hstate, hpeer⟩
  | dropped _ _ _ hdropped => exact absurd (hdropped.symm.trans hstate) (dropped_ne_connected _)
  | made _ hmade => cases hmade.symm.trans hstate
  | unresolved _ _ _ hclosed => cases hclosed.symm.trans hstate
  | unreached _ _ _ _ hclosed => cases hclosed.symm.trans hstate

theorem Turn.Connects.samePeer (h : x.Connects s) (hpeer : SamePeer s t) : x.Connects t := by
  obtain ⟨haction, hresult, hbefore, peer, c, hpeer', hs, hconnect, hmac⟩ := h
  exact ⟨haction, hresult, hbefore, peer, c, hpeer', hpeer.peer.trans hs, hconnect, hpeer.mac ▸ hmac⟩

/-- A connected socket was connected by a connect, and has been the same connection since. -/
theorem Reach.connecting (h : Reach past s) (hs : s.state = .connected) : ∃ since x earlier,
    past = since ++ x :: earlier ∧ x.Connects s ∧ ∀ y ∈ since, y.action.keepsConnection = true := by
  induction h with
  | new => cases hs
  | act net resolver a hreach hrun ih =>
    rcases (step hreach.sound hrun).2.connected_cases hs with hconnects | ⟨hkeeps, hbefore, hpeer⟩
    · exact ⟨[], _, _, rfl, hconnects, List.forall_mem_nil _⟩
    · obtain ⟨since, x, earlier, hpast, hconnects, hsince⟩ := ih hbefore
      refine ⟨_ :: since, x, earlier, congrArg _ hpast, hconnects.samePeer hpeer, ?_⟩
      exact List.forall_mem_cons.mpr ⟨hkeeps, hsince⟩

/-- What an operation may do to the life of a socket. -/
structure Lives (x : Turn) (t : Socket) : Prop where
  /-- Only a create that has made a native socket leads out of the first state, and nothing leads back. -/
  begins : x.before.state = .uninitialized → t.state ≠ .uninitialized →
    x.makes = true ∧ t.state = .initialized ∧ t.native.isSome = true
  neverAgain : x.before.state ≠ .uninitialized → t.state ≠ .uninitialized
  connects : x.before.state ≠ .connected → t.state = .connected → x.Connects t
  /-- A connect that fails on an initialized socket closes it, and then only a create leads on. -/
  fails : x.action = .connect → x.before.state = .initialized → x.result.isOk = false →
    t.state = .closed ∧ t.native = none
  reopens : x.before.state = .closed → t.state ≠ .closed → x.makes = true ∧ t.state = .initialized

theorem Moved.begins (h : Moved x t) (hbefore : x.before.state = .uninitialized ∨ x.before.state = .closed)
    (hstate : t.state ≠ x.before.state) : x.makes = true ∧ t.state = .initialized := by
  have hidle : x.before.state ≠ .initialized := by rcases hbefore with h | h <;> rw [h] <;> decide
  cases h with
  | made hmakes hmade => exact ⟨hmakes, hmade⟩
  | connected hreached => exact absurd (connect_of_reached hreached).2.1 hidle
  | unresolved hreached => exact absurd (connect_of_reached hreached).2.1 hidle
  | unreached _ _ hinitialized => exact absurd hinitialized hidle
  | dropped _ _ _ hdropped =>
    refine absurd (hdropped.trans ?_) hstate
    rcases hbefore with h | h <;> rw [h] <;> rfl
  | kept _ _ _ hkept => exact absurd hkept hstate

theorem Moved.closed_of_failed (h : Moved x t) (haction : x.action = .connect) (hbefore : x.before.state = .initialized)
    (hresult : x.result.isOk = false) : t.state = .closed := by
  cases h with
  | made hmakes => cases (makes_of_connect haction).symm.trans hmakes
  | connected _ _ hok =>
    rw [hok] at hresult
    cases hresult
  | unresolved _ _ _ hclosed => exact hclosed
  | unreached _ _ _ _ hclosed => exact hclosed
  | dropped hkeeps =>
    rw [haction] at hkeeps
    cases hkeeps
  | kept _ _ hconnect => exact absurd hbefore (hconnect haction).1

theorem Moved.lives (h : Moved x t) (ht : Sound t) : Lives x t where
  begins hbefore hstate := by
    obtain ⟨hmakes, hmade⟩ := h.begins (.inl hbefore) (hbefore ▸ hstate)
    exact ⟨hmakes, hmade, ht.consistent.mpr (.inl hmade)⟩
  neverAgain hbefore hstate := hbefore (h.uninitialized_iff.mp hstate).2
  connects hbefore hstate := by
    rcases h.connected_cases hstate with hconnects | ⟨-, hconnected, -⟩
    · exact hconnects
    · exact absurd hconnected hbefore
  fails haction hbefore hresult := by
    have hclosed := h.closed_of_failed haction hbefore hresult
    refine ⟨hclosed, Option.not_isSome_iff_eq_none.mp (mt ht.consistent.mp ?_)⟩
    rw [hclosed]
    decide
  reopens hbefore hstate := h.begins (.inr hbefore) (hbefore ▸ hstate)

/-! ## Asking the network -/

theorem read_of_not_connected (hstate : s.state ≠ .connected) (len : Nat) (j : Journal) :
    ∃ e, ∀ net, (read net len).perform s j = (.error (.error e), s, j) := by
  obtain ⟨e, he⟩ := @run_onConnection_of_not_connected s (List UInt8) len hstate j
  exact ⟨e, fun net => Op.perform_of_run (he _)⟩

theorem write_of_not_connected (hstate : s.state ≠ .connected) (bytes : List UInt8) (j : Journal) :
    ∃ e, ∀ net, (write net bytes).perform s j = (.error (.error e), s, j) := by
  obtain ⟨e, he⟩ := @run_onConnection_of_not_connected s Nat bytes.length hstate j
  exact ⟨e, fun net => Op.perform_of_run (he _)⟩

/-- A second disconnect does nothing. -/
theorem disconnect_disconnected (s : Socket) (j : Journal) :
    disconnect.perform s.disconnected j = (.ok (), s.disconnected, j) := by
  have hidle : s.disconnected.disconnected = s.disconnected := disconnected_of_native_none (native_disconnected s)
  show (_, s.disconnected.disconnected, _) = _
  rw [hidle]

/-- Without a native socket there is nothing to connect. -/
theorem connect_of_native_none (hs : Sound s) (hnative : s.native = none) (net : Network) (resolver : Resolver)
    (j : Journal) :
    (connect net resolver).perform s j = (.error (.error (.resource "socket is not initialized")), s, j) := by
  have hconnected : s.isConnected = false := hs.consistent.isConnected_of_native_none hnative
  unfold connect
  rw [Op.perform_eq, Op.run_bind, Op.run_session]
  simp only [hconnected, hnative, Bool.false_eq_true, if_false]
  rfl

/-- In every history, and whatever the network and the resolvers answer: a native socket is there while the socket is
    initialized or connected; a socket is as it was made until a create has made a native socket; a connected socket
    was connected by a connect that has reached the peer it shows and found the hardware address it shows, and has
    been the same connection since; an operation moves the state as `Lives` says; connecting needs a native socket;
    what is not connected is not read or written; a time of zero changes nothing; and a disconnect is done once. -/
theorem life_of_a_socket (h : Reach past s) :
    (s.native.isSome = true ↔ s.state = .initialized ∨ s.state = .connected) ∧
    (s.state = .uninitialized ↔ ∀ x ∈ past, x.makes = false) ∧
    (s.state = .connected → ∃ since x earlier, past = since ++ x :: earlier ∧ x.Connects s ∧
      ∀ y ∈ since, y.action.keepsConnection = true) ∧
    (∀ net resolver a j r t k, (a.run net resolver).perform s j = (r, t, k) → Lives ⟨net, resolver, a, s, r⟩ t) ∧
    (s.native = none → ∀ net resolver j,
      (connect net resolver).perform s j = (.error (.error (.resource "socket is not initialized")), s, j)) ∧
    (s.state ≠ .connected → ∀ j,
      (∀ len, ∃ e, ∀ net, (read net len).perform s j = (.error (.error e), s, j)) ∧
      ∀ bytes, ∃ e, ∀ net, (write net bytes).perform s j = (.error (.error e), s, j)) ∧
    (∀ net j, (setTimeout net 0).perform s j =
      (.error (.error (.invalidArgument "timeout must be greater than zero")), s, j)) ∧
    ∀ j, disconnect.perform s j = (.ok (), s.disconnected, j) ∧
      disconnect.perform s.disconnected j = (.ok (), s.disconnected, j) := by
  refine ⟨h.sound.consistent, h.uninitialized_iff, h.connecting, ?_, connect_of_native_none h.sound, ?_,
    fun _ _ => rfl, fun j => ⟨rfl, disconnect_disconnected s j⟩⟩
  · intro net resolver a j r t k hrun
    obtain ⟨hsound, hmoved⟩ := step h.sound hrun
    exact hmoved.lives hsound
  · intro hstate j
    exact ⟨fun len => read_of_not_connected hstate len j, fun bytes => write_of_not_connected hstate bytes j⟩

/-- A peer that answers on the machine itself. -/
def oneEcho : Network := .ofPeers [⟨.v4 #v[127, 0, 0, 2], 7, .echo⟩]

/-- A socket connects to a peer whose hardware address is known. -/
theorem life_of_a_connected_socket : ∃ past s, Reach past s ∧ s.state = .connected ∧ s.native.isSome = true ∧
    ∃ since x earlier, past = since ++ x :: earlier ∧ x.Connects s := by
  have hcreated := Reach.new.act oneEcho (.ofLists [] []) (.create (.v4 #v[127, 0, 0, 2]) 7 .tcp) (j := {}) rfl
  have hreach := hcreated.act oneEcho (.ofLists [(.v4 #v[127, 0, 0, 2], .zero)] []) .connect (j := {}) rfl
  obtain ⟨hnative, -, hconnecting, -⟩ := life_of_a_socket hreach
  obtain ⟨since, x, earlier, hpast, hconnects, -⟩ := hconnecting rfl
  exact ⟨_, _, hreach, rfl, hnative.mpr (.inr rfl), since, x, earlier, hpast, hconnects⟩

end Socket

end Peripheral.Net
