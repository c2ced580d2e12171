import Peripheral.Proofs.Net.History

/-
  Peripheral.Proofs.Net.Identity — what a socket shows of its peer.

  A socket shows the name of the last peer that was reached since its native socket was made
  (`Reach.hostname_eq`). A connect writes this name before it asks for the hardware address, and
  does not take it back when that is not known. So a socket on which no connect has ended well
  has no hardware address, but it can have a name (`unconnected_shows_lost_name`,
  `name_of_failed_connect_is_left`).
-/

namespace Peripheral.Net.Socket

variable {past : Past} {s t : Socket} {x : Turn}

/-! ## The peer -/

def Action.isCreate : Action → Bool
  | create .. => true
  | _ => false

/-- The last operations, since a native socket was made. -/
def sinceMade (past : Past) : Past := past.takeWhile fun x => !x.makes

/-- The last operations, since a create has ended well. -/
def sinceCreate (past : Past) : Past := past.takeWhile fun x => !(x.action.isCreate && x.result.isOk)

/-- The name of the peer that a connect has reached. -/
def Turn.name? (x : Turn) : Option String := x.reached.map fun peer => x.resolver.hostname peer.1

/-- The name of the last peer that was reached since a native socket was made. -/
def nameLeft (past : Past) : String := ((sinceMade past).findSome? Turn.name?).getD ""

theorem mem_sinceMade_cons {y : Turn} :
    x ∈ sinceMade (y :: past) ↔ y.makes = false ∧ (x = y ∨ x ∈ sinceMade past) := by
  unfold sinceMade
  cases hmakes : y.makes <;> simp [hmakes]

theorem nameLeft_cons (x : Turn) (past : Past) :
    nameLeft (x :: past) = if x.makes then "" else x.name?.getD (nameLeft past) := by
  unfold nameLeft sinceMade
  cases hmakes : x.makes with
  | true => simp [hmakes]
  | false => cases hname : x.name? <;> simp [hmakes, hname]

theorem reached_of_not_connect (h : x.action ≠ .connect) : x.reached = none := by
  cases hreached : x.reached with
  | none => rfl
  | some peer => exact absurd (connect_of_reached hreached).1 h

theorem Moved.hostname_eq (h : Moved x t) : t.hostname = if x.makes then "" else x.name?.getD x.before.hostname := by
  unfold Turn.name?
  cases h with
  | made hmakes _ hhostname => rw [if_pos hmakes, hhostname]
  | connected hreached _ _ _ _ hhostname =>
    rw [makes_of_connect (connect_of_reached hreached).1, hreached, hhostname]
    rfl
  | unresolved hreached _ _ _ hpeer =>
    rw [makes_of_connect (connect_of_reached hreached).1, hreached, hpeer.hostname]
    rfl
  | unreached haction hreached _ _ _ hpeer =>
    rw [makes_of_connect haction, hreached, hpeer.hostname]
    rfl
  | dropped hkeeps hmakes _ _ hpeer =>
    have haction : x.action ≠ .connect := by
      intro haction
      rw [haction] at hkeeps
      cases hkeeps
    rw [hmakes, reached_of_not_connect haction, hpeer.hostname]
    rfl
  | kept hkeeps hreached _ _ hpeer =>
    rw [makes_of_keepsConnection hkeeps, hreached, hpeer.hostname]
    rfl

/-- A socket shows the name of the last peer that was reached, whether or not it was connected to it. -/
theorem Reach.hostname_eq (h : Reach past s) : s.hostname = nameLeft past := by
  induction h with
  | new => rfl
  | act net resolver a hreach hrun ih => rw [(step hreach.sound hrun).2.hostname_eq, nameLeft_cons, ← ih]

theorem Moved.peer_eq (h : Moved x t) (hmakes : x.makes = false) : t.peer = x.before.peer := by
  cases h with
  | made hmade => cases hmakes.symm.trans hmade
  | connected hreached _ _ _ hpeer => exact hpeer.trans (connect_of_reached hreached).2.2.1.symm
  | unresolved _ _ _ _ hpeer => exact hpeer.peer
  | unreached _ _ _ _ _ hpeer => exact hpeer.peer
  | dropped _ _ _ _ hpeer => exact hpeer.peer
  | kept _ _ _ _ hpeer => exact hpeer.peer

/-- The peer that was reached is the one that the socket shows. -/
theorem Reach.peer_of_reached (h : Reach past s) {peer : Address × UInt16} (hx : x ∈ sinceMade past)
    (hreached : x.reached = some peer) : s.peer = some peer := by
  induction h with
  | new => cases hx
  | act net resolver a hreach hrun ih =>
    obtain ⟨hmakes, hx⟩ := mem_sinceMade_cons.mp hx
    rw [(step hreach.sound hrun).2.peer_eq hmakes]
    rcases hx with rfl | hx
    · exact (connect_of_reached hreached).2.2.1
    · exact ih hx

/-! ## Without a connection -/

/-- Since a create has ended well, no connect has. -/
def Unconnected (past : Past) : Prop := ∀ x ∈ sinceCreate past, x.action = .connect → x.result.isOk = false

theorem Unconnected.cons (h : Unconnected (x :: past)) (hx : (x.action.isCreate && x.result.isOk) = false) :
    (x.action = .connect → x.result.isOk = false) ∧ Unconnected past := by
  unfold Unconnected sinceCreate at h
  rw [List.takeWhile_cons, hx] at h
  exact List.forall_mem_cons.mp h

/-- A create that ends well has made its native socket, and shows nothing of a peer yet. -/
theorem Moved.created (h : Moved x t) (hcreated : (x.action.isCreate && x.result.isOk) = true) :
    x.makes = true ∧ t.hostname = "" ∧ t.mac = .zero := by
  obtain ⟨hcreate, hok⟩ := Bool.and_eq_true_iff.mp hcreated
  have haction : x.action ≠ .connect := by
    intro haction
    rw [haction] at hcreate
    cases hcreate
  cases h with
  | made hmakes _ hhostname hmac => exact ⟨hmakes, hhostname, hmac⟩
  | connected hreached => exact absurd (connect_of_reached hreached).1 haction
  | unresolved hreached => exact absurd (connect_of_reached hreached).1 haction
  | unreached hconnect => exact absurd hconnect haction
  | dropped _ _ hend =>
    rcases hend with hdisconnect | hfailed
    · rw [hdisconnect] at hcreate
      cases hcreate
    · rw [hfailed] at hok
      cases hok
  | kept hkeeps =>
    cases hx : x.action <;> rw [hx] at hkeeps hcreate <;> cases hkeeps <;> cases hcreate

theorem Moved.unconnected (h : Moved x t) (hconnect : x.action = .connect → x.result.isOk = false)
    (hbefore : x.before.mac = .zero ∧ (x.before.hostname ≠ "" → x.before.state = .closed)) :
    t.mac = .zero ∧ (t.hostname ≠ "" → t.state = .closed) := by
  cases h with
  | made _ _ hhostname hmac => exact ⟨hmac, fun h => absurd hhostname h⟩
  | connected hreached _ hok =>
    have hfailed := hconnect (connect_of_reached hreached).1
    rw [hok] at hfailed
    cases hfailed
  | unresolved _ _ _ hclosed hpeer => exact ⟨hpeer.mac.trans hbefore.1, fun _ => hclosed⟩
  | unreached _ _ _ _ hclosed hpeer => exact ⟨hpeer.mac.trans hbefore.1, fun _ => hclosed⟩
  | dropped _ _ _ hdropped hpeer =>
    refine ⟨hpeer.mac.trans hbefore.1, fun hhostname => ?_⟩
    rw [hdropped, hbefore.2 (hpeer.hostname ▸ hhostname)]
    rfl
  | kept _ _ _ hkept hpeer =>
    exact ⟨hpeer.mac.trans hbefore.1, fun hhostname => hkept.trans (hbefore.2 (hpeer.hostname ▸ hhostname))⟩

theorem Reach.unconnected (h : Reach past s) (hnone : Unconnected past) :
    s.mac = .zero ∧ (s.hostname ≠ "" → s.state = .closed) := by
  induction h with
  | new => exact ⟨rfl, fun h => absurd rfl h⟩
  | @act past s t j k r net resolver a hreach hrun ih =>
    have hmoved := (step hreach.sound hrun).2
    cases hcreated : a.isCreate && r.isOk with
    | true =>
      obtain ⟨-, hhostname, hmac⟩ := hmoved.created hcreated
      exact ⟨hmac, fun h => absurd hhostname h⟩
    | false =>
      obtain ⟨hconnect, hpast⟩ := Unconnected.cons hnone hcreated
      exact hmoved.unconnected hconnect (ih hpast)

/-- A connect that has reached its peer and failed has failed over the hardware address. -/
theorem Moved.unresolved_of_reached (h : Moved x t) {peer : Address × UInt16} (hreached : x.reached = some peer)
    (hfailed : x.result.isOk = false) : ∃ e, x.resolver.mac peer.1 = .error e ∧ x.result = .error (.error e) := by
  have haction := (connect_of_reached hreached).1
  cases h with
  | made hmakes => cases (makes_of_connect haction).symm.trans hmakes
  | connected _ _ hok =>
    rw [hok] at hfailed
    cases hfailed
  | unresolved hreached' hmac hresult =>
    cases hreached.symm.trans hreached'
    exact ⟨_, hmac, hresult⟩
  | unreached _ hnone => cases hreached.symm.trans hnone
  | dropped hkeeps =>
    rw [haction] at hkeeps
    cases hkeeps
  | kept _ hnone => cases hreached.symm.trans hnone

theorem Reach.unresolved_of_reached (h : Reach past s) (hnone : Unconnected past) {peer : Address × UInt16}
    (hx : x ∈ sinceMade past) (hreached : x.reached = some peer) :
    ∃ e, x.resolver.mac peer.1 = .error e ∧ x.result = .error (.error e) := by
  induction h with
  | new => cases hx
  | @act past s t j k r net resolver a hreach hrun ih =>
    have hmoved := (step hreach.sound hrun).2
    obtain ⟨hmakes, hx⟩ := mem_sinceMade_cons.mp hx
    have hcreated : (a.isCreate && r.isOk) = false := by
      refine Bool.eq_false_iff.mpr fun hcreated => ?_
      cases hmakes.symm.trans (hmoved.created hcreated).1
    obtain ⟨hconnect, hpast⟩ := Unconnected.cons hnone hcreated
    rcases hx with rfl | hx
    · exact hmoved.unresolved_of_reached hreached (hconnect (connect_of_reached hreached).1)
    · exact ih hpast hx

/-- In every history without a connect that has ended well since the last create that has: no hardware address is
    shown, and no name either, unless a connect since the native socket was made has reached the peer and failed over
    the hardware address. The name that it was given then stays on the closed socket. -/
theorem unconnected_shows_lost_name (h : Reach past s) (hnone : Unconnected past) :
    s.mac = .zero ∧
    s.hostname = nameLeft past ∧
    ((∀ x ∈ sinceMade past, x.reached = none) → s.hostname = "") ∧
    (∀ x ∈ sinceMade past, ∀ peer, x.reached = some peer →
      s.peer = some peer ∧ ∃ e, x.resolver.mac peer.1 = .error e ∧ x.result = .error (.error e)) ∧
    (s.hostname ≠ "" → s.state = .closed) := by
  obtain ⟨hmac, hclosed⟩ := h.unconnected hnone
  refine ⟨hmac, h.hostname_eq, ?_, ?_, hclosed⟩
  · intro hreached
    have hname : (sinceMade past).findSome? Turn.name? = none :=
      List.findSome?_eq_none_iff.mpr fun x hx => by rw [Turn.name?, hreached x hx]; rfl
    rw [h.hostname_eq, nameLeft, hname]
    rfl
  · intro x hx peer hreached
    exact ⟨h.peer_of_reached hx hreached, h.unresolved_of_reached hnone hx hreached⟩

/-- A socket that was only created shows nothing. -/
theorem created_socket_shows_nothing : ∃ past s, Reach past s ∧ Unconnected past ∧ s.state = .initialized ∧
    s.mac = .zero ∧ s.hostname = "" := by
  have hreach := Reach.new.act oneEcho (.ofLists [] []) (.create (.v4 #v[127, 0, 0, 2]) 7 .tcp) (j := {}) rfl
  obtain ⟨hmac, -, hhostname, -⟩ := unconnected_shows_lost_name hreach (List.forall_mem_nil _)
  exact ⟨_, _, hreach, List.forall_mem_nil _, rfl, hmac, hhostname (List.forall_mem_nil _)⟩

/-- A resolver that knows the name of the peer and not its hardware address lets the connect fail, and the closed
    socket shows the name. -/
theorem name_of_failed_connect_is_left : ∃ past s, Reach past s ∧ Unconnected past ∧ s.state = .closed ∧
    s.hostname = "device.test" := by
  have hcreated := Reach.new.act oneEcho (.ofLists [] []) (.create (.v4 #v[127, 0, 0, 2]) 7 .tcp) (j := {}) rfl
  have hreach := hcreated.act oneEcho (.ofLists [] [(.v4 #v[127, 0, 0, 2], "device.test")]) .connect (j := {}) rfl
  exact ⟨_, _, hreach, List.forall_mem_singleton.mpr fun _ => rfl, rfl, rfl⟩

end Peripheral.Net.Socket
