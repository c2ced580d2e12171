import Peripheral.Http.Session
import Peripheral.Proofs.Op

/-
  Peripheral.Proofs.Http.Session — what the operations on a session over HTTP leave.

  A session is opened with the time that its requests may take, and closing forgets it;
  requests leave the session alone, however they end.
-/

namespace Peripheral

/-- The second journal has the first one's calls and requests; it may have more events. -/
def Journal.Logged (j k : Journal) : Prop := ∃ events, k = { j with events := j.events ++ events }

theorem Journal.Logged.refl (j : Journal) : j.Logged j := ⟨[], by simp⟩

theorem Journal.logged_log (j : Journal) (e : LogEvent) : j.Logged (j.log e) := ⟨[e], rfl⟩

namespace Http.Session

variable {s : Session} {j : Journal}

/-- Opening an open session does nothing. -/
theorem openSession_of_open (failure : Option StartFailure) (j : Journal) (hs : s.isOpen = true) :
    (openSession failure).perform s j = (.ok (), s, j) := by
  unfold openSession
  rw [Op.perform_eq, Op.run_bind, Op.run_session]
  simp only [hs, if_true]
  rfl

theorem run_openSession (j : Journal) (hs : s.isOpen = false) :
    (openSession none).perform s j = (.ok (), { s with requestMs := some (max s.configuration.timeoutMs 1) },
      j.log ⟨.info, "HTTP device opened", [("device", s.identity.text)]⟩) := by
  unfold openSession
  rw [Op.perform_eq, Op.run_bind, Op.run_session]
  simp only [hs, Bool.false_eq_true, if_false]
  rfl

/-- What keeps the client from being made is what the open reports. -/
theorem openSession_of_failure (f : StartFailure) (j : Journal) (hs : s.isOpen = false) :
    (openSession (some f)).perform s j = (.error (.error f.link), s, j) := by
  unfold openSession
  rw [Op.perform_eq, Op.run_bind, Op.run_session]
  simp only [hs, Bool.false_eq_true, if_false]
  rfl

theorem run_close (s : Session) (j : Journal) : ∃ k,
    close.perform s j = (.ok (), { s with requestMs := none }, k) ∧ (s.isOpen = false → k = j) := by
  unfold close
  rw [Op.perform_eq, Op.run_bind, Op.run_session]
  cases hs : s.isOpen with
  | true =>
    simp only [hs, if_true]
    exact ⟨_, rfl, nofun⟩
  | false =>
    have hnone : { s with requestMs := none } = s := by
      have hms : s.requestMs = none := Option.not_isSome_iff_eq_none.mp (Bool.eq_false_iff.mp hs)
      rw [← hms]
    rw [hnone]
    simp only [hs, Bool.false_eq_true, if_false]
    exact ⟨j, rfl, fun _ => rfl⟩

/-- What a request comes to, by how it ends: the body of a response with a status of 2xx, or an
    error. Only where there was no connection, or nothing in time, the host is not reached. -/
inductive Comes (url : String) : Result → Except LinkError (List UInt8) → Prop
  | good {status : Nat} {body : List UInt8} (h : 200 ≤ status ∧ status ≤ 299) :
      Comes url (.response status body) (.ok body)
  | refused {status : Nat} {body : List UInt8} (h : ¬ (200 ≤ status ∧ status ≤ 299)) :
      Comes url (.response status body) (.error (.native status (statusText status)))
  | unreached {fault : Fault} (h : fault.isConnect = true ∨ fault.isTimeout = true) :
      Comes url (.failed fault) (.error (.unreachable s!"{url}: {fault.reason}"))
  | failed {fault : Fault} (hconnect : fault.isConnect = false) (htimeout : fault.isTimeout = false) :
      Comes url (.failed fault) (.error (.resource fault.reason))
  | brokenDown : Comes url .brokenDown (.error (.resource "HTTP worker thread panicked"))

theorem isSuccess_iff (status : Nat) : isSuccess status = true ↔ 200 ≤ status ∧ status ≤ 299 := by
  simp [isSuccess, Nat.lt_succ_iff]

/-- The client is asked once, and besides it there are only events. -/
theorem run_send_comes (client : Client) (ms : UInt32) (verb : Verb) (path : String) (body : List UInt8) (s : Session)
    (j : Journal) :
    let asked := (client ms (resourceText s.identity path) verb body).run j
    ∃ out k, Comes (resourceText s.identity path) asked.1 out ∧ asked.2.Logged k ∧
      (send client ms verb path body).run.run ⟨s, j⟩ = (out.mapError Failure.error, ⟨s, k⟩) := by
  dsimp only
  unfold send
  rw [Op.run_bind, Op.run_session]
  dsimp only
  rw [Op.run_bind, Op.run_act]
  dsimp only
  generalize resourceText s.identity path = url
  rcases (client ms url verb body).run j with ⟨result, k⟩
  cases result with
  | brokenDown => exact ⟨_, _, .brokenDown, .refl k, rfl⟩
  | failed fault =>
    dsimp only
    rw [Op.run_bind, Op.run_log]
    dsimp only
    split
    · rename_i h
      exact ⟨_, _, .unreached (Bool.or_eq_true _ _ ▸ h), k.logged_log _, rfl⟩
    · rename_i h
      rw [Bool.not_eq_true, Bool.or_eq_false_iff] at h
      exact ⟨_, _, .failed h.1 h.2, k.logged_log _, rfl⟩
  | response status content =>
    dsimp only
    rw [Op.run_bind, Op.run_log]
    dsimp only
    split
    · rename_i h
      exact ⟨_, _, .good ((isSuccess_iff status).mp h), k.logged_log _, rfl⟩
    · rename_i h
      exact ⟨_, _, .refused (mt (isSuccess_iff status).mpr h), k.logged_log _, rfl⟩

theorem run_send (client : Client) (ms : UInt32) (verb : Verb) (path : String) (body : List UInt8) (s : Session)
    (j : Journal) : ∃ r k, (send client ms verb path body).run.run ⟨s, j⟩ = (r, ⟨s, k⟩) := by
  obtain ⟨out, k, -, -, hrun⟩ := run_send_comes client ms verb path body s j
  exact ⟨_, _, hrun⟩

/-- A request and what is made of its body. -/
theorem run_request {α : Type} (client : Client) (ms : UInt32) (verb : Verb) (path : String) (body : List UInt8)
    (f : List UInt8 → α) (s : Session) (j : Journal) : ∃ r k,
    (do return f (← send client ms verb path body) : Op Session α).run.run ⟨s, j⟩ = (r, ⟨s, k⟩) := by
  obtain ⟨r, k, hrun⟩ := run_send client ms verb path body s j
  rw [Op.run_bind, hrun]
  cases r with
  | error e => exact ⟨_, _, rfl⟩
  | ok a => exact ⟨_, _, rfl⟩

theorem run_read (client : Client) (t : Transfer) (len : Nat) (s : Session) (j : Journal) : ∃ r k,
    (read client t len).perform s j = (r, s, k) := by
  unfold read
  rw [Op.perform_eq, Op.run_bind, Op.run_session]
  dsimp only
  rw [Op.run_bind, Op.run_require]
  cases s.readyFor t len with
  | error e => exact ⟨_, j, rfl⟩
  | ok request =>
    obtain ⟨verb, path, ms⟩ := request
    simp only [Op.mapError_ok]
    by_cases hverb : verb = .get
    · rw [if_neg (fun h => h hverb)]
      obtain ⟨r, k, hrun⟩ := run_request client ms .get path [] (List.take len) s j
      exact ⟨r, k, by rw [hrun]⟩
    · rw [if_pos hverb]
      exact ⟨_, j, rfl⟩

theorem run_write (client : Client) (t : Transfer) (bytes : List UInt8) (s : Session) (j : Journal) : ∃ r k,
    (write client t bytes).perform s j = (r, s, k) := by
  unfold write
  rw [Op.perform_eq, Op.run_bind, Op.run_session]
  dsimp only
  rw [Op.run_bind, Op.run_require]
  cases s.readyFor t bytes.length with
  | error e => exact ⟨_, j, rfl⟩
  | ok request =>
    obtain ⟨verb, path, ms⟩ := request
    simp only [Op.mapError_ok]
    by_cases hverb : verb = .get
    · rw [if_pos hverb]
      exact ⟨_, j, rfl⟩
    · rw [if_neg hverb]
      obtain ⟨r, k, hrun⟩ := run_request client ms verb path bytes (fun _ => bytes.length) s j
      exact ⟨r, k, by rw [hrun]⟩

end Http.Session

end Peripheral
