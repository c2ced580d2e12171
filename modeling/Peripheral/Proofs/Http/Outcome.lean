import Peripheral.Proofs.Device.Refusals
import Peripheral.Proofs.Http.Session

/-
  Peripheral.Proofs.Http.Outcome — what the caller of a session over HTTP gets.

  An accepted request asks the client once, and what it comes to is decided by the client's answer
  alone (`Comes`). A read hands over the front of the body as far as the caller's buffer takes it,
  and leaves the rest of the buffer as it was (`filled`); a write hands the whole buffer to the
  client. After an error there is nothing in the buffer that was not there before.

  The session is the same after every request. So nothing is carried from one request to the next:
  with a client that answers a request in one way whenever it is asked, each of many requests
  ends as it would alone (`outcomes_of_alike`).
-/

namespace Peripheral.Http.Session

variable {s : Session} {ms : UInt32} {verb : Verb} {path url : String} {buffer bytes : List UInt8} {client : Client}
  {t : Transfer} {len : Nat}

/-! ## One request -/

theorem readyFor_eq_ok (hopen : s.requestMs = some ms) (hpath : path ≠ "") (hlen : len ≠ 0) (verb : Verb) :
    s.readyFor (.http verb path) len = .ok (verb, path, ms) := by
  have hpath' : path.isEmpty = false := Bool.eq_false_iff.mpr (mt String.isEmpty_iff.mp hpath)
  have hbuffer : checkBuffer len = .ok () := if_neg hlen
  unfold readyFor
  dsimp only
  rw [hbuffer, hopen, hpath']
  rfl

theorem read_comes (hopen : s.requestMs = some ms) (hpath : path ≠ "") (hlen : len ≠ 0) (client : Client) (j : Journal) :
    let asked := (client ms (resourceText s.identity path) .get []).run j
    ∃ out k, Comes (resourceText s.identity path) asked.1 out ∧ asked.2.Logged k ∧
      (read client (.http .get path) len).perform s j = ((out.map (List.take len)).mapError Failure.error, s, k) := by
  obtain ⟨out, k, hcomes, hlogged, hrun⟩ := run_send_comes client ms .get path [] s j
  refine ⟨out, k, hcomes, hlogged, ?_⟩
  rw [read, Op.perform_checked (fun s : Session => s.readyFor _ len) (readyFor_eq_ok hopen hpath hlen .get)]
  dsimp only
  rw [if_neg (not_not_intro rfl)]
  refine (Op.perform_map (List.take len) (Op.perform_of_run hrun)).trans ?_
  cases out <;> rfl

theorem write_comes (hopen : s.requestMs = some ms) (hpath : path ≠ "") (hbytes : bytes ≠ []) (hverb : verb ≠ .get)
    (client : Client) (j : Journal) :
    let asked := (client ms (resourceText s.identity path) verb bytes).run j
    ∃ out k, Comes (resourceText s.identity path) asked.1 out ∧ asked.2.Logged k ∧
      (write client (.http verb path) bytes).perform s j =
        ((out.map fun _ => bytes.length).mapError Failure.error, s, k) := by
  obtain ⟨out, k, hcomes, hlogged, hrun⟩ := run_send_comes client ms verb path bytes s j
  refine ⟨out, k, hcomes, hlogged, ?_⟩
  have hlen : bytes.length ≠ 0 := mt List.length_eq_zero_iff.mp hbytes
  rw [write, Op.perform_checked (fun s : Session => s.readyFor _ bytes.length) (readyFor_eq_ok hopen hpath hlen verb)]
  dsimp only
  rw [if_neg hverb]
  refine (Op.perform_unread bytes.length hrun).trans ?_
  cases out <;> rfl

/-! ## Buffers -/

/-- The buffer of a read that came to this: the body as far as it fits, and the rest as it was. -/
def filled (buffer : List UInt8) : Except LinkError (List UInt8) → List UInt8
  | .ok body => body.take buffer.length ++ buffer.drop body.length
  | .error _ => buffer

theorem filled_ok (buffer body : List UInt8) :
    filled buffer (.ok body) = body.take buffer.length ++ buffer.drop (body.take buffer.length).length := by
  rw [filled, List.length_take]
  rcases Nat.le_total body.length buffer.length with hle | hle
  · rw [Nat.min_eq_right hle]
  · rw [Nat.min_eq_left hle, List.drop_length, List.drop_eq_nil_of_le hle]

theorem readInto_of_ok {s' : Session} {j k : Journal} (h : (read client t buffer.length).perform s j = (.ok bytes, s', k)) :
    (readInto client t).perform ⟨s, buffer⟩ j = (.ok bytes.length, ⟨s', bytes ++ buffer.drop bytes.length⟩, k) := by
  rw [readInto, Op.perform_session_bind, Op.perform_eq, Op.run_bind, Op.run_onPart]
  dsimp only
  rw [h]
  rfl

theorem readInto_of_error {s' : Session} {j k : Journal} {f : Failure}
    (h : (read client t buffer.length).perform s j = (.error f, s', k)) :
    (readInto client t).perform ⟨s, buffer⟩ j = (.error f, ⟨s', buffer⟩, k) := by
  rw [readInto, Op.perform_session_bind, Op.perform_eq, Op.run_bind, Op.run_onPart]
  dsimp only
  rw [h]

theorem readInto_comes (hopen : s.requestMs = some ms) (hpath : path ≠ "") (hbuffer : buffer ≠ []) (client : Client)
    (j : Journal) :
    let asked := (client ms (resourceText s.identity path) .get []).run j
    ∃ out k, Comes (resourceText s.identity path) asked.1 out ∧ asked.2.Logged k ∧
      (readInto client (.http .get path)).perform ⟨s, buffer⟩ j =
        ((out.map fun body => min body.length buffer.length).mapError Failure.error, ⟨s, filled buffer out⟩, k) := by
  have hlen : buffer.length ≠ 0 := mt List.length_eq_zero_iff.mp hbuffer
  obtain ⟨out, k, hcomes, hlogged, hrun⟩ := read_comes hopen hpath hlen client j
  refine ⟨out, k, hcomes, hlogged, ?_⟩
  cases out with
  | error e => exact readInto_of_error hrun
  | ok body =>
    rw [readInto_of_ok hrun, filled_ok, List.length_take, Nat.min_comm]
    rfl

/-! ## Many requests -/

/-- A request of a caller: a read into a buffer or a write of one. -/
inductive Asked
  | read (t : Transfer) (buffer : List UInt8)
  | write (t : Transfer) (bytes : List UInt8)

/-- How a request ends and what its caller's buffer then holds, and the session and the journal
    that it leaves. -/
def Asked.outcome (client : Client) (s : Session) (j : Journal) :
    Asked → (Except Failure Nat × List UInt8) × Session × Journal
  | .read t buffer =>
    let (r, lent, k) := (readInto client t).perform ⟨s, buffer⟩ j
    ((r, lent.buffer), lent.session, k)
  | .write t bytes =>
    let (r, s, k) := (Session.write client t bytes).perform s j
    ((r, bytes), s, k)

/-- Each of several requests, one after the other. -/
def outcomes (client : Client) (s : Session) (j : Journal) :
    List Asked → List (Except Failure Nat × List UInt8) × Session × Journal
  | [] => ([], s, j)
  | a :: as =>
    let (r, s, j) := a.outcome client s j
    let (rs, s, j) := outcomes client s j as
    (r :: rs, s, j)

/-- The client answers every request in one way, whichever of the two journals was written before. -/
def AnswersAlike (client : Client) (j k : Journal) : Prop :=
  ∀ ms url verb body, ((client ms url verb body).run j).1 = ((client ms url verb body).run k).1

/-- An answer decides what a request comes to. -/
theorem Comes.unique {result : Result} {out out' : Except LinkError (List UInt8)} (h : Comes url result out)
    (h' : Comes url result out') : out = out' := by
  cases h with
  | good h =>
    cases h' with
    | good => rfl
    | refused h' => exact absurd h h'
  | refused h =>
    cases h' with
    | good h' => exact absurd h' h
    | refused => rfl
  | unreached h =>
    cases h' with
    | unreached => rfl
    | failed hconnect htimeout => simp [hconnect, htimeout] at h
  | failed hconnect htimeout =>
    cases h' with
    | unreached h' => simp [hconnect, htimeout] at h'
    | failed => rfl
  | brokenDown =>
    cases h'
    rfl

/-- No request changes the session. -/
theorem Asked.outcome_session (a : Asked) (s : Session) (j : Journal) : (a.outcome client s j).2.1 = s := by
  cases a with
  | read t buffer =>
    obtain ⟨r, k, hrun⟩ := run_read client t buffer.length s j
    rw [outcome]
    cases r with
    | error f => rw [readInto_of_error hrun]
    | ok bytes => rw [readInto_of_ok hrun]
  | write t bytes =>
    obtain ⟨r, k, hrun⟩ := run_write client t bytes s j
    rw [outcome, hrun]

theorem outcomes_session (as : List Asked) (s : Session) (j : Journal) : (outcomes client s j as).2.1 = s := by
  induction as generalizing s j with
  | nil => rfl
  | cons a as ih => exact (ih _ _).trans (a.outcome_session s j)

/-- A request that passes every check. -/
theorem accepted_of_refusal? {way : Device.Way} (h : Device.refusal? (.http s) way t len = none) : len ≠ 0 ∧
    ∃ verb path ms, t = .http verb path ∧ s.requestMs = some ms ∧ path ≠ "" ∧ Device.verbFault? verb way = none := by
  unfold Device.refusal? at h
  split at h
  case isTrue => cases h
  rename_i hkind
  split at h
  case isTrue => cases h
  rename_i hlen
  split at h
  case isTrue => cases h
  rename_i hopen
  cases t with
  | http verb path =>
    obtain ⟨ms, hms⟩ := Option.isSome_iff_exists.mp (Bool.not_eq_false _ ▸ hopen : s.requestMs.isSome = true)
    rw [Option.map_eq_none_iff, Device.requestFault?] at h
    split at h
    · cases h
    · rename_i hpath
      exact ⟨hlen, verb, path, ms, rfl, hms, hpath, h⟩
  | _ => simp [Transfer.kind, Device.carriedKinds, Device.transport] at hkind

theorem Asked.outcome_read {out : Except LinkError (List UInt8)} {j : Journal} (hopen : s.requestMs = some ms)
    (hpath : path ≠ "") (hbuffer : buffer ≠ [])
    (hcomes : Comes (resourceText s.identity path) ((client ms (resourceText s.identity path) .get []).run j).1 out) :
    ((Asked.read (.http .get path) buffer).outcome client s j).1 =
      ((out.map fun body => min body.length buffer.length).mapError Failure.error, filled buffer out) := by
  obtain ⟨out', k, hcomes', -, hrun⟩ := readInto_comes hopen hpath hbuffer client j
  rw [outcome, hrun, hcomes.unique hcomes']

theorem Asked.outcome_write {out : Except LinkError (List UInt8)} {j : Journal} (hopen : s.requestMs = some ms)
    (hpath : path ≠ "") (hbytes : bytes ≠ []) (hverb : verb ≠ .get)
    (hcomes : Comes (resourceText s.identity path) ((client ms (resourceText s.identity path) verb bytes).run j).1 out) :
    ((Asked.write (.http verb path) bytes).outcome client s j).1 =
      ((out.map fun _ => bytes.length).mapError Failure.error, bytes) := by
  obtain ⟨out', k, hcomes', -, hrun⟩ := write_comes hopen hpath hbytes hverb client j
  rw [outcome, hrun, hcomes.unique hcomes']

/-- Of what was done before, a request's end depends on the client's answers alone. -/
theorem Asked.outcome_of_alike {j k : Journal} (hclient : AnswersAlike client j k) (a : Asked) (s : Session) :
    (a.outcome client s j).1 = (a.outcome client s k).1 := by
  cases a with
  | read t buffer =>
    cases hrefusal : Device.refusal? (.http s) .reading t buffer.length with
    | some e =>
      have hrun : ∀ j, (Session.read client t buffer.length).perform s j = (.error (.error e), s, j) :=
        fun j => Device.http_read_refused hrefusal
      rw [outcome, outcome, readInto_of_error (hrun j), readInto_of_error (hrun k)]
    | none =>
      obtain ⟨hlen, verb, path, ms, rfl, hopen, hpath, hverb⟩ := accepted_of_refusal? hrefusal
      obtain rfl : verb = .get := by
        cases verb with
        | get => rfl
        | _ => cases hverb
      have hbuffer : buffer ≠ [] := mt List.length_eq_zero_iff.mpr hlen
      obtain ⟨out, _, hcomes, -⟩ := readInto_comes hopen hpath hbuffer client j
      rw [outcome_read hopen hpath hbuffer hcomes, outcome_read hopen hpath hbuffer (hclient _ _ _ _ ▸ hcomes)]
  | write t bytes =>
    cases hrefusal : Device.refusal? (.http s) .writing t bytes.length with
    | some e => rw [outcome, outcome, Device.http_write_refused hrefusal, Device.http_write_refused hrefusal]
    | none =>
      obtain ⟨hlen, verb, path, ms, rfl, hopen, hpath, hverb⟩ := accepted_of_refusal? hrefusal
      have hget : verb ≠ .get := by
        rintro rfl
        cases hverb
      have hbytes : bytes ≠ [] := mt List.length_eq_zero_iff.mpr hlen
      obtain ⟨out, _, hcomes, -⟩ := write_comes hopen hpath hbytes hget client j
      rw [outcome_write hopen hpath hbytes hget hcomes, outcome_write hopen hpath hbytes hget (hclient _ _ _ _ ▸ hcomes)]

/-- Each of several requests ends as it would alone. -/
theorem outcomes_of_alike (hclient : ∀ j k, AnswersAlike client j k) (as : List Asked) (s : Session) (j : Journal) :
    (outcomes client s j as).1 = as.map fun a => (a.outcome client s j).1 := by
  induction as generalizing j with
  | nil => rfl
  | cons a as ih =>
    rw [outcomes, List.map_cons]
    dsimp only
    rw [a.outcome_session s j, ih]
    simp only [Asked.outcome_of_alike (hclient _ j) _ s]

/-- In an open session the answer of the client is all that decides what an accepted request comes
    to. A read has the front of a good body in its buffer, and as much else as before; a write has
    given its whole buffer to the client. After any requests, failed ones included, the session is
    the one it was, and as long as the client answers alike so does every request. -/
theorem answers_decide_requests (hopen : s.requestMs = some ms) (hpath : path ≠ "") (hbuffer : buffer ≠ [])
    (client : Client) (j : Journal) :
    let url := resourceText s.identity path
    (let asked := (client ms url .get []).run j
      ∃ out k, Comes url asked.1 out ∧ asked.2.Logged k ∧ (readInto client (.http .get path)).perform ⟨s, buffer⟩ j =
        ((out.map fun body => min body.length buffer.length).mapError Failure.error, ⟨s, filled buffer out⟩, k)) ∧
      (∀ verb ≠ Verb.get, let asked := (client ms url verb buffer).run j
        ∃ out k, Comes url asked.1 out ∧ asked.2.Logged k ∧ (write client (.http verb path) buffer).perform s j =
          ((out.map fun _ => buffer.length).mapError Failure.error, s, k)) ∧
      ∀ as : List Asked, (outcomes client s j as).2.1 = s ∧
        (∀ a : Asked, AnswersAlike client (outcomes client s j as).2.2 j →
          (a.outcome client (outcomes client s j as).2.1 (outcomes client s j as).2.2).1 = (a.outcome client s j).1) ∧
        ((∀ j k, AnswersAlike client j k) → (outcomes client s j as).1 = as.map fun a => (a.outcome client s j).1) := by
  refine ⟨readInto_comes hopen hpath hbuffer client j,
    fun verb hverb => write_comes hopen hpath hbuffer hverb client j, fun as => ?_⟩
  have hsession : (outcomes client s j as).2.1 = s := outcomes_session as s j
  refine ⟨hsession, fun a hclient => ?_, fun hclient => outcomes_of_alike hclient as s j⟩
  rw [hsession, a.outcome_of_alike hclient s]

/-- A host that does not answer one request in time still answers the next one. -/
theorem slow_request_before_good_one :
    let s : Session := ⟨⟨"", .ofSegments .v4 [10, 0, 0, 1], .zero, 80, .tcp⟩, {}, some 500⟩
    let client : Client := fun _ url _ _ =>
      pure (if url = "http://10.0.0.1:80/slow" then .failed ⟨false, true, "timed out"⟩ else .response 200 [1, 2, 3])
    (∃ k, (readInto client (.http .get "data")).perform ⟨s, [8, 9]⟩ {} = (.ok 2, ⟨s, [1, 2]⟩, k)) ∧
      (outcomes client s {} [.read (.http .get "slow") [9], .read (.http .get "data") [6, 7, 8, 9]]).1 =
        [(.error (.error (.unreachable "http://10.0.0.1:80/slow: timed out")), [9]), (.ok 3, [1, 2, 3, 9])] := by
  intro s client
  have hopen : s.requestMs = some 500 := rfl
  obtain ⟨⟨out, k, hcomes, -, hread⟩, -, hmany⟩ :=
    answers_decide_requests hopen (by decide : "data" ≠ "") (List.cons_ne_nil 8 [9]) client {}
  have hslow : Comes (resourceText s.identity "slow") ((client 500 (resourceText s.identity "slow") .get []).run {}).1
      (.error (.unreachable (resourceText s.identity "slow" ++ ": " ++ "timed out"))) := by
    have hanswer : ((client 500 (resourceText s.identity "slow") .get []).run {}).1 = .failed ⟨false, true, "timed out"⟩ :=
      by decide
    exact hanswer ▸ .unreached (.inr rfl)
  have hdata : Comes (resourceText s.identity "data") ((client 500 (resourceText s.identity "data") .get []).run {}).1
      (.ok [1, 2, 3]) := by
    have hanswer : ((client 500 (resourceText s.identity "data") .get []).run {}).1 = .response 200 [1, 2, 3] := by decide
    exact hanswer ▸ .good (by decide)
  have htext : resourceText s.identity "slow" ++ ": " ++ "timed out" = "http://10.0.0.1:80/slow: timed out" := by decide
  obtain rfl : out = .ok [1, 2, 3] := hcomes.unique hdata
  refine ⟨⟨k, hread⟩, ?_⟩
  rw [(hmany _).2.2 fun _ _ _ _ _ _ => rfl, List.map_cons, List.map_singleton,
    Asked.outcome_read hopen (by decide) (List.cons_ne_nil 9 []) hslow,
    Asked.outcome_read hopen (by decide) (List.cons_ne_nil 6 [7, 8, 9]) hdata, htext]
  rfl

end Peripheral.Http.Session
