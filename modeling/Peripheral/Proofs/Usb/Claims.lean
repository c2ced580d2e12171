import Peripheral.Proofs.Usb.Enumerate

/-
  Peripheral.Proofs.Usb.Claims — what becomes of the handle and the interface of a session.

  A history is any order of opening, closing, configuring, reading and writing (`Reach`). Each
  operation meets a bus of its own: devices come and go, and any native call may fail. Its
  native calls are rounds (`Round`), one for each device that was opened or could not be; while
  the session is open, one more round has begun (`Current`).

  - Opening claims the configured interface on the new handle, if there is one, or fails and
    leaves the session alone (`openSession_opened`).
  - The session remembers the number that it has claimed. Closing passes this number to one
    release, whatever was configured since, and drops the handle, which releases what is still
    claimed and closes the device (`run_close`).
  - So each round that has ended is settled (`Round.settled`, `sessions_give_back_what_they_take`).

  Giving a session up is a last close.
-/

namespace Peripheral.Usb

/-! ## Histories -/

/-- What a caller does with a session. -/
inductive Action
  | openSession
  | close
  | configure (c : UsbConfiguration)
  | read (t : Transfer) (len : Nat)
  | write (t : Transfer) (bytes : List UInt8)

def Action.run (bus : Bus) : Action → Op Session Unit
  | openSession => Session.openSession bus
  | close => Session.close bus
  | configure c => Op.update fun s => { s with configuration := c }
  | read t len => do
    let _ ← Session.read bus t len
  | write t bytes => do
    let _ ← Session.write bus t bytes

/-- The sessions that a new one becomes, and their journals. -/
inductive Reach (id : UsbIdentity) (j₀ : Journal) : Session → Journal → Prop
  | new : Reach id j₀ { identity := id } j₀
  | act {s t : Session} {j k : Journal} {r : Except Failure Unit} (bus : Bus) (a : Action) : Reach id j₀ s j →
      (a.run bus).perform s j = (r, t, k) → Reach id j₀ t k

/-! ## Rounds -/

/-- The calls that open a device and claim what is wanted of it. -/
def opening (d : Nat) (a : Option Error) (claimed : Option UInt8) : List Call :=
  .openDevice d none :: claimed.toList.flatMap fun i => [.autoDetach d a, .claim d i none]

/-- The native calls of one opening, up to the end of what it has opened. -/
inductive Round : List Call → Prop
  | notOpened (d : Nat) (e : Error) : Round [.openDevice d (some e)]
  | notClaimed (d : Nat) (a : Option Error) (i : UInt8) (e : Error) :
      Round [.openDevice d none, .autoDetach d a, .claim d i (some e), .closeDevice d]
  /-- The session asks for the release of what it has claimed; the rest is the end of the handle. -/
  | closed (d : Nat) (a : Option Error) (claimed : Option UInt8) (ts : List Call) (f : Option Error)
      (ended : List Call) : Transfers d ts → Ended d (if f = none then none else claimed).toList ended →
      Round (opening d a claimed ++ ts ++ ((claimed.toList.map fun i => .release d i f) ++ ended))

/-- Everything that was taken is given back. -/
structure Settled (r : List Call) : Prop where
  /-- A device that was opened is closed, once and at the end. -/
  closed : ∀ d, .openDevice d none ∈ r → ∃ inside, r = .openDevice d none :: inside ++ [.closeDevice d] ∧
    ∀ c ∈ inside, c.isInside = true
  /-- What was claimed is passed to one release, under its number; the rest is the end of the handle. -/
  released : ∀ d i, .claim d i none ∈ r → ∃ before f ended, r = before ++ .release d i f :: ended ∧
    .claim d i none ∈ before ∧ (∀ e k g, .release e k g ∉ before) ∧ Ended d (if f = none then [] else [i]) ended

/-- The end of a handle is releases and one close. -/
theorem Ended.exists_releases {d : Nat} {claimed : List UInt8} {ended : List Call} (h : Ended d claimed ended) :
    ∃ releases, ended = releases ++ [.closeDevice d] ∧ ∀ c ∈ releases, ∃ i f, c = .release d i f := by
  induction h with
  | close => exact ⟨[], rfl, nofun⟩
  | release i f _ ih =>
    obtain ⟨releases, rfl, hreleases⟩ := ih
    refine ⟨.release d i f :: releases, rfl, ?_⟩
    intro c hc
    rcases List.mem_cons.mp hc with rfl | hc
    · exact ⟨i, f, rfl⟩
    · exact hreleases c hc

/-- What a session does with a device lies between its opening and its closing. -/
theorem exists_inside {d : Nat} {a f : Option Error} {claimed left : Option UInt8} {ts ended : List Call}
    (hts : Transfers d ts) (hended : Ended d left.toList ended) : ∃ inside,
    opening d a claimed ++ ts ++ ((claimed.toList.map fun i => .release d i f) ++ ended) =
      .openDevice d none :: inside ++ [.closeDevice d] ∧ ∀ c ∈ inside, c.isInside = true := by
  obtain ⟨releases, rfl, hreleases⟩ := hended.exists_releases
  refine ⟨(claimed.toList.flatMap fun i => [.autoDetach d a, .claim d i none]) ++ ts ++
    (claimed.toList.map fun i => .release d i f) ++ releases, by simp [opening], ?_⟩
  intro c hc
  simp only [List.mem_append, List.mem_flatMap, List.mem_map] at hc
  rcases hc with ((⟨i, -, hc⟩ | hc) | ⟨i, -, rfl⟩) | hc
  · rcases List.mem_pair.mp hc with rfl | rfl <;> rfl
  · obtain ⟨_, _, _, _, rfl⟩ := hts.eq_transfer hc
    rfl
  · rfl
  · obtain ⟨_, _, rfl⟩ := hreleases c hc
    rfl

/-- What is claimed was wanted when the device was opened. -/
theorem claim_mem_opening {d e : Nat} {a f : Option Error} {claimed left : Option UInt8} {ts ended : List Call} {i : UInt8}
    (hts : Transfers d ts) (hended : Ended d left.toList ended)
    (h : .claim e i none ∈ opening d a claimed ++ ts ++ ((claimed.toList.map fun i => .release d i f) ++ ended)) :
    e = d ∧ claimed = some i := by
  simp only [List.mem_append, List.mem_map] at h
  rcases h with (h | h) | ⟨i', -, h⟩ | h
  · cases claimed with
    | none => simp [opening] at h
    | some i' => simpa [opening, eq_comm] using h
  · obtain ⟨_, _, _, _, hc⟩ := hts.eq_transfer h
    cases hc
  · cases h
  · obtain ⟨releases, rfl, hreleases⟩ := hended.exists_releases
    rcases List.mem_append.mp h with h | h
    · obtain ⟨_, _, hc⟩ := hreleases _ h
      cases hc
    · cases List.mem_singleton.mp h

theorem Settled.of_closed {d : Nat} {a f : Option Error} {claimed : Option UInt8} {ts ended : List Call}
    (hts : Transfers d ts) (hended : Ended d (if f = none then none else claimed).toList ended) :
    Settled (opening d a claimed ++ ts ++ ((claimed.toList.map fun i => .release d i f) ++ ended)) := by
  refine ⟨?_, ?_⟩
  · intro e he
    obtain ⟨inside, hsplit, hinside⟩ := @exists_inside d a f claimed _ ts ended hts hended
    rw [hsplit, List.cons_append, List.mem_cons, List.mem_append, List.mem_singleton] at he
    rcases he with he | he | he
    · cases he
      exact ⟨inside, hsplit, hinside⟩
    · cases hinside _ he
    · cases he
  · intro e i hi
    obtain ⟨rfl, rfl⟩ := claim_mem_opening hts hended hi
    refine ⟨opening e a (some i) ++ ts, f, ended, by simp, by simp [opening], ?_, ?_⟩
    · intro e' k g h
      rcases List.mem_append.mp h with h | h
      · simp [opening] at h
      · obtain ⟨_, _, _, _, hc⟩ := hts.eq_transfer h
        cases hc
    · cases f <;> exact hended

theorem Round.settled {r : List Call} (h : Round r) : Settled r := by
  cases h with
  | notOpened d e => exact ⟨by simp, by simp⟩
  | notClaimed d a i e =>
    refine ⟨?_, by simp⟩
    intro d' hd'
    obtain rfl : d' = d := by simpa using hd'
    exact ⟨[.autoDetach d' a, .claim d' i (some e)], rfl, by simp [Call.isInside]⟩
  | closed d a claimed ts f ended hts hended => exact .of_closed hts hended

theorem Round.whole {r : List Call} (h : Round r) : Whole r := by
  cases h with
  | notOpened d e => exact .refused d e
  | notClaimed d a i e => exact .closed d [.autoDetach d a, .claim d i (some e)] (by simp [Call.isInside])
  | closed d a claimed ts f ended hts hended =>
    obtain ⟨inside, hsplit, hinside⟩ := @exists_inside d a f claimed _ ts ended hts hended
    rw [hsplit]
    exact .closed d inside hinside

/-! ## Opening and closing -/

variable {bus : Bus} {s : Session} {j : Journal}

/-- Opening an open session does nothing. -/
theorem openSession_of_open (bus : Bus) (j : Journal) {h : Handle} (hs : s.handle = some h) :
    (Session.openSession bus).perform s j = (.ok (), s, j) := by
  unfold Session.openSession Session.isOpen
  rw [Op.perform_eq, Op.run_bind, Op.run_session]
  simp only [hs, Option.isSome_some, if_true]
  rfl

/-- Nor does closing a closed one. -/
theorem close_of_closed (bus : Bus) (j : Journal) (hs : s.handle = none) :
    (Session.close bus).perform s j = (.ok (), s, j) := by
  unfold Session.close
  rw [Op.perform_eq, Op.run_bind, Op.run_session]
  simp only [hs]
  rfl

/-- Claiming an interface on a new handle, or dropping the handle. -/
theorem run_claimOn {σ : Type} (bus : Bus) (s : σ) (j : Journal) (d : Nat) (i : UInt8) : ∃ r k a,
    (Session.claimOn bus ⟨d, []⟩ i).run.run ⟨s, j⟩ = (r, ⟨s, k⟩) ∧
      ((∃ e, r = .error (.error e.link) ∧
          k.calls = j.calls ++ [.autoDetach d a, .claim d i (some e), .closeDevice d]) ∨
        r = .ok ⟨d, [i]⟩ ∧ k.calls = j.calls ++ [.autoDetach d a, .claim d i none]) := by
  obtain ⟨a, ha⟩ := bus.run_autoDetach ⟨d, []⟩ j
  obtain ⟨f, hf⟩ := bus.run_claim ⟨d, []⟩ (j.call (.autoDetach d a)) i
  unfold Session.claimOn
  rw [Op.run_bind, Op.run_act, ha]
  simp only
  rw [Op.run_bind, Op.run_act, hf]
  cases f with
  | none => exact ⟨_, _, a, rfl, .inr ⟨rfl, by simp⟩⟩
  | some e =>
    obtain ⟨ended, hcalls, hended⟩ := bus.run_drop ⟨d, []⟩ ((j.call (.autoDetach d a)).call (.claim d i (some e)))
    cases hended
    exact ⟨_, _, a, rfl, .inl ⟨e, rfl, hcalls.trans (by simp)⟩⟩

/-- How opening a closed session ends, and the native calls it makes. -/
inductive Opened (s : Session) : Except Failure Unit → Session → List Call → Prop
  | failed (e : LinkError) (new : List Call) : new = [] ∨ Round new → Opened s (.error (.error e)) s new
  | opened (h : Handle) (claimed : Option UInt8) (a : Option Error) : h.claimed = claimed.toList →
      Opened s (.ok ()) { s with handle := some h, claimed } (opening h.device a claimed)

theorem openSession_opened (bus : Bus) (j : Journal) (hs : s.handle = none) (hc : s.claimed = none) : ∃ r t k new,
    (Session.openSession bus).perform s j = (r, t, k) ∧ k.calls = j.calls ++ new ∧ Opened s r t new := by
  unfold Session.openSession Session.isOpen
  rw [Op.perform_eq, Op.run_bind, Op.run_session]
  simp only [hs, Option.isSome_none, Bool.false_eq_true, if_false]
  obtain ⟨r, k, hrun, ⟨e, new, rfl, hk, hnew⟩ | ⟨d, rfl, hk⟩⟩ := Session.run_openHandle bus s.identity s j
  · rw [Op.run_bind, hrun]
    refine ⟨_, _, _, new, rfl, hk, .failed e new ?_⟩
    rcases hnew with hnone | ⟨d, f, rfl⟩
    · exact .inl hnone
    · exact .inr (.notOpened d f)
  rw [Op.run_bind, hrun]
  simp only
  cases hi : s.configuration.interface with
  | none =>
    refine ⟨.ok (), { s with handle := some ⟨d, []⟩ }, _, opening d none s.claimed, rfl, ?_, ?_⟩
    · show k.calls = _
      rw [hk, hc]
      rfl
    · exact .opened ⟨d, []⟩ s.claimed none (by simp [hc])
  | some i =>
    simp only
    obtain ⟨r, k', a, hclaim, ⟨e, rfl, hk'⟩ | ⟨rfl, hk'⟩⟩ := run_claimOn bus s k d i
    · rw [Op.run_bind, hclaim]
      refine ⟨_, _, _, _, rfl, ?_, .failed e.link _ (.inr (.notClaimed d a i e))⟩
      show k'.calls = _
      rw [hk', hk]
      simp
    · rw [Op.run_bind, hclaim]
      refine ⟨.ok (), { s with handle := some ⟨d, [i]⟩, claimed := some i }, _, opening d a (some i), rfl, ?_, ?_⟩
      · show k'.calls = _
        rw [hk', hk]
        simp [opening]
      · exact .opened ⟨d, [i]⟩ (some i) a rfl

/-- What is released with success is no longer claimed. -/
theorem run_release_claimed (bus : Bus) (j : Journal) {h : Handle} {i : UInt8} (hc : h.claimed = [i]) : ∃ f h',
    (bus.release h i).run j = ((f, h'), j.call (.release h.device i f)) ∧ h'.device = h.device ∧
      h'.claimed = (if f = none then none else some i).toList := by
  obtain ⟨f, hf⟩ := bus.run_release h j i
  cases f with
  | none => exact ⟨none, _, hf, rfl, by simp [hc]⟩
  | some e => exact ⟨some e, h, hf, rfl, hc⟩

/-- A close asks for the release of what was claimed, whatever is configured now, and drops the handle. -/
theorem run_close (bus : Bus) (j : Journal) {h : Handle} (hs : s.handle = some h) (hc : h.claimed = s.claimed.toList) :
    ∃ k f ended, (Session.close bus).perform s j = (.ok (), { s with handle := none, claimed := none }, k) ∧
      k.calls = j.calls ++ ((s.claimed.toList.map fun i => .release h.device i f) ++ ended) ∧
      Ended h.device (if f = none then none else s.claimed).toList ended := by
  unfold Session.close Session.releaseClaimed
  rw [Op.perform_eq, Op.run_bind, Op.run_session]
  simp only [hs]
  rw [Op.run_bind, Op.run_set]
  simp only
  cases hi : s.claimed with
  | none =>
    rw [hi] at hc
    obtain ⟨ended, hcalls, hended⟩ := bus.run_drop h (j.log ⟨.debug, "USB device closed", [("device", s.identity.text)]⟩)
    rw [hc] at hended
    exact ⟨_, none, ended, rfl, hcalls, hended⟩
  | some i =>
    rw [hi] at hc
    obtain ⟨f, h', hrelease, hdevice, hclaimed⟩ := run_release_claimed bus j hc
    simp only
    rw [Op.run_bind, Op.run_bind, Op.run_act, hrelease]
    -- a release that fails is logged before the handle is dropped
    have hdrop : ∀ k : Journal, k.calls = j.calls ++ [.release h.device i f] → ∃ ended,
        ((bus.drop h').run k).2.calls = j.calls ++ ([i].map (fun i => .release h.device i f) ++ ended) ∧
          Ended h.device (if f = none then none else some i).toList ended := by
      intro k hk
      obtain ⟨ended, hcalls, hended⟩ := bus.run_drop h' k
      rw [hdevice, hclaimed] at hended
      refine ⟨ended, ?_, hended⟩
      rw [hcalls, hk, List.append_assoc]
      rfl
    cases f with
    | none =>
      obtain ⟨ended, hcalls, hended⟩ := hdrop ((j.call (.release h.device i none)).log
        ⟨.debug, "USB device closed", [("device", s.identity.text)]⟩) rfl
      exact ⟨_, none, ended, rfl, hcalls, hended⟩
    | some e =>
      obtain ⟨ended, hcalls, hended⟩ := hdrop (((j.call (.release h.device i (some e))).log
        ⟨.warn, "Failed to release interface",
          [("device", s.identity.text), ("interface", s!"{i}"), ("error", e.text)]⟩).log
        ⟨.debug, "USB device closed", [("device", s.identity.text)]⟩) rfl
      exact ⟨_, some e, ended, rfl, hcalls, hended⟩

/-! ## Reading and writing -/

theorem run_read (bus : Bus) (s : Session) (j : Journal) (t : Transfer) (len : Nat) : ∃ r k ts,
    (Session.read bus t len).run.run ⟨s, j⟩ = (r, ⟨s, k⟩) ∧ k.calls = j.calls ++ ts ∧
      (ts = [] ∨ ∃ h, s.handle = some h ∧ Transfers h.device ts) := by
  unfold Session.read
  rw [Op.run_bind, Op.run_session]
  refine run_ready (fun _ => handle_of_checks) (fun h _ => ?_) s j
  cases Session.pipeOf? Session.inward t with
  | none => exact .fail _
  | some pipe => exact TransfersOnly.bind (.read bus h _ _ _) fun r => .finish _ _ _ r

theorem run_write (bus : Bus) (s : Session) (j : Journal) (t : Transfer) (bytes : List UInt8) : ∃ r k ts,
    (Session.write bus t bytes).run.run ⟨s, j⟩ = (r, ⟨s, k⟩) ∧ k.calls = j.calls ++ ts ∧
      (ts = [] ∨ ∃ h, s.handle = some h ∧ Transfers h.device ts) := by
  unfold Session.write
  rw [Op.run_bind, Op.run_session]
  refine run_ready (fun _ => handle_of_checks) (fun h _ => ?_) s j
  cases Session.pipeOf? Session.outward t with
  | none => exact .fail _
  | some pipe => exact TransfersOnly.bind (.write bus h _ _ _) fun r => .finish _ _ _ r

/-! ## Whole histories -/

/-- What a session has called for since the last round ended. The claim is on the handle that the session has, and
    the session remembers its number. -/
inductive Current (s : Session) : List Call → Prop
  | closed : s.handle = none → s.claimed = none → Current s []
  | opened (h : Handle) (a : Option Error) (ts : List Call) : s.handle = some h → h.claimed = s.claimed.toList →
      Transfers h.device ts → Current s (opening h.device a s.claimed ++ ts)

theorem Current.transfers {cs ts : List Call} (h : Current s cs)
    (hts : ts = [] ∨ ∃ d, s.handle = some d ∧ Transfers d.device ts) : Current s (cs ++ ts) := by
  rcases hts with rfl | ⟨d, hd, hts⟩
  · rwa [List.append_nil]
  · cases h with
    | closed hs => rw [hs] at hd; cases hd
    | opened h a us hs hc hus =>
      rw [hs] at hd
      cases hd
      rw [List.append_assoc]
      exact .opened d a _ hs hc (hus.append hts)

/-- Only an open session remembers a claim, and the claim was made in the round that has begun. -/
theorem Current.claimed {cs : List Call} (h : Current s cs) {i : UInt8} (hi : s.claimed = some i) :
    ∃ d, s.handle = some d ∧ d.claimed = [i] ∧ .claim d.device i none ∈ cs := by
  cases h with
  | closed _ hnone =>
    rw [hnone] at hi
    cases hi
  | opened h a ts hs hc hts =>
    rw [hi] at hc ⊢
    exact ⟨h, hs, hc, by simp [opening]⟩

/-- Rounds that have ended, and the one that has begun. -/
def Rounds (j₀ : Journal) (s : Session) (j : Journal) : Prop :=
  ∃ (rounds : List (List Call)) (current : List Call), j.calls = j₀.calls ++ rounds.flatten ++ current ∧
    (∀ r ∈ rounds, Round r) ∧ Current s current

theorem rounds_of_ended {j₀ k : Journal} {t : Session} {rounds : List (List Call)} {new : List Call}
    (hcalls : k.calls = j₀.calls ++ rounds.flatten ++ new) (hrounds : ∀ r ∈ rounds, Round r) (hnew : Round new)
    (ht : t.handle = none) (hc : t.claimed = none) : Rounds j₀ t k := by
  refine ⟨rounds ++ [new], [], ?_, ?_, .closed ht hc⟩
  · rw [hcalls]
    simp
  · intro r hr
    rcases List.mem_append.mp hr with hr | hr
    · exact hrounds r hr
    · rwa [List.mem_singleton.mp hr]

theorem rounds_step {j₀ k : Journal} {t : Session} {r : Except Failure Unit} (a : Action) (hj : Rounds j₀ s j)
    (hrun : (a.run bus).perform s j = (r, t, k)) : Rounds j₀ t k := by
  obtain ⟨rounds, current, hcalls, hrounds, hcurrent⟩ := hj
  cases a with
  | openSession =>
    cases hcurrent with
    | opened h a ts hs hc hts =>
      cases hrun.symm.trans (openSession_of_open bus j hs)
      exact ⟨rounds, _, hcalls, hrounds, .opened h a ts hs hc hts⟩
    | closed hs hc =>
      rw [List.append_nil] at hcalls
      obtain ⟨r', t', k', new, hopen, hk, hnew⟩ := openSession_opened bus j hs hc
      cases hopen.symm.trans hrun
      cases hnew with
      | failed e new hround =>
        rcases hround with rfl | hround
        · exact ⟨rounds, [], by rw [hk, hcalls], hrounds, .closed hs hc⟩
        · exact rounds_of_ended (by rw [hk, hcalls]) hrounds hround hs hc
      | opened h claimed a hclaimed =>
        refine ⟨rounds, opening h.device a claimed ++ [], ?_, hrounds, .opened h a [] rfl hclaimed (transfers_nil _)⟩
        rw [hk, hcalls, List.append_nil]
  | close =>
    cases hcurrent with
    | closed hs hc =>
      cases hrun.symm.trans (close_of_closed bus j hs)
      exact ⟨rounds, [], hcalls, hrounds, .closed hs hc⟩
    | opened h a ts hs hc hts =>
      obtain ⟨k', f, ended, hclose, hk, hended⟩ := run_close bus j hs hc
      cases hrun.symm.trans hclose
      have hround := Round.closed h.device a s.claimed ts f ended hts hended
      refine rounds_of_ended ?_ hrounds hround rfl rfl
      rw [hk, hcalls, List.append_assoc _ _ (_ ++ ended)]
  | configure c =>
    cases hrun
    refine ⟨rounds, current, hcalls, hrounds, ?_⟩
    cases hcurrent with
    | closed hs hc => exact .closed hs hc
    | opened h a ts hs hc hts => exact .opened h a ts hs hc hts
  | read x len =>
    obtain ⟨r', k', ts, hread, hk, hts⟩ := run_read bus s j x len
    cases hrun.symm.trans (Op.perform_unread _ hread)
    exact ⟨rounds, current ++ ts, by rw [hk, hcalls, List.append_assoc], hrounds, hcurrent.transfers hts⟩
  | write x bytes =>
    obtain ⟨r', k', ts, hwrite, hk, hts⟩ := run_write bus s j x bytes
    cases hrun.symm.trans (Op.perform_unread _ hwrite)
    exact ⟨rounds, current ++ ts, by rw [hk, hcalls, List.append_assoc], hrounds, hcurrent.transfers hts⟩

theorem rounds {id : UsbIdentity} {j₀ : Journal} (h : Reach id j₀ s j) : Rounds j₀ s j := by
  induction h with
  | new => exact ⟨[], [], by simp, nofun, .closed rfl rfl⟩
  | act bus a _ hrun ih => exact rounds_step a ih hrun

/-- However the native calls end, a session is closed after a close. -/
theorem close_of_rounds (bus : Bus) {j₀ : Journal} (h : Rounds j₀ s j) : ∃ k,
    (Session.close bus).perform s j = (.ok (), { s with handle := none, claimed := none }, k) := by
  obtain ⟨rounds, current, -, -, hcurrent⟩ := h
  cases hcurrent with
  | closed hs hc => exact ⟨j, by rw [close_of_closed bus j hs, ← hs, ← hc]⟩
  | opened h a ts hs hc hts =>
    obtain ⟨k, f, ended, hclose, -, -⟩ := run_close bus j hs hc
    exact ⟨k, hclose⟩

/-- A closed session has given back what it has taken. -/
theorem Rounds.whole {j₀ : Journal} (h : Rounds j₀ s j) (hs : s.handle = none) : ∃ rounds : List (List Call),
    j.calls = j₀.calls ++ rounds.flatten ∧ ∀ r ∈ rounds, Whole r := by
  obtain ⟨rounds, current, hcalls, hrounds, hcurrent⟩ := h
  cases hcurrent with
  | closed => exact ⟨rounds, hcalls.trans (List.append_nil _), fun r hr => (hrounds r hr).whole⟩
  | opened h a ts hopen =>
    rw [hs] at hopen
    cases hopen

/-- An open that fails leaves the session as it is, whatever it has called for. -/
theorem openSession_of_error {id : UsbIdentity} {j₀ k : Journal} {t : Session} {e : Failure} (h : Reach id j₀ s j)
    (hopen : (Session.openSession bus).perform s j = (.error e, t, k)) : t = s := by
  obtain ⟨rounds, current, -, -, hcurrent⟩ := rounds h
  cases hcurrent with
  | opened h a ts hs hc hts => cases (openSession_of_open bus j hs).symm.trans hopen
  | closed hs hc =>
    obtain ⟨r', t', k', new, hopen', -, hnew⟩ := openSession_opened bus j hs hc
    cases hopen'.symm.trans hopen
    cases hnew with
    | failed e new hround => rfl

/-- In every history, and whatever the native calls answer: each round that has ended is settled; a claim is
    remembered only beside the handle that it was made on; an open that fails changes nothing; and a close ends the
    round that has begun, with one release of what was claimed in it. -/
theorem sessions_give_back_what_they_take {id : UsbIdentity} {j₀ : Journal} (hreach : Reach id j₀ s j) :
    ∃ (rounds : List (List Call)) (current : List Call),
      j.calls = j₀.calls ++ rounds.flatten ++ current ∧
      (∀ r ∈ rounds, Round r ∧ Settled r) ∧
      Current s current ∧
      (∀ i, s.claimed = some i → ∃ h, s.handle = some h ∧ h.claimed = [i] ∧ .claim h.device i none ∈ current) ∧
      (∀ bus e t k, (Session.openSession bus).perform s j = (.error e, t, k) → t = s) ∧
      ∀ bus, ∃ k last,
        (Session.close bus).perform s j = (.ok (), { s with handle := none, claimed := none }, k) ∧
        k.calls = j.calls ++ last ∧
        (s.handle = none → current = [] ∧ last = []) ∧
        ∀ h, s.handle = some h → Settled (current ++ last) ∧ ∃ f ended,
          last = (s.claimed.toList.map fun i => .release h.device i f) ++ ended ∧
          Ended h.device (if f = none then none else s.claimed).toList ended := by
  obtain ⟨rounds, current, hcalls, hrounds, hcurrent⟩ := rounds hreach
  refine ⟨rounds, current, hcalls, ?_, hcurrent, fun i hi => hcurrent.claimed hi, ?_, ?_⟩
  · intro r hr
    exact ⟨hrounds r hr, (hrounds r hr).settled⟩
  · intro bus e t k hopen
    exact openSession_of_error hreach hopen
  · intro bus
    cases hcurrent with
    | closed hs hc =>
      refine ⟨j, [], ?_, (List.append_nil _).symm, fun _ => ⟨rfl, rfl⟩, ?_⟩
      · rw [close_of_closed bus j hs, ← hs, ← hc]
      · intro h hh
        rw [hs] at hh
        cases hh
    | opened h a ts hs hc hts =>
      obtain ⟨k, f, ended, hclose, hk, hended⟩ := run_close bus j hs hc
      refine ⟨k, _, hclose, hk, ?_, ?_⟩
      · intro hnone
        rw [hs] at hnone
        cases hnone
      · intro h' hh'
        cases hs.symm.trans hh'
        exact ⟨.of_closed hts hended, f, ended, rfl, hended⟩

/-- The chip is opened with interface 1 and configured for interface 2; the close gives 1 to the release. -/
theorem sessions_give_back_what_they_take_of_reconfigured : ∃ s j, Reach ⟨"", "", "", "1", ftdiVendor, 0x6010⟩ {} s j ∧
    s.configuration.interface = some 2 ∧ s.claimed = some 1 ∧
    ∃ k f ended, (Session.close oneChip).perform s j = (.ok (), { s with handle := none, claimed := none }, k) ∧
      k.calls = j.calls ++ .release 0 1 f :: ended ∧ Ended 0 (if f = none then [] else [1]) ended := by
  have hnew : Reach ⟨"", "", "", "1", ftdiVendor, 0x6010⟩ {} { identity := ⟨"", "", "", "1", ftdiVendor, 0x6010⟩ } {} :=
    .new
  have hreach := ((hnew.act oneChip (.configure { interface := some 1 }) rfl).act oneChip .openSession rfl).act oneChip
    (.configure { interface := some 2 }) rfl
  obtain ⟨_, _, -, -, -, -, -, hclose⟩ := sessions_give_back_what_they_take hreach
  obtain ⟨k, last, hperform, hk, -, hopen⟩ := hclose oneChip
  obtain ⟨-, f, ended, rfl, hended⟩ := hopen ⟨0, [1]⟩ rfl
  refine ⟨_, _, hreach, rfl, rfl, k, f, ended, hperform, hk, ?_⟩
  cases f <;> exact hended

end Peripheral.Usb
