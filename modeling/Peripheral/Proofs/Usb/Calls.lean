import Mathlib.Data.List.Basic
import Peripheral.Proofs.Op
import Peripheral.Usb.Session

/-
  Peripheral.Proofs.Usb.Calls — the native calls that the operations on a bus make.

  Each operation adds its calls at the end of the journal. Whatever a call answers, it is
  recorded with its answer; a handle counts an interface as claimed from a claim that
  succeeded to a release that succeeded, and dropping the handle releases what is left.

  What sessions share: an open that finds no device makes no call or a failed one
  (`run_openHandle`), and a transfer leaves the session alone (`TransfersOnly`).
-/

namespace Peripheral

@[simp] theorem Journal.calls_log (j : Journal) (e : LogEvent) : (j.log e).calls = j.calls := rfl

@[simp] theorem Journal.calls_call (j : Journal) (c : Usb.Call) : (j.call c).calls = j.calls ++ [c] := rfl

namespace Usb

/-- Nothing but transfers on one device. -/
def Transfers (d : Nat) (calls : List Call) : Prop := ∀ c ∈ calls, c.isTransferOf d = true

theorem transfers_nil (d : Nat) : Transfers d [] := nofun

theorem Transfers.append {d : Nat} {cs ds : List Call} (hc : Transfers d cs) (hd : Transfers d ds) :
    Transfers d (cs ++ ds) := by
  intro c h
  rcases List.mem_append.mp h with h | h
  · exact hc c h
  · exact hd c h

theorem Transfers.eq_transfer {d : Nat} {ts : List Call} (h : Transfers d ts) {c : Call} (hc : c ∈ ts) :
    ∃ pipe len ms sent, c = .transfer d pipe len ms sent := by
  have htransfer := h c hc
  cases c with
  | transfer e pipe len ms sent =>
    rw [beq_iff_eq.mp htransfer]
    exact ⟨pipe, len, ms, sent, rfl⟩
  | _ => cases htransfer

/-- A call that neither opens nor closes a device. -/
def Call.isInside : Call → Bool
  | openDevice _ _ | closeDevice _ => false
  | _ => true

/-- What is done with a device from its opening to its end, or an opening that was refused. -/
inductive Whole : List Call → Prop
  | refused (d : Nat) (e : Error) : Whole [.openDevice d (some e)]
  | closed (d : Nat) (inside : List Call) : (∀ c ∈ inside, c.isInside = true) →
      Whole (.openDevice d none :: inside ++ [.closeDevice d])

/-- The end of a handle: each interface still claimed on it is released, then the device is closed. -/
inductive Ended (d : Nat) : List UInt8 → List Call → Prop
  | close : Ended d [] [.closeDevice d]
  | release (i : UInt8) (f : Option Error) {claimed : List UInt8} {calls : List Call} : Ended d claimed calls →
      Ended d (i :: claimed) (.release d i f :: calls)

namespace Bus

variable (bus : Bus) (h : Handle) (j : Journal)

theorem run_openDevice (d : Nat) : ∃ f : Option Error,
    (bus.openDevice d).run j =
      (match f with | some e => .error e | none => .ok ⟨d, []⟩, j.call (.openDevice d f)) := ⟨_, rfl⟩

theorem run_autoDetach : ∃ f : Option Error,
    (bus.autoDetach h).run j = ((), j.call (.autoDetach h.device f)) := ⟨_, rfl⟩

theorem run_claim (i : UInt8) : ∃ f : Option Error,
    (bus.claim h i).run j =
      ((f, if f.isNone then { h with claimed := insertInterface i h.claimed } else h),
        j.call (.claim h.device i f)) := ⟨_, rfl⟩

theorem run_release (i : UInt8) : ∃ f : Option Error,
    (bus.release h i).run j =
      ((f, if f.isNone then { h with claimed := h.claimed.filter (· != i) } else h),
        j.call (.release h.device i f)) := ⟨_, rfl⟩

theorem run_drop_none (hc : h.claimed = []) : (bus.drop h).run j = ((), j.call (.closeDevice h.device)) := by
  unfold drop
  rw [hc]
  rfl

theorem run_drop_one {i : UInt8} (hc : h.claimed = [i]) : ∃ f : Option Error,
    (bus.drop h).run j = ((), (j.call (.release h.device i f)).call (.closeDevice h.device)) := by
  unfold drop
  rw [hc]
  exact ⟨_, rfl⟩

theorem run_releaseAll (is : List UInt8) : ∃ ended,
    ((bus.releaseAll h is).run j).2.calls ++ [.closeDevice h.device] = j.calls ++ ended ∧ Ended h.device is ended := by
  induction is generalizing j with
  | nil => exact ⟨_, rfl, .close⟩
  | cons i is ih =>
    obtain ⟨f, hf⟩ := bus.run_release h j i
    obtain ⟨ended, hcalls, hended⟩ := ih (j.call (.release h.device i f))
    refine ⟨.release h.device i f :: ended, ?_, .release i f hended⟩
    show ((bus.releaseAll h is).run ((bus.release h i).run j).2).2.calls ++ [.closeDevice h.device] = _
    rw [hf, hcalls, Journal.calls_call, List.append_assoc]
    rfl

theorem run_drop : ∃ ended, ((bus.drop h).run j).2.calls = j.calls ++ ended ∧ Ended h.device h.claimed ended :=
  bus.run_releaseAll h j h.claimed

theorem run_read (pipe : Pipe) (len : Nat) (ms : UInt32) : ∃ r k ts,
    (bus.read h pipe len ms).run j = (r, k) ∧ k.calls = j.calls ++ ts ∧ Transfers h.device ts := by
  unfold read
  by_cases hp : isInput pipe.address = true
  · simp only [hp]
    refine ⟨_, _, [_], rfl, rfl, ?_⟩
    intro c hc
    rw [List.mem_singleton.mp hc]
    exact beq_self_eq_true _
  · simp only [hp]
    exact ⟨_, _, [], rfl, (List.append_nil _).symm, transfers_nil _⟩

/-- No more bytes are read than were asked for. -/
theorem length_le_of_read {pipe : Pipe} {len : Nat} {ms : UInt32} {bytes : List UInt8}
    (hread : ((bus.read h pipe len ms).run j).1 = .ok bytes) : bytes.length ≤ len := by
  unfold read at hread
  by_cases hin : isInput pipe.address = true
  · rw [hin, Bool.not_true, if_neg Bool.false_ne_true, Act.run_bind, Act.run_bind] at hread
    generalize ((bus.next h.device _ _ _).run j).1 = o at hread
    have hgot : bytes = o.data.take (wireLength pipe len) := by
      cases hfailure : o.failure with
      | none =>
        simp only [hfailure] at hread
        exact (Except.ok.inj hread).symm
      | some e =>
        simp only [hfailure] at hread
        split at hread
        · exact (Except.ok.inj hread).symm
        · cases hread
    have hwire : wireLength pipe len ≤ len := by
      unfold wireLength
      split
      · exact Nat.mod_le _ _
      · exact Nat.le_refl _
    rw [hgot, List.length_take]
    omega
  · rw [eq_false_of_ne_true hin] at hread
    cases hread

theorem run_write (pipe : Pipe) (bytes : List UInt8) (ms : UInt32) : ∃ r k ts,
    (bus.write h pipe bytes ms).run j = (r, k) ∧ k.calls = j.calls ++ ts ∧ Transfers h.device ts := by
  unfold write
  by_cases hp : isInput pipe.address = true
  · simp only [hp]
    exact ⟨_, _, [], rfl, (List.append_nil _).symm, transfers_nil _⟩
  · simp only [hp]
    refine ⟨_, _, [_], rfl, rfl, ?_⟩
    intro c hc
    rw [List.mem_singleton.mp hc]
    exact beq_self_eq_true _

end Bus

/-! ## Sessions -/

/-- What is found is opened. -/
theorem Session.run_openHandle_found {σ : Type} {bus : Bus} {id : UsbIdentity} {d : Nat} (hfind : find bus id = .ok d)
    (c : Scene σ) :
    (openHandle bus id).run.run c = (((bus.openDevice d).run c.journal).1.mapError fun e => .error e.link,
      { c with journal := ((bus.openDevice d).run c.journal).2 }) := by
  unfold openHandle
  rw [hfind, Op.run_bind, Op.run_require]
  simp only [Op.mapError_ok]
  rw [Op.run_bind, Op.run_act]
  cases ((bus.openDevice d).run c.journal).1 <;> rfl

theorem Session.run_openHandle {σ : Type} (bus : Bus) (id : UsbIdentity) (s : σ) (j : Journal) : ∃ r k,
    (openHandle bus id).run.run ⟨s, j⟩ = (r, ⟨s, k⟩) ∧
      ((∃ e new, r = .error (.error e) ∧ k.calls = j.calls ++ new ∧
          (new = [] ∨ ∃ d f, new = [.openDevice d (some f)])) ∨
        ∃ d, r = .ok ⟨d, []⟩ ∧ k.calls = j.calls ++ [.openDevice d none]) := by
  cases hfind : find bus id with
  | error e =>
    unfold openHandle
    rw [Op.run_bind, Op.run_require, hfind]
    exact ⟨_, j, rfl, .inl ⟨e, [], rfl, (List.append_nil _).symm, .inl rfl⟩⟩
  | ok d =>
    obtain ⟨f, hf⟩ := bus.run_openDevice j d
    rw [run_openHandle_found hfind, hf]
    cases f with
    | some e => exact ⟨_, _, rfl, .inl ⟨e.link, _, rfl, Journal.calls_call _ _, .inr ⟨d, e, rfl⟩⟩⟩
    | none => exact ⟨_, _, rfl, .inr ⟨d, rfl, Journal.calls_call _ _⟩⟩

/-- Leaves the session alone and calls for nothing but transfers on one device. -/
def TransfersOnly {σ α : Type} (d : Nat) (op : Op σ α) : Prop :=
  ∀ s j, ∃ r k ts, op.run.run ⟨s, j⟩ = (r, ⟨s, k⟩) ∧ k.calls = j.calls ++ ts ∧ Transfers d ts

namespace TransfersOnly

variable {σ α β : Type} {d : Nat}

theorem bind {x : Op σ α} {f : α → Op σ β} (hx : TransfersOnly d x) (hf : ∀ a, TransfersOnly d (f a)) :
    TransfersOnly d (x >>= f) := by
  intro s j
  obtain ⟨r, k, ts, hrun, hk, hts⟩ := hx s j
  rw [Op.run_bind, hrun]
  cases r with
  | error e => exact ⟨_, k, ts, rfl, hk, hts⟩
  | ok a =>
    obtain ⟨r', k', ts', hrun', hk', hts'⟩ := hf a s k
    exact ⟨r', k', ts ++ ts', hrun', by rw [hk', hk, List.append_assoc], hts.append hts'⟩

/-- Whatever ends without a call. -/
theorem of_silent {op : Op σ α} (h : ∀ s j, ∃ r k, op.run.run ⟨s, j⟩ = (r, ⟨s, k⟩) ∧ k.calls = j.calls) :
    TransfersOnly d op := by
  intro s j
  obtain ⟨r, k, hrun, hk⟩ := h s j
  exact ⟨r, k, [], hrun, by rw [hk, List.append_nil], transfers_nil d⟩

theorem pure (a : α) : TransfersOnly d (Pure.pure a : Op σ α) := by
  apply of_silent
  intro s j
  exact ⟨_, j, rfl, rfl⟩

theorem fail (e : LinkError) : TransfersOnly d (Op.fail e : Op σ α) := by
  apply of_silent
  intro s j
  exact ⟨_, j, rfl, rfl⟩

theorem log (e : LogEvent) : TransfersOnly d (Op.log e : Op σ Unit) := by
  apply of_silent
  intro s j
  exact ⟨_, j.log e, rfl, rfl⟩

theorem within (r : Except Overflow α) : TransfersOnly d (Op.within r : Op σ α) := by
  apply of_silent
  intro s j
  exact ⟨_, j, Op.run_within r _, rfl⟩

theorem finish (message : String) (id : UsbIdentity) (t : Transfer) (r : Except Error α) :
    TransfersOnly d (Session.finish message id t r : Op σ α) := by
  cases r with
  | ok a => exact pure a
  | error e =>
    apply (log _).bind
    intro _
    exact fail _

theorem read (bus : Bus) (h : Handle) (pipe : Pipe) (len : Nat) (ms : UInt32) :
    TransfersOnly h.device (Op.act (bus.read h pipe len ms) : Op σ (Except Error (List UInt8))) := by
  intro s j
  obtain ⟨r, k, ts, hrun, hk, hts⟩ := bus.run_read h j pipe len ms
  refine ⟨.ok r, k, ts, ?_, hk, hts⟩
  rw [Op.run_act, hrun]

theorem write (bus : Bus) (h : Handle) (pipe : Pipe) (bytes : List UInt8) (ms : UInt32) :
    TransfersOnly h.device (Op.act (bus.write h pipe bytes ms) : Op σ (Except Error Nat)) := by
  intro s j
  obtain ⟨r, k, ts, hrun, hk, hts⟩ := bus.run_write h j pipe bytes ms
  refine ⟨.ok r, k, ts, ?_, hk, hts⟩
  rw [Op.run_act, hrun]

end TransfersOnly

/-! ## Checks before a transfer -/

/-- The handle that passes the checks of a session is the one it has. -/
theorem handle_of_checks {transport : Transport} {t : Transfer} {len : Nat} {handle : Option Handle} {h : Handle}
    (hr : (do
      transport.check t
      checkBuffer len
      match handle with
      | some h => .ok h
      | none => .error .notOpen) = Except.ok h) : handle = some h := by
  cases ht : transport.check t with
  | error e =>
    rw [ht] at hr
    cases hr
  | ok u =>
    rw [ht] at hr
    cases hb : checkBuffer len with
    | error e =>
      rw [hb] at hr
      cases hr
    | ok v =>
      rw [hb] at hr
      cases handle with
      | none => cases hr
      | some h' => exact congrArg some (Except.ok.inj hr)

/-- A transfer on an open session calls for transfers on its device; on a closed one, for nothing. -/
theorem run_ready {σ α : Type} {ready : Except LinkError Handle} {handle : Option Handle}
    (hready : ∀ h, ready = .ok h → handle = some h) {f : Handle → Op σ α}
    (hf : ∀ h, handle = some h → TransfersOnly h.device (f h)) (s : σ) (j : Journal) : ∃ r k ts,
    (Op.require ready >>= f).run.run ⟨s, j⟩ = (r, ⟨s, k⟩) ∧ k.calls = j.calls ++ ts ∧
      (ts = [] ∨ ∃ h, handle = some h ∧ Transfers h.device ts) := by
  rw [Op.run_bind, Op.run_require]
  cases hr : ready with
  | error e => exact ⟨_, j, [], rfl, (List.append_nil _).symm, .inl rfl⟩
  | ok h =>
    have hs := hready h hr
    obtain ⟨r, k, ts, hrun, hk, hts⟩ := hf h hs s j
    exact ⟨r, k, ts, hrun, hk, .inr ⟨h, hs, hts⟩⟩

end Usb

end Peripheral
