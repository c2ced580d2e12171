import Peripheral.Proofs.Usb.Calls

/-
  Peripheral.Proofs.Usb.OneDevice — work that calls for nothing but one device.

  What is done with a handle is done on its device: claims and releases hand on a handle of the
  same device (`Act.StaysOn`). An operation on a session stays on a device if its parts do, and
  goes back to the session it began with when it fails (`StaysOn.bind`).
-/

namespace Peripheral

namespace Usb

/-- The device that a call is made on. -/
def Call.device? : Call → Option Nat
  | setDebug _ => none
  | openDevice d _ | closeDevice d | autoDetach d _ | claim d _ _ | release d _ _ | transfer d _ _ _ _ => some d

/-- Nothing but calls on one device. -/
def AllOn (d : Nat) (calls : List Call) : Prop := ∀ c ∈ calls, c.device? = some d

theorem allOn_nil (d : Nat) : AllOn d [] := nofun

theorem allOn_singleton {d : Nat} {c : Call} (h : c.device? = some d) : AllOn d [c] := by
  intro b hb
  rw [List.mem_singleton.mp hb, h]

theorem AllOn.append {d : Nat} {cs ds : List Call} (hc : AllOn d cs) (hd : AllOn d ds) : AllOn d (cs ++ ds) := by
  intro c h
  rcases List.mem_append.mp h with h | h
  · exact hc c h
  · exact hd c h

theorem Transfers.allOn {d : Nat} {ts : List Call} (h : Transfers d ts) : AllOn d ts := by
  intro c hc
  have htransfer := h c hc
  cases c with
  | transfer e pipe len ms sent => exact congrArg some (beq_iff_eq.mp htransfer)
  | _ => cases htransfer

end Usb

open Usb (AllOn Bus Handle allOn_nil allOn_singleton)

/-! ## Work on a bus -/

/-- Calls for nothing but one device, and gives what it should. -/
def Act.StaysOn {α : Type} (d : Nat) (gives : α → Prop) (a : Act α) : Prop :=
  ∀ j, ∃ new, (a.run j).2.calls = j.calls ++ new ∧ AllOn d new ∧ gives (a.run j).1

namespace Act.StaysOn

variable {α β : Type} {d : Nat}

theorem bind {gives : α → Prop} {gives' : β → Prop} {a : Act α} {f : α → Act β} (ha : a.StaysOn d gives)
    (hf : ∀ r, gives r → (f r).StaysOn d gives') : (a >>= f).StaysOn d gives' := by
  intro j
  obtain ⟨new, hnew, hon, hgives⟩ := ha j
  obtain ⟨new', hnew', hon', hgives'⟩ := hf _ hgives (a.run j).2
  rw [Act.run_bind]
  exact ⟨new ++ new', by rw [hnew', hnew, List.append_assoc], hon.append hon', hgives'⟩

theorem pure {gives : α → Prop} {r : α} (h : gives r) : (Pure.pure r : Act α).StaysOn d gives :=
  fun j => ⟨[], (List.append_nil j.calls).symm, allOn_nil d, h⟩

theorem call {c : Usb.Call} (h : c.device? = some d) : (Act.call c).StaysOn d fun _ => True :=
  fun _ => ⟨[c], rfl, allOn_singleton h, trivial⟩

variable {bus : Bus} {h : Handle}

theorem autoDetach : (bus.autoDetach h).StaysOn h.device fun _ => True := by
  intro j
  obtain ⟨f, hf⟩ := bus.run_autoDetach h j
  rw [hf]
  exact ⟨_, rfl, allOn_singleton rfl, trivial⟩

theorem claim (i : UInt8) : (bus.claim h i).StaysOn h.device fun r => r.2.device = h.device := by
  intro j
  obtain ⟨f, hf⟩ := bus.run_claim h j i
  rw [hf]
  refine ⟨_, rfl, allOn_singleton rfl, ?_⟩
  cases f <;> rfl

theorem release (i : UInt8) : (bus.release h i).StaysOn h.device fun r => r.2.device = h.device := by
  intro j
  obtain ⟨f, hf⟩ := bus.run_release h j i
  rw [hf]
  refine ⟨_, rfl, allOn_singleton rfl, ?_⟩
  cases f <;> rfl

theorem write (pipe : Usb.Pipe) (bytes : List UInt8) (ms : UInt32) :
    (bus.write h pipe bytes ms).StaysOn h.device fun _ => True := by
  intro j
  obtain ⟨r, k, ts, hrun, hk, hts⟩ := bus.run_write h j pipe bytes ms
  rw [hrun]
  exact ⟨ts, hk, hts.allOn, trivial⟩

theorem releaseAll (is : List UInt8) {h : Handle} : (bus.releaseAll h is).StaysOn h.device fun _ => True := by
  induction is with
  | nil => exact pure trivial
  | cons i is ih => exact (release i).bind fun _ _ => ih

theorem drop : (bus.drop h).StaysOn h.device fun _ => True :=
  (releaseAll h.claimed).bind fun _ _ => call rfl

end Act.StaysOn

/-! ## Operations on a session -/

/-- From a session that `pre` allows, calls for nothing but one device. A value is as it should be and leaves a
    session that `post` allows; a failure leaves the session `s₀`. -/
def StaysOn {σ α : Type} (d : Nat) (s₀ : σ) (pre : σ → Prop) (gives : α → Prop) (post : σ → Prop) (op : Op σ α) : Prop :=
  ∀ s j, pre s → ∃ r t k new, op.run.run ⟨s, j⟩ = (r, ⟨t, k⟩) ∧ k.calls = j.calls ++ new ∧ AllOn d new ∧
    match r with
    | .ok a => gives a ∧ post t
    | .error _ => t = s₀

namespace StaysOn

variable {σ α β : Type} {d : Nat} {s₀ : σ} {pre post : σ → Prop}

theorem bind {mid : σ → Prop} {gives : α → Prop} {gives' : β → Prop} {x : Op σ α} {f : α → Op σ β}
    (hx : StaysOn d s₀ pre gives mid x) (hf : ∀ a, gives a → StaysOn d s₀ mid gives' post (f a)) :
    StaysOn d s₀ pre gives' post (x >>= f) := by
  intro s j hs
  obtain ⟨r, t, k, new, hrun, hk, hon, hend⟩ := hx s j hs
  rw [Op.run_bind, hrun]
  cases r with
  | error e => exact ⟨_, t, k, new, rfl, hk, hon, hend⟩
  | ok a =>
    obtain ⟨r', t', k', new', hrun', hk', hon', hend'⟩ := hf a hend.1 t k hend.2
    exact ⟨r', t', k', new ++ new', hrun', by rw [hk', hk, List.append_assoc], hon.append hon', hend'⟩

theorem pure {gives : α → Prop} {a : α} (h : gives a) : StaysOn d s₀ pre gives pre (Pure.pure a : Op σ α) := by
  intro s j hs
  exact ⟨.ok a, s, j, [], rfl, (List.append_nil _).symm, allOn_nil d, h, hs⟩

theorem act {gives : α → Prop} {a : Act α} (ha : a.StaysOn d gives) :
    StaysOn d s₀ pre gives pre (Op.act a : Op σ α) := by
  intro s j hs
  obtain ⟨new, hnew, hon, hgives⟩ := ha j
  exact ⟨.ok _, s, _, new, Op.run_act a _, hnew, hon, hgives, hs⟩

theorem log (e : LogEvent) : StaysOn d s₀ pre (fun _ => True) pre (Op.log e : Op σ Unit) := by
  intro s j hs
  exact ⟨.ok (), s, _, [], Op.run_log e _, (List.append_nil _).symm, allOn_nil d, trivial, hs⟩

theorem set {t : σ} (ht : post t) : StaysOn d s₀ pre (fun _ => True) post (Op.set t : Op σ Unit) := by
  intro s j _
  exact ⟨.ok (), t, j, [], Op.run_set t _, (List.append_nil _).symm, allOn_nil d, trivial, ht⟩

theorem fail {gives : α → Prop} (e : LinkError) : StaysOn d s₀ (· = s₀) gives post (Op.fail e : Op σ α) := by
  intro s j hs
  exact ⟨.error _, s, j, [], rfl, (List.append_nil _).symm, allOn_nil d, hs⟩

theorem within (r : Except Overflow α) : StaysOn d s₀ (· = s₀) (fun _ => True) (· = s₀) (Op.within r : Op σ α) := by
  intro s j hs
  refine ⟨_, s, j, [], Op.run_within r _, (List.append_nil _).symm, allOn_nil d, ?_⟩
  cases r with
  | ok a => exact ⟨trivial, hs⟩
  | error o => exact hs

theorem giveUp {bus : Bus} {gives : α → Prop} (h : Handle) (e : Usb.Error) :
    StaysOn h.device s₀ (· = s₀) gives post (Usb.Session.giveUp bus h e : Op σ α) :=
  (act .drop).bind fun _ _ => fail e.link

end StaysOn

end Peripheral
