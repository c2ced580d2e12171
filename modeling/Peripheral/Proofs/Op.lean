import Peripheral.Op

/-
  Peripheral.Proofs.Op — taking operations on a session apart.

  A sequence runs its parts one after the other until one fails (`run_bind`); the other lemmas
  say how each building block of an operation runs. Only the computation of an address can
  leave its range (`KeepsRange`), and a sequence does where one of its parts does
  (`overflow_of_bind_iff`).
-/

namespace Peripheral

theorem Act.run_bind {α β : Type} (a : Act α) (f : α → Act β) (j : Journal) :
    (a >>= f).run j = (f (a.run j).1).run (a.run j).2 := rfl

namespace Op

variable {σ α β : Type}

theorem run_bind (x : Op σ α) (f : α → Op σ β) (c : Scene σ) :
    (x >>= f).run.run c = match x.run.run c with
      | (.ok a, d) => (f a).run.run d
      | (.error e, d) => (.error e, d) := by
  rw [ExceptT.run_bind, StateT.run_bind]
  rcases x.run.run c with ⟨r, d⟩
  cases r <;> rfl

/-- A sequence that ends with a value is its parts, each ending with one. -/
theorem parts_of_bind_ok {x : Op σ α} {f : α → Op σ β} {c d : Scene σ} {b : β}
    (h : (x >>= f).run.run c = (.ok b, d)) :
    ∃ a e, x.run.run c = (.ok a, e) ∧ (f a).run.run e = (.ok b, d) := by
  rw [run_bind] at h
  rcases hx : x.run.run c with ⟨r, e⟩
  rw [hx] at h
  cases r with
  | ok a => exact ⟨a, e, rfl, h⟩
  | error f => cases h

theorem value_of_pure {a b : α} {c d : Scene σ} (h : (pure a : Op σ α).run.run c = (.ok b, d)) : b = a := by
  cases h
  rfl

/-! ## Building blocks -/

theorem run_session (c : Scene σ) : (session : Op σ σ).run.run c = (.ok c.session, c) := rfl

theorem run_set (s : σ) (c : Scene σ) : (set s).run.run c = (.ok (), { c with session := s }) := rfl

theorem run_act (a : Act α) (c : Scene σ) :
    (act a).run.run c = (.ok (a.run c.journal).1, { c with journal := (a.run c.journal).2 }) := rfl

theorem run_log (e : LogEvent) (c : Scene σ) :
    (log e).run.run c = (.ok (), { c with journal := c.journal.log e }) := rfl

/-- A result that is no error is passed on. -/
theorem mapError_ok {ε ε' : Type} (f : ε → ε') (a : α) : (Except.ok a : Except ε α).mapError f = .ok a := rfl

theorem run_require (r : Except LinkError α) (c : Scene σ) :
    (require r).run.run c = (r.mapError Failure.error, c) := by
  cases r <;> rfl

theorem run_within (r : Except Overflow α) (c : Scene σ) :
    (within r).run.run c = (r.mapError Failure.overflow, c) := by
  cases r <;> rfl

theorem perform_eq (op : Op σ α) (s : σ) (j : Journal) :
    op.perform s j = ((op.run.run ⟨s, j⟩).1, (op.run.run ⟨s, j⟩).2.session, (op.run.run ⟨s, j⟩).2.journal) := rfl

/-- An operation on a part of a session, wherever it is done. -/
theorem run_onPart {τ : Type} (part : σ) (whole : σ → τ) (op : Op σ α) (c : Scene τ) :
    (onPart part whole op).run.run c =
      ((op.perform part c.journal).1, ⟨whole (op.perform part c.journal).2.1, (op.perform part c.journal).2.2⟩) := by
  have hget : (get : Op τ (Scene τ)).run.run c = (.ok c, c) := rfl
  rw [onPart, run_bind, hget]
  dsimp only
  rcases op.perform part c.journal with ⟨_ | _, s, j⟩ <;> rfl

theorem perform_onPart {τ : Type} (whole : σ → τ) {op : Op σ α} {s t : σ} {d : τ} {j k : Journal} {r : Except Failure α}
    (h : op.perform s j = (r, t, k)) : (onPart s whole op).perform d j = (r, whole t, k) := by
  rw [perform_eq, run_onPart, h]

theorem perform_session_bind (f : σ → Op σ α) (s : σ) (j : Journal) :
    (do f (← session) : Op σ α).perform s j = (f s).perform s j := rfl

/-- An operation that looks at the session and is done on a part of it. -/
theorem perform_part {τ : Type} (whole : σ → τ) {f : τ → Op τ α} {op : Op σ α} {s t : σ} {d : τ} {j k : Journal}
    {r : Except Failure α} (hf : f d = onPart s whole op) (h : op.perform s j = (r, t, k)) :
    (do f (← session) : Op τ α).perform d j = (r, whole t, k) := by
  rw [perform_session_bind, hf, perform_onPart whole h]

theorem perform_of_run {x : Op σ α} {s : σ} {j : Journal} {r : Except Failure α} {c : Scene σ}
    (h : x.run.run ⟨s, j⟩ = (r, c)) : x.perform s j = (r, c.session, c.journal) := by
  rw [perform_eq, h]

/-- What is made of the value of an operation. -/
theorem perform_map (f : α → β) {x : Op σ α} {s t : σ} {j k : Journal} {r : Except Failure α}
    (h : x.perform s j = (r, t, k)) : (do return f (← x) : Op σ β).perform s j = (r.map f, t, k) := by
  rw [perform_eq, Prod.mk.injEq, Prod.mk.injEq] at h
  obtain ⟨rfl, rfl, rfl⟩ := h
  rw [perform_eq, run_bind]
  rcases x.run.run ⟨s, j⟩ with ⟨_ | _, c⟩ <;> rfl

/-- An operation whose value nobody looks at. -/
theorem perform_unread {x : Op σ α} {s : σ} {j : Journal} {r : Except Failure α} {d : Scene σ} (b : β)
    (h : x.run.run ⟨s, j⟩ = (r, d)) :
    (x >>= fun _ => pure b : Op σ β).perform s j = (r.map fun _ => b, d.session, d.journal) :=
  perform_map (fun _ => b) (perform_of_run h)

/-! ## Checks -/

/-- A check of the session before anything else. -/
theorem perform_refused (check : σ → Except LinkError α) {rest : σ → α → Op σ β} {e : LinkError}
    {s : σ} {j : Journal} (h : check s = .error e) :
    (do let s ← session; let a ← require (check s); rest s a : Op σ β).perform s j = (.error (.error e), s, j) := by
  rw [perform_eq, run_bind, run_session]
  dsimp only
  rw [run_bind, run_require, h]
  rfl

/-- A check that the session passes. -/
theorem perform_checked (check : σ → Except LinkError α) {rest : σ → α → Op σ β} {a : α}
    {s : σ} {j : Journal} (h : check s = .ok a) :
    (do let s ← session; let a ← require (check s); rest s a : Op σ β).perform s j = (rest s a).perform s j := by
  rw [perform_eq, run_bind, run_session]
  dsimp only
  rw [run_bind, run_require, h]
  rfl

/-! ## Addresses in range -/

/-- The operation computes no address, or only addresses in range. -/
def KeepsRange (op : Op σ α) : Prop := ∀ s j o, (op.perform s j).1 ≠ .error (.overflow o)

/-- What comes after a part is not what stops, if it keeps the range. -/
theorem overflow_of_bind_iff {x : Op σ α} {f : α → Op σ β} (hf : ∀ a, KeepsRange (f a)) (s : σ) (j : Journal)
    (o : Overflow) : ((x >>= f).perform s j).1 = .error (.overflow o) ↔ (x.perform s j).1 = .error (.overflow o) := by
  rw [perform_eq, perform_eq, run_bind]
  rcases x.run.run ⟨s, j⟩ with ⟨e | a, c⟩
  · exact ⟨fun h => congrArg Except.error (Except.error.inj h), fun h => congrArg Except.error (Except.error.inj h)⟩
  · exact ⟨fun h => absurd h (hf a c.session c.journal o), nofun⟩

theorem overflow_of_within_iff (r : Except Overflow α) (s : σ) (j : Journal) (o : Overflow) :
    ((within r).perform s j).1 = .error (.overflow o) ↔ r = .error o := by
  rw [perform_eq, run_within]
  cases r with
  | ok a => exact ⟨nofun, nofun⟩
  | error e =>
    have hfailed : (Except.error e : Except Overflow α).mapError Failure.overflow = .error (.overflow e) := rfl
    simp only [hfailed, Except.error.injEq, Failure.overflow.injEq]

/-- A checked operation stops only once the check is passed. -/
theorem overflow_of_checked_iff (check : σ → Except LinkError α) (rest : σ → α → Op σ β) (s : σ) (j : Journal)
    (o : Overflow) :
    ((do let s ← session; let a ← require (check s); rest s a : Op σ β).perform s j).1 = .error (.overflow o) ↔
      ∃ a, check s = .ok a ∧ ((rest s a).perform s j).1 = .error (.overflow o) := by
  cases h : check s with
  | error e =>
    rw [perform_refused check h]
    exact ⟨nofun, nofun⟩
  | ok a =>
    rw [perform_checked check h]
    exact ⟨fun hrest => ⟨a, rfl, hrest⟩, fun ⟨b, hb, hrest⟩ => Except.ok.inj hb ▸ hrest⟩

namespace KeepsRange

theorem bind {x : Op σ α} {f : α → Op σ β} (hx : KeepsRange x) (hf : ∀ a, KeepsRange (f a)) : KeepsRange (x >>= f) :=
  fun s j o h => hx s j o ((overflow_of_bind_iff hf s j o).mp h)

theorem pure (a : α) : KeepsRange (Pure.pure a : Op σ α) := nofun

theorem fail (e : LinkError) : KeepsRange (Op.fail e : Op σ α) := nofun

theorem act (a : Act α) : KeepsRange (Op.act a : Op σ α) := nofun

theorem log (e : LogEvent) : KeepsRange (Op.log e : Op σ Unit) := act _

end KeepsRange

end Op

end Peripheral
