import Peripheral.Proofs.Op

/-
  Peripheral.Proofs.SideBySide — one operation on two sessions.

  Two operations are alike with respect to a relation between their sessions if from related
  sessions they end the same way, write the same to the journal and leave related sessions
  (`Alike`). Sequences of alike parts are alike (`Alike.bind`); what looks at the session may
  depend on it as far as the relation allows (`Alike.session_bind`).
-/

namespace Peripheral.Op

variable {σ τ σ' τ' α β : Type}

/-- From related sessions both end the same way, do the same and leave related sessions. -/
def Alike (R : σ → τ → Prop) (x : Op σ α) (y : Op τ α) : Prop :=
  ∀ s t j, R s t → ∃ r s' t' k, x.run.run ⟨s, j⟩ = (r, ⟨s', k⟩) ∧ y.run.run ⟨t, j⟩ = (r, ⟨t', k⟩) ∧ R s' t'

namespace Alike

variable {R : σ → τ → Prop}

theorem bind {x : Op σ α} {y : Op τ α} {f : α → Op σ β} {g : α → Op τ β} (hxy : Alike R x y)
    (hfg : ∀ a, Alike R (f a) (g a)) : Alike R (x >>= f) (y >>= g) := by
  intro s t j hst
  obtain ⟨r, s', t', k, hx, hy, hst'⟩ := hxy s t j hst
  rw [run_bind, run_bind, hx, hy]
  cases r with
  | error e => exact ⟨_, s', t', k, rfl, rfl, hst'⟩
  | ok a => exact hfg a s' t' k hst'

theorem session_bind {f : σ → Op σ β} {g : τ → Op τ β} (hfg : ∀ s t, R s t → Alike R (f s) (g t)) :
    Alike R (session >>= f) (session >>= g) := by
  intro s t j hst
  exact hfg s t hst s t j hst

theorem pure (a : α) : Alike R (Pure.pure a) (Pure.pure a) :=
  fun s t j hst => ⟨_, s, t, j, rfl, rfl, hst⟩

theorem fail (e : LinkError) : Alike R (Op.fail e : Op σ α) (Op.fail e) :=
  fun s t j hst => ⟨_, s, t, j, rfl, rfl, hst⟩

theorem act (a : Act α) : Alike R (Op.act a) (Op.act a) :=
  fun s t _ hst => ⟨_, s, t, _, rfl, rfl, hst⟩

theorem log (e : LogEvent) : Alike R (Op.log e) (Op.log e) := act _

theorem require (r : Except LinkError α) : Alike R (Op.require r) (Op.require r) :=
  fun s t j hst => ⟨_, s, t, j, run_require r _, run_require r _, hst⟩

theorem within (r : Except Overflow α) : Alike R (Op.within r) (Op.within r) :=
  fun s t j hst => ⟨_, s, t, j, run_within r _, run_within r _, hst⟩

/-- Operations on related parts of related sessions. -/
theorem onPart {R' : σ' → τ' → Prop} {x : Op σ' α} {y : Op τ' α} {p : σ'} {q : τ'} {whole : σ' → σ}
    {whole' : τ' → τ} (hxy : Alike R' x y) (hpq : R' p q) (hwhole : ∀ p q, R' p q → R (whole p) (whole' q)) :
    Alike R (Op.onPart p whole x) (Op.onPart q whole' y) := by
  intro s t j _
  obtain ⟨r, p', q', k, hx, hy, hpq'⟩ := hxy p q j hpq
  rw [run_onPart, run_onPart, perform_eq, perform_eq, hx, hy]
  exact ⟨r, _, _, k, rfl, rfl, hwhole p' q' hpq'⟩

/-- One operation on one session. -/
theorem refl (x : Op σ α) : Alike Eq x x := by
  rintro s _ _ rfl
  exact ⟨_, _, _, _, rfl, rfl, rfl⟩

end Alike

end Peripheral.Op
