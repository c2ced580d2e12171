import Mathlib.Data.List.Basic
import Peripheral.Neighbor.Basic

/-
  Peripheral.Proofs.Neighbor.Lookup — which entry of a table answers for an address.

  An entry says where to reach its address (`Entry.Resolves`) if it has a hardware address and
  did not fail. The first one that does answers, and whatever stands before it is passed over
  (`lookupMac_eq_some_iff`).
-/

namespace Peripheral.Neighbor

variable {e : Entry} {table : List Entry} {ip : Address} {m : Mac}

/-- The entry is one of the address, in a state that counts, with a hardware address that is
    not the one for none. -/
structure Entry.Resolves (e : Entry) (ip : Address) (m : Mac) : Prop where
  ip_eq : e.ip = ip
  mac_eq : e.mac = some m
  ne_zero : m ≠ .zero
  ne_failed : e.state ≠ .failed
  ne_incomplete : e.state ≠ .incomplete

theorem Entry.usableMac_eq_some_iff :
    e.usableMac = some m ↔ e.mac = some m ∧ m ≠ .zero ∧ e.state ≠ .failed ∧ e.state ≠ .incomplete := by
  unfold Entry.usableMac
  cases e.state <;> simp [Option.filter_eq_some_iff, Mac.isZero]

theorem Entry.resolves_iff : e.Resolves ip m ↔ e.ip = ip ∧ e.usableMac = some m := by
  rw [usableMac_eq_some_iff]
  constructor
  · rintro ⟨hip, hmac, hzero, hfailed, hincomplete⟩
    exact ⟨hip, hmac, hzero, hfailed, hincomplete⟩
  · rintro ⟨hip, hmac, hzero, hfailed, hincomplete⟩
    exact ⟨hip, hmac, hzero, hfailed, hincomplete⟩

/-- What an entry answers to the question for an address. -/
def Entry.answer (ip : Address) (e : Entry) : Option Mac := if e.ip = ip then e.usableMac else none

theorem Entry.answer_eq_some_iff : e.answer ip = some m ↔ e.Resolves ip m := by
  rw [resolves_iff, answer, Option.ite_none_right_eq_some]

theorem Entry.answer_eq_none_iff : e.answer ip = none ↔ ∀ m, ¬ e.Resolves ip m := by
  rw [Option.eq_none_iff_forall_ne_some]
  exact forall_congr' fun m => not_congr answer_eq_some_iff

theorem lookupMac_eq (table : List Entry) (ip : Address) : lookupMac table ip = table.findSome? (Entry.answer ip) := by
  rw [lookupMac]
  induction table with
  | nil => rfl
  | cons e table ih =>
    rw [List.filter_cons, List.findSome?_cons, Entry.answer]
    by_cases he : e.ip = ip
    · rw [if_pos (beq_iff_eq.mpr he), if_pos he, List.findSome?_cons, ih]
    · rw [if_neg (mt beq_iff_eq.mp he), if_neg he, ih]

/-- The first entry that says where to reach the address answers. -/
theorem lookupMac_eq_some_iff : lookupMac table ip = some m ↔
    ∃ before e after, table = before ++ e :: after ∧ e.Resolves ip m ∧ ∀ x ∈ before, ∀ n, ¬ x.Resolves ip n := by
  rw [lookupMac_eq, List.findSome?_eq_some_iff]
  simp only [Entry.answer_eq_some_iff, Entry.answer_eq_none_iff]

theorem lookupMac_eq_none_iff : lookupMac table ip = none ↔ ∀ e ∈ table, ∀ m, ¬ e.Resolves ip m := by
  rw [lookupMac_eq, List.findSome?_eq_none_iff]
  simp only [Entry.answer_eq_none_iff]

theorem lookupMac_ne_zero (table : List Entry) (ip : Address) : lookupMac table ip ≠ some .zero := by
  intro h
  obtain ⟨_, e, _, _, hresolves, _⟩ := lookupMac_eq_some_iff.mp h
  exact hresolves.ne_zero rfl

end Peripheral.Neighbor
