import Peripheral.Criteria.Basic
import Peripheral.Proofs.Address.Spelling
import Peripheral.Proofs.Pattern

/-
  Peripheral.Proofs.Criteria — the address field of criteria.

  The field is `0.0.0.0`, an address or a pattern (`addressAdmits_iff`). It names one host
  where it is a literal text and not `0.0.0.0` (`isSubnetScan_eq_false_iff`); a field that may
  select more is an address only if it is `0.0.0.0` (`eq_anyAddress_of_isSubnetScan`).

  Whether an address is worth a probe is decided by the field alone. Where the field may
  select more than one host, no address that answers the criteria is passed over
  (`allows_of_admits`).
-/

namespace Peripheral

theorem idAdmits_iff {criterion value : UInt16} :
    idAdmits criterion value = true ↔ criterion = 0 ∨ criterion = value := by
  simp [idAdmits]

theorem addressAdmits_iff {criterion : String} {a : Address} :
    addressAdmits criterion a = true ↔ Text.strip criterion = anyAddress ∨ Address.ofText? criterion = some a ∨
      Address.ofText? criterion = none ∧ Pattern.admits (Text.strip criterion) a.text = true := by
  unfold addressAdmits
  dsimp only
  split
  · rename_i hany
    exact iff_of_true rfl (.inl (beq_iff_eq.mp hany))
  · rename_i hany
    rw [beq_iff_eq] at hany
    rw [Address.ofText?_strip]
    cases Address.ofText? criterion <;> simp [hany]

theorem text_unspecified_v4 : (Address.unspecified .v4).text = anyAddress := by decide

theorem strip_eq_anyAddress_iff {criterion : String} :
    Text.strip criterion = anyAddress ↔ Address.ofText? criterion = some (.unspecified .v4) := by
  rw [Address.ofText?_eq_some_iff_of_v4 rfl, text_unspecified_v4]

theorem UsbCriteria.admits_iff {c : UsbCriteria} {d : UsbIdentity} :
    c.admits d = true ↔ idAdmits c.vendorId d.vendorId = true ∧ idAdmits c.productId d.productId = true ∧
      Pattern.admits c.serialNumber d.serialNumber = true ∧ Pattern.admits c.port d.port = true := by
  simp [admits, and_assoc]

namespace HostCriteria

variable {c : HostCriteria} {a : Address}

theorem admits_iff {h : HostIdentity} :
    c.admits h = true ↔ Pattern.admits c.name h.hostname = true ∧ addressAdmits c.ip h.ip = true ∧
      Pattern.admits c.mac h.mac.text = true ∧ idAdmits c.port h.port = true ∧ c.protocol = h.protocol := by
  simp [admits, and_assoc]

theorem allows_iff :
    c.allows a = true ↔ Text.strip c.ip = anyAddress ∨ Pattern.admits (Text.strip c.ip) a.text = true := by
  simp [allows]

theorem isSubnetScan_eq_false_iff :
    c.isSubnetScan = false ↔ Pattern.IsLiteral (Text.strip c.ip) ∧ Text.strip c.ip ≠ anyAddress := by
  simp only [isSubnetScan, Bool.or_eq_false_iff, List.any_eq_false, Bool.or_eq_true, beq_iff_eq, not_or,
    beq_eq_false_iff_ne]
  constructor
  · rintro ⟨⟨⟨hempty, -⟩, hany⟩, hwild⟩
    exact ⟨⟨fun h => by simp [h] at hempty, hwild⟩, hany⟩
  · rintro ⟨hliteral, hany⟩
    refine ⟨⟨⟨?_, ?_⟩, hany⟩, hliteral.starless⟩
    · simpa using hliteral.nonempty
    · intro h
      exact (hliteral.starless '*' (by rw [h]; decide)).1 rfl

/-- A field that may select more than one host is read as an address only if it stands for every address. -/
theorem eq_anyAddress_of_isSubnetScan (h : c.isSubnetScan = true) :
    Text.strip c.ip = anyAddress ∨ Address.ofText? c.ip = none := by
  rw [← Address.ofText?_strip]
  simp only [isSubnetScan, Bool.or_eq_true, beq_iff_eq, List.any_eq_true] at h
  rcases h with ((h | h) | h) | h
  · exact .inr (Address.ofText_of_pattern (.inl h))
  · rw [h]
    exact .inr (Address.ofText_of_pattern (.inr ⟨'*', by decide, .inl rfl⟩))
  · exact .inl h
  · exact .inr (Address.ofText_of_pattern (.inr h))

/-- In a scan the probes ask just the addresses that the field admits. -/
theorem allows_eq_of_isSubnetScan (h : c.isSubnetScan = true) (a : Address) : c.allows a = addressAdmits c.ip a := by
  rw [Bool.eq_iff_iff, allows_iff, addressAdmits_iff]
  rcases eq_anyAddress_of_isSubnetScan h with hany | hnone
  · simp [hany]
  · simp [hnone]

/-- No host that answers the criteria is passed over. -/
theorem allows_of_admits (h : c.isSubnetScan = true) {x : HostIdentity} (hx : c.admits x = true) :
    c.allows x.ip = true := by
  rw [allows_eq_of_isSubnetScan h]
  exact (admits_iff.mp hx).2.1

end HostCriteria

end Peripheral
