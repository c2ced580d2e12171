import Peripheral.Proofs.Criteria
import Peripheral.Scan.Subnet

/-
  Peripheral.Proofs.Criteria.Selection — what reads the address field, and that all agree.

  Four places read it: whether to scan (`isSubnetScan`), which hosts of a scan to probe
  (`allows`), which one host to probe without a scan (`Scan.discover`) and whose answer counts
  (`addressAdmits`). One compares texts, another values, a third looks for wildcards only.

  - In a scan the field holds no address but `0.0.0.0`, so both ends match the pattern
    (`allows_eq_of_isSubnetScan`).
  - Without a scan the answer that counts is that of the address in the field
    (`addressAdmits_iff_of_named`): as a pattern the field stands for its own text only, and
    that text would have been read.
  - There the text of a v4 address is its only spelling, so it makes no difference that `allows`
    compares texts (`allows_iff_of_named`). For a v6 address it does.
-/

namespace Peripheral.HostCriteria

variable {c : HostCriteria} {a : Address}

theorem allows_iff_of_named (h : c.isSubnetScan = false) : c.allows a = true ↔ Text.strip c.ip = a.text := by
  obtain ⟨hliteral, hany⟩ := isSubnetScan_eq_false_iff.mp h
  rw [allows_iff, hliteral.admits_iff]
  exact or_iff_right hany

theorem addressAdmits_iff_of_named (h : c.isSubnetScan = false) :
    addressAdmits c.ip a = true ↔ Address.ofText? c.ip = some a := by
  obtain ⟨hliteral, hany⟩ := isSubnetScan_eq_false_iff.mp h
  rw [addressAdmits_iff, hliteral.admits_iff]
  constructor
  · rintro (hany' | ha | ⟨hnone, htext⟩)
    · exact absurd hany' hany
    · exact ha
    · exact absurd (Address.ofText?_of_strip htext) (by simp [hnone])
  · exact fun ha => .inr (.inl ha)

theorem allows_eq_of_v4 (ha : a.family = .v4) : c.allows a = addressAdmits c.ip a := by
  cases h : c.isSubnetScan with
  | true => exact allows_eq_of_isSubnetScan h a
  | false =>
    rw [Bool.eq_iff_iff, allows_iff_of_named h, addressAdmits_iff_of_named h, Address.ofText?_eq_some_iff_of_v4 ha]

theorem eq_unspecified_of_isSubnetScan (h : c.isSubnetScan = true) (ha : Address.ofText? c.ip = some a) :
    a = Address.unspecified .v4 := by
  rcases eq_anyAddress_of_isSubnetScan h with hany | hnone
  · exact Option.some.inj (ha.symm.trans (strip_eq_anyAddress_iff.mp hany))
  · cases hnone.symm.trans ha

/-- Without a scan the address in the field is asked, and no other. -/
theorem probed_discover (h : c.isSubnetScan = false) (hport : c.port ≠ 0) (probe : Probe) (cap : Nat)
    (is : List Interface) :
    (Scan.discover probe cap is c).probed = (Address.parse (Text.strip c.ip)).toOption.toList := by
  rw [Scan.discover, if_neg hport, if_pos (by simp [h])]
  cases Address.parse (Text.strip c.ip) <;> rfl

/-- The places that read the address field select the same addresses. -/
theorem readings_of_address_agree (c : HostCriteria) :
    (∀ a : Address, a.family = .v4 ∨ c.isSubnetScan = true → c.allows a = addressAdmits c.ip a) ∧
    (c.isSubnetScan = false →
      (∀ a, addressAdmits c.ip a = true ↔ Address.parse (Text.strip c.ip) = .ok a) ∧
      (∀ e, Address.parse (Text.strip c.ip) = .error e → ∀ a, addressAdmits c.ip a = false) ∧
      (c.port ≠ 0 → ∀ probe cap is,
        (Scan.discover probe cap is c).probed = (Address.parse (Text.strip c.ip)).toOption.toList)) ∧
    (c.isSubnetScan = true → ∀ a, Address.parse (Text.strip c.ip) = .ok a → a = Address.unspecified .v4) := by
  have named : c.isSubnetScan = false →
      ∀ a, addressAdmits c.ip a = true ↔ Address.parse (Text.strip c.ip) = .ok a := by
    intro h a
    rw [addressAdmits_iff_of_named h, Address.parse_eq_ok_iff, Address.ofText?_strip]
  refine ⟨?_, fun h => ⟨named h, ?_, probed_discover h⟩, ?_⟩
  · rintro a (ha | h)
    · exact allows_eq_of_v4 ha
    · exact allows_eq_of_isSubnetScan h a
  · intro e he a
    rw [← Bool.not_eq_true, named h, he]
    exact nofun
  · intro h a ha
    rw [Address.parse_eq_ok_iff, Address.ofText?_strip] at ha
    exact eq_unspecified_of_isSubnetScan h ha

/-- A spelling of a v6 address, a text that is no address, and a field that asks for a scan. -/
theorem readings_of_three_fields :
    let linkLocal := Address.ofSegments .v6 [0xfe80, 0, 0, 0, 0, 0, 0, 1]
    let spelled := host " FE80::0:1" 80 .tcp
    let short := host "10.0.5" 80 .tcp
    let all := host "0.0.0.0 " 80 .tcp
    (∀ a, addressAdmits spelled.ip a = true ↔ linkLocal = a) ∧
      (∀ probe cap is, (Scan.discover probe cap is spelled).probed = [linkLocal]) ∧
      (∀ a, addressAdmits short.ip a = false) ∧ (∀ a, all.allows a = addressAdmits all.ip a) ∧
      Address.ofSegments .v4 [0, 0, 0, 0] = Address.unspecified .v4 := by
  intro linkLocal spelled short all
  have hspelled : Address.parse (Text.strip spelled.ip) = .ok linkLocal := Address.parse_eq_ok_iff.mpr (by decide)
  have hall : Address.parse (Text.strip all.ip) = .ok (Address.ofSegments .v4 [0, 0, 0, 0]) :=
    Address.parse_eq_ok_iff.mpr (by decide)
  have hshort : Address.ofText? (Text.strip short.ip) = none := by decide
  obtain ⟨-, hnamed, -⟩ := readings_of_address_agree spelled
  obtain ⟨-, hunnamed, -⟩ := readings_of_address_agree short
  obtain ⟨heach, -, hscan⟩ := readings_of_address_agree all
  obtain ⟨hadmits, -, hprobed⟩ := hnamed (by decide)
  refine ⟨fun a => ?_, fun probe cap is => ?_, ?_, fun a => heach a (.inr (by decide)), hscan (by decide) _ hall⟩
  · rw [hadmits, hspelled, Except.ok.injEq]
  · rw [hprobed (by decide), hspelled]
    rfl
  · exact (hunnamed (by decide)).2.1 _ (by rw [Address.parse, hshort])

end Peripheral.HostCriteria
