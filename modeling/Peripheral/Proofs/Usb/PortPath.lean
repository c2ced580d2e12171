import Peripheral.Usb.PortPath

/-
  Peripheral.Proofs.Usb.PortPath — a port path names one list of ports.

  The digits of a port have no colon among them, so cutting a path at its colons gives the
  numbers back (`portPath_injective`); only the empty list has the empty path.
-/

namespace Peripheral.Usb

open Text.Numeral (write)

theorem write_injective {m n : Nat} (h : write 10 m = write 10 n) : m = n := by
  calc
    m = Nat.ofDigitChars 10 (write 10 m) 0 := Nat.ofDigitChars_ten_toDigits.symm
    _ = Nat.ofDigitChars 10 (write 10 n) 0 := by rw [h]
    _ = n := Nat.ofDigitChars_ten_toDigits

theorem colon_notMem_write (n : Nat) : ':' ∉ write 10 n := by
  intro hmem
  have hdigit := Nat.isDigit_of_mem_toDigits (by omega) (by omega) hmem
  exact absurd hdigit (by decide)

/-- The digits of the ports, with nothing between them yet. -/
def portDigits (ports : List UInt8) : List (List Char) := ports.map fun p => write 10 p.toNat

theorem portDigits_injective {ps qs : List UInt8} (h : portDigits ps = portDigits qs) : ps = qs := by
  have hport : ∀ p q : UInt8, write 10 p.toNat = write 10 q.toNat → p = q := by
    intro p q hpq
    exact UInt8.toNat_inj.mp (write_injective hpq)
  exact (List.map_inj_right hport).mp h

/-- Cut at its colons, a path gives the digits back. -/
theorem splitOn_portPath {ports : List UInt8} (h : ports ≠ []) :
    (portPath ports).toList.splitOn ':' = portDigits ports := by
  unfold portPath
  rw [String.toList_ofList]
  apply List.splitOn_intercalate
  · intro digits hdigits
    obtain ⟨p, -, rfl⟩ := List.mem_map.mp hdigits
    exact colon_notMem_write p.toNat
  · exact fun hnil => h (List.map_eq_nil_iff.mp hnil)

theorem portPath_eq_empty_iff {ports : List UInt8} : portPath ports = "" ↔ ports = [] := by
  constructor
  · intro h
    cases ports with
    | nil => rfl
    | cons p rest =>
      -- the one piece of an empty path has no digit
      have hsplit := splitOn_portPath (List.cons_ne_nil p rest)
      rw [h] at hsplit
      have hhead : write 10 p.toNat = [] := (List.cons.inj hsplit).1.symm
      exact absurd hhead Nat.toDigits_ne_nil
  · rintro rfl
    rfl

theorem portPath_injective {ps qs : List UInt8} (h : portPath ps = portPath qs) : ps = qs := by
  by_cases hps : ps = []
  · subst hps
    exact (portPath_eq_empty_iff.mp h.symm).symm
  · have hqs : qs ≠ [] := by
      rintro rfl
      exact hps (portPath_eq_empty_iff.mp h)
    apply portDigits_injective
    rw [← splitOn_portPath hps, h, splitOn_portPath hqs]

end Peripheral.Usb
