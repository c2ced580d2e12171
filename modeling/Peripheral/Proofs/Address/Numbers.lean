import Peripheral.Proofs.Address.Arithmetic

/-
  Peripheral.Proofs.Address.Numbers — an address is the number that its bits spell.

  (1) Cutting a number into segments drops the bits above the width of the family, and undoes
  reading the number of an address (`toBits_ofBits`, `ofBits_toBits`).

  (2) The addition that `offset` does stays within 128-bit numbers: with every sum on the way
  checked it never gives up (`addCarry?_eq_some`).

  (3) Steps from an address add up in any order (`offset_right_comm`).

  (4) Addresses are ordered by family, v4 first, and then by their numbers (`lt_iff`).
-/

namespace Peripheral.Address

variable {width : Nat} {segs : List Nat}

/-! ## (1) Cutting a number into segments -/

/-- The `count` segments of a number, the most significant one first. -/
def cut (width count bits : Nat) : List Nat :=
  (List.range count).map fun i => (bits >>> (width * (count - 1 - i))) &&& (1 <<< width - 1)

@[simp] theorem length_cut (width count bits : Nat) : (cut width count bits).length = count := by
  simp [cut]

theorem cut_succ (width count bits : Nat) :
    cut width (count + 1) bits = bits / 2 ^ (width * count) % 2 ^ width :: cut width count bits := by
  unfold cut
  rw [List.range_succ_eq_map, List.map_cons, List.map_map]
  congr 1
  · rw [Nat.one_shiftLeft, Nat.and_two_pow_sub_one_eq_mod, Nat.shiftRight_eq_div_pow]
    simp
  · apply List.map_congr_left
    intro i _
    show (bits >>> (width * (count + 1 - 1 - (i + 1)))) &&& _ = _
    rw [show count + 1 - 1 - (i + 1) = count - 1 - i by omega]

theorem digits_cut (width count bits : Nat) : Digits width (cut width count bits) := by
  induction count with
  | zero => exact digits_nil
  | succ count ih =>
    rw [cut_succ]
    exact digits_cons.mpr ⟨Nat.mod_lt _ (Nat.two_pow_pos _), ih⟩

/-- The segments make up the number, as far as they reach. -/
theorem valueOf_cut (width count bits : Nat) :
    valueOf width (cut width count bits) = bits % 2 ^ (width * count) := by
  induction count with
  | zero => simp [cut, valueOf, Nat.mod_one]
  | succ count ih =>
    rw [cut_succ, valueOf_cons _ (digits_cut _ _ _), length_cut, ih, radix_pow_succ,
      Nat.mul_comm (2 ^ width), Nat.mod_mul, Nat.mul_comm, Nat.add_comm]

@[simp] theorem family_ofBits (f : Family) (bits : Nat) : (ofBits f bits).family = f := family_ofSegments _ _

theorem toBits_ofBits (f : Family) (bits : Nat) : (ofBits f bits).toBits = bits % 2 ^ f.width := by
  have hsegs : (ofBits f bits).segments = cut f.segmentBits f.segmentCount bits :=
    segments_ofSegments (digits_cut _ _ _) (length_cut _ _ _)
  rw [toBits, family_ofBits, hsegs, valueOf_cut, Family.width_eq]

theorem ofBits_toBits (a : Address) : ofBits a.family a.toBits = a := by
  apply eq_of_toBits_eq (family_ofBits _ _)
  rw [toBits_ofBits]
  exact Nat.mod_eq_of_lt a.toBits_lt

/-! ## (2) Within 128 bits -/

/-- A digit takes at most what is carried to it. -/
theorem carried_le {s c m : Nat} (hs : s < m) (hm : 2 ≤ m) : c / m + (s + c % m) / m ≤ c := by
  have hmod : c % m < m := Nat.mod_lt _ (by omega)
  by_cases hc : c = 0
  · subst hc
    rw [Nat.zero_mod, Nat.add_zero, Nat.div_eq_of_lt hs, Nat.zero_div]
  · have hhalf : c / m ≤ c / 2 := Nat.div_le_div_left hm (by decide)
    have hone : (s + c % m) / m ≤ 1 := Nat.le_of_lt_succ (Nat.div_lt_of_lt_mul (by omega))
    omega

theorem addCarry_carried_le (h : Digits width segs) (hw : 0 < width) (carry : Nat) :
    (addCarry (1 <<< width) carry segs).2 ≤ carry := by
  induction segs with
  | nil => exact Nat.le_refl carry
  | cons s segs ih =>
    obtain ⟨hs, h⟩ := digits_cons.mp h
    have hm : 2 ≤ 2 ^ width := Nat.le_self_pow (by omega) 2
    rw [← Nat.one_shiftLeft] at hs hm
    exact Nat.le_trans (carried_le hs hm) (ih h)

/-- No sum on the way leaves the 128-bit numbers. -/
theorem addCarry?_eq_some (h : Digits width segs) (hw : 0 < width) (hw' : width ≤ 126) {carry : Nat}
    (hc : carry ≤ greatestCount) :
    addCarry? (1 <<< width) carry segs = some (addCarry (1 <<< width) carry segs) := by
  induction segs with
  | nil => rfl
  | cons s segs ih =>
    obtain ⟨hs, h⟩ := digits_cons.mp h
    have hm : 2 ≤ 2 ^ width := Nat.le_self_pow (by omega) 2
    have hroom : 2 ^ width + 2 ^ width ≤ greatestCount := by
      have : 2 ^ width ≤ 2 ^ 126 := Nat.pow_le_pow_right (by decide) hw'
      rw [greatestCount, Nat.one_shiftLeft]
      omega
    have hle := addCarry_carried_le h hw carry
    rw [addCarry?, ih h]
    simp only [addCarry]
    rw [Nat.one_shiftLeft] at *
    generalize addCarry (2 ^ width) carry segs = r at *
    simp only [Option.pure_def, Option.bind_eq_bind, Option.bind_some]
    by_cases hr : r.2 = 0
    · simp [hr, Nat.mod_eq_of_lt hs, Nat.div_eq_of_lt hs]
    · have hmod : r.2 % 2 ^ width < 2 ^ width := Nat.mod_lt _ (Nat.two_pow_pos width)
      have hsum : sum? s (r.2 % 2 ^ width) = some (s + r.2 % 2 ^ width) := if_pos (by omega)
      have hcarried : sum? (r.2 / 2 ^ width) ((s + r.2 % 2 ^ width) / 2 ^ width) =
          some (r.2 / 2 ^ width + (s + r.2 % 2 ^ width) / 2 ^ width) :=
        if_pos (Nat.le_trans (carried_le hs hm) (Nat.le_trans hle hc))
      rw [if_neg hr, hsum, Option.bind_some, hcarried, Option.bind_some]

theorem offset?_eq_some (a : Address) {index : Nat} (hi : index ≤ greatestCount) :
    a.offset? index = some (a.offset index) := by
  have hpos : 0 < a.family.segmentBits := by cases a.family <;> decide
  have hle : a.family.segmentBits ≤ 126 := by cases a.family <;> decide
  rw [offset?, addCarry?_eq_some (digits_segments a) hpos hle hi]
  rfl

/-! ## (3) Steps add up -/

theorem offset_offset (a : Address) (i j : Nat) : (a.offset i).offset j = a.offset (i + j) := by
  apply eq_of_toBits_eq (by simp)
  rw [toBits_offset, toBits_offset, toBits_offset, family_offset, Nat.mod_add_mod, Nat.add_assoc]

theorem offset_right_comm (a : Address) (i j : Nat) : (a.offset i).offset j = (a.offset j).offset i := by
  rw [offset_offset, offset_offset, Nat.add_comm]

/-! ## (4) Order -/

/-- v4 comes before v6, and a family is ordered by its numbers. -/
theorem lt_iff {a b : Address} :
    a < b ↔ a.family = .v4 ∧ b.family = .v6 ∨ a.family = b.family ∧ a.toBits < b.toBits := by
  by_cases hf : a.family = b.family
  · rw [lt_iff_toBits_lt hf]
    constructor
    · intro h
      exact .inr ⟨hf, h⟩
    · rintro (⟨ha, hb⟩ | ⟨-, h⟩)
      · rw [hf, hb] at ha
        cases ha
      · exact h
  · cases a with
    | v4 x =>
      cases b with
      | v4 y => exact absurd rfl hf
      | v6 y =>
        have hlt : v4 x < v6 y := List.Lex.rel (show 4 < 6 by decide)
        simp [hlt, family]
    | v6 x =>
      cases b with
      | v4 y =>
        have hlt : ¬ v6 x < v4 y := by
          intro h
          rcases List.cons_lex_cons_iff.mp h with h | ⟨h, -⟩
          · exact absurd h (show ¬ 6 < 4 by decide)
          · exact absurd h (show ¬ 6 = 4 by decide)
        simp [hlt, family]
      | v6 y => exact absurd rfl hf

/-- Addresses of a family are the numbers of its width: going on by any 128-bit number adds to the number, past
    the last address from the first one on, and no sum on the way leaves 128 bits; the number and the
    address give each other back; and the order is by family and number. -/
theorem addresses_are_numbers :
    (∀ (a : Address) (k : Nat), k ≤ greatestCount →
      a.offset? k = some (a.offset k) ∧ (a.offset k).family = a.family ∧
        (a.offset k).toBits = (a.toBits + k) % 2 ^ a.family.width) ∧
    (∀ a : Address, a.toBits < 2 ^ a.family.width ∧ ofBits a.family a.toBits = a) ∧
    (∀ (f : Family) (b : Nat), (ofBits f b).family = f ∧ (ofBits f b).toBits = b % 2 ^ f.width) ∧
    (∀ (a : Address) (i j : Nat), (a.offset i).offset j = (a.offset j).offset i) ∧
    ∀ a b : Address, a < b ↔ a.family = .v4 ∧ b.family = .v6 ∨ a.family = b.family ∧ a.toBits < b.toBits := by
  refine ⟨?_, ?_, ?_, offset_right_comm, fun a b => lt_iff⟩
  · intro a k hk
    exact ⟨offset?_eq_some a hk, family_offset a k, toBits_offset a k⟩
  · intro a
    exact ⟨a.toBits_lt, ofBits_toBits a⟩
  · intro f b
    exact ⟨family_ofBits f b, toBits_ofBits f b⟩

/-- The greatest 128-bit number takes an address one place back. -/
theorem offset_of_greatest : greatestCount ≤ greatestCount ∧
    (v4 #v[10, 1, 0, 0]).offset? greatestCount = some (v4 #v[10, 0, 255, 255]) := by
  refine ⟨Nat.le_refl _, ?_⟩
  rw [(addresses_are_numbers.1 _ _ (Nat.le_refl greatestCount)).1]
  decide

end Peripheral.Address
