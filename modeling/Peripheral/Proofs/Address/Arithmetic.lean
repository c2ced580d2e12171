import Mathlib.Data.Nat.ModEq
import Mathlib.Tactic.Ring
import Peripheral.Address.Basic

/-
  Peripheral.Proofs.Address.Arithmetic — the arithmetic on segments is arithmetic on the
  numbers that the segments stand for.

  Segments are digits in base `2 ^ width`, the most significant first (`Digits`). On them
  `addCarry` is addition (`valueOf_addCarry`), a mask of `ones` bits rounds down to a multiple
  of a power of two (`valueOf_zipWith_maskSegments`), and the order from the front is the
  order of the numbers (`lex_iff_valueOf_lt`). For addresses: `toBits_offset`, `toBits_base`,
  `lt_iff_toBits_lt`.
-/

namespace Peripheral.Address

/-! ## Digits -/

/-- Segments of `width` bits. -/
def Digits (width : Nat) (segs : List Nat) : Prop := ∀ s ∈ segs, s < 2 ^ width

variable {width : Nat} {segs : List Nat}

theorem digits_nil : Digits width [] := nofun

@[simp] theorem digits_cons {s : Nat} : Digits width (s :: segs) ↔ s < 2 ^ width ∧ Digits width segs :=
  List.forall_mem_cons

theorem radix_pow_succ (width n : Nat) : 2 ^ (width * (n + 1)) = 2 ^ width * 2 ^ (width * n) := by
  rw [Nat.mul_succ, Nat.pow_add, Nat.mul_comm]

/-- Reading digits after the value `acc`. -/
theorem foldl_eq (h : Digits width segs) (acc : Nat) :
    segs.foldl (fun acc s => acc <<< width ||| s) acc = acc * 2 ^ (width * segs.length) + valueOf width segs := by
  induction segs generalizing acc with
  | nil => simp [valueOf]
  | cons s segs ih =>
    obtain ⟨hs, h⟩ := digits_cons.mp h
    have step : ∀ a, a <<< width ||| s = a * 2 ^ width + s := fun a => by
      rw [← Nat.shiftLeft_add_eq_or_of_lt hs, Nat.shiftLeft_eq]
    simp only [valueOf, List.foldl_cons, List.length_cons]
    rw [ih h, ih h, step, step, radix_pow_succ]
    ring

theorem valueOf_cons (s : Nat) (h : Digits width segs) :
    valueOf width (s :: segs) = s * 2 ^ (width * segs.length) + valueOf width segs := by
  have := foldl_eq h s
  simpa [valueOf] using this

theorem valueOf_lt (h : Digits width segs) : valueOf width segs < 2 ^ (width * segs.length) := by
  induction segs with
  | nil => simp [valueOf]
  | cons s segs ih =>
    obtain ⟨hs, h⟩ := digits_cons.mp h
    rw [valueOf_cons s h, List.length_cons, radix_pow_succ]
    calc s * 2 ^ (width * segs.length) + valueOf width segs
        < (s + 1) * 2 ^ (width * segs.length) := by
          rw [Nat.succ_mul]
          exact Nat.add_lt_add_left (ih h) _
      _ ≤ 2 ^ width * 2 ^ (width * segs.length) := Nat.mul_le_mul_right _ hs

/-! ## Adding -/

@[simp] theorem length_addCarry (modulus carry : Nat) :
    (addCarry modulus carry segs).1.length = segs.length := by
  induction segs with
  | nil => rfl
  | cons s segs ih => simp [addCarry, ih]

theorem digits_addCarry (width carry : Nat) (segs : List Nat) :
    Digits width (addCarry (1 <<< width) carry segs).1 := by
  induction segs with
  | nil => exact digits_nil
  | cons s segs ih =>
    rw [Nat.one_shiftLeft] at ih ⊢
    exact digits_cons.mpr ⟨Nat.mod_lt _ (Nat.two_pow_pos _), ih⟩

/-- The new digits and what is carried out make up the old number and what was added. -/
theorem valueOf_addCarry (h : Digits width segs) (carry : Nat) :
    valueOf width (addCarry (1 <<< width) carry segs).1 +
        2 ^ (width * segs.length) * (addCarry (1 <<< width) carry segs).2 =
      valueOf width segs + carry := by
  induction segs with
  | nil => simp [addCarry, valueOf]
  | cons s segs ih =>
    obtain ⟨-, h⟩ := digits_cons.mp h
    have ih := ih h
    have hrest := digits_addCarry width carry segs
    simp only [addCarry]
    rw [valueOf_cons _ hrest, valueOf_cons s h, length_addCarry, List.length_cons, radix_pow_succ,
      Nat.one_shiftLeft] at *
    generalize addCarry (2 ^ width) carry segs = r at *
    generalize 2 ^ (width * segs.length) = b at *
    generalize 2 ^ width = m at *
    have hc := Nat.mod_add_div r.2 m
    have hsum := Nat.mod_add_div (s + r.2 % m) m
    calc (s + r.2 % m) % m * b + valueOf width r.1 + m * b * (r.2 / m + (s + r.2 % m) / m)
        = ((s + r.2 % m) % m + m * ((s + r.2 % m) / m)) * b + m * (r.2 / m) * b + valueOf width r.1 := by ring
      _ = s * b + (r.2 % m + m * (r.2 / m)) * b + valueOf width r.1 := by
          rw [hsum]
          ring
      _ = s * b + (valueOf width r.1 + b * r.2) := by
          rw [hc]
          ring
      _ = s * b + valueOf width segs + carry := by rw [ih, Nat.add_assoc]

/-- What is carried out is dropped. -/
theorem valueOf_addCarry_mod (h : Digits width segs) (carry : Nat) :
    valueOf width (addCarry (1 <<< width) carry segs).1 =
      (valueOf width segs + carry) % 2 ^ (width * segs.length) := by
  have hlt := valueOf_lt (digits_addCarry width carry segs)
  rw [length_addCarry] at hlt
  rw [← valueOf_addCarry h, Nat.add_mul_mod_self_left, Nat.mod_eq_of_lt hlt]

/-! ## Masks -/

@[simp] theorem length_maskSegments (width count ones : Nat) :
    (maskSegments width count ones).length = count := by
  induction count generalizing ones with
  | zero => rfl
  | succ count ih =>
    simp only [maskSegments]
    split <;> simp [ih]

theorem digits_maskSegments (width count ones : Nat) : Digits width (maskSegments width count ones) := by
  have hfull : 1 <<< width - 1 < 2 ^ width := by
    rw [Nat.one_shiftLeft]
    exact Nat.sub_one_lt (Nat.two_pow_pos width).ne'
  induction count generalizing ones with
  | zero => exact digits_nil
  | succ count ih =>
    simp only [maskSegments]
    split
    · exact digits_cons.mpr ⟨hfull, ih _⟩
    · exact digits_cons.mpr ⟨Nat.lt_of_le_of_lt Nat.and_le_right hfull, ih _⟩

theorem and_full {s : Nat} (hs : s < 2 ^ width) : s &&& (1 <<< width - 1) = s := by
  rw [Nat.one_shiftLeft, Nat.and_two_pow_sub_one_eq_mod, Nat.mod_eq_of_lt hs]

/-- A segment under ones in front of `k` zeros is rounded down to a multiple of `2 ^ k`. -/
theorem and_front {s : Nat} (hs : s < 2 ^ width) (k : Nat) :
    s &&& ((1 <<< width - 1) <<< k &&& (1 <<< width - 1)) = s / 2 ^ k * 2 ^ k := by
  rw [← Nat.shiftRight_eq_div_pow, ← Nat.shiftLeft_eq, Nat.one_shiftLeft]
  apply Nat.eq_of_testBit_eq
  intro i
  simp only [Nat.testBit_and, Nat.testBit_shiftLeft, Nat.testBit_two_pow_sub_one, Nat.testBit_shiftRight]
  by_cases hi : i < width
  · by_cases hk : k ≤ i
    · simp [hi, hk, show i - k < width by omega]
    · simp [hk]
  · have hbit : s.testBit i = false :=
      Nat.testBit_lt_two_pow (Nat.lt_of_lt_of_le hs (Nat.pow_le_pow_right (by decide) (by omega)))
    by_cases hk : k ≤ i
    · simp [hi, hbit, hk]
    · simp [hi, hk]

theorem digits_zipWith_and (h : Digits width segs) (ms : List Nat) :
    Digits width (List.zipWith (· &&& ·) segs ms) := by
  intro x hx
  obtain ⟨i, hi, rfl⟩ := List.getElem_of_mem hx
  rw [List.getElem_zipWith]
  exact Nat.lt_of_le_of_lt Nat.and_le_left (h _ (List.getElem_mem _))

/-- Digits under a mask: the number is rounded down to a multiple of a power of two. -/
theorem valueOf_zipWith_maskSegments (h : Digits width segs) {ones : Nat} (ho : ones ≤ width * segs.length) :
    valueOf width (List.zipWith (· &&& ·) segs (maskSegments width segs.length ones)) =
      valueOf width segs / 2 ^ (width * segs.length - ones) * 2 ^ (width * segs.length - ones) := by
  induction segs generalizing ones with
  | nil => simp [maskSegments, valueOf]
  | cons s segs ih =>
    obtain ⟨hs, h⟩ := digits_cons.mp h
    rw [List.length_cons, Nat.mul_succ] at *
    simp only [maskSegments]
    split
    · rename_i hw
      have hn : width * segs.length + width - ones = width * segs.length - (ones - width) := by omega
      have hdvd : 2 ^ (width * segs.length - (ones - width)) ∣ s * 2 ^ (width * segs.length) :=
        Dvd.dvd.mul_left (Nat.pow_dvd_pow 2 (Nat.sub_le _ _)) s
      rw [List.zipWith_cons_cons, valueOf_cons _ (digits_zipWith_and h _), and_full hs, ih h (by omega),
        valueOf_cons s h, hn, Nat.add_div_of_dvd_right hdvd, Nat.add_mul, Nat.div_mul_cancel hdvd]
      simp
    · rename_i hw
      have hn : width * segs.length + width - ones = width * segs.length + (width - ones) := by omega
      rw [List.zipWith_cons_cons, valueOf_cons _ (digits_zipWith_and h _), and_front hs, ih h (by omega),
        valueOf_cons s h, hn, Nat.pow_add, ← Nat.div_div_eq_div_mul]
      have hlt := valueOf_lt h
      have hpos := Nat.two_pow_pos (width * segs.length)
      have hfirst : (s * 2 ^ (width * segs.length) + valueOf width segs) / 2 ^ (width * segs.length) = s := by
        rw [Nat.mul_comm, Nat.mul_add_div hpos, Nat.div_eq_of_lt hlt, Nat.add_zero]
      have hrest : valueOf width segs / 2 ^ (width * segs.length - 0) = 0 := Nat.div_eq_of_lt hlt
      rw [hfirst, hrest, List.length_zipWith, length_maskSegments, Nat.min_self]
      ring

/-- A mask with `ones` bits is all ones but for the bits behind them. -/
theorem valueOf_maskSegments {width count ones : Nat} (ho : ones ≤ width * count) :
    valueOf width (maskSegments width count ones) = 2 ^ (width * count) - 2 ^ (width * count - ones) := by
  induction count generalizing ones with
  | zero => simp [maskSegments, valueOf]
  | succ count ih =>
    have hpos := Nat.two_pow_pos (width * count)
    have hfull : 1 <<< width - 1 = 2 ^ width - 1 := by rw [Nat.one_shiftLeft]
    have hlt : 1 <<< width - 1 < 2 ^ width := by
      rw [hfull]
      exact Nat.sub_one_lt (Nat.two_pow_pos width).ne'
    rw [Nat.mul_succ] at ho ⊢
    simp only [maskSegments]
    by_cases hw : width ≤ ones
    · -- a full segment in front
      have hn : width * count + width - ones = width * count - (ones - width) := by omega
      have hle : 2 ^ (width * count - (ones - width)) ≤ 2 ^ (width * count) :=
        Nat.pow_le_pow_right (by decide) (Nat.sub_le _ _)
      rw [if_pos hw, valueOf_cons _ (digits_maskSegments _ _ _), length_maskSegments, ih (by omega), hn, hfull,
        Nat.sub_one_mul, Nat.pow_add, Nat.mul_comm (2 ^ (width * count))]
      have : 2 ^ (width * count) ≤ 2 ^ width * 2 ^ (width * count) := Nat.le_mul_of_pos_left _ (Nat.two_pow_pos _)
      omega
    · -- the ones end in the first segment, and zeros follow
      have hn : width * count + width - ones = width * count + (width - ones) := by omega
      have hpow : 2 ^ width = 2 ^ (width - ones) * 2 ^ ones := by
        rw [← Nat.pow_add]
        congr 1
        omega
      have hquot : (2 ^ width - 1) / 2 ^ (width - ones) = 2 ^ ones - 1 := by
        have := Nat.mul_sub_div 0 (2 ^ (width - ones)) (2 ^ ones) (hpow ▸ Nat.two_pow_pos width)
        rwa [Nat.zero_add, Nat.zero_div, ← hpow] at this
      have hfront : (1 <<< width - 1) <<< (width - ones) &&& (1 <<< width - 1) = 2 ^ width - 2 ^ (width - ones) := by
        have := and_front hlt (width - ones)
        rw [Nat.and_comm (_ <<< _), ← Nat.and_assoc, Nat.and_self, Nat.and_comm] at this
        rw [this, hfull, hquot, Nat.sub_one_mul, Nat.mul_comm (2 ^ ones), ← hpow]
      rw [if_neg hw, valueOf_cons _ (digits_maskSegments _ _ _), length_maskSegments, ih (Nat.zero_le _), hfront, hn,
        Nat.sub_zero, Nat.sub_self, Nat.add_zero, Nat.pow_add, Nat.pow_add, Nat.mul_comm (2 ^ (width * count)),
        Nat.mul_comm (2 ^ (width * count)), Nat.sub_mul]

/-! ## Order -/

/-- A smaller first digit outweighs all that follows. -/
theorem first_digit_lt {x y v w b : Nat} (hxy : x < y) (hv : v < b) : x * b + v < y * b + w := by
  have : (x + 1) * b ≤ y * b := Nat.mul_le_mul_right b hxy
  rw [Nat.succ_mul] at this
  omega

/-- The order from the front is the order of the numbers. -/
theorem lex_iff_valueOf_lt {a b : List Nat} (ha : Digits width a) (hb : Digits width b) (hl : a.length = b.length) :
    List.Lex (· < ·) a b ↔ valueOf width a < valueOf width b := by
  induction a generalizing b with
  | nil =>
    cases b with
    | nil => simp
    | cons y b => cases hl
  | cons x a ih =>
    cases b with
    | nil => cases hl
    | cons y b =>
      obtain ⟨-, ha⟩ := digits_cons.mp ha
      obtain ⟨-, hb⟩ := digits_cons.mp hb
      have hl : a.length = b.length := by simpa using hl
      have hva := valueOf_lt ha
      have hvb := valueOf_lt hb
      rw [← hl] at hvb
      rw [valueOf_cons x ha, valueOf_cons y hb, List.cons_lex_cons_iff, ih ha hb hl, ← hl]
      constructor
      · rintro (hxy | ⟨rfl, h⟩)
        · exact first_digit_lt hxy hva
        · omega
      · intro h
        rcases Nat.lt_trichotomy x y with hxy | rfl | hxy
        · exact .inl hxy
        · exact .inr ⟨rfl, by omega⟩
        · have := first_digit_lt (w := valueOf width a) hxy hvb
          omega

theorem eq_of_valueOf_eq {a b : List Nat} (ha : Digits width a) (hb : Digits width b) (hl : a.length = b.length)
    (h : valueOf width a = valueOf width b) : a = b := by
  induction a generalizing b with
  | nil => exact (List.eq_nil_of_length_eq_zero hl.symm).symm
  | cons x a ih =>
    cases b with
    | nil => cases hl
    | cons y b =>
      obtain ⟨-, ha'⟩ := digits_cons.mp ha
      obtain ⟨-, hb'⟩ := digits_cons.mp hb
      have hab : a.length = b.length := by simpa using hl
      have hva := valueOf_lt ha'
      have hvb := valueOf_lt hb'
      rw [← hab] at hvb
      rw [valueOf_cons x ha', valueOf_cons y hb', ← hab] at h
      rcases Nat.lt_trichotomy x y with hxy | rfl | hxy
      · have := first_digit_lt (w := valueOf width b) hxy hva
        omega
      · rw [ih ha' hb' hab (by omega)]
      · have := first_digit_lt (w := valueOf width a) hxy hvb
        omega

/-! ## Addresses -/

protected theorem lt_irrefl (a : Address) : ¬ a < a := List.lt_irrefl a.key

protected theorem lt_trans {a b c : Address} : a < b → b < c → a < c := List.lt_trans

protected theorem le_trans {a b c : Address} : a ≤ b → b ≤ c → a ≤ c := List.le_trans

protected theorem le_total (a b : Address) : a ≤ b ∨ b ≤ a := List.le_total a.key b.key

theorem Family.width_eq (f : Family) : f.width = f.segmentBits * f.segmentCount := by
  cases f <;> rfl

@[simp] theorem length_segments (a : Address) : a.segments.length = a.family.segmentCount := by
  cases a <;> simp [segments, family, Family.segmentCount]

theorem digits_segments (a : Address) : Digits a.family.segmentBits a.segments := by
  intro s hs
  cases a with
  | v4 octets =>
    obtain ⟨o, -, rfl⟩ := List.mem_map.mp hs
    exact o.toNat_lt
  | v6 groups =>
    obtain ⟨g, -, rfl⟩ := List.mem_map.mp hs
    exact g.toNat_lt

@[simp] theorem family_ofSegments (f : Family) (segs : List Nat) : (ofSegments f segs).family = f := by
  cases f <;> rfl

/-- Segments of the right number and size come back. -/
theorem segments_ofSegments {f : Family} (h : Digits f.segmentBits segs) (hl : segs.length = f.segmentCount) :
    (ofSegments f segs).segments = segs := by
  apply List.ext_getElem
  · rw [length_segments, family_ofSegments, hl]
  · intro i h1 h2
    have hs := h _ (List.getElem_mem h2)
    cases f with
    | v4 => simpa [segments, ofSegments, h2, Family.segmentBits] using hs
    | v6 => simpa [segments, ofSegments, h2, Family.segmentBits] using hs

/-- Addresses of one family with one number are equal. -/
theorem eq_of_toBits_eq {a b : Address} (hf : a.family = b.family) (h : a.toBits = b.toBits) : a = b := by
  have hs : a.segments = b.segments := by
    refine eq_of_valueOf_eq (digits_segments a) (hf ▸ digits_segments b) ?_ (by rwa [toBits, toBits, ← hf] at h)
    rw [length_segments, length_segments, hf]
  cases a with
  | v4 x =>
    cases b with
    | v4 y => rw [Vector.toList_inj.mp ((List.map_inj_right fun _ _ => UInt8.toNat_inj.mp).mp hs)]
    | v6 y => cases hf
  | v6 x =>
    cases b with
    | v4 y => cases hf
    | v6 y => rw [Vector.toList_inj.mp ((List.map_inj_right fun _ _ => UInt16.toNat_inj.mp).mp hs)]

theorem toBits_lt (a : Address) : a.toBits < 2 ^ a.family.width := by
  have := valueOf_lt (digits_segments a)
  rwa [length_segments, ← Family.width_eq] at this

@[simp] theorem family_offset (a : Address) (k : Nat) : (a.offset k).family = a.family := family_ofSegments _ _

/-- Adding an index adds to the number; past the last address it starts over. -/
theorem toBits_offset (a : Address) (k : Nat) : (a.offset k).toBits = (a.toBits + k) % 2 ^ a.family.width := by
  have hs : (a.offset k).segments = (addCarry (1 <<< a.family.segmentBits) k a.segments).1 :=
    segments_ofSegments (digits_addCarry _ k _) (by simp)
  rw [toBits, toBits, family_offset, hs, valueOf_addCarry_mod (digits_segments a), length_segments,
    ← Family.width_eq]

theorem mask_eq_ok_iff {f : Family} {len : Nat} {m : Address} :
    mask f len = .ok m ↔ len ≤ f.width ∧ m = ofSegments f (maskSegments f.segmentBits f.segmentCount len) := by
  unfold mask
  split
  · simp only [reduceCtorEq, false_iff, not_and]
    omega
  · simp only [Except.ok.injEq]
    exact ⟨fun h => ⟨by omega, h.symm⟩, fun h => h.2.symm⟩

theorem toBits_mask {f : Family} {len : Nat} {m : Address} (hm : mask f len = .ok m) :
    m.family = f ∧ m.toBits = 2 ^ f.width - 2 ^ (f.width - len) := by
  obtain ⟨hlen, rfl⟩ := mask_eq_ok_iff.mp hm
  refine ⟨family_ofSegments _ _, ?_⟩
  rw [Family.width_eq] at hlen
  rw [toBits, family_ofSegments, segments_ofSegments (digits_maskSegments _ _ _) (length_maskSegments _ _ _),
    valueOf_maskSegments hlen, ← Family.width_eq]

/-- Under a mask of `len` bits an address is rounded down to a multiple of the number of
    addresses that share these bits. -/
theorem toBits_base {a m : Address} {len : Nat} (hm : mask a.family len = .ok m) :
    ∃ b, a.base m = .ok b ∧ b.family = a.family ∧
      b.toBits = a.toBits / 2 ^ (a.family.width - len) * 2 ^ (a.family.width - len) := by
  obtain ⟨hlen, rfl⟩ := mask_eq_ok_iff.mp hm
  refine ⟨_, if_pos (by simp), by simp, ?_⟩
  rw [segments_ofSegments (digits_maskSegments _ _ _) (length_maskSegments _ _ _), toBits, family_ofSegments,
    segments_ofSegments (digits_zipWith_and (digits_segments a) _) (by simp), ← length_segments a,
    valueOf_zipWith_maskSegments (digits_segments a) (by rwa [length_segments, ← Family.width_eq]),
    length_segments, ← Family.width_eq, toBits]

/-- Within one family the order is the order of the numbers. -/
theorem lt_iff_toBits_lt {a b : Address} (hf : a.family = b.family) : a < b ↔ a.toBits < b.toBits := by
  have hl : a.segments.length = b.segments.length := by rw [length_segments, length_segments, hf]
  have hlex := lex_iff_valueOf_lt (digits_segments a) (hf ▸ digits_segments b) hl
  have hkey : a < b ↔ List.Lex (· < ·) a.segments b.segments := by
    cases a with
    | v4 x =>
      cases b with
      | v4 y => exact List.cons_lex_cons_iff.trans (by simp)
      | v6 y => cases hf
    | v6 x =>
      cases b with
      | v4 y => cases hf
      | v6 y => exact List.cons_lex_cons_iff.trans (by simp)
  rw [hkey, hlex, toBits, toBits, hf]

end Peripheral.Address
