import Mathlib.Algebra.GroupWithZero.Nat
import Peripheral.Text.Numeral

/-
  Peripheral.Proofs.Text.Numeral — reading back the digits of a number.

  A number of several digits is a smaller number and a last digit (`digitwise`). Its digits
  stand for it (`digits?_write`), and only zero has a zero in front (`head?_write`). Up to radix
  ten there are no letters to choose between: the digits that stand for a number without a zero
  in front are its own (`eq_write_of_unsigned?`).
-/

namespace Peripheral.Text.Numeral

variable {radix n d : Nat}

theorem write_ne_nil : write radix n ≠ [] := Nat.toDigits_ne_nil

theorem write_digit (hd : d < radix) : write radix d = [Nat.digitChar d] := Nat.toDigits_of_lt_base hd

theorem write_more {m : Nat} (hr : 1 < radix) (hm : 0 < m) (hd : d < radix) :
    write radix (radix * m + d) = write radix m ++ [Nat.digitChar d] := by
  rw [← write_digit hd]
  exact (Nat.toDigits_append_toDigits hr hm hd).symm

/-- Induction over the digits of a number, the last one split off. -/
theorem digitwise {motive : Nat → Prop} (hr : 1 < radix) (single : ∀ d < radix, motive d)
    (more : ∀ m d, 0 < m → d < radix → motive m → motive (radix * m + d)) (n : Nat) : motive n := by
  induction n using Nat.strongRecOn with
  | ind n ih =>
    by_cases hn : n < radix
    · exact single n hn
    · have hpos : 0 < n / radix := Nat.div_pos (by omega) (by omega)
      have hmotive := more (n / radix) (n % radix) hpos (Nat.mod_lt n (by omega))
        (ih (n / radix) (Nat.div_lt_self (by omega) hr))
      rwa [Nat.div_add_mod] at hmotive

theorem digit?_digitChar (hd : d < radix) (hr : radix ≤ 16) : digit? radix (Nat.digitChar d) = some d := by
  have hall : ∀ r ≤ 16, ∀ d < r, digit? r (Nat.digitChar d) = some d := by decide
  exact hall radix hr d hd

theorem digits?_append (s t : List Char) (acc : Nat) :
    digits? radix (s ++ t) acc = (digits? radix s acc).bind (digits? radix t) := by
  induction s generalizing acc with
  | nil => rfl
  | cons c s ih =>
    rw [List.cons_append, digits?, digits?]
    cases digit? radix c with
    | none => rfl
    | some d => exact ih _

section Write

variable (hr : 1 < radix) (hr' : radix ≤ 16)

include hr hr'

/-- The digits stand for the number. -/
theorem digits?_write (n : Nat) : digits? radix (write radix n) 0 = some n := by
  induction n using digitwise hr with
  | single d hd => simp [write_digit hd, digits?, digit?_digitChar hd hr']
  | more m d hm hd ih =>
    rw [write_more hr hm hd, digits?_append, ih]
    simp [digits?, digit?_digitChar hd hr', Nat.mul_comm]

theorem unsigned?_write (n : Nat) : unsigned? radix (write radix n) = some n := by
  rw [unsigned?, if_neg (by simp [write_ne_nil]), digits?_write hr hr']

theorem isSome_digit?_of_mem_write {c : Char} (hc : c ∈ write radix n) : (digit? radix c).isSome = true := by
  induction n using digitwise hr with
  | single d hd =>
    rw [write_digit hd, List.mem_singleton] at hc
    rw [hc, digit?_digitChar hd hr']
    rfl
  | more m d hm hd ih =>
    rw [write_more hr hm hd, List.mem_append, List.mem_singleton] at hc
    rcases hc with hc | rfl
    · exact ih hc
    · rw [digit?_digitChar hd hr']
      rfl

/-- Only zero has a zero in front. -/
theorem head?_write (h : (write radix n).head? = some '0') : n = 0 := by
  induction n using digitwise hr with
  | single d hd =>
    rw [write_digit hd, List.head?_cons, Option.some.injEq] at h
    have hdigit := digit?_digitChar hd hr'
    rw [h] at hdigit
    simpa [digit?, show 0 < radix by omega] using hdigit.symm
  | more m d hm hd ih =>
    obtain ⟨c, cs, hcs⟩ := List.exists_cons_of_ne_nil (@write_ne_nil radix m)
    rw [write_more hr hm hd, hcs] at h
    rw [hcs] at ih
    exact absurd (ih h) (by omega)

/-- No digit follows a leading zero. -/
theorem length_write_of_head? (h : (write radix n).head? = some '0') : (write radix n).length = 1 := by
  rw [head?_write hr hr' h, write_digit (by omega : 0 < radix)]
  rfl

end Write

theorem length_write_le_iff {k : Nat} (hr : 1 < radix) (hk : 0 < k) : (write radix n).length ≤ k ↔ n < radix ^ k :=
  Nat.length_toDigits_le_iff hr hk

/-! ## One spelling -/

section Spelling

variable {m : Nat} {c : Char} {ds : List Char}

/-- Up to radix ten a digit has one spelling. -/
theorem eq_digitChar_of_digit? (hr : radix ≤ 10) (h : digit? radix c = some d) : c = Nat.digitChar d := by
  obtain ⟨hc, hd⟩ : c.toNat = 48 + d ∧ d < 10 := by
    simp only [digit?] at h
    grind
  have hall : ∀ d < 10, (Nat.digitChar d).toNat = 48 + d := by decide
  exact Char.toNat_inj.mp (hc.trans (hall d hd).symm)

theorem lt_of_digit? (h : digit? radix c = some d) : d < radix := by
  simp only [digit?] at h
  grind

theorem write_append_digits? (hr : 1 < radix) (hr' : radix ≤ 10) (hm : 0 < m) (h : digits? radix ds m = some n) :
    write radix n = write radix m ++ ds := by
  induction ds generalizing m with
  | nil =>
    obtain rfl : m = n := Option.some.inj h
    exact (List.append_nil _).symm
  | cons c ds ih =>
    obtain ⟨d, hd, h⟩ := Option.bind_eq_some_iff.mp h
    have hpos : 0 < m * radix + d := Nat.add_pos_left (Nat.mul_pos hm (by omega)) d
    rw [ih hpos h, Nat.mul_comm, write_more hr hm (lt_of_digit? hd), eq_digitChar_of_digit? hr' hd, List.append_assoc]
    rfl

/-- Up to radix ten the digits of a number have one spelling without a leading zero. -/
theorem eq_write_of_unsigned? (hr : 1 < radix) (hr' : radix ≤ 10) (hzero : ds.head? = some '0' → ds.length = 1)
    (h : unsigned? radix ds = some n) : ds = write radix n := by
  cases ds with
  | nil => cases h
  | cons c ds =>
    obtain ⟨d, hd, h⟩ : ∃ d, digit? radix c = some d ∧ digits? radix ds d = some n := by
      simpa [unsigned?, digits?, Option.bind_eq_some_iff] using h
    have hc := eq_digitChar_of_digit? hr' hd
    have hone : write radix d = [c] := by rw [write_digit (lt_of_digit? hd), hc]
    rcases Nat.eq_zero_or_pos d with rfl | hpos
    · obtain rfl : ds = [] := List.length_eq_zero_iff.mp (Nat.succ.inj (hzero (by rw [hc]; rfl)))
      obtain rfl : 0 = n := Option.some.inj h
      exact hone.symm
    · rw [write_append_digits? hr hr' hpos h, hone]
      rfl

end Spelling

/-! ## Below a limit -/

section Limit

variable {limit acc : Nat} {s : List Char}

theorem unsigned?_eq_some_iff : unsigned? radix s = some n ↔ s ≠ [] ∧ digits? radix s 0 = some n := by
  unfold unsigned?
  cases s <;> simp

/-- Digits make a value no smaller. -/
theorem le_of_digits? (hr : 0 < radix) (h : digits? radix s acc = some n) : acc ≤ n := by
  induction s generalizing acc with
  | nil => exact Nat.le_of_eq (Option.some.inj h)
  | cons c s ih =>
    obtain ⟨d, -, h⟩ := Option.bind_eq_some_iff.mp h
    have hstep : acc ≤ acc * radix := Nat.le_mul_of_pos_right acc hr
    have hrest := ih h
    omega

/-- What is below the limit at the end was below it at every digit. -/
theorem bounded_eq_ok_iff (hr : 0 < radix) (hacc : acc < limit) :
    bounded radix limit s acc = .ok n ↔ digits? radix s acc = some n ∧ n < limit := by
  induction s generalizing acc with
  | nil =>
    simp only [bounded, digits?, Except.ok.injEq, Option.some.injEq]
    exact ⟨fun h => ⟨h, h ▸ hacc⟩, And.left⟩
  | cons c s ih =>
    rw [bounded, digits?]
    cases hd : digit? radix c with
    | none => simp
    | some d =>
      rw [Option.bind_some]
      dsimp only
      split
      · rename_i hlimit
        exact ih hlimit
      · rename_i hlimit
        exact ⟨nofun, fun ⟨h, hn⟩ => absurd (Nat.lt_of_le_of_lt (le_of_digits? hr h) hn) hlimit⟩

theorem unsigned?_plus (radix : Nat) (s : List Char) : unsigned? radix ('+' :: s) = none := by
  have hplus : digit? radix '+' = none := by simp [digit?]
  simp [unsigned?, digits?, hplus]

/-- What is read is the digits of a number below the limit, with a plus sign in front or without. -/
theorem parse_eq_ok_iff (hr : 0 < radix) (hlimit : 0 < limit) : parse radix limit s = .ok n ↔
    n < limit ∧ ∃ ds, (s = ds ∨ s = '+' :: ds) ∧ unsigned? radix ds = some n := by
  have hbounded : ∀ ds, ds ≠ [] → (bounded radix limit ds 0 = .ok n ↔ n < limit ∧ unsigned? radix ds = some n) := by
    intro ds hds
    rw [bounded_eq_ok_iff hr hlimit, unsigned?_eq_some_iff, and_iff_right hds, and_comm]
  have hsigned : ∀ t, (∃ ds, ('+' :: t = ds ∨ '+' :: t = '+' :: ds) ∧ unsigned? radix ds = some n) ↔
      unsigned? radix t = some n := by
    intro t
    constructor
    · rintro ⟨ds, rfl | hds, h⟩
      · rw [unsigned?_plus] at h
        cases h
      · exact (List.cons.inj hds).2 ▸ h
    · exact fun h => ⟨t, .inr rfl, h⟩
  cases s with
  | nil => simp [parse, unsigned?]
  | cons c t =>
    by_cases hc : c = '+'
    · subst hc
      rw [hsigned]
      cases t with
      | nil => simp [parse, unsigned?]
      | cons c t => exact hbounded (c :: t) (List.cons_ne_nil c t)
    · have hunsigned : parse radix limit (c :: t) = bounded radix limit (c :: t) 0 := by simp [parse, hc]
      rw [hunsigned, hbounded _ (List.cons_ne_nil c t)]
      simp [hc]

theorem read?_eq_some_iff : read? radix limit s = some n ↔ parse radix limit s = .ok n := by
  unfold read?
  cases parse radix limit s <;> simp [Except.toOption]

theorem read?_write (hr : 1 < radix) (hr' : radix ≤ 16) (hn : n < limit) : read? radix limit (write radix n) = some n := by
  rw [read?_eq_some_iff, parse_eq_ok_iff (Nat.zero_lt_of_lt hr) (Nat.zero_lt_of_lt hn)]
  exact ⟨hn, write radix n, .inl rfl, unsigned?_write hr hr' n⟩

end Limit

/-! ## Digits at the front of a text -/

theorem takeWhile_front {p : Char → Bool} {front rest : List Char} (hfront : ∀ c ∈ front, p c = true)
    (hrest : ∀ c ∈ rest.head?, p c = false) : (front ++ rest).takeWhile p = front := by
  rw [List.takeWhile_append_of_pos hfront]
  cases rest with
  | nil => simp
  | cons c rest => simp [hrest c rfl]

theorem dropWhile_front {p : Char → Bool} {front rest : List Char} (hfront : ∀ c ∈ front, p c = true)
    (hrest : ∀ c ∈ rest.head?, p c = false) : (front ++ rest).dropWhile p = rest := by
  rw [List.dropWhile_append_of_pos hfront]
  cases rest with
  | nil => rfl
  | cons c rest => simp [hrest c rfl]

end Peripheral.Text.Numeral
