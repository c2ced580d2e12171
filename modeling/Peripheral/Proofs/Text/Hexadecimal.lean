import Peripheral.Proofs.Mac.Spelling
import Peripheral.Proofs.Text.Search

/-
  Peripheral.Proofs.Text.Hexadecimal — hexadecimal numbers with `0x` in front.

  One or more digits stand for a number (`IsHexNumber`), and `0x` may stand in front of them once
  (`IsHexLiteral`). The number reader takes a plus sign as well, and whatever drops `0x` from the
  front drops it as often as it stands there (`dropAll_eq_iff`). So more passes for a literal
  (`PassesForHex`, `parse_dropAll_eq_ok_iff`): a plus sign and a repeated `0x`, and nothing else
  (`isHexLiteral_iff`).
-/

namespace Peripheral.Text

open Mac (IsHexDigit)
open Numeral (digit? digits? digits?_append parse parse_eq_ok_iff unsigned? unsigned?_eq_some_iff unsigned?_write)

variable {s t : List Char} {n limit : Nat} {c : Char}

/-! ## Numbers -/

/-- One or more digits in either case, and the number that they stand for. -/
inductive IsHexNumber : List Char → Nat → Prop
  | digit {c : Char} {d : Nat} (hc : IsHexDigit c d) : IsHexNumber [c] d
  | more {s : List Char} {c : Char} {n d : Nat} (hs : IsHexNumber s n) (hc : IsHexDigit c d) :
      IsHexNumber (s ++ [c]) (16 * n + d)

theorem isHexNumber_iff : IsHexNumber s n ↔ unsigned? 16 s = some n := by
  rw [unsigned?_eq_some_iff]
  constructor
  · intro h
    induction h with
    | digit hc => simp [digits?, Mac.digit?_eq_some_iff.mpr hc]
    | more hs hc ih => simp [digits?_append, digits?, ih.2, Mac.digit?_eq_some_iff.mpr hc, Nat.mul_comm]
  · rintro ⟨hne, h⟩
    induction s using List.reverseRecOn generalizing n with
    | nil => exact absurd rfl hne
    | append_singleton s c ih =>
      rw [digits?_append] at h
      obtain ⟨m, hm, hlast⟩ := Option.bind_eq_some_iff.mp h
      obtain ⟨d, hd, hn⟩ := Option.bind_eq_some_iff.mp hlast
      obtain rfl : m * 16 + d = n := Option.some.inj hn
      have hc : IsHexDigit c d := Mac.digit?_eq_some_iff.mp hd
      by_cases hs : s = []
      · subst hs
        obtain rfl : 0 = m := Option.some.inj hm
        simpa using IsHexNumber.digit hc
      · exact Nat.mul_comm m 16 ▸ .more (ih hs hm) hc

theorem isHexNumber_write (n : Nat) : IsHexNumber (Numeral.write 16 n) n :=
  isHexNumber_iff.mpr (unsigned?_write (by omega) (by omega) n)

theorem IsHexNumber.exists_digit (h : IsHexNumber s n) (hc : c ∈ s) : ∃ d, IsHexDigit c d := by
  induction h with
  | @digit x d hx => exact ⟨d, List.mem_singleton.mp hc ▸ hx⟩
  | @more s x n d hs hx ih =>
    rcases List.mem_append.mp hc with hc | hc
    · exact ih hc
    · exact ⟨d, List.mem_singleton.mp hc ▸ hx⟩

theorem IsHexNumber.notMem (h : IsHexNumber s n) (hc : digit? 16 c = none) : c ∉ s := by
  intro hmem
  obtain ⟨d, hd⟩ := h.exists_digit hmem
  rw [Mac.digit?_eq_some_iff.mpr hd] at hc
  cases hc

/-- Zeros in front do not count. -/
theorem IsHexNumber.zeros (h : IsHexNumber s n) (k : Nat) : IsHexNumber (List.replicate k '0' ++ s) n := by
  have hzero : IsHexDigit '0' 0 := .inl rfl
  induction h with
  | @digit c d hc =>
    induction k with
    | zero => exact .digit hc
    | succ k ih =>
      rw [isHexNumber_iff, unsigned?_eq_some_iff] at ih ⊢
      refine ⟨by simp, ?_⟩
      rw [List.replicate_succ, List.cons_append, digits?, Mac.digit?_eq_some_iff.mpr hzero]
      exact ih.2
  | more hs hc ih => exact List.append_assoc _ _ _ ▸ .more ih hc

/-! ## Literals -/

/-- A number, perhaps with `0x` in front. -/
def IsHexLiteral (s : List Char) (n : Nat) : Prop := ∃ ds, (s = ds ∨ s = '0' :: 'x' :: ds) ∧ IsHexNumber ds n

/-- A number with any number of `0x` in front of it, and perhaps a plus sign between. -/
def PassesForHex (s : List Char) (n : Nat) : Prop :=
  ∃ k t ds, s = (List.replicate k ['0', 'x']).flatten ++ t ∧ (t = ds ∨ t = '+' :: ds) ∧ IsHexNumber ds n

theorem IsHexNumber.not_prefix (h : IsHexNumber s n) (ht : t = s ∨ t = '+' :: s) : ¬ ['0', 'x'] <+: t := by
  rintro ⟨u, rfl⟩
  rcases ht with rfl | ht
  · exact h.notMem (by decide) (by simp : 'x' ∈ ['0', 'x'] ++ u)
  · cases ht

/-- What is read behind every `0x`. -/
theorem parse_dropAll_eq_ok_iff (hlimit : 0 < limit) :
    parse 16 limit (dropAll "0x".toList s) = .ok n ↔ PassesForHex s n ∧ n < limit := by
  have hpart : "0x".toList = ['0', 'x'] := rfl
  rw [hpart, parse_eq_ok_iff (by omega) hlimit, and_comm, and_congr_left_iff]
  intro _
  have hdrop := fun t => @dropAll_eq_iff s t ['0', 'x'] (List.cons_ne_nil '0' ['x'])
  constructor
  · rintro ⟨ds, ht, hds⟩
    obtain ⟨-, k, hk⟩ := (hdrop _).mp rfl
    exact ⟨k, _, ds, hk, ht, isHexNumber_iff.mpr hds⟩
  · rintro ⟨k, t, ds, hs, ht, hds⟩
    rw [(hdrop t).mpr ⟨hds.not_prefix ht, k, hs⟩]
    exact ⟨ds, ht, isHexNumber_iff.mp hds⟩

theorem IsHexLiteral.passes (h : IsHexLiteral s n) : PassesForHex s n := by
  obtain ⟨ds, rfl | rfl, hds⟩ := h
  · exact ⟨0, s, s, rfl, .inl rfl, hds⟩
  · exact ⟨1, ds, ds, rfl, .inl rfl, hds⟩

/-- A plus sign and a second `0x` are all that a literal does not have. -/
theorem isHexLiteral_iff :
    IsHexLiteral s n ↔ PassesForHex s n ∧ '+' ∉ s ∧ ¬ ['0', 'x', '0', 'x'] <:+: s := by
  constructor
  · intro h
    refine ⟨h.passes, ?_⟩
    obtain ⟨ds, rfl | rfl, hds⟩ := h
    · exact ⟨hds.notMem (by decide), fun h => hds.notMem (by decide) (h.subset (by simp : 'x' ∈ ['0', 'x', '0', 'x']))⟩
    · have hx : 'x' ∉ ds := hds.notMem (by decide)
      refine ⟨by simpa using hds.notMem (by decide : digit? 16 '+' = none), fun h => ?_⟩
      rw [List.infix_cons_iff, List.infix_cons_iff] at h
      rcases h with h | h | h
      · simp only [List.cons_prefix_cons, true_and] at h
        exact hx (h.subset (by simp : 'x' ∈ ['0', 'x']))
      · simp at h
      · exact hx (h.subset (by simp : 'x' ∈ ['0', 'x', '0', 'x']))
  · rintro ⟨⟨k, t, ds, rfl, rfl | rfl, hds⟩, hplus, htwice⟩
    · match k with
      | 0 => exact ⟨_, .inl rfl, hds⟩
      | 1 => exact ⟨_, .inr rfl, hds⟩
      | k + 2 =>
        refine absurd (List.IsPrefix.isInfix ?_) htwice
        simp [List.replicate_succ]
    · exact absurd (by simp) hplus

end Peripheral.Text
