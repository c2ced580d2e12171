import Mathlib.Data.List.TakeWhile
import Peripheral.Text.Search

/-
  Peripheral.Proofs.Text.Search — what is left of a text that is cut.

  A text is cut at the first of its separators: what stands before it has none
  (`cutAt?_eq_some_iff`). Of a part that is dropped as often as it stands at the front, none is
  left (`dropAll_eq_iff`). A part without the separator lies on one side of it
  (`infix_append_cons_iff`).
-/

namespace Peripheral.Text

variable {s t l r rest part : List Char} {fuel k : Nat} {c : Char}

/-! ## The first separator -/

theorem bne_of_notMem (hs : c ∉ s) : ∀ x ∈ s, (x != c) = true := by
  intro x hx
  simpa using fun h : x = c => hs (h ▸ hx)

theorem cutAt?_append (hl : c ∉ l) (r : List Char) : cutAt? c (l ++ c :: r) = some (l, r) := by
  rw [cutAt?, List.dropWhile_append_of_pos (bne_of_notMem hl), List.takeWhile_append_of_pos (bne_of_notMem hl),
    List.dropWhile_cons_of_neg (by simp), List.takeWhile_cons_of_neg (by simp), List.append_nil]

theorem cutAt?_of_notMem (hs : c ∉ s) : cutAt? c s = none := by
  rw [cutAt?, List.dropWhile_eq_nil_iff.mpr (bne_of_notMem hs)]

theorem cutAt?_eq_some_iff : cutAt? c s = some (l, r) ↔ s = l ++ c :: r ∧ c ∉ l := by
  constructor
  · intro h
    by_cases hc : c ∈ s
    · obtain ⟨l', r', rfl, hl'⟩ := List.eq_append_cons_of_mem hc
      rw [cutAt?_append hl'] at h
      cases h
      exact ⟨rfl, hl'⟩
    · rw [cutAt?_of_notMem hc] at h
      cases h
  · rintro ⟨rfl, hl⟩
    exact cutAt?_append hl r

/-- A part without the separator lies on one side of it. -/
theorem infix_append_cons_iff (hc : c ∉ part) : part <:+: l ++ c :: r ↔ part <:+: l ∨ part <:+: r := by
  have hstart : ∀ {p}, p ≠ [] → p <+: c :: r → c ∈ p := by
    intro p hp h
    obtain ⟨x, p, rfl⟩ := List.exists_cons_of_ne_nil hp
    exact (List.cons_prefix_cons.mp h).1 ▸ List.mem_cons_self
  constructor
  · intro h
    rcases List.infix_append_iff_ne_nil.mp h with h | h | ⟨p, q, -, hq, rfl, -, h⟩
    · exact .inl h
    · rcases List.infix_cons_iff.mp h with h | h
      · by_cases hne : part = []
        · exact .inl (hne ▸ List.nil_infix)
        · exact absurd (hstart hne h) hc
      · exact .inr h
    · exact absurd (List.mem_append_right p (hstart hq h)) hc
  · rintro (h | h)
    · exact List.infix_append_of_infix_left h
    · exact List.infix_append_of_infix_right (List.infix_cons h)

/-! ## A repeated front -/

theorem dropRepeated_spec (hne : part ≠ []) (hfuel : s.length ≤ fuel) :
    ¬ part <+: dropRepeated part fuel s ∧ ∃ k, s = (List.replicate k part).flatten ++ dropRepeated part fuel s := by
  induction fuel generalizing s with
  | zero =>
    obtain rfl : s = [] := List.length_eq_zero_iff.mp (Nat.le_zero.mp hfuel)
    exact ⟨fun h => hne (List.prefix_nil.mp h), 0, rfl⟩
  | succ fuel ih =>
    rw [dropRepeated]
    split
    · rename_i hfront
      simp only [Bool.and_eq_true, List.isPrefixOf_iff_prefix] at hfront
      obtain ⟨t, rfl⟩ := hfront.2
      have hshorter : t.length ≤ fuel := by
        have hpos := List.length_pos_iff.mpr hne
        rw [List.length_append] at hfuel
        omega
      obtain ⟨hnot, k, hk⟩ := ih hshorter
      rw [List.drop_left]
      refine ⟨hnot, k + 1, ?_⟩
      rw [List.replicate_succ, List.flatten_cons, List.append_assoc, ← hk]
    · rename_i hfront
      simp only [Bool.and_eq_true, List.isPrefixOf_iff_prefix, not_and] at hfront
      exact ⟨hfront (by simpa using hne), 0, rfl⟩

/-- What is left behind all repetitions is the same however many there are. -/
theorem eq_of_replicate_append {m : Nat} (hs : ¬ part <+: s) (ht : ¬ part <+: t)
    (h : (List.replicate k part).flatten ++ s = (List.replicate m part).flatten ++ t) : s = t := by
  induction k generalizing m with
  | zero =>
    cases m with
    | zero => exact h
    | succ m =>
      rw [List.replicate_succ, List.flatten_cons, List.append_assoc] at h
      exact absurd ⟨_, h.symm⟩ hs
  | succ k ih =>
    rw [List.replicate_succ, List.flatten_cons, List.append_assoc] at h
    cases m with
    | zero => exact absurd ⟨_, h⟩ ht
    | succ m =>
      rw [List.replicate_succ, List.flatten_cons, List.append_assoc] at h
      exact ih (List.append_cancel_left h)

theorem dropAll_eq_iff (hne : part ≠ []) :
    dropAll part s = rest ↔ ¬ part <+: rest ∧ ∃ k, s = (List.replicate k part).flatten ++ rest := by
  obtain ⟨hnot, k, hk⟩ := dropRepeated_spec hne (Nat.le_refl s.length)
  rw [← dropAll] at hnot hk
  constructor
  · rintro rfl
    exact ⟨hnot, k, hk⟩
  · rintro ⟨hrest, m, hm⟩
    exact eq_of_replicate_append hnot hrest (hk.symm.trans hm)

end Peripheral.Text
