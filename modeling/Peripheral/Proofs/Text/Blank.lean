import Mathlib.Data.List.DropRight
import Peripheral.Text.Blank

/-
  Peripheral.Proofs.Text.Blank — the blanks at both ends of a text.

  What is left has a blank at neither end, so a second trim takes nothing away (`trim_trim`),
  and what is no blank is never taken away (`mem_trim`). Blanks that are put around a text are
  taken away again (`trim_padded`).
-/

namespace Peripheral.Text

variable {s : List Char}

theorem trimStart_eq_self (hs : ∀ c ∈ s.head?, isBlank c = false) : trimStart s = s := by
  cases s with
  | nil => rfl
  | cons c s => exact List.dropWhile_cons_of_neg (by simp [hs c rfl])

theorem not_isBlank_of_head?_trimStart {c : Char} (hc : (trimStart s).head? = some c) : isBlank c = false := by
  have hnot := List.head?_dropWhile_not isBlank s
  rw [← trimStart, hc] at hnot
  exact hnot

theorem trimEnd_eq (s : List Char) : trimEnd s = (trimStart s.reverse).reverse := rfl

theorem trimEnd_eq_self (hs : ∀ c ∈ s.getLast?, isBlank c = false) : trimEnd s = s := by
  rw [trimEnd_eq, trimStart_eq_self (by rwa [List.head?_reverse]), List.reverse_reverse]

/-- What is left at the end is a front of the text. -/
theorem trimEnd_prefix (s : List Char) : trimEnd s <+: s := List.rdropWhile_prefix isBlank s

theorem trim_eq_self (hs : ∀ c ∈ s, isBlank c = false) : trim s = s := by
  rw [trim, trimStart_eq_self fun c hc => hs c (List.mem_of_head? hc),
    trimEnd_eq_self fun c hc => hs c (List.mem_of_getLast? hc)]

@[simp] theorem trim_trim (s : List Char) : trim (trim s) = trim s := by
  have hstart : trimStart (trim s) = trim s := by
    refine trimStart_eq_self fun c hc => ?_
    obtain ⟨rest, hrest⟩ := trimEnd_prefix (trimStart s)
    refine not_isBlank_of_head?_trimStart (s := s) ?_
    rw [← hrest, List.head?_append, ← trim, hc]
    rfl
  have hend : trimEnd (trim s) = trim s := by
    refine trimEnd_eq_self fun c hc => ?_
    rw [trim, trimEnd_eq, List.getLast?_reverse] at hc
    exact not_isBlank_of_head?_trimStart hc
  rw [trim, hstart, hend]

theorem trimStart_append {l : List Char} (hl : ∀ c ∈ l, isBlank c = true) (s : List Char) :
    trimStart (l ++ s) = trimStart s := List.dropWhile_append_of_pos hl

theorem trimEnd_append {r : List Char} (hr : ∀ c ∈ r, isBlank c = true) (s : List Char) :
    trimEnd (s ++ r) = trimEnd s := by
  rw [trimEnd_eq, trimEnd_eq, List.reverse_append, trimStart_append fun c hc => hr c (List.mem_reverse.mp hc)]

theorem trim_padded {l r : List Char} (hl : ∀ c ∈ l, isBlank c = true) (hr : ∀ c ∈ r, isBlank c = true)
    (s : List Char) : trim (l ++ s ++ r) = trim s := by
  rw [List.append_assoc, trim, trim, trimStart_append hl, trimStart, List.dropWhile_append]
  split
  · -- the text has nothing but blanks
    rename_i hempty
    rw [trimStart, List.isEmpty_iff.mp hempty, List.dropWhile_eq_nil_iff.mpr hr]
  · exact trimEnd_append hr _

theorem mem_trimStart {c : Char} (hc : c ∈ s) (hb : isBlank c = false) : c ∈ trimStart s := by
  rw [← List.takeWhile_append_dropWhile (p := isBlank) (l := s)] at hc
  rcases List.mem_append.mp hc with hc | hc
  · exact absurd (List.all_eq_true.mp List.all_takeWhile c hc) (by simp [hb])
  · exact hc

theorem mem_trim {c : Char} (hc : c ∈ s) (hb : isBlank c = false) : c ∈ trim s := by
  rw [trim, trimEnd_eq, List.mem_reverse]
  exact mem_trimStart (List.mem_reverse.mpr (mem_trimStart hc hb)) hb

theorem mem_of_mem_trim {c : Char} (hc : c ∈ trim s) : c ∈ s := by
  have hfront := trimEnd_prefix (trimStart s)
  exact (List.dropWhile_sublist isBlank).subset (hfront.subset hc)

theorem mem_trim_iff {c : Char} (hb : isBlank c = false) : c ∈ trim s ↔ c ∈ s :=
  ⟨mem_of_mem_trim, fun hc => mem_trim hc hb⟩

end Peripheral.Text
