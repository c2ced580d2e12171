import Peripheral.Mac
import Peripheral.Proofs.Text.Search
import Peripheral.Text.Slice

/-
  Peripheral.Proofs.Text.Slice — a text cut at byte positions.

  The position of a character that was found is neither behind the end of the text nor within a
  character (`find?_append`). So whoever cuts at what was found gets what stands around it
  (`from?_append`, `upTo?_append`).
-/

namespace Peripheral.Text.Slice

open Mac (byteLength)

variable {c : Char} {s l r : List Char}

@[simp] theorem byteLength_nil : byteLength [] = 0 := rfl

@[simp] theorem byteLength_cons (x : Char) (s : List Char) : byteLength (x :: s) = x.utf8Size + byteLength s := rfl

@[simp] theorem byteLength_append (l r : List Char) : byteLength (l ++ r) = byteLength l + byteLength r := by
  induction l with
  | nil => simp
  | cons x l ih => simp [ih, Nat.add_assoc]

@[simp] theorem from?_zero (s : List Char) : from? 0 s = some s := by cases s <;> simp [from?]

@[simp] theorem upTo?_zero (s : List Char) : upTo? 0 s = some [] := by cases s <;> simp [upTo?]

theorem from?_append (l r : List Char) : from? (byteLength l) (l ++ r) = some r := by
  induction l with
  | nil => simp
  | cons x l ih =>
    have hx : x.utf8Size + byteLength l ≠ 0 := Nat.ne_of_gt (Nat.add_pos_left x.utf8Size_pos _)
    rw [byteLength_cons, List.cons_append, from?, if_neg hx, if_pos (Nat.le_add_right _ _), Nat.add_sub_cancel_left, ih]

theorem upTo?_append (l r : List Char) : upTo? (byteLength l) (l ++ r) = some l := by
  induction l with
  | nil => simp
  | cons x l ih =>
    have hx : x.utf8Size + byteLength l ≠ 0 := Nat.ne_of_gt (Nat.add_pos_left x.utf8Size_pos _)
    rw [byteLength_cons, List.cons_append, upTo?, if_neg hx, if_pos (Nat.le_add_right _ _), Nat.add_sub_cancel_left, ih]
    rfl

theorem between?_append (l s r : List Char) :
    between? (byteLength l) (byteLength l + byteLength s) (l ++ (s ++ r)) = some s := by
  rw [between?, ← byteLength_append, ← List.append_assoc, upTo?_append, Option.bind_some, from?_append]

theorem find?_append (hl : c ∉ l) (r : List Char) : find? c (l ++ c :: r) = some (byteLength l) := by
  induction l with
  | nil => simp [find?]
  | cons x l ih =>
    rw [List.mem_cons, not_or] at hl
    rw [List.cons_append, find?, if_neg (Ne.symm hl.1), ih hl.2]
    rfl

theorem find?_eq_none (hs : c ∉ s) : find? c s = none := by
  induction s with
  | nil => rfl
  | cons x s ih =>
    rw [List.mem_cons, not_or] at hs
    rw [find?, if_neg (Ne.symm hs.1), ih hs.2]
    rfl

/-- A text without the character, or with it at the position that is found. -/
theorem cutAt?_cases (c : Char) (s : List Char) : (find? c s = none ∧ cutAt? c s = none) ∨
    ∃ l r, s = l ++ c :: r ∧ find? c s = some (byteLength l) ∧ cutAt? c s = some (l, r) := by
  by_cases hc : c ∈ s
  · obtain ⟨l, r, rfl, hl⟩ := List.eq_append_cons_of_mem hc
    exact .inr ⟨l, r, rfl, find?_append hl r, cutAt?_append hl r⟩
  · exact .inl ⟨find?_eq_none hc, cutAt?_of_notMem hc⟩

end Peripheral.Text.Slice
