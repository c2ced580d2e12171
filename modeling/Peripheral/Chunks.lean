/-
  Peripheral.Chunks — cutting a list into runs of one size, the last one perhaps shorter.
  Nothing is lost: the runs in order make up the list.
-/

namespace Peripheral

/-- Runs of `size` elements, of one element if `size` is zero. -/
def chunks {α : Type} (size : Nat) : List α → List (List α)
  | [] => []
  | a :: rest => (a :: rest.take (size - 1)) :: chunks size (rest.drop (size - 1))
termination_by l => l.length
decreasing_by
  simp only [List.length_drop, List.length_cons]
  omega

theorem flatten_chunks {α : Type} (size : Nat) (l : List α) : (chunks size l).flatten = l := by
  fun_induction chunks size l with
  | case1 => rfl
  | case2 a rest ih => simp [ih]

/-- A full run at the front is cut off first. -/
theorem chunks_append {α : Type} {size : Nat} {w : List α} (hw : w.length = size) (hsize : 0 < size) (l : List α) :
    chunks size (w ++ l) = w :: chunks size l := by
  cases w with
  | nil => exact absurd hw (by simp; omega)
  | cons a rest =>
    have hrest : rest.length = size - 1 := by
      rw [List.length_cons] at hw
      omega
    rw [List.cons_append, chunks, ← hrest, List.take_left, List.drop_left]

theorem chunks_eq_singleton {α : Type} {size : Nat} {l : List α} (hl : l ≠ []) (hsize : l.length ≤ size) :
    chunks size l = [l] := by
  cases l with
  | nil => exact absurd rfl hl
  | cons a rest =>
    have hrest : rest.length ≤ size - 1 := by
      rw [List.length_cons] at hsize
      omega
    rw [chunks, List.take_of_length_le hrest, List.drop_of_length_le hrest, chunks]

theorem length_le_of_mem_chunks {α : Type} {size : Nat} (hsize : 0 < size) (l : List α) :
    ∀ run ∈ chunks size l, run.length ≤ size := by
  fun_induction chunks size l with
  | case1 => exact nofun
  | case2 a rest ih =>
    rw [List.forall_mem_cons]
    refine ⟨?_, ih⟩
    rw [List.length_cons, List.length_take]
    omega

end Peripheral
