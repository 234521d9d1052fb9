import Mathlib

/-!
# Lists in chunks

A list is cut into pieces of one length, of which the last may be shorter.
What holds along the pieces is proved by an induction that takes a whole piece
at a time.
-/

namespace Chunks

variable {α : Type}

/-- The pieces of a list; each has the size, except the last. -/
def chunks (size : Nat) : List α → List (List α)
  | [] => []
  | x :: xs => (x :: xs.take (size - 1)) :: chunks size (xs.drop (size - 1))
termination_by xs => xs.length
decreasing_by
  rw [List.length_drop, List.length_cons]
  omega

@[simp] theorem chunks_nil (size : Nat) : chunks size ([] : List α) = [] := by
  rw [chunks]

theorem chunks_of_ne_nil {size : Nat} (hsize : 0 < size) {xs : List α} (hne : xs ≠ []) :
    chunks size xs = xs.take size :: chunks size (xs.drop size) := by
  obtain ⟨n, rfl⟩ : ∃ n, size = n + 1 := ⟨size - 1, by omega⟩
  cases xs with
  | nil => exact absurd rfl hne
  | cons x xs => rw [chunks, Nat.add_sub_cancel, List.take_succ_cons, List.drop_succ_cons]

/-- An induction over a list that takes a piece at a time. -/
theorem chunk_induction {size : Nat} (hsize : 0 < size) {motive : List α → Prop} (nil : motive [])
    (step : ∀ xs, xs ≠ [] → motive (xs.drop size) → motive xs) (xs : List α) : motive xs := by
  induction hlength : xs.length using Nat.strong_induction_on generalizing xs with
  | _ n ih =>
      by_cases hne : xs = []
      · rw [hne]
        exact nil
      · apply step xs hne
        refine ih (xs.drop size).length ?_ _ rfl
        have hpos := List.length_pos_of_ne_nil hne
        rw [List.length_drop]
        omega

end Chunks
