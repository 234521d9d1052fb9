import Mathlib

/-!
# Rows grouped by their keys

The values under each key keep the order of the rows, and the keys are listed
by their rank.
-/

namespace ByKey

variable {κ α : Type} [DecidableEq κ]

/-- The values under a key. -/
def valuesAt (k : κ) (rows : List (κ × α)) : List α :=
  (rows.filter fun row => decide (row.1 = k)).map Prod.snd

/-- The keys by their rank, each with its values. -/
def byKey (rank : κ → Nat) (rows : List (κ × α)) : List (κ × List α) :=
  ((rows.map Prod.fst).dedup.mergeSort fun k l => decide (rank k ≤ rank l)).map fun k =>
    (k, valuesAt k rows)

section Groups

variable {rank : κ → Nat} {rows : List (κ × α)} {keys : List κ}

theorem valuesAt_append (k : κ) (rows more : List (κ × α)) :
    valuesAt k (rows ++ more) = valuesAt k rows ++ valuesAt k more := by
  rw [valuesAt, List.filter_append, List.map_append, valuesAt, valuesAt]

theorem valuesAt_of_all {k : κ} (h : ∀ row ∈ rows, row.1 = k) :
    valuesAt k rows = rows.map Prod.snd := by
  rw [valuesAt, List.filter_eq_self.mpr]
  intro row hrow
  exact decide_eq_true (h row hrow)

theorem valuesAt_of_none {k : κ} (h : ∀ row ∈ rows, row.1 ≠ k) : valuesAt k rows = [] := by
  rw [valuesAt, List.filter_eq_nil_iff.mpr, List.map_nil]
  intro row hrow
  simpa using h row hrow

/-- The keys are known when they are listed by rank. -/
theorem byKey_eq (hrank : Function.Injective rank)
    (hsorted : keys.Pairwise fun k l => rank k < rank l)
    (hmem : ∀ k, k ∈ keys ↔ ∃ v, (k, v) ∈ rows) :
    byKey rank rows = keys.map fun k => (k, valuesAt k rows) := by
  have hnodup : keys.Nodup := hsorted.imp fun h hsame => by
    rw [hsame] at h
    exact lt_irrefl _ h
  have hperm : ((rows.map Prod.fst).dedup.mergeSort fun k l => decide (rank k ≤ rank l)).Perm
      keys := by
    refine (List.mergeSort_perm _ _).trans ?_
    rw [List.perm_ext_iff_of_nodup (List.nodup_dedup _) hnodup]
    intro k
    rw [List.mem_dedup, hmem, List.mem_map]
    constructor
    · rintro ⟨row, hrow, rfl⟩
      exact ⟨row.2, hrow⟩
    · rintro ⟨v, hv⟩
      exact ⟨(k, v), hv, rfl⟩
  have hle : ((rows.map Prod.fst).dedup.mergeSort fun k l => decide (rank k ≤ rank l)).Pairwise
      fun k l => rank k ≤ rank l := by
    have htrans : ∀ a b c : κ, decide (rank a ≤ rank b) = true → decide (rank b ≤ rank c) = true →
        decide (rank a ≤ rank c) = true := by
      intro a b c hab hbc
      exact decide_eq_true ((of_decide_eq_true hab).trans (of_decide_eq_true hbc))
    have htotal : ∀ a b : κ, (decide (rank a ≤ rank b) || decide (rank b ≤ rank a)) = true := by
      intro a b
      rw [Bool.or_eq_true, decide_eq_true_eq, decide_eq_true_eq]
      exact le_total _ _
    have hsort := List.pairwise_mergeSort htrans htotal (rows.map Prod.fst).dedup
    exact hsort.imp fun h => of_decide_eq_true h
  have hkeys := hperm.eq_of_pairwise
    (fun a b _ _ hab hba => hrank (le_antisymm hab hba)) hle (hsorted.imp fun h => le_of_lt h)
  rw [byKey, hkeys]

end Groups

end ByKey
