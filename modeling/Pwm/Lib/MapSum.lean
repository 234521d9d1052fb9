import Mathlib

/-!
# Sums over the values of an ordered map

The sum of a natural-valued measure over all values, and its change when one
key is written or updated. Two distinct keys contribute at most the sum.
-/

namespace MapSum

open Std

variable {κ α : Type*} {cmp : κ → κ → Ordering} [TransCmp cmp] [LawfulEqCmp cmp]

/-- The sum of `f` over all values of the map. -/
def sumOf (f : α → Nat) (m : ExtTreeMap κ α cmp) : Nat :=
  (m.toList.map fun p => f p.2).sum

/-- What the key contributes: nothing when it is absent. -/
def valueAt (f : α → Nat) (m : ExtTreeMap κ α cmp) (k : κ) : Nat :=
  (m[k]?).elim 0 f

theorem nodup_toList (m : ExtTreeMap κ α cmp) : m.toList.Nodup := by
  have h : m.toList.Pairwise fun a b => ¬ cmp a.1 b.1 = .eq := ExtTreeMap.distinct_keys_toList
  refine h.imp ?_
  intro a b hab heq
  exact hab (by rw [heq]; exact LawfulEqCmp.compare_eq_iff_eq.mpr rfl)

variable [DecidableEq κ]

/-- The entries other than the one at `k`. -/
def others (m : ExtTreeMap κ α cmp) (k : κ) : List (κ × α) :=
  m.toList.filter fun p => decide (p.1 ≠ k)

theorem toList_perm_of_getElem? {m : ExtTreeMap κ α cmp} {k : κ} {a : α} (h : m[k]? = some a) :
    m.toList.Perm ((k, a) :: others m k) := by
  apply (List.perm_ext_iff_of_nodup (nodup_toList m) ?_).mpr
  · rintro ⟨j, b⟩
    simp only [others, List.mem_cons, List.mem_filter, ExtTreeMap.mem_toList_iff_getElem?_eq_some,
      Prod.mk.injEq, decide_eq_true_eq]
    by_cases hj : j = k
    · subst hj
      simp [h, eq_comm]
    · simp [hj]
  · refine List.nodup_cons.mpr ⟨by simp [others], ?_⟩
    exact (nodup_toList m).filter _

theorem toList_eq_others {m : ExtTreeMap κ α cmp} {k : κ} (h : m[k]? = none) :
    m.toList = others m k := by
  symm
  apply List.filter_eq_self.mpr
  rintro ⟨j, b⟩ hmem
  rw [ExtTreeMap.mem_toList_iff_getElem?_eq_some] at hmem
  have hj : j ≠ k := by
    rintro rfl
    rw [h] at hmem
    cases hmem
  simpa using hj

theorem sumOf_eq_valueAt_add (f : α → Nat) (m : ExtTreeMap κ α cmp) (k : κ) :
    sumOf f m = valueAt f m k + ((others m k).map fun p => f p.2).sum := by
  cases h : m[k]? with
  | none => simp [sumOf, valueAt, h, toList_eq_others h]
  | some a =>
      have hp := (toList_perm_of_getElem? h).map fun p : κ × α => f p.2
      simpa [sumOf, valueAt, h] using hp.sum_eq

theorem others_insert (m : ExtTreeMap κ α cmp) (k : κ) (a : α) :
    (others (m.insert k a) k).Perm (others m k) := by
  apply (List.perm_ext_iff_of_nodup ((nodup_toList _).filter _) ((nodup_toList _).filter _)).mpr
  rintro ⟨j, b⟩
  simp only [List.mem_filter, ExtTreeMap.mem_toList_iff_getElem?_eq_some, decide_eq_true_eq]
  by_cases hj : j = k
  · simp [hj]
  · have hc : ¬ cmp k j = .eq := fun h => hj (LawfulEqCmp.eq_of_compare h).symm
    simp [hj, ExtTreeMap.getElem?_insert, hc]

/-- Writing a key replaces its contribution and no other. -/
theorem sumOf_insert (f : α → Nat) (m : ExtTreeMap κ α cmp) (k : κ) (a : α) :
    sumOf f (m.insert k a) + valueAt f m k = sumOf f m + f a := by
  have h₁ := sumOf_eq_valueAt_add f (m.insert k a) k
  have h₂ := sumOf_eq_valueAt_add f m k
  have ho := ((others_insert m k a).map fun p => f p.2).sum_eq
  have hv : valueAt f (m.insert k a) k = f a := by simp [valueAt]
  omega

theorem getElem?_insert_eq (m : ExtTreeMap κ α cmp) (k j : κ) (a : α) :
    (m.insert k a)[j]? = if k = j then some a else m[j]? := by
  rw [ExtTreeMap.getElem?_insert]
  simp only [LawfulEqCmp.compare_eq_iff_eq]

theorem valueAt_insert (f : α → Nat) (m : ExtTreeMap κ α cmp) (k j : κ) (a : α) :
    valueAt f (m.insert k a) j = if k = j then f a else valueAt f m j := by
  unfold valueAt
  rw [getElem?_insert_eq]
  split <;> rfl

theorem valueAt_le_sumOf (f : α → Nat) (m : ExtTreeMap κ α cmp) (k : κ) :
    valueAt f m k ≤ sumOf f m := by
  rw [sumOf_eq_valueAt_add f m k]
  omega

/-- Two distinct keys together contribute at most the sum. -/
theorem valueAt_add_valueAt_le (f : α → Nat) (m : ExtTreeMap κ α cmp) {k j : κ} (h : k ≠ j) :
    valueAt f m k + valueAt f m j ≤ sumOf f m := by
  rw [sumOf_eq_valueAt_add f m k]
  refine Nat.add_le_add_left ?_ _
  cases hj : m[j]? with
  | none => simp [valueAt, hj]
  | some b =>
      have hmem : (j, b) ∈ others m k := by
        simpa [others, ExtTreeMap.mem_toList_iff_getElem?_eq_some, hj] using Ne.symm h
      simpa [valueAt, hj] using List.single_le_sum (fun _ _ => Nat.zero_le _) _ (List.mem_map_of_mem (f := fun p => f p.2) hmem)

/-- Writing two distinct keys replaces their two contributions. -/
theorem sumOf_insert_insert (f : α → Nat) (m : ExtTreeMap κ α cmp) {k j : κ} (h : k ≠ j) (a b : α) :
    sumOf f ((m.insert k a).insert j b) + valueAt f m k + valueAt f m j =
      sumOf f m + f a + f b := by
  have h₁ := sumOf_insert f m k a
  have h₂ := sumOf_insert f (m.insert k a) j b
  rw [valueAt_insert, if_neg h] at h₂
  omega

omit [DecidableEq κ] in
/-- An in-place update that keeps the measure keeps every contribution. -/
theorem valueAt_modify (f : α → Nat) (m : ExtTreeMap κ α cmp) (k j : κ) {g : α → α}
    (hg : ∀ a, f (g a) = f a) : valueAt f (m.modify k g) j = valueAt f m j := by
  unfold valueAt
  rw [ExtTreeMap.getElem?_modify]
  split
  · rename_i hc
    obtain rfl := LawfulEqCmp.eq_of_compare hc
    cases m[k]? with
    | none => rfl
    | some a => simp [hg]
  · rfl

/-- An in-place update of the value at `k`, if there is one. -/
theorem sumOf_modify (f : α → Nat) (m : ExtTreeMap κ α cmp) (k : κ) (g : α → α) :
    sumOf f (m.modify k g) + valueAt f m k = sumOf f m + (m[k]?).elim 0 (fun a => f (g a)) := by
  cases h : m[k]? with
  | none =>
      have he : m.modify k g = m := by
        apply ExtTreeMap.ext_getElem?
        intro j
        rw [ExtTreeMap.getElem?_modify]
        split
        · rename_i hc
          obtain rfl := LawfulEqCmp.eq_of_compare hc
          simp [h]
        · rfl
      simp [he, valueAt, h]
  | some a =>
      have he : m.modify k g = m.insert k (g a) := by
        apply ExtTreeMap.ext_getElem?
        intro j
        rw [ExtTreeMap.getElem?_modify, ExtTreeMap.getElem?_insert]
        split
        · rename_i hc
          obtain rfl := LawfulEqCmp.eq_of_compare hc
          simp [h]
        · rfl
      rw [he]
      simpa using sumOf_insert f m k (g a)

end MapSum
