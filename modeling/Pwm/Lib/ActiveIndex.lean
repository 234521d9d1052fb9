import Mathlib

/-!
# An index of the active entries

A map of entries and an index from the owner of an active entry to its key.
The index is right when it lists exactly the active entries, and then no owner
has two of them. Writing an entry keeps the index right exactly when the place
of its owner is not taken by another key.
-/

section ActiveIndex

variable {κ ν ω : Type*} (owner : ν → ω) (active : ν → Prop)

/-- The index lists the active entries of the map by their owners. -/
def ActiveIndex (m : κ → Option ν) (ix : ω → Option κ) : Prop :=
  ∀ o k, ix o = some k ↔ ∃ v, m k = some v ∧ owner v = o ∧ active v

variable {owner active} {m : κ → Option ν} {ix ix' : ω → Option κ} {k k' : κ} {v v' : ν}

namespace ActiveIndex

theorem empty : ActiveIndex owner active (fun _ : κ => none) (fun _ => none) := by
  intro o k
  simp

/-- Two active entries of one owner are one entry. -/
theorem unique (h : ActiveIndex owner active m ix) (hk : m k = some v) (hk' : m k' = some v')
    (hv : active v) (hv' : active v') (howner : owner v = owner v') : k = k' := by
  have hfirst : ix (owner v) = some k := (h _ _).mpr ⟨v, hk, rfl, hv⟩
  have hsecond : ix (owner v) = some k' := (h _ _).mpr ⟨v', hk', howner.symm, hv'⟩
  exact Option.some.inj (hfirst.symm.trans hsecond)

/-- The map decides the index. -/
theorem index_eq (h : ActiveIndex owner active m ix) (h' : ActiveIndex owner active m ix') :
    ix = ix' := by
  funext o
  refine Option.ext fun k => ?_
  rw [h o k, h' o k]

/-- A change of an entry that its owner and its activity do not see. -/
theorem update_map [DecidableEq κ] {f : ν → ν} (h : ActiveIndex owner active m ix)
    (hf : ∀ v, owner (f v) = owner v ∧ (active (f v) ↔ active v)) :
    ActiveIndex owner active (Function.update m k ((m k).map f)) ix := by
  intro o j
  rw [h o j]
  by_cases hj : j = k
  · subst hj
    rw [Function.update_self]
    constructor
    · rintro ⟨v, hv, howner, hv'⟩
      exact ⟨f v, by rw [hv, Option.map_some], (hf v).1.trans howner, (hf v).2.mpr hv'⟩
    · rintro ⟨w, hw, howner, hw'⟩
      obtain ⟨v, hv, rfl⟩ := Option.map_eq_some_iff.mp hw
      exact ⟨v, hv, (hf v).1.symm.trans howner, (hf v).2.mp hw'⟩
  · rw [Function.update_of_ne hj]

/-- The place of the owner is not taken by another key. -/
def Free (owner : ν → ω) (ix : ω → Option κ) (k : κ) (v : ν) : Prop :=
  ∀ k', ix (owner v) = some k' → k' = k

variable [DecidableEq ω] [DecidablePred active]

/-- No owner has two active entries. -/
def OneEach (owner : ν → ω) (active : ν → Prop) (entries : List (κ × ν)) : Prop :=
  ∀ p ∈ entries, ∀ q ∈ entries, active p.2 → active q.2 → owner p.2 = owner q.2 → p.1 = q.1

/-- Listing entries one after the other, a later one of an owner in the place of an earlier one. -/
def list (owner : ν → ω) (active : ν → Prop) [DecidablePred active] (entries : List (κ × ν)) :
    ω → Option κ :=
  entries.foldl (fun ix p => if active p.2 then Function.update ix (owner p.2) (some p.1) else ix)
    fun _ => none

theorem list_eq_some_iff {entries : List (κ × ν)} (hone : OneEach owner active entries) {o : ω} :
    list owner active entries o = some k ↔ ∃ v, (k, v) ∈ entries ∧ owner v = o ∧ active v := by
  induction entries using List.reverseRecOn with
  | nil => simp [list]
  | append_singleton entries p ih =>
      have hone' : OneEach owner active entries := fun q hq r hr =>
        hone q (List.mem_append_left _ hq) r (List.mem_append_left _ hr)
      have hlist : list owner active (entries ++ [p]) =
          if active p.2 then Function.update (list owner active entries) (owner p.2) (some p.1)
          else list owner active entries := by
        rw [list, List.foldl_append]
        rfl
      rw [hlist]
      split
      next hactive =>
        by_cases ho : o = owner p.2
        · subst ho
          rw [Function.update_self]
          constructor
          · rintro hk
            obtain rfl := Option.some.inj hk
            exact ⟨p.2, by simp, rfl, hactive⟩
          · rintro ⟨v, hv, howner, hv'⟩
            rw [hone p (by simp) (k, v) hv hactive hv' howner.symm]
        · rw [Function.update_of_ne ho, ih hone']
          refine exists_congr fun v => ?_
          rw [List.mem_append, List.mem_singleton]
          constructor
          · rintro ⟨hv, hrest⟩
            exact ⟨.inl hv, hrest⟩
          · rintro ⟨hv | rfl, howner, hv'⟩
            · exact ⟨hv, howner, hv'⟩
            · exact absurd howner.symm ho
      next hactive =>
        rw [ih hone']
        refine exists_congr fun v => ?_
        rw [List.mem_append, List.mem_singleton]
        constructor
        · rintro ⟨hv, hrest⟩
          exact ⟨.inl hv, hrest⟩
        · rintro ⟨hv | rfl, howner, hv'⟩
          · exact ⟨hv, howner, hv'⟩
          · exact absurd hv' hactive

/-- The listing of all entries of a map is its index exactly when no owner has two active ones. -/
theorem list_iff {entries : List (κ × ν)} (hmem : ∀ k v, (k, v) ∈ entries ↔ m k = some v) :
    ActiveIndex owner active m (list owner active entries) ↔ OneEach owner active entries := by
  constructor
  · rintro h ⟨k, v⟩ hp ⟨k', v'⟩ hq hv hv' howner
    exact h.unique ((hmem k v).mp hp) ((hmem k' v').mp hq) hv hv' howner
  · intro hone o k
    rw [list_eq_some_iff hone]
    exact exists_congr fun v => and_congr_left' (hmem k v)

variable [DecidableEq κ]

/-- The index after an entry is written. -/
def note (owner : ν → ω) (active : ν → Prop) [DecidablePred active] (ix : ω → Option κ) (k : κ)
    (v : ν) : ω → Option κ :=
  Function.update ix (owner v) (if active v then some k else none)

/-- An entry is written over one of the same owner, or at a new key. -/
theorem write_iff (h : ActiveIndex owner active m ix)
    (hold : ∀ old, m k = some old → owner old = owner v) :
    ActiveIndex owner active (Function.update m k (some v)) (note owner active ix k v) ↔
      Free owner ix k v := by
  constructor
  · intro hafter k' hk'
    by_contra hne
    -- the entry at the other key is still there and active
    obtain ⟨w, hw, howner, hactive⟩ := (h _ _).mp hk'
    have hlisted : note owner active ix k v (owner v) = some k' := by
      refine (hafter _ _).mpr ⟨w, ?_, howner, hactive⟩
      rw [Function.update_of_ne hne, hw]
    rw [note, Function.update_self] at hlisted
    split at hlisted
    · exact hne (Option.some.inj hlisted).symm
    · cases hlisted
  · intro hfree o j
    by_cases ho : o = owner v
    · subst ho
      rw [note, Function.update_self]
      by_cases hj : j = k
      · subst hj
        rw [Function.update_self]
        split
        next hactive => exact iff_of_true rfl ⟨v, rfl, rfl, hactive⟩
        next hactive =>
          refine iff_of_false (nomatch ·) ?_
          rintro ⟨w, hw, -, hw'⟩
          obtain rfl := Option.some.inj hw
          exact hactive hw'
      · rw [Function.update_of_ne hj]
        refine iff_of_false ?_ fun hentry => hj (hfree j ((h _ _).mpr hentry))
        split
        · exact fun hsome => hj (Option.some.inj hsome).symm
        · exact fun hsome => nomatch hsome
    · rw [note, Function.update_of_ne ho, h o j]
      by_cases hj : j = k
      · subst hj
        rw [Function.update_self]
        refine iff_of_false ?_ ?_
        · rintro ⟨w, hw, howner, -⟩
          exact ho (howner.symm.trans (hold w hw))
        · rintro ⟨w, hw, howner, -⟩
          obtain rfl := Option.some.inj hw
          exact ho howner.symm
      · rw [Function.update_of_ne hj]

end ActiveIndex

end ActiveIndex

/-! ## Ordered maps as functions -/

section Maps

variable {κ ν : Type*} {cmp : κ → κ → Ordering} [Std.TransCmp cmp] [Std.LawfulEqCmp cmp]
  [DecidableEq κ]

theorem getElem?_insert_eq_update (m : Std.ExtTreeMap κ ν cmp) (k : κ) (v : ν) :
    (fun j => (m.insert k v)[j]?) = Function.update (fun j => m[j]?) k (some v) := by
  funext j
  rw [Std.ExtTreeMap.getElem?_insert]
  by_cases hj : j = k
  · subst hj
    rw [Function.update_self, if_pos Std.ReflCmp.compare_self]
  · rw [Function.update_of_ne hj, if_neg fun h => hj (Std.LawfulEqCmp.eq_of_compare h).symm]

theorem getElem?_erase_eq_update (m : Std.ExtTreeMap κ ν cmp) (k : κ) :
    (fun j => (m.erase k)[j]?) = Function.update (fun j => m[j]?) k none := by
  funext j
  rw [Std.ExtTreeMap.getElem?_erase]
  by_cases hj : j = k
  · subst hj
    rw [Function.update_self, if_pos Std.ReflCmp.compare_self]
  · rw [Function.update_of_ne hj, if_neg fun h => hj (Std.LawfulEqCmp.eq_of_compare h).symm]

theorem getElem?_modify_eq_update (m : Std.ExtTreeMap κ ν cmp) (k : κ) (f : ν → ν) :
    (fun j => (m.modify k f)[j]?) = Function.update (fun j => m[j]?) k ((m[k]?).map f) := by
  funext j
  rw [Std.ExtTreeMap.getElem?_modify]
  by_cases hj : j = k
  · subst hj
    rw [Function.update_self, if_pos Std.ReflCmp.compare_self]
  · rw [Function.update_of_ne hj, if_neg fun h => hj (Std.LawfulEqCmp.eq_of_compare h).symm]

end Maps
