import Mathlib

/-!
# Tables as lists of rows

A list of rows is read row by row with its place, up to the first error; an
ordered map is built from keyed rows, no key twice. A map that was written as
its rows is read back.
-/

namespace RowTable

open Std

/-! ## Numbered rows -/

section Read

variable {ε α β γ : Type*}

/-- Read rows in order, each with its place, up to the first error. -/
def readFrom (f : Nat → β → Except ε α) : Nat → List β → Except ε (List α)
  | _, [] => .ok []
  | i, row :: rest => do
      let a ← f i row
      let more ← readFrom f (i + 1) rest
      .ok (a :: more)

def readRows (f : Nat → β → Except ε α) (rows : List β) : Except ε (List α) :=
  readFrom f 0 rows

theorem readFrom_map {f : Nat → β → Except ε α} {write : γ → β} {g : γ → α} {xs : List γ}
    (h : ∀ x ∈ xs, ∀ i, f i (write x) = .ok (g x)) (i : Nat) :
    readFrom f i (xs.map write) = .ok (xs.map g) := by
  induction xs generalizing i with
  | nil => rfl
  | cons x xs ih =>
      rw [List.map_cons, readFrom, h x List.mem_cons_self i,
        ih (fun y hy => h y (List.mem_cons_of_mem x hy)) (i + 1)]
      rfl

/-- Written rows are read back as what each of them is read back as. -/
theorem readRows_map {f : Nat → β → Except ε α} {write : γ → β} {g : γ → α} {xs : List γ}
    (h : ∀ x ∈ xs, ∀ i, f i (write x) = .ok (g x)) :
    readRows f (xs.map write) = .ok (xs.map g) :=
  readFrom_map h 0

theorem readRows_roundtrip {f : Nat → β → Except ε α} {write : α → β}
    (h : ∀ x i, f i (write x) = .ok x) (xs : List α) : readRows f (xs.map write) = .ok xs := by
  have hrows : readRows f (xs.map write) = .ok (xs.map id) := readRows_map fun x _ i => h x i
  rwa [List.map_id] at hrows

/-- Read a value if there is one. -/
def readOption (f : β → Except ε α) : Option β → Except ε (Option α)
  | none => .ok none
  | some b => (f b).map some

theorem readOption_roundtrip {f : β → Except ε α} {write : α → β} (h : ∀ x, f (write x) = .ok x)
    (o : Option α) : readOption f (o.map write) = .ok o := by
  cases o with
  | none => rfl
  | some x =>
      rw [Option.map_some, readOption, h]
      rfl

end Read

/-! ## Keyed rows -/

section Build

variable {ε κ α : Type*} {cmp : κ → κ → Ordering} [TransCmp cmp] [LawfulEqCmp cmp]

/-- Insert rows in order; a key that is there already is an error. -/
def buildFrom (dup : κ → ε) : ExtTreeMap κ α cmp → List (κ × α) → Except ε (ExtTreeMap κ α cmp)
  | m, [] => .ok m
  | m, (k, a) :: rest => if k ∈ m then .error (dup k) else buildFrom dup (m.insert k a) rest

/-- The map with these rows. -/
def keyedMap (dup : κ → ε) (rows : List (κ × α)) : Except ε (ExtTreeMap κ α cmp) :=
  buildFrom dup ∅ rows

theorem buildFrom_ok {dup : κ → ε} {rows : List (κ × α)} {m : ExtTreeMap κ α cmp}
    (hnodup : (rows.map Prod.fst).Nodup) (hfresh : ∀ k ∈ rows.map Prod.fst, k ∉ m) :
    ∃ m', buildFrom dup m rows = .ok m' ∧
      ∀ k a, m'[k]? = some a ↔ m[k]? = some a ∨ (k, a) ∈ rows := by
  induction rows generalizing m with
  | nil => exact ⟨m, rfl, fun k a => by simp⟩
  | cons row rest ih =>
      obtain ⟨key, value⟩ := row
      rw [List.map_cons, List.nodup_cons] at hnodup
      have hkey : key ∉ m := hfresh key List.mem_cons_self
      have hrest : ∀ k ∈ rest.map Prod.fst, k ∉ m.insert key value := by
        intro k hk hmem
        rcases ExtTreeMap.mem_insert.mp hmem with heq | hm
        · rw [LawfulEqCmp.eq_of_compare heq] at hnodup
          exact hnodup.1 hk
        · exact hfresh k (List.mem_cons_of_mem key hk) hm
      obtain ⟨m', hbuild, hm'⟩ := ih hnodup.2 hrest
      refine ⟨m', ?_, fun k a => ?_⟩
      · rw [buildFrom, if_neg hkey]
        exact hbuild
      · rw [hm', ExtTreeMap.getElem?_insert, List.mem_cons, Prod.mk.injEq]
        by_cases heq : cmp key k = .eq
        · have hk := LawfulEqCmp.eq_of_compare heq
          subst hk
          have hnone : m[key]? = none := ExtTreeMap.getElem?_eq_none hkey
          simp only [heq, hnone, if_true, Option.some.injEq, reduceCtorEq, false_or, true_and]
          rw [eq_comm]
        · have hne : k ≠ key := by
            rintro rfl
            exact heq ReflCmp.compare_self
          simp [heq, hne]

omit [LawfulEqCmp cmp] in
theorem buildFrom_cons_ok_iff {dup : κ → ε} {rows : List (κ × α)} {m m' : ExtTreeMap κ α cmp}
    {k : κ} {a : α} : buildFrom dup m ((k, a) :: rows) = .ok m' ↔
      m[k]? = none ∧ buildFrom dup (m.insert k a) rows = .ok m' := by
  have hnone : m[k]? = none ↔ k ∉ m := by simp
  rw [buildFrom, hnone]
  split
  next hmem => exact iff_of_false (nomatch ·) fun h => h.1 hmem
  next hmem => exact (and_iff_right hmem).symm

/-- What was built has the rows beside what was there. -/
theorem getElem?_of_buildFrom {dup : κ → ε} {rows : List (κ × α)} {m m' : ExtTreeMap κ α cmp}
    (hok : buildFrom dup m rows = .ok m') (k : κ) (a : α) :
    m'[k]? = some a ↔ m[k]? = some a ∨ (k, a) ∈ rows := by
  induction rows generalizing m with
  | nil =>
      obtain rfl := Except.ok.inj hok
      simp
  | cons row rest ih =>
      obtain ⟨key, value⟩ := row
      obtain ⟨hnone, hrest⟩ := buildFrom_cons_ok_iff.mp hok
      rw [ih hrest, ExtTreeMap.getElem?_insert, List.mem_cons, Prod.mk.injEq]
      by_cases heq : cmp key k = .eq
      · have hk := LawfulEqCmp.eq_of_compare heq
        subst hk
        simp only [heq, hnone, if_true, Option.some.injEq, reduceCtorEq, false_or, true_and]
        rw [eq_comm]
      · have hne : k ≠ key := by
          rintro rfl
          exact heq ReflCmp.compare_self
        simp [heq, hne]

theorem keys_nodup (m : ExtTreeMap κ α cmp) : (m.toList.map Prod.fst).Nodup := by
  have h : m.toList.Pairwise fun a b => ¬ cmp a.1 b.1 = .eq := ExtTreeMap.distinct_keys_toList
  refine List.pairwise_map.mpr (h.imp ?_)
  intro a b hab heq
  exact hab (by rw [heq]; exact ReflCmp.compare_self)

/-- The rows of a map, each value through a function, are read back as the map through it. -/
theorem keyedMap_map {β : Type*} (dup : κ → ε) (m : ExtTreeMap κ β cmp) (g : β → α) :
    keyedMap dup (m.toList.map fun p => (p.1, g p.2)) = .ok (m.map fun _ b => g b) := by
  have hfst : (m.toList.map fun p => (p.1, g p.2)).map Prod.fst = m.toList.map Prod.fst := by
    rw [List.map_map]
    rfl
  have hnodup : ((m.toList.map fun p => (p.1, g p.2)).map Prod.fst).Nodup := by
    rw [hfst]
    exact keys_nodup m
  have hfresh : ∀ k ∈ (m.toList.map fun p => (p.1, g p.2)).map Prod.fst,
      k ∉ (∅ : ExtTreeMap κ α cmp) := fun _ _ => ExtTreeMap.not_mem_empty
  obtain ⟨m', hbuild, hm'⟩ := @buildFrom_ok _ _ _ _ _ _ dup _ _ hnodup hfresh
  rw [keyedMap, hbuild]
  refine congrArg Except.ok (ExtTreeMap.ext_getElem? fun {k} => Option.ext fun a => ?_)
  rw [hm', ExtTreeMap.getElem?_map]
  simp only [ExtTreeMap.getElem?_empty, List.mem_map, Prod.mk.injEq, Option.map_eq_some_iff,
    Prod.exists, reduceCtorEq, false_or, ExtTreeMap.mem_toList_iff_getElem?_eq_some]
  constructor
  · rintro ⟨j, b, hb, rfl, rfl⟩
    exact ⟨b, hb, rfl⟩
  · rintro ⟨b, hb, rfl⟩
    exact ⟨k, b, hb, rfl, rfl⟩

/-- A map is read back from its rows. -/
theorem keyedMap_toList (dup : κ → ε) (m : ExtTreeMap κ α cmp) :
    keyedMap dup m.toList = .ok m := by
  have h := keyedMap_map dup m (fun a : α => a)
  have hrows : (m.toList.map fun p => (p.1, p.2)) = m.toList := List.map_id m.toList
  rw [hrows] at h
  rw [h]
  refine congrArg Except.ok (ExtTreeMap.ext_getElem? fun {k} => ?_)
  rw [ExtTreeMap.getElem?_map]
  cases m[k]? <;> rfl

/-- Insert keys in order; a key that is there already is an error. -/
def buildSetFrom (dup : κ → ε) : ExtTreeSet κ cmp → List κ → Except ε (ExtTreeSet κ cmp)
  | s, [] => .ok s
  | s, k :: rest => if k ∈ s then .error (dup k) else buildSetFrom dup (s.insert k) rest

/-- The set with these keys. -/
def keySet (dup : κ → ε) (keys : List κ) : Except ε (ExtTreeSet κ cmp) :=
  buildSetFrom dup ∅ keys

theorem buildSetFrom_ok {dup : κ → ε} {keys : List κ} {s : ExtTreeSet κ cmp}
    (hnodup : keys.Nodup) (hfresh : ∀ k ∈ keys, k ∉ s) :
    ∃ s', buildSetFrom dup s keys = .ok s' ∧ ∀ k, k ∈ s' ↔ k ∈ s ∨ k ∈ keys := by
  induction keys generalizing s with
  | nil => exact ⟨s, rfl, fun k => by simp⟩
  | cons key rest ih =>
      rw [List.nodup_cons] at hnodup
      have hrest : ∀ k ∈ rest, k ∉ s.insert key := by
        intro k hk hmem
        rcases ExtTreeSet.mem_insert.mp hmem with heq | hs
        · rw [LawfulEqCmp.eq_of_compare heq] at hnodup
          exact hnodup.1 hk
        · exact hfresh k (List.mem_cons_of_mem key hk) hs
      obtain ⟨s', hbuild, hs'⟩ := ih hnodup.2 hrest
      refine ⟨s', ?_, fun k => ?_⟩
      · rw [buildSetFrom, if_neg (hfresh key List.mem_cons_self)]
        exact hbuild
      · rw [hs', ExtTreeSet.mem_insert, List.mem_cons, LawfulEqCmp.compare_eq_iff_eq, eq_comm,
          or_assoc, or_left_comm]

/-- A set is read back from its keys. -/
theorem keySet_toList (dup : κ → ε) (s : ExtTreeSet κ cmp) : keySet dup s.toList = .ok s := by
  have hnodup : s.toList.Nodup := by
    have h : s.toList.Pairwise fun a b => ¬ cmp a b = .eq := ExtTreeSet.distinct_toList
    refine h.imp ?_
    intro a b hab heq
    exact hab (by rw [heq]; exact ReflCmp.compare_self)
  have hfresh : ∀ k ∈ s.toList, k ∉ (∅ : ExtTreeSet κ cmp) := fun _ _ => ExtTreeSet.not_mem_empty
  obtain ⟨s', hbuild, hs'⟩ := @buildSetFrom_ok _ _ _ _ _ dup _ _ hnodup hfresh
  rw [keySet, hbuild]
  refine congrArg Except.ok (ExtTreeSet.ext_mem fun k => ?_)
  rw [hs', ExtTreeSet.mem_toList]
  exact or_iff_right ExtTreeSet.not_mem_empty

end Build

end RowTable
