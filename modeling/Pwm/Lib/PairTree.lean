import Mathlib

/-!
# Binary trees over lists

A row is paired up into the next one, a last entry without a partner with
itself. Up to the repetitions that the odd rows bring in, a row some levels up
determines the list it was built from, as long as no two of the pairs on the
way have the same node.
-/

namespace PairTree

variable {α β : Type}

/-- The entries in pairs; a last one without a partner is paired with itself. -/
def pairs : List α → List (α × α)
  | [] => []
  | [a] => [(a, a)]
  | a :: b :: rest => (a, b) :: pairs rest

/-- The entries of the pairs in order. -/
def unpair (ps : List (α × α)) : List α :=
  ps.flatMap fun p => [p.1, p.2]

/-- The row a number of levels above a list. -/
def row (node : α → α → α) : Nat → List α → List α
  | 0, l => l
  | k + 1, l => row node k ((pairs l).map fun p => node p.1 p.2)

/-- The pairs whose nodes are built on the way up. -/
def joined (node : α → α → α) : Nat → List α → Set (α × α)
  | 0, _ => ∅
  | k + 1, l => {p | p ∈ pairs l} ∪ joined node k ((pairs l).map fun p => node p.1 p.2)

/-- The list with the repetitions that its odd rows bring in. -/
def complete : Nat → (α : Type) → List α → List α
  | 0, _, l => l
  | k + 1, _, l => unpair (complete k _ (pairs l))

theorem length_pairs (l : List α) : (pairs l).length = (l.length + 1) / 2 := by
  induction l using pairs.induct with
  | case1 => simp [pairs]
  | case2 a => simp [pairs]
  | case3 a b rest ih =>
      simp only [pairs, List.length_cons, ih]
      omega

theorem pairs_map (f : α → β) (l : List α) : pairs (l.map f) = (pairs l).map (Prod.map f f) := by
  induction l using pairs.induct with
  | case1 => rfl
  | case2 a => rfl
  | case3 a b rest ih => simp [pairs, ih]

theorem unpair_map (f : α → β) (ps : List (α × α)) :
    unpair (ps.map (Prod.map f f)) = (unpair ps).map f := by
  induction ps with
  | nil => rfl
  | cons p rest ih =>
      simp only [unpair, List.map_cons, List.flatMap_cons, List.map_append] at ih ⊢
      rw [ih]
      rfl

theorem unpair_injective : Function.Injective (unpair (α := α)) := by
  intro ps qs h
  induction ps generalizing qs with
  | nil =>
      cases qs with
      | nil => rfl
      | cons q rest => simp [unpair] at h
  | cons p ps ih =>
      cases qs with
      | nil => simp [unpair] at h
      | cons q qs =>
          simp only [unpair, List.flatMap_cons, List.cons_append, List.nil_append,
            List.cons.injEq] at h
          obtain ⟨hfst, hsnd, hrest⟩ := h
          rw [Prod.ext hfst hsnd, ih hrest]

theorem unpair_append (ps qs : List (α × α)) : unpair (ps ++ qs) = unpair ps ++ unpair qs := by
  simp [unpair]

/-- The pairs of a list start with the list. -/
theorem start_unpair_pairs (l : List α) : l <+: unpair (pairs l) := by
  induction l using pairs.induct with
  | case1 => exact List.nil_prefix
  | case2 a => exact ⟨[a], rfl⟩
  | case3 a b rest ih =>
      obtain ⟨more, hmore⟩ := ih
      refine ⟨more, ?_⟩
      rw [pairs, unpair, List.flatMap_cons, ← unpair, ← hmore]
      rfl

theorem complete_map (k : Nat) (f : α → β) (l : List α) :
    complete k β (l.map f) = (complete k α l).map f := by
  induction k generalizing α β with
  | zero => rfl
  | succ k ih => rw [complete, complete, pairs_map, ih, unpair_map]

/-- A completed list starts with the list. -/
theorem start_complete (k : Nat) (l : List α) : l <+: complete k α l := by
  induction k generalizing α with
  | zero => exact List.prefix_rfl
  | succ k ih =>
      obtain ⟨more, hmore⟩ := ih (pairs l)
      rw [complete, ← hmore, unpair_append]
      exact (start_unpair_pairs l).trans (List.prefix_append _ _)

/-- Among lists of one length, the completed list determines the list. -/
theorem complete_injective {k : Nat} {l l' : List α} (hlen : l.length = l'.length)
    (h : complete k α l = complete k α l') : l = l' := by
  have hstart : l <+: complete k α l' := h ▸ start_complete k l
  have hboth := List.prefix_of_prefix_length_le hstart (start_complete k l') hlen.le
  exact hboth.eq_of_length hlen

/-- An odd list and the list with its last entry repeated have the same pairs. -/
theorem pairs_repeat {l : List α} {a : α} (hodd : l.length % 2 = 0) :
    pairs (l ++ [a, a]) = pairs (l ++ [a]) := by
  induction l using pairs.induct with
  | case1 => rfl
  | case2 b => simp at hodd
  | case3 b c rest ih =>
      have heven : rest.length % 2 = 0 := by
        simp only [List.length_cons] at hodd
        omega
      simp only [List.cons_append, pairs, ih heven]

theorem mem_unpair {ps : List (α × α)} {a : α} (h : a ∈ unpair ps) :
    ∃ p ∈ ps, a = p.1 ∨ a = p.2 := by
  obtain ⟨p, hp, hmem⟩ := List.mem_flatMap.mp h
  simp only [List.mem_cons, List.not_mem_nil, or_false] at hmem
  exact ⟨p, hp, hmem⟩

theorem mem_of_mem_pairs {l : List α} {p : α × α} (h : p ∈ pairs l) : p.1 ∈ l ∧ p.2 ∈ l := by
  induction l using pairs.induct with
  | case1 => cases h
  | case2 a =>
      obtain rfl := List.mem_singleton.mp h
      exact ⟨List.mem_singleton.mpr rfl, List.mem_singleton.mpr rfl⟩
  | case3 a b rest ih =>
      rcases List.mem_cons.mp h with rfl | hrest
      · exact ⟨by simp, by simp⟩
      · obtain ⟨hfst, hsnd⟩ := ih hrest
        exact ⟨by simp [hfst], by simp [hsnd]⟩

/-- Completing repeats entries, and adds no other. -/
theorem mem_of_mem_complete {k : Nat} {l : List α} {a : α} (h : a ∈ complete k α l) : a ∈ l := by
  induction k generalizing α with
  | zero => exact h
  | succ k ih =>
      obtain ⟨p, hp, hcase⟩ := mem_unpair h
      obtain ⟨hfst, hsnd⟩ := mem_of_mem_pairs (ih hp)
      rcases hcase with rfl | rfl
      · exact hfst
      · exact hsnd

theorem map_injOn {f : α → β} {s : Set α} (hinj : Set.InjOn f s) {l l' : List α}
    (hl : ∀ a ∈ l, a ∈ s) (hl' : ∀ a ∈ l', a ∈ s) (h : l.map f = l'.map f) : l = l' := by
  induction l generalizing l' with
  | nil => exact (List.map_eq_nil_iff.mp h.symm).symm
  | cons a rest ih =>
      obtain ⟨b, rest', rfl, hhead, htail⟩ := List.map_eq_cons_iff.mp h.symm
      obtain ⟨ha, hrest⟩ := List.forall_mem_cons.mp hl
      obtain ⟨hb, hrest'⟩ := List.forall_mem_cons.mp hl'
      rw [hinj ha hb hhead.symm, ih hrest hrest' htail.symm]

/-- Rows a number of levels above two lists are the same exactly when the completed lists are, as
long as no two different pairs joined on the way have the same node. -/
theorem row_eq_iff {node : α → α → α} (k : Nat) {l l' : List α}
    (hinj : Set.InjOn (fun p : α × α => node p.1 p.2) (joined node k l ∪ joined node k l')) :
    row node k l = row node k l' ↔ complete k α l = complete k α l' := by
  induction k generalizing l l' with
  | zero => exact Iff.rfl
  | succ k ih =>
      have hnext : Set.InjOn (fun p : α × α => node p.1 p.2)
          (joined node k ((pairs l).map fun p => node p.1 p.2) ∪
            joined node k ((pairs l').map fun p => node p.1 p.2)) :=
        hinj.mono (Set.union_subset_union Set.subset_union_right Set.subset_union_right)
      rw [row, row, ih hnext, complete_map, complete_map, complete, complete,
        unpair_injective.eq_iff]
      constructor
      · refine map_injOn hinj ?_ ?_
        · exact fun p hp => .inl (.inl (mem_of_mem_complete hp))
        · exact fun p hp => .inr (.inl (mem_of_mem_complete hp))
      · exact fun h => by rw [h]

/-- As many levels as the list needs end in a single node. -/
theorem length_row (node : α → α → α) {k : Nat} {l : List α} (hne : l ≠ [])
    (hk : Nat.clog 2 l.length = k) : (row node k l).length = 1 := by
  induction k generalizing l with
  | zero =>
      have hpos := List.length_pos_of_ne_nil hne
      by_contra hlong
      rw [row] at hlong
      have hdeep := Nat.clog_pos (b := 2) (n := l.length) (by omega) (by omega)
      omega
  | succ k ih =>
      have hlong : 2 ≤ l.length := by
        by_contra hshort
        rw [Nat.clog_of_right_le_one (by omega)] at hk
        omega
      have hlen : ((pairs l).map fun p => node p.1 p.2).length = (l.length + 1) / 2 := by
        rw [List.length_map, length_pairs]
      refine ih ?_ ?_
      · refine List.ne_nil_of_length_pos ?_
        omega
      · rw [Nat.clog_of_two_le (by omega) hlong] at hk
        rw [hlen]
        exact Nat.succ.inj hk

theorem row_add (node : α → α → α) (j k : Nat) (l : List α) :
    row node (j + k) l = row node k (row node j l) := by
  induction j generalizing l with
  | zero => rw [Nat.zero_add, row]
  | succ j ih => rw [Nat.add_right_comm, row, ih, row]

/-- The pairs joined above a row are joined above the list it was built from. -/
theorem joined_row_subset (node : α → α → α) (j k : Nat) (l : List α) :
    joined node k (row node j l) ⊆ joined node (j + k) l := by
  induction j generalizing l with
  | zero =>
      rw [Nat.zero_add, row]
  | succ j ih =>
      rw [Nat.add_right_comm, row, joined]
      exact (ih _).trans Set.subset_union_right

/-- Above a list every entry of a row is the node of a pair joined on the way. -/
theorem mem_row_succ {node : α → α → α} {k : Nat} {l : List α} {a : α}
    (h : a ∈ row node (k + 1) l) : ∃ p ∈ joined node (k + 1) l, a = node p.1 p.2 := by
  induction k generalizing l with
  | zero =>
      obtain ⟨p, hp, rfl⟩ := List.mem_map.mp h
      exact ⟨p, .inl hp, rfl⟩
  | succ k ih =>
      obtain ⟨p, hp, ha⟩ := ih h
      exact ⟨p, .inr hp, ha⟩

theorem joined_mono (node : α → α → α) {j k : Nat} (h : j ≤ k) (l : List α) :
    joined node j l ⊆ joined node k l := by
  induction j generalizing k l with
  | zero => exact Set.empty_subset _
  | succ j ih =>
      obtain ⟨k, rfl⟩ : ∃ k', k = k' + 1 := Nat.exists_eq_succ_of_ne_zero (by omega)
      exact Set.union_subset_union_right _ (ih (by omega) _)

/-! ## Paths to the top -/

/-- The levels up to a single node, at most as many as the fuel. -/
def levelsUp (node : α → α → α) : Nat → List α → List α
  | 0, l => l
  | fuel + 1, l =>
      if 1 < l.length then levelsUp node fuel ((pairs l).map fun p => node p.1 p.2) else l

/-- The partners met on the way up from an index, and whether each stands on the left. -/
def partners (node : α → α → α) : Nat → List α → Nat → List (Bool × α)
  | 0, _, _ => []
  | fuel + 1, l, i =>
      if 1 < l.length then
        (match l[if i % 2 = 1 then i - 1 else i + 1]?.or l[i]? with
          | some a => [(decide (i % 2 = 1), a)]
          | none => []) ++
          partners node fuel ((pairs l).map fun p => node p.1 p.2) (i / 2)
      else []

/-- The entry and its partner in their order. -/
def joinedWith (a : α) (step : Bool × α) : α × α :=
  if step.1 then (step.2, a) else (a, step.2)

/-- Join an entry with one partner after the other. -/
def climb (node : α → α → α) (a : α) (steps : List (Bool × α)) : α :=
  steps.foldl (fun a step => node (joinedWith a step).1 (joinedWith a step).2) a

/-- The pairs joined by a climb. -/
def climbed (node : α → α → α) : α → List (Bool × α) → Set (α × α)
  | _, [] => ∅
  | a, step :: rest =>
      {joinedWith a step} ∪ climbed node (node (joinedWith a step).1 (joinedWith a step).2) rest

theorem levelsUp_eq_row (node : α → α → α) (fuel : Nat) {l : List α} (hfuel : l.length ≤ fuel) :
    levelsUp node fuel l = row node (Nat.clog 2 l.length) l := by
  induction fuel generalizing l with
  | zero =>
      have hnil : l = [] := List.length_eq_zero_iff.mp (Nat.le_zero.mp hfuel)
      subst hnil
      simp [levelsUp, row]
  | succ fuel ih =>
      rw [levelsUp]
      by_cases hlen : 1 < l.length
      · have hnodes : ((pairs l).map fun p => node p.1 p.2).length = (l.length + 1) / 2 := by
          rw [List.length_map, length_pairs]
        have hclog := Nat.clog_of_two_le (by omega : 1 < 2) hlen
        rw [if_pos hlen, ih (by omega), hnodes, hclog, row]
        rfl
      · rw [if_neg hlen, Nat.clog_of_right_le_one (by omega), row]

/-- The pair of an entry: the entry and its partner, or the entry twice. -/
theorem getElem?_pairs (l : List α) (i : Nat) :
    (pairs l)[i]? = l[2 * i]?.map fun a => (a, l[2 * i + 1]?.getD a) := by
  induction l using pairs.induct generalizing i with
  | case1 => rfl
  | case2 a =>
      cases i with
      | zero => rfl
      | succ i => simp [pairs, Nat.mul_add]
  | case3 a b rest ih =>
      cases i with
      | zero => rfl
      | succ i =>
          have hdouble : 2 * (i + 1) = 2 * i + 1 + 1 := by omega
          rw [pairs, List.getElem?_cons_succ, ih, hdouble, List.getElem?_cons_succ,
            List.getElem?_cons_succ, List.getElem?_cons_succ, List.getElem?_cons_succ]

/-- Climbing from an entry along its partners ends at the top. -/
theorem climb_partners (node : α → α → α) (fuel : Nat) {l : List α} {i : Nat} {a : α}
    (hfuel : l.length ≤ fuel) (hi : l[i]? = some a) :
    levelsUp node fuel l = [climb node a (partners node fuel l i)] := by
  induction fuel generalizing l i a with
  | zero =>
      have hnil : l = [] := List.length_eq_zero_iff.mp (Nat.le_zero.mp hfuel)
      subst hnil
      exact absurd hi (by simp)
  | succ fuel ih =>
      have hlt : i < l.length := (List.getElem?_eq_some_iff.mp hi).1
      rw [levelsUp, partners]
      by_cases hlen : 1 < l.length
      · have hnodes : ((pairs l).map fun p => node p.1 p.2).length = (l.length + 1) / 2 := by
          rw [List.length_map, length_pairs]
        rw [if_pos hlen, if_pos hlen]
        by_cases hodd : i % 2 = 1
        · obtain ⟨b, hb⟩ : ∃ b, l[i - 1]? = some b :=
            ⟨l[i - 1], List.getElem?_eq_getElem (by omega)⟩
          have hpair : (pairs l)[i / 2]? = some (b, a) := by
            have heven : 2 * (i / 2) = i - 1 := by omega
            have hnext : i - 1 + 1 = i := by omega
            rw [getElem?_pairs, heven, hb, Option.map_some, hnext, hi, Option.getD_some]
          have hnode : ((pairs l).map fun p => node p.1 p.2)[i / 2]? = some (node b a) := by
            rw [List.getElem?_map, hpair, Option.map_some]
          rw [ih (by omega) hnode, if_pos hodd, hb, Option.some_or]
          simp [climb, joinedWith, hodd]
        · have heven : 2 * (i / 2) = i := by omega
          have hpair : (pairs l)[i / 2]? = some (a, l[i + 1]?.getD a) := by
            rw [getElem?_pairs, heven, hi, Option.map_some]
          have hnode : ((pairs l).map fun p => node p.1 p.2)[i / 2]? =
              some (node a (l[i + 1]?.getD a)) := by
            rw [List.getElem?_map, hpair, Option.map_some]
          have hpartner : l[i + 1]?.or l[i]? = some (l[i + 1]?.getD a) := by
            rw [hi]
            cases l[i + 1]? with
            | none => rfl
            | some b => rfl
          rw [ih (by omega) hnode, if_neg hodd, hpartner]
          simp [climb, joinedWith, hodd]
      · rw [if_neg hlen, if_neg hlen]
        obtain ⟨b, rfl⟩ := List.length_eq_one_iff.mp (by omega : l.length = 1)
        obtain rfl : i = 0 := by
          rw [List.length_singleton] at hlt
          omega
        exact congrArg (fun x => [x]) (Option.some.inj hi)

/-- A climb that ends in a row of a list started in a row of it, as long as pairs with the same node
are the same and no pair of the climb has an entry of the list as its node. -/
theorem mem_row_of_climb {node : α → α → α} {k : Nat} {l : List α} {steps : List (Bool × α)} {a : α}
    (hinj : Set.InjOn (fun p : α × α => node p.1 p.2) (joined node k l ∪ climbed node a steps))
    (hleaf : ∀ p ∈ climbed node a steps, node p.1 p.2 ∉ l)
    (h : climb node a steps ∈ row node k l) : ∃ j ≤ k, a ∈ row node j l := by
  induction steps generalizing a with
  | nil => exact ⟨k, le_rfl, h⟩
  | cons step rest ih =>
      have hrest : climbed node (node (joinedWith a step).1 (joinedWith a step).2) rest ⊆
          climbed node a (step :: rest) := Set.subset_union_right
      have hfirst : joinedWith a step ∈ climbed node a (step :: rest) := Or.inl rfl
      obtain ⟨j, hj, hmem⟩ := ih (hinj.mono (Set.union_subset_union_right _ hrest))
        (fun p hp => hleaf p (hrest hp)) h
      cases j with
      | zero => exact absurd hmem (hleaf _ hfirst)
      | succ j =>
          rw [row_add node j 1 l] at hmem
          obtain ⟨p, hp, hnode⟩ := List.mem_map.mp hmem
          have hjoined : p ∈ joined node k l := by
            obtain ⟨more, rfl⟩ := Nat.exists_eq_add_of_le hj
            rw [Nat.add_assoc]
            exact joined_row_subset node j (1 + more) l (by
              rw [Nat.add_comm, joined]
              exact Or.inl hp)
          have hsame : p = joinedWith a step :=
            hinj (Or.inl hjoined) (Or.inr hfirst) hnode
          refine ⟨j, by omega, ?_⟩
          obtain ⟨hfst, hsnd⟩ := mem_of_mem_pairs hp
          rw [hsame, joinedWith] at hfst hsnd
          cases hside : step.1 with
          | true =>
              rw [hside] at hsnd
              exact hsnd
          | false =>
              rw [hside] at hfst
              exact hfst

end PairTree
