import Mathlib

/-!
# Logs that grow in turns

Every party keeps a log. What a log is so far says whose turn it is to extend
it: that party appends an entry of its own, and any party takes over the next
entry of a longer log. Then any two logs agree as far as both go, and the party
whose turn it is has nothing left to take over.
-/

namespace PrefixLog

variable {ι β : Type} {owner : List β → ι → Prop} {log : ι → List β}

/-- Of any two logs one is a prefix of the other, and who owned the turn at an entry has it. -/
structure Agree (owner : List β → ι → Prop) (log : ι → List β) : Prop where
  prefixes : ∀ i j, log i <+: log j ∨ log j <+: log i
  owned : ∀ i L b, L ++ [b] <+: log i → ∀ j, owner L j → L ++ [b] <+: log j

theorem agree_nil (owner : List β → ι → Prop) : Agree owner fun _ : ι => ([] : List β) where
  prefixes := fun _ _ => .inl (List.prefix_rfl)
  owned := by
    intro _ L b h
    have hlen := h.length_le
    simp at hlen

/-- A proper prefix goes on with some entry of the longer list. -/
theorem exists_next {l l' : List β} (h : l <+: l') (hne : l' ≠ l) : ∃ b, l ++ [b] <+: l' := by
  obtain ⟨t, rfl⟩ := h
  cases t with
  | nil => simp at hne
  | cons b rest => exact ⟨b, rest, by simp⟩

/-- What a list with one more entry is a continuation of. -/
theorem prefix_snoc {l l' : List β} {b : β} (h : l <+: l' ++ [b]) : l = l' ++ [b] ∨ l <+: l' :=
  List.prefix_concat_iff.mp h

/-- No log goes on after the log of the party whose turn it is. -/
theorem Agree.latest (h : Agree owner log) {i : ι} (hown : owner (log i) i) (j : ι) :
    log j <+: log i := by
  rcases h.prefixes i j with hij | hji
  · by_cases heq : log j = log i
    · rw [heq]
    · obtain ⟨b, hb⟩ := exists_next hij heq
      have hlen := (h.owned j (log i) b hb i hown).length_le
      simp at hlen
  · exact hji

section Grow

variable [DecidableEq ι]

/-- The log of one party becomes longer by an entry. -/
def grow (log : ι → List β) (i : ι) (b : β) : ι → List β :=
  Function.update log i (log i ++ [b])

@[simp] theorem grow_self (log : ι → List β) (i : ι) (b : β) : grow log i b i = log i ++ [b] :=
  Function.update_self ..

theorem grow_of_ne (log : ι → List β) {i j : ι} (b : β) (h : j ≠ i) : grow log i b j = log j :=
  Function.update_of_ne h ..

namespace Agree

/-- The party whose turn it is appends an entry of its own. -/
theorem extend (h : Agree owner log) (hunique : ∀ L i j, owner L i → owner L j → i = j) {i : ι}
    (hown : owner (log i) i) (b : β) : Agree owner (grow log i b) := by
  have hbelow : ∀ j, grow log i b j <+: log i ++ [b] := by
    intro j
    by_cases hj : j = i
    · rw [hj, grow_self]
    · rw [grow_of_ne log b hj]
      exact (h.latest hown j).trans (List.prefix_append _ _)
  constructor
  · intro j k
    exact List.prefix_or_prefix_of_prefix (hbelow j) (hbelow k)
  · intro j L c hpre k hk
    have hsplit : L ++ [c] = log i ++ [b] ∨ L ++ [c] <+: log i :=
      prefix_snoc (hpre.trans (hbelow j))
    rcases hsplit with heq | hold
    · obtain ⟨rfl, rfl⟩ : L = log i ∧ c = b := by simpa using heq
      rw [hunique _ k i hk hown, grow_self]
    · have hk' := h.owned i L c hold k hk
      by_cases hki : k = i
      · rw [hki, grow_self]
        exact hold.trans (List.prefix_append _ _)
      · rwa [grow_of_ne log b hki]

/-- A party takes over the next entry of a longer log. -/
theorem copy (h : Agree owner log) {i m : ι} {b : β} (hnext : log i ++ [b] <+: log m) :
    Agree owner (grow log i b) := by
  have hmi : log i <+: log m := (List.prefix_append _ _).trans hnext
  have hold : ∀ j, ∃ k, grow log i b j <+: log k := by
    intro j
    by_cases hj : j = i
    · exact ⟨m, by rwa [hj, grow_self]⟩
    · exact ⟨j, by rw [grow_of_ne log b hj]⟩
  constructor
  · intro j k
    by_cases hj : j = i
    · by_cases hk : k = i
      · exact .inl (by rw [hj, hk])
      · rw [hj, grow_self, grow_of_ne log b hk]
        rcases h.prefixes k m with hkm | hmk
        · exact List.prefix_or_prefix_of_prefix hnext hkm
        · exact .inl (hnext.trans hmk)
    · by_cases hk : k = i
      · rw [hk, grow_self, grow_of_ne log b hj]
        rcases h.prefixes j m with hjm | hmj
        · exact List.prefix_or_prefix_of_prefix hjm hnext
        · exact .inr (hnext.trans hmj)
      · rw [grow_of_ne log b hj, grow_of_ne log b hk]
        exact h.prefixes j k
  · intro j L c hpre k hk
    obtain ⟨j', hj'⟩ := hold j
    have hk' := h.owned j' L c (hpre.trans hj') k hk
    by_cases hki : k = i
    · rw [hki] at hk' ⊢
      rw [grow_self]
      exact hk'.trans (List.prefix_append _ _)
    · rwa [grow_of_ne log b hki]

end Agree

end Grow

end PrefixLog
