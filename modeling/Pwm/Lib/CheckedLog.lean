import Mathlib

/-!
# Logs checked entry by entry

A log is run from a start, each entry at its place by a step that may refuse
it. How far a log can be run is the largest number of entries from its front
that run together. Two steps that agree on every entry reached run every log
equally far.
-/

namespace CheckedLog

variable {σ α : Type*}

/-- The entries run one after another, the first one at the given place. -/
inductive Chained (step : Nat → σ → α → σ → Prop) : Nat → σ → List α → σ → Prop
  | nil (i : Nat) (s : σ) : Chained step i s [] s
  | cons {i : Nat} {s s₁ s' : σ} {a : α} {as : List α} (first : step i s a s₁)
      (rest : Chained step (i + 1) s₁ as s') : Chained step i s (a :: as) s'

/-- The step has at most one outcome. -/
def Functional (step : Nat → σ → α → σ → Prop) : Prop :=
  ∀ i s a s₁ s₂, step i s a s₁ → step i s a s₂ → s₁ = s₂

/-- So many entries run, and the next one does not. -/
structure Longest (step : Nat → σ → α → σ → Prop) (i : Nat) (s : σ) (as : List α) (n : Nat)
    (s' : σ) : Prop where
  le : n ≤ as.length
  chained : Chained step i s (as.take n) s'
  stuck : ∀ a s'', as[n]? = some a → ¬ step (i + n) s' a s''

section Chained

variable {step : Nat → σ → α → σ → Prop} {i : Nat} {s s₁ s' : σ} {a : α} {as bs : List α}

theorem Chained.append (h₁ : Chained step i s as s₁)
    (h₂ : Chained step (i + as.length) s₁ bs s') : Chained step i s (as ++ bs) s' := by
  induction h₁ with
  | nil => simpa using h₂
  | cons first rest ih =>
      refine .cons first (ih ?_)
      rw [List.length_cons] at h₂
      rwa [Nat.add_assoc, Nat.add_comm 1]

theorem Chained.snoc (h : Chained step i s as s₁) (last : step (i + as.length) s₁ a s') :
    Chained step i s (as ++ [a]) s' :=
  h.append (.cons last (.nil _ _))

theorem Chained.split (h : Chained step i s (as ++ bs) s') :
    ∃ s₁, Chained step i s as s₁ ∧ Chained step (i + as.length) s₁ bs s' := by
  induction as generalizing i s with
  | nil => exact ⟨s, .nil _ _, by simpa using h⟩
  | cons a as ih =>
      cases h with
      | cons first rest =>
          obtain ⟨s₁, hfirst, hrest⟩ := ih rest
          refine ⟨s₁, .cons first hfirst, ?_⟩
          rwa [List.length_cons, Nat.add_comm as.length, ← Nat.add_assoc]

theorem Chained.last (h : Chained step i s (as ++ [a]) s') :
    ∃ s₁, Chained step i s as s₁ ∧ step (i + as.length) s₁ a s' := by
  obtain ⟨s₁, hfirst, hlast⟩ := h.split
  cases hlast with
  | cons last rest =>
      cases rest
      exact ⟨s₁, hfirst, last⟩

theorem Chained.functional (hstep : Functional step) (h₁ : Chained step i s as s₁)
    (h₂ : Chained step i s as s') : s₁ = s' := by
  induction h₁ with
  | nil =>
      cases h₂
      rfl
  | cons first rest ih =>
      cases h₂ with
      | cons first' rest' =>
          obtain rfl := hstep _ _ _ _ _ first first'
          exact ih rest'

/-- The step of an entry within a chain, and the chain before it. -/
theorem Chained.step_at (h : Chained step i s as s') {k : Nat} (ha : as[k]? = some a) :
    ∃ s₁ s₂, Chained step i s (as.take k) s₁ ∧ step (i + k) s₁ a s₂ := by
  obtain ⟨hk, rfl⟩ := List.getElem?_eq_some_iff.mp ha
  rw [← List.take_append_drop k as, List.drop_eq_getElem_cons hk] at h
  obtain ⟨s₁, hfirst, hrest⟩ := h.split
  rw [List.length_take_of_le hk.le] at hrest
  cases hrest with
  | cons last _ => exact ⟨s₁, _, hfirst, last⟩

end Chained

section Longest

variable {step step' : Nat → σ → α → σ → Prop} {i n : Nat} {s s' : σ} {as : List α}

/-- How far a log runs is the largest number of its first entries that run together. -/
theorem Longest.isGreatest (hstep : Functional step) (h : Longest step i s as n s') :
    IsGreatest {m | m ≤ as.length ∧ ∃ s₁, Chained step i s (as.take m) s₁} n := by
  refine ⟨⟨h.le, s', h.chained⟩, ?_⟩
  rintro m ⟨hm, s₁, hchain⟩
  by_contra hlt
  have hn : n < (as.take m).length := by
    rw [List.length_take_of_le hm]
    omega
  have ha : (as.take m)[n]? = some as[n] := by
    rw [List.getElem?_take_of_lt (by omega), List.getElem?_eq_getElem]
  obtain ⟨s₂, s₃, hfirst, hlast⟩ := hchain.step_at ha
  rw [List.take_take, Nat.min_eq_left (by omega)] at hfirst
  obtain rfl := hfirst.functional hstep h.chained
  exact h.stuck _ _ (List.getElem?_eq_getElem (by omega)) hlast

theorem Longest.cons {a : α} {s₁ : σ} (h : Longest step (i + 1) s₁ as n s')
    (first : step i s a s₁) : Longest step i s (a :: as) (n + 1) s' where
  le := Nat.succ_le_succ h.le
  chained := .cons first h.chained
  stuck b s'' hb hstep := by
    rw [← Nat.add_assoc, Nat.add_right_comm] at hstep
    exact h.stuck b s'' hb hstep

/-- The two steps have the same outcomes on every entry that is reached. -/
def AgreeAlong (step step' : Nat → σ → α → σ → Prop) (i : Nat) (s : σ) (as : List α) : Prop :=
  ∀ k s₁ a, Chained step i s (as.take k) s₁ → as[k]? = some a →
    ∀ s₂, step (i + k) s₁ a s₂ ↔ step' (i + k) s₁ a s₂

theorem AgreeAlong.tail {a : α} {s₁ : σ} (h : AgreeAlong step step' i s (a :: as))
    (first : step i s a s₁) : AgreeAlong step step' (i + 1) s₁ as := by
  intro k s₂ b hchain hb s₃
  have hk := h (k + 1) s₂ b (.cons first hchain) hb s₃
  rwa [Nat.add_comm k, ← Nat.add_assoc] at hk

theorem AgreeAlong.chained (h : AgreeAlong step step' i s as) :
    Chained step i s as s' ↔ Chained step' i s as s' := by
  induction as generalizing i s with
  | nil =>
      constructor
      · intro hchain
        cases hchain
        exact .nil _ _
      · intro hchain
        cases hchain
        exact .nil _ _
  | cons a as ih =>
      have hfirst := h 0 s a (.nil i s) rfl
      constructor
      · intro hchain
        cases hchain with
        | cons first rest => exact .cons ((hfirst _).mp first) ((ih (h.tail first)).mp rest)
      · intro hchain
        cases hchain with
        | cons first rest =>
            have first' := (hfirst _).mpr first
            exact .cons first' ((ih (h.tail first')).mpr rest)

theorem AgreeAlong.take (h : AgreeAlong step step' i s as) (n : Nat) :
    AgreeAlong step step' i s (as.take n) := by
  intro k s₁ a hchain ha
  have hk : k < (as.take n).length := (List.getElem?_eq_some_iff.mp ha).1
  rw [List.length_take] at hk
  rw [List.take_take, Nat.min_eq_left (by omega)] at hchain
  rw [List.getElem?_take_of_lt (by omega)] at ha
  exact h k s₁ a hchain ha

/-- Steps that agree on what is reached run a log equally far. -/
theorem AgreeAlong.longest (h : AgreeAlong step step' i s as) (hlong : Longest step' i s as n s') :
    Longest step i s as n s' := by
  have hchain := (h.take n).chained.mpr hlong.chained
  refine ⟨hlong.le, hchain, fun a s'' ha hstep => ?_⟩
  exact hlong.stuck a s'' ha ((h n s' a hchain ha s'').mp hstep)

end Longest

end CheckedLog
