import Mathlib

/-!
# Labelled runs

A run of a step relation carries the list of its labels, oldest first. An
invariant of every step is an invariant of every run; a quantity that each
step changes by what its label says changes over a run by the sum.
-/

/-- A finite run, with the labels of its steps in order. -/
inductive Run {σ ℓ : Type} (step : σ → ℓ → σ → Prop) : σ → List ℓ → σ → Prop
  | nil (s : σ) : Run step s [] s
  | snoc {s s₁ s₂ : σ} {ls : List ℓ} {l : ℓ} :
      Run step s ls s₁ → step s₁ l s₂ → Run step s (ls ++ [l]) s₂

namespace Run

variable {σ ℓ : Type} {step : σ → ℓ → σ → Prop} {s s₁ s₂ : σ} {ls : List ℓ}

theorem single {l : ℓ} (h : step s l s₁) : Run step s [l] s₁ :=
  Run.snoc (Run.nil s) h

theorem append {ls' : List ℓ} (h₁ : Run step s ls s₁) (h₂ : Run step s₁ ls' s₂) :
    Run step s (ls ++ ls') s₂ := by
  induction h₂ with
  | nil => simpa using h₁
  | snoc _ hstep ih =>
      rw [← List.append_assoc]
      exact Run.snoc ih hstep

/-- A run ends with the step of its last label. -/
theorem unsnoc {l : ℓ} (h : Run step s (ls ++ [l]) s₁) :
    ∃ mid, Run step s ls mid ∧ step mid l s₁ := by
  generalize hall : ls ++ [l] = all at h
  cases h with
  | nil => simp at hall
  | snoc hrun hstep =>
      obtain ⟨hinit, hl⟩ := List.append_inj' hall rfl
      obtain rfl := List.singleton_inj.mp hl
      rw [← hinit] at hrun
      exact ⟨_, hrun, hstep⟩

/-- A run without steps stays where it is. -/
theorem eq_of_nil (h : Run step s [] s₁) : s₁ = s := by
  generalize hnil : ([] : List ℓ) = ls at h
  cases h with
  | nil => rfl
  | snoc _ _ => simp at hnil

/-- A run over two lists of labels passes through a state between them. -/
theorem split {ls' : List ℓ} (h : Run step s (ls ++ ls') s₁) :
    ∃ mid, Run step s ls mid ∧ Run step mid ls' s₁ := by
  induction ls' using List.reverseRecOn generalizing s₁ with
  | nil =>
      rw [List.append_nil] at h
      exact ⟨s₁, h, .nil s₁⟩
  | append_singleton ls' l ih =>
      rw [← List.append_assoc] at h
      obtain ⟨mid, hinit, hlast⟩ := h.unsnoc
      obtain ⟨between, hfirst, hrest⟩ := ih hinit
      exact ⟨between, hfirst, hrest.snoc hlast⟩

/-- The step of a label within a run, and the run before it. -/
theorem step_at {l : ℓ} {ls' : List ℓ} (h : Run step s (ls ++ l :: ls') s₁) :
    ∃ mid next, Run step s ls mid ∧ step mid l next := by
  rw [List.append_cons] at h
  obtain ⟨next, hinit, -⟩ := h.split
  obtain ⟨mid, hrun, hstep⟩ := hinit.unsnoc
  exact ⟨mid, next, hrun, hstep⟩

/-- Over the same labels a deterministic system comes to the same state. -/
theorem deterministic (hstep : ∀ s l a b, step s l a → step s l b → a = b)
    (h₁ : Run step s ls s₁) (h₂ : Run step s ls s₂) : s₁ = s₂ := by
  induction h₁ generalizing s₂ with
  | nil => exact (eq_of_nil h₂).symm
  | snoc _ hlast ih =>
      obtain ⟨mid, hinit, hlast'⟩ := h₂.unsnoc
      obtain rfl := ih hinit
      exact hstep _ _ _ _ hlast hlast'

/-- What every step keeps, every run keeps. -/
theorem invariant {I : σ → Prop} (hstep : ∀ s l s', I s → step s l s' → I s')
    (h : Run step s ls s₁) (h₀ : I s) : I s₁ := by
  induction h with
  | nil => exact h₀
  | snoc _ hl ih => exact hstep _ _ _ ih hl

/-- An invariant of the state together with the labels so far. -/
theorem history_invariant {I : List ℓ → σ → Prop}
    (hstep : ∀ ls s l s', I ls s → step s l s' → I (ls ++ [l]) s')
    (h : Run step s ls s₁) (h₀ : I [] s) : I ls s₁ := by
  induction h with
  | nil => exact h₀
  | snoc _ hl ih => exact hstep _ _ _ _ ih hl

/-- A preorder that every step respects, every run respects. -/
theorem monotone {R : σ → σ → Prop} (hrefl : ∀ s, R s s)
    (htrans : ∀ a b c, R a b → R b c → R a c) (hstep : ∀ s l s', step s l s' → R s s')
    (h : Run step s ls s₁) : R s s₁ := by
  induction h with
  | nil => exact hrefl _
  | snoc _ hl ih => exact htrans _ _ _ ih (hstep _ _ _ hl)

/-- A quantity that each step raises by the cost of its label. -/
theorem sum_labels {q : σ → Nat} {cost : ℓ → Nat}
    (hstep : ∀ s l s', step s l s' → q s' = q s + cost l) (h : Run step s ls s₁) :
    q s₁ = q s + (ls.map cost).sum := by
  induction h with
  | nil => simp
  | snoc _ hl ih =>
      rw [hstep _ _ _ hl, ih, List.map_append, List.sum_append]
      simp [Nat.add_assoc]

/-- The same run under a weaker step relation. -/
theorem mono {step' : σ → ℓ → σ → Prop} (hsub : ∀ s l s', step s l s' → step' s l s')
    (h : Run step s ls s₁) : Run step' s ls s₁ := by
  induction h with
  | nil => exact Run.nil _
  | snoc _ hl ih => exact Run.snoc ih (hsub _ _ _ hl)

/-- The same run under a step relation that its own labels satisfy. -/
theorem mono_labels {step' : σ → ℓ → σ → Prop} (h : Run step s ls s₁)
    (hsub : ∀ s l s', step s l s' → l ∈ ls → step' s l s') : Run step' s ls s₁ := by
  induction h with
  | nil => exact Run.nil _
  | snoc _ hl ih =>
      refine Run.snoc (ih fun s l s' hs hmem => hsub s l s' hs ?_) (hsub _ _ _ hl ?_)
      · exact List.mem_append_left _ hmem
      · exact List.mem_append_right _ (List.mem_singleton.mpr rfl)

end Run
