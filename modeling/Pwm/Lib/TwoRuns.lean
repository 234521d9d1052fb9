import Pwm.Lib.Attempt

/-!
# Two runs of a computation that may fail

Two computations are run on two states. They agree when both succeed, with
related values in related states, or both fail with the same error. The rules
below follow two runs through a sequence side by side; what the states differ
in is then never seen by the computation.
-/

namespace Attempt

variable {ε σ α β γ δ : Type} {R : σ → σ → Prop} {Q : α → β → Prop} {s t : σ}

/-! ## Options and lists side by side -/

theorem optionRel_cases {S : α → β → Prop} {o : Option α} {o' : Option β}
    (h : Option.Rel S o o') :
    (o = none ∧ o' = none) ∨ ∃ a b, o = some a ∧ o' = some b ∧ S a b := by
  cases h with
  | none => exact .inl ⟨rfl, rfl⟩
  | some hab => exact .inr ⟨_, _, rfl, rfl, hab⟩

theorem optionRel_eq (o : Option α) : Option.Rel Eq o o := by
  cases o with
  | none => exact .none
  | some a => exact .some rfl

theorem findIdx?_of_forall₂ {S : α → β → Prop} {p : α → Bool} {q : β → Bool}
    {xs : List α} {ys : List β} (h : List.Forall₂ S xs ys) (hp : ∀ a b, S a b → p a = q b) :
    xs.findIdx? p = ys.findIdx? q := by
  induction h with
  | nil => rfl
  | cons hab _ ih => rw [List.findIdx?_cons, List.findIdx?_cons, hp _ _ hab, ih]

theorem getElem?_of_forall₂ {S : α → β → Prop} {xs : List α} {ys : List β}
    (h : List.Forall₂ S xs ys) (i : Nat) : Option.Rel S xs[i]? ys[i]? := by
  induction h generalizing i with
  | nil => exact .none
  | cons hab _ ih =>
      cases i with
      | zero => exact .some hab
      | succ i => exact ih i

theorem modify_of_forall₂ {S : α → β → Prop} {f : α → α} {g : β → β} {xs : List α}
    {ys : List β} (h : List.Forall₂ S xs ys) (hf : ∀ a b, S a b → S (f a) (g b)) (i : Nat) :
    List.Forall₂ S (xs.modify i f) (ys.modify i g) := by
  induction h generalizing i with
  | nil => simp
  | cons hab hrest ih =>
      cases i with
      | zero => exact .cons (hf _ _ hab) hrest
      | succ i => exact .cons hab (ih i)

/-! ## Runs side by side -/

/-- Both runs succeed, with related values and states, or both fail with one error. -/
def AgreeAt (R : σ → σ → Prop) (Q : α → β → Prop) (x : EStateM ε σ α) (y : EStateM ε σ β)
    (s t : σ) : Prop :=
  match x s, y t with
  | .ok a s', .ok b t' => Q a b ∧ R s' t'
  | .error e _, .error f _ => e = f
  | .ok _ _, .error _ _ => False
  | .error _ _, .ok _ _ => False

namespace AgreeAt

variable {x : EStateM ε σ α} {y : EStateM ε σ β}

theorem of_ok (h : AgreeAt R Q x y s t) {a : α} {s' : σ} (hx : x s = .ok a s') :
    ∃ b t', y t = .ok b t' ∧ Q a b ∧ R s' t' := by
  unfold AgreeAt at h
  rw [hx] at h
  cases hy : y t with
  | ok b t' =>
      rw [hy] at h
      exact ⟨b, t', rfl, h⟩
  | error f t' =>
      rw [hy] at h
      exact h.elim

theorem of_error (h : AgreeAt R Q x y s t) {e : ε} {s' : σ} (hx : x s = .error e s') :
    ∃ t', y t = .error e t' := by
  unfold AgreeAt at h
  rw [hx] at h
  cases hy : y t with
  | ok b t' =>
      rw [hy] at h
      exact h.elim
  | error f t' =>
      rw [hy] at h
      exact ⟨t', congrArg (EStateM.Result.error · t') h.symm⟩

theorem symm {y : EStateM ε σ α} (h : AgreeAt R Eq x y s t) :
    AgreeAt (fun t s => R s t) Eq y x t s := by
  unfold AgreeAt at h ⊢
  cases hx : x s with
  | ok a s' =>
      cases hy : y t with
      | ok b t' =>
          rw [hx, hy] at h
          exact ⟨h.1.symm, h.2⟩
      | error f t' =>
          rw [hx, hy] at h
          exact h
  | error e s' =>
      cases hy : y t with
      | ok b t' =>
          rw [hx, hy] at h
          exact h
      | error f t' =>
          rw [hx, hy] at h
          exact h.symm

/-- The states between the two parts may be related in another way than those at the end. -/
theorem bind_via {R' : σ → σ → Prop} {f : α → EStateM ε σ γ} {g : β → EStateM ε σ δ}
    {Q' : γ → δ → Prop} (h : AgreeAt R Q x y s t)
    (hf : ∀ a b s' t', Q a b → R s' t' → AgreeAt R' Q' (f a) (g b) s' t') :
    AgreeAt R' Q' (x >>= f) (y >>= g) s t := by
  change AgreeAt R' Q' (EStateM.bind x f) (EStateM.bind y g) s t
  unfold AgreeAt EStateM.bind
  cases hx : x s with
  | ok a s' =>
      obtain ⟨b, t', hy, hQ, hR⟩ := h.of_ok hx
      rw [hy]
      exact hf a b s' t' hQ hR
  | error e s' =>
      obtain ⟨t', hy⟩ := h.of_error hx
      rw [hy]

theorem bind {f : α → EStateM ε σ γ} {g : β → EStateM ε σ δ} {Q' : γ → δ → Prop}
    (h : AgreeAt R Q x y s t)
    (hf : ∀ a b s' t', Q a b → R s' t' → AgreeAt R Q' (f a) (g b) s' t') :
    AgreeAt R Q' (x >>= f) (y >>= g) s t :=
  h.bind_via hf

end AgreeAt

theorem agreeAt_pure {a : α} {b : β} (hQ : Q a b) (hR : R s t) :
    AgreeAt R Q (pure a : EStateM ε σ α) (pure b) s t :=
  ⟨hQ, hR⟩

theorem agreeAt_self (x : EStateM ε σ α) (s : σ) : AgreeAt Eq Eq x x s s := by
  unfold AgreeAt
  cases x s with
  | ok a s' => exact ⟨rfl, rfl⟩
  | error e s' => rfl

theorem agreeAt_throw (e : ε) : AgreeAt R Q (throw e : EStateM ε σ α) (throw e) s t :=
  rfl

/-- What reads the whole state reads the two states as they are. -/
theorem agreeAt_get_bind {f : σ → EStateM ε σ α} {g : σ → EStateM ε σ β}
    (h : AgreeAt R Q (f s) (g t) s t) : AgreeAt R Q (get >>= f) (get >>= g) s t :=
  h

theorem agreeAt_modify {f g : σ → σ} (hR : R (f s) (g t)) :
    AgreeAt R Eq (modify f : EStateM ε σ PUnit) (modify g) s t :=
  ⟨rfl, hR⟩

theorem agreeAt_require {p p' : Prop} [Decidable p] [Decidable p'] {e : ε} (hp : p ↔ p')
    (hR : R s t) : AgreeAt R Eq (require p e : EStateM ε σ Unit) (require p' e) s t := by
  unfold require
  by_cases h : p
  · rw [if_pos h, if_pos (hp.mp h)]
    exact agreeAt_pure rfl hR
  · rw [if_neg h, if_neg (mt hp.mpr h)]
    exact agreeAt_throw e

theorem agreeAt_orThrow {o : Option α} {o' : Option β} {e : ε} (ho : Option.Rel Q o o')
    (hR : R s t) : AgreeAt R Q (orThrow o e : EStateM ε σ α) (orThrow o' e) s t := by
  cases ho with
  | some hQ => exact agreeAt_pure hQ hR
  | none => exact agreeAt_throw e

theorem agreeAt_liftExcept {g : δ → ε} {r r' : Except δ α} (hr : r = r') (hR : R s t) :
    AgreeAt R Eq (liftExcept g r : EStateM ε σ α) (liftExcept g r') s t := by
  subst hr
  cases r with
  | ok a => exact agreeAt_pure rfl hR
  | error d => exact agreeAt_throw (g d)

theorem agreeAt_onlyIf {p p' : Prop} [Decidable p] [Decidable p'] {x y : EStateM ε σ Unit}
    (hp : p ↔ p') (hR : R s t) (h : AgreeAt R Eq x y s t) :
    AgreeAt R Eq (onlyIf p x) (onlyIf p' y) s t := by
  unfold onlyIf
  by_cases hyes : p
  · rw [if_pos hyes, if_pos (hp.mp hyes)]
    exact h
  · rw [if_neg hyes, if_neg (mt hp.mpr hyes)]
    exact agreeAt_pure rfl hR

/-! ## Loops that stop -/

/-- A loop over a list fails at its element number `i`. -/
def StopsAt (f : γ → EStateM ε σ PUnit) (cs : List γ) (s : σ) (i : Nat) (e : ε) : Prop :=
  ∃ pre c post s₁ s₂, cs = pre ++ c :: post ∧ pre.length = i ∧ pre.forM f s = .ok () s₁ ∧
    f c s₁ = .error e s₂

section Loops

variable {f g : γ → EStateM ε σ PUnit} {cs : List γ} {i : Nat} {e : ε}

theorem stopsAt_zero {c : γ} {s' : σ} (h : f c s = .error e s') : StopsAt f (c :: cs) s 0 e :=
  ⟨[], c, cs, s, s', rfl, rfl, rfl, h⟩

theorem StopsAt.cons {c : γ} {s' : σ} (hc : f c s = .ok () s') (h : StopsAt f cs s' i e) :
    StopsAt f (c :: cs) s (i + 1) e := by
  obtain ⟨pre, c', post, s₁, s₂, rfl, rfl, hpre, herr⟩ := h
  exact ⟨c :: pre, c', post, s₁, s₂, rfl, rfl, bind_ok_iff.mpr ⟨(), s', hc, hpre⟩, herr⟩

/-- A loop either fails at its first element, or at a later one from where the first leads. -/
theorem StopsAt.cons_cases {c : γ} (h : StopsAt f (c :: cs) s i e) :
    (i = 0 ∧ ∃ s', f c s = .error e s') ∨
      ∃ k s', i = k + 1 ∧ f c s = .ok () s' ∧ StopsAt f cs s' k e := by
  obtain ⟨pre, c', post, s₁, s₂, hcs, rfl, hpre, herr⟩ := h
  cases pre with
  | nil =>
      obtain ⟨rfl, rfl⟩ := List.cons.inj hcs
      obtain ⟨_, rfl⟩ := pure_ok_iff.mp hpre
      exact .inl ⟨rfl, s₂, herr⟩
  | cons a pre =>
      obtain ⟨rfl, rfl⟩ := List.cons.inj hcs
      obtain ⟨_, s', hc, hrest⟩ := bind_ok_iff.mp hpre
      exact .inr ⟨pre.length, s', rfl, hc, pre, c', post, s₁, s₂, rfl, rfl, hrest, herr⟩

/-- A loop that fails does so at one of its elements. -/
theorem stopsAt_of_forM {s' : σ} (h : cs.forM f s = .error e s') : ∃ i, StopsAt f cs s i e := by
  induction cs generalizing s with
  | nil => cases h
  | cons c rest ih =>
      rcases bind_error_iff.mp h with hc | ⟨_, s₁, hc, hrest⟩
      · exact ⟨0, stopsAt_zero hc⟩
      · obtain ⟨i, hi⟩ := ih hrest
        exact ⟨i + 1, hi.cons hc⟩

theorem StopsAt.forM_error (h : StopsAt f cs s i e) : ∃ s', cs.forM f s = .error e s' := by
  induction cs generalizing s i with
  | nil =>
      obtain ⟨pre, c, post, s₁, s₂, hcs, -⟩ := h
      simp at hcs
  | cons c rest ih =>
      rcases h.cons_cases with ⟨-, s', hc⟩ | ⟨k, s', -, hc, hrest⟩
      · exact ⟨s', bind_error_iff.mpr (.inl hc)⟩
      · obtain ⟨s₂, herr⟩ := ih hrest
        exact ⟨s₂, bind_error_iff.mpr (.inr ⟨(), s', hc, herr⟩)⟩

/-- Loops that agree element by element stop at one place. -/
theorem StopsAt.of_agree (h : StopsAt f cs s i e)
    (hf : ∀ c ∈ cs, ∀ s t, R s t → AgreeAt R Eq (f c) (g c) s t) (hR : R s t) :
    StopsAt g cs t i e := by
  induction cs generalizing s t i with
  | nil =>
      obtain ⟨pre, c, post, s₁, s₂, hcs, -⟩ := h
      simp at hcs
  | cons c rest ih =>
      have hc := hf c List.mem_cons_self s t hR
      rcases h.cons_cases with ⟨rfl, s', herr⟩ | ⟨k, s', rfl, hok, hrest⟩
      · obtain ⟨t', herr'⟩ := hc.of_error herr
        exact stopsAt_zero herr'
      · obtain ⟨_, t', hok', -, hR'⟩ := hc.of_ok hok
        exact (ih hrest (fun c hc => hf c (List.mem_cons_of_mem _ hc)) hR').cons hok'

end Loops

end Attempt
