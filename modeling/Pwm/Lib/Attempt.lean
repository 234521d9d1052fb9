import Mathlib

/-!
# Computations that may fail and keep the state they reached

A failed computation of `EStateM ε σ` ends in the state it had reached when it
failed. The rules below read the outcome of a sequence off the outcomes of its
parts, and follow through a sequence whether a failure leaves the state as it
was.
-/

namespace Attempt

variable {ε σ α β : Type}

instance decidableEqResult [DecidableEq ε] [DecidableEq σ] [DecidableEq α] :
    DecidableEq (EStateM.Result ε σ α)
  | .ok a s, .ok b t => decidable_of_iff (a = b ∧ s = t) (by simp)
  | .error e s, .error f t => decidable_of_iff (e = f ∧ s = t) (by simp)
  | .ok _ _, .error _ _ => isFalse nofun
  | .error _ _, .ok _ _ => isFalse nofun

/-- Continue only when the condition holds. -/
def require (p : Prop) [Decidable p] (e : ε) : EStateM ε σ Unit :=
  if p then pure () else throw e

/-- The value of an option, or a failure. -/
def orThrow (o : Option α) (e : ε) : EStateM ε σ α :=
  match o with
  | some a => pure a
  | none => throw e

/-- The outcome of a pure check, its failure seen through `g`. -/
def liftExcept {δ : Type} (g : δ → ε) (r : Except δ α) : EStateM ε σ α :=
  match r with
  | .ok a => pure a
  | .error d => throw (g d)

/-- Run a step only when the condition holds. -/
def onlyIf (p : Prop) [Decidable p] (x : EStateM ε σ Unit) : EStateM ε σ Unit :=
  if p then x else pure ()

section Outcomes

variable {x : EStateM ε σ α} {f : α → EStateM ε σ β} {s s' : σ}

theorem bind_ok_iff {b : β} :
    (x >>= f) s = .ok b s' ↔ ∃ a s₁, x s = .ok a s₁ ∧ f a s₁ = .ok b s' := by
  change EStateM.bind x f s = _ ↔ _
  unfold EStateM.bind
  cases hx : x s with
  | ok a s₁ => simp
  | error e s₁ => simp

theorem bind_error_iff {e : ε} :
    (x >>= f) s = .error e s' ↔
      x s = .error e s' ∨ ∃ a s₁, x s = .ok a s₁ ∧ f a s₁ = .error e s' := by
  change EStateM.bind x f s = _ ↔ _
  unfold EStateM.bind
  cases hx : x s with
  | ok a s₁ => simp
  | error e₁ s₁ => simp

@[simp] theorem pure_ok_iff {a b : α} :
    (pure a : EStateM ε σ α) s = .ok b s' ↔ a = b ∧ s = s' := by
  change EStateM.Result.ok a s = .ok b s' ↔ _
  simp

@[simp] theorem pure_error_iff {a : α} {e : ε} :
    (pure a : EStateM ε σ α) s = .error e s' ↔ False := by
  change EStateM.Result.ok a s = .error e s' ↔ _
  simp

@[simp] theorem throw_ok_iff {e : ε} {a : α} :
    (throw e : EStateM ε σ α) s = .ok a s' ↔ False := by
  change EStateM.Result.error e s = .ok a s' ↔ _
  simp

@[simp] theorem throw_error_iff {e e' : ε} :
    (throw e : EStateM ε σ α) s = .error e' s' ↔ e = e' ∧ s = s' := by
  change EStateM.Result.error e s = .error e' s' ↔ _
  simp

@[simp] theorem get_ok_iff {a : σ} :
    (get : EStateM ε σ σ) s = .ok a s' ↔ s = a ∧ s = s' := by
  change EStateM.Result.ok s s = .ok a s' ↔ _
  simp

@[simp] theorem get_error_iff {e : ε} : (get : EStateM ε σ σ) s = .error e s' ↔ False := by
  change EStateM.Result.ok s s = .error e s' ↔ _
  simp

@[simp] theorem modify_ok_iff {g : σ → σ} {u : PUnit} :
    (modify g : EStateM ε σ PUnit) s = .ok u s' ↔ g s = s' := by
  change EStateM.Result.ok PUnit.unit (g s) = .ok u s' ↔ _
  simp

@[simp] theorem modify_error_iff {g : σ → σ} {e : ε} :
    (modify g : EStateM ε σ PUnit) s = .error e s' ↔ False := by
  change EStateM.Result.ok PUnit.unit (g s) = .error e s' ↔ _
  simp

@[simp] theorem require_ok_iff {p : Prop} [Decidable p] {e : ε} {u : Unit} :
    (require p e : EStateM ε σ Unit) s = .ok u s' ↔ p ∧ s = s' := by
  unfold require
  by_cases hp : p <;> simp [hp]

@[simp] theorem require_error_iff {p : Prop} [Decidable p] {e e' : ε} :
    (require p e : EStateM ε σ Unit) s = .error e' s' ↔ ¬ p ∧ e = e' ∧ s = s' := by
  unfold require
  by_cases hp : p <;> simp [hp]

@[simp] theorem orThrow_ok_iff {o : Option α} {e : ε} {a : α} :
    (orThrow o e : EStateM ε σ α) s = .ok a s' ↔ o = some a ∧ s = s' := by
  cases o <;> simp [orThrow]

@[simp] theorem orThrow_error_iff {o : Option α} {e e' : ε} :
    (orThrow o e : EStateM ε σ α) s = .error e' s' ↔ o = none ∧ e = e' ∧ s = s' := by
  cases o <;> simp [orThrow]

@[simp] theorem liftExcept_ok_iff {δ : Type} {g : δ → ε} {r : Except δ α} {a : α} :
    (liftExcept g r : EStateM ε σ α) s = .ok a s' ↔ r = .ok a ∧ s = s' := by
  cases r <;> simp [liftExcept]

@[simp] theorem liftExcept_error_iff {δ : Type} {g : δ → ε} {r : Except δ α} {e : ε} :
    (liftExcept g r : EStateM ε σ α) s = .error e s' ↔ ∃ d, r = .error d ∧ g d = e ∧ s = s' := by
  cases r <;> simp [liftExcept]

theorem onlyIf_ok_iff {p : Prop} [Decidable p] {y : EStateM ε σ Unit} {u : Unit} :
    onlyIf p y s = .ok u s' ↔ (p ∧ y s = .ok () s') ∨ (¬ p ∧ s = s') := by
  unfold onlyIf
  by_cases hp : p <;> simp [hp]

theorem onlyIf_error_iff {p : Prop} [Decidable p] {y : EStateM ε σ Unit} {e : ε} :
    onlyIf p y s = .error e s' ↔ p ∧ y s = .error e s' := by
  unfold onlyIf
  by_cases hp : p <;> simp [hp]

/-! What follows a step that succeeds starts where that step ended. -/

theorem get_bind_ok_iff {g : σ → EStateM ε σ β} {b : β} :
    ((get : EStateM ε σ σ) >>= g) s = .ok b s' ↔ g s s = .ok b s' := by
  simp [bind_ok_iff]

theorem modify_bind_ok_iff {g : σ → σ} {y : PUnit → EStateM ε σ β} {b : β} :
    ((modify g : EStateM ε σ PUnit) >>= y) s = .ok b s' ↔ y ⟨⟩ (g s) = .ok b s' := by
  simp only [bind_ok_iff, modify_ok_iff, exists_eq_left']
  exact ⟨fun ⟨_, h⟩ => h, fun h => ⟨_, h⟩⟩

theorem require_bind_ok_iff {p : Prop} [Decidable p] {e : ε} {y : Unit → EStateM ε σ β} {b : β} :
    ((require p e : EStateM ε σ Unit) >>= y) s = .ok b s' ↔ p ∧ y () s = .ok b s' := by
  simp only [bind_ok_iff, require_ok_iff, and_assoc, exists_and_left, exists_eq_left']
  exact and_congr_right fun _ => ⟨fun ⟨_, h⟩ => h, fun h => ⟨_, h⟩⟩

theorem orThrow_bind_ok_iff {o : Option α} {e : ε} {y : α → EStateM ε σ β} {b : β} :
    ((orThrow o e : EStateM ε σ α) >>= y) s = .ok b s' ↔ ∃ a, o = some a ∧ y a s = .ok b s' := by
  simp [bind_ok_iff]

theorem liftExcept_bind_ok_iff {δ : Type} {g : δ → ε} {r : Except δ α} {y : α → EStateM ε σ β}
    {b : β} : ((liftExcept g r : EStateM ε σ α) >>= y) s = .ok b s' ↔
      ∃ a, r = .ok a ∧ y a s = .ok b s' := by
  simp [bind_ok_iff]

end Outcomes

theorem except_bind_ok_iff {x : Except ε α} {f : α → Except ε β} {b : β} :
    x >>= f = .ok b ↔ ∃ a, x = .ok a ∧ f a = .ok b := by
  cases x <;> simp [bind, Except.bind]

theorem except_bind_error_iff {x : Except ε α} {f : α → Except ε β} {e : ε} :
    (x >>= f) = .error e ↔ x = .error e ∨ ∃ a, x = .ok a ∧ f a = .error e := by
  cases x <;> simp [bind, Except.bind]

/-- The value, or the failure given for its absence. -/
def orFail (o : Option α) (e : ε) : Except ε α :=
  match o with
  | some a => .ok a
  | none => .error e

@[simp] theorem orFail_ok_iff {o : Option α} {e : ε} {a : α} :
    orFail o e = .ok a ↔ o = some a := by
  cases o <;> simp [orFail]

@[simp] theorem orFail_error_iff {o : Option α} {e e' : ε} :
    orFail o e = .error e' ↔ o = none ∧ e = e' := by
  cases o <;> simp [orFail]

/-- Go on only when the condition holds. -/
def check (p : Prop) [Decidable p] (e : ε) : Except ε Unit :=
  if p then .ok () else .error e

@[simp] theorem check_ok_iff {p : Prop} [Decidable p] {e : ε} {u : Unit} :
    check p e = .ok u ↔ p := by
  unfold check
  by_cases hp : p <;> simp [hp]

@[simp] theorem check_error_iff {p : Prop} [Decidable p] {e e' : ε} :
    check p e = .error e' ↔ ¬ p ∧ e = e' := by
  unfold check
  by_cases hp : p <;> simp [hp]

@[simp] theorem mapError_ok_iff {δ : Type} {g : δ → ε} {r : Except δ α} {a : α} :
    r.mapError g = .ok a ↔ r = .ok a := by
  cases r <;> simp [Except.mapError]

@[simp] theorem mapError_error_iff {δ : Type} {g : δ → ε} {r : Except δ α} {e : ε} :
    r.mapError g = .error e ↔ ∃ d, r = .error d ∧ g d = e := by
  cases r <;> simp [Except.mapError]

theorem mapM_map_ok {f : α → Except ε β} {g : β → α} {ys : List β}
    (hok : ∀ y ∈ ys, f (g y) = .ok y) : (ys.map g).mapM f = .ok ys := by
  induction ys with
  | nil => rfl
  | cons y rest ih =>
      rw [List.map_cons, List.mapM_cons, hok y List.mem_cons_self,
        ih fun y' hmem => hok y' (List.mem_cons_of_mem y hmem)]
      rfl

/-- What is mapped is read off the results. -/
theorem map_of_mapM {f : α → Except ε β} {g : β → α} (hback : ∀ x y, f x = .ok y → g y = x)
    {xs : List α} {ys : List β} (hok : xs.mapM f = .ok ys) : ys.map g = xs := by
  induction xs generalizing ys with
  | nil =>
      obtain rfl := Except.ok.inj hok
      rfl
  | cons x rest ih =>
      rw [List.mapM_cons] at hok
      obtain ⟨y, hy, hok⟩ := except_bind_ok_iff.mp hok
      obtain ⟨more, hmore, hok⟩ := except_bind_ok_iff.mp hok
      obtain rfl := Except.ok.inj hok
      rw [List.map_cons, hback x y hy, ih hmore]

theorem mapM_filter {f : α → Except ε β} {p : α → Bool} {q : β → Bool}
    (hsame : ∀ x y, f x = .ok y → q y = p x) {xs : List α} {ys : List β}
    (hok : xs.mapM f = .ok ys) : (xs.filter p).mapM f = .ok (ys.filter q) := by
  induction xs generalizing ys with
  | nil =>
      obtain rfl := Except.ok.inj hok
      rfl
  | cons x rest ih =>
      rw [List.mapM_cons] at hok
      obtain ⟨y, hy, hok⟩ := except_bind_ok_iff.mp hok
      obtain ⟨more, hmore, hok⟩ := except_bind_ok_iff.mp hok
      obtain rfl := Except.ok.inj hok
      rw [List.filter_cons, List.filter_cons, hsame x y hy]
      split
      · rw [List.mapM_cons, hy, ih hmore]
        rfl
      · exact ih hmore

theorem mapM_error {f : α → Except ε β} {xs : List α} {e : ε}
    (herror : xs.mapM f = .error e) : ∃ x ∈ xs, f x = .error e := by
  induction xs with
  | nil =>
      rw [List.mapM_nil] at herror
      cases herror
  | cons x rest ih =>
      rw [List.mapM_cons] at herror
      rcases except_bind_error_iff.mp herror with hfirst | ⟨y, -, hrest⟩
      · exact ⟨x, List.mem_cons_self, hfirst⟩
      · rcases except_bind_error_iff.mp hrest with hlater | ⟨ys, -, hend⟩
        · obtain ⟨x', hmem, hx'⟩ := ih hlater
          exact ⟨x', List.mem_cons_of_mem x hmem, hx'⟩
        · cases hend

theorem bind_of_ok {x : EStateM ε σ α} {f : α → EStateM ε σ β} {a : α} (h : x s = .ok a s') :
    (x >>= f) s = f a s' := by
  change EStateM.bind x f s = _
  rw [EStateM.bind, h]

theorem bind_of_lift {δ : Type} {g : δ → ε} {r : Except δ α} {f : α → EStateM ε σ β} {a : α}
    (h : r = .ok a) : (liftExcept g r >>= f) s = f a s := by
  rw [h]
  rfl

theorem forM_log {γ τ : Type} (g : γ → τ) (xs : List γ) (log : List τ) :
    (xs.forM fun x => (modify fun l => l ++ [g x] : EStateM ε (List τ) PUnit)) log =
      .ok () (log ++ xs.map g) := by
  induction xs generalizing log with
  | nil =>
      rw [List.map_nil, List.append_nil]
      rfl
  | cons x rest ih =>
      rw [List.map_cons, List.append_cons, ← ih]
      rfl

/-- No outcome of the computation changes the state. -/
def ReadOnly (x : EStateM ε σ α) : Prop :=
  ∀ s, (∀ a s', x s = .ok a s' → s' = s) ∧ ∀ e s', x s = .error e s' → s' = s

/-- A failure of a kind in `P` leaves the state as it was. -/
def FailsClean (P : ε → Prop) (x : EStateM ε σ α) : Prop :=
  ∀ s e s', x s = .error e s' → P e → s' = s

/-- No failure is of a kind in `P`. -/
def NeverFails (P : ε → Prop) (x : EStateM ε σ α) : Prop :=
  ∀ s e s', x s = .error e s' → ¬ P e

section Rules

variable {P : ε → Prop} {x : EStateM ε σ α} {f : α → EStateM ε σ β}

theorem ReadOnly.failsClean (hx : ReadOnly x) : FailsClean P x := by
  intro s e s' h _
  exact (hx s).2 e s' h

theorem NeverFails.failsClean (hx : NeverFails P x) : FailsClean P x := by
  intro s e s' h hP
  exact absurd hP (hx s e s' h)

theorem ReadOnly.bind (hx : ReadOnly x) (hf : ∀ a, ReadOnly (f a)) : ReadOnly (x >>= f) := by
  intro s
  constructor
  · intro b s' h
    obtain ⟨a, s₁, h₁, h₂⟩ := bind_ok_iff.mp h
    rw [((hf a) s₁).1 b s' h₂, (hx s).1 a s₁ h₁]
  · intro e s' h
    rcases bind_error_iff.mp h with h₁ | ⟨a, s₁, h₁, h₂⟩
    · exact (hx s).2 e s' h₁
    · rw [((hf a) s₁).2 e s' h₂, (hx s).1 a s₁ h₁]

/-- Checks before a step that fails cleanly. -/
theorem FailsClean.after_readOnly (hx : ReadOnly x) (hf : ∀ a, FailsClean P (f a)) :
    FailsClean P (x >>= f) := by
  intro s e s' h hP
  rcases bind_error_iff.mp h with h₁ | ⟨a, s₁, h₁, h₂⟩
  · exact (hx s).2 e s' h₁
  · rw [hf a s₁ e s' h₂ hP, (hx s).1 a s₁ h₁]

theorem NeverFails.bind (hx : NeverFails P x) (hf : ∀ a, NeverFails P (f a)) :
    NeverFails P (x >>= f) := by
  intro s e s' h
  rcases bind_error_iff.mp h with h₁ | ⟨a, s₁, _, h₂⟩
  · exact hx s e s' h₁
  · exact hf a s₁ e s' h₂

theorem readOnly_pure (a : α) : ReadOnly (pure a : EStateM ε σ α) := by
  intro s
  simp [eq_comm]

theorem readOnly_throw (e : ε) : ReadOnly (throw e : EStateM ε σ α) := by
  intro s
  simp [eq_comm]

theorem readOnly_get : ReadOnly (get : EStateM ε σ σ) := by
  intro s
  simp [eq_comm]

theorem readOnly_require (p : Prop) [Decidable p] (e : ε) :
    ReadOnly (require p e : EStateM ε σ Unit) := by
  intro s
  simp [eq_comm]

theorem readOnly_orThrow (o : Option α) (e : ε) : ReadOnly (orThrow o e : EStateM ε σ α) := by
  intro s
  simp [eq_comm]

theorem readOnly_liftExcept {δ : Type} (g : δ → ε) (r : Except δ α) :
    ReadOnly (liftExcept g r : EStateM ε σ α) := by
  intro s
  constructor
  · intro a s' h
    exact (liftExcept_ok_iff.mp h).2.symm
  · intro e s' h
    obtain ⟨_, _, _, hs⟩ := liftExcept_error_iff.mp h
    exact hs.symm

theorem readOnly_onlyIf (p : Prop) [Decidable p] {y : EStateM ε σ Unit} (hy : ReadOnly y) :
    ReadOnly (onlyIf p y) := by
  unfold onlyIf
  split
  · exact hy
  · exact readOnly_pure ()

theorem neverFails_pure (a : α) : NeverFails P (pure a : EStateM ε σ α) := by
  intro s e s' h
  simp at h

theorem neverFails_get : NeverFails P (get : EStateM ε σ σ) := by
  intro s e s' h
  simp at h

theorem neverFails_modify (g : σ → σ) : NeverFails P (modify g : EStateM ε σ PUnit) := by
  intro s e s' h
  simp at h

theorem neverFails_orThrow (o : Option α) {e : ε} (he : ¬ P e) :
    NeverFails P (orThrow o e : EStateM ε σ α) := by
  intro s e' s' h hP
  obtain ⟨_, rfl, _⟩ := orThrow_error_iff.mp h
  exact he hP

theorem neverFails_forM {γ : Type} {g : γ → EStateM ε σ PUnit} (hg : ∀ c, NeverFails P (g c))
    (xs : List γ) : NeverFails P (xs.forM g) := by
  induction xs with
  | nil => exact neverFails_pure _
  | cons x rest ih => exact .bind (hg x) fun _ => ih

theorem neverFails_onlyIf (p : Prop) [Decidable p] {y : EStateM ε σ Unit}
    (hy : NeverFails P y) : NeverFails P (onlyIf p y) := by
  intro s e s' h
  exact hy s e s' (onlyIf_error_iff.mp h).2

end Rules

/-! ## Work before a commit -/

/-- Every outcome keeps a part of the state, and every failure is of a kind in `P`. -/
def Tentative {τ : Type} (part : σ → τ) (P : ε → Prop) (x : EStateM ε σ α) : Prop :=
  ∀ s, (∀ a s', x s = .ok a s' → part s' = part s) ∧
    ∀ e s', x s = .error e s' → part s' = part s ∧ P e

/-- Every failure keeps a part of the state, and is of a kind in `P`. -/
def FailsKeeping {τ : Type} (part : σ → τ) (P : ε → Prop) (x : EStateM ε σ α) : Prop :=
  ∀ s e s', x s = .error e s' → part s' = part s ∧ P e

section Commit

variable {τ : Type} {part : σ → τ} {P : ε → Prop} {x : EStateM ε σ α} {f : α → EStateM ε σ β}

theorem Tentative.bind (hx : Tentative part P x) (hf : ∀ a, Tentative part P (f a)) :
    Tentative part P (x >>= f) := by
  intro s
  constructor
  · intro b s' h
    obtain ⟨a, s₁, h₁, h₂⟩ := bind_ok_iff.mp h
    exact (((hf a) s₁).1 b s' h₂).trans ((hx s).1 a s₁ h₁)
  · intro e s' h
    rcases bind_error_iff.mp h with h₁ | ⟨a, s₁, h₁, h₂⟩
    · exact (hx s).2 e s' h₁
    · obtain ⟨hpart, hP⟩ := ((hf a) s₁).2 e s' h₂
      exact ⟨hpart.trans ((hx s).1 a s₁ h₁), hP⟩

/-- Tentative work before a step that fails without a trace. -/
theorem FailsKeeping.after (hx : Tentative part P x) (hf : ∀ a, FailsKeeping part P (f a)) :
    FailsKeeping part P (x >>= f) := by
  intro s e s' h
  rcases bind_error_iff.mp h with h₁ | ⟨a, s₁, h₁, h₂⟩
  · exact (hx s).2 e s' h₁
  · obtain ⟨hpart, hP⟩ := hf a s₁ e s' h₂
    exact ⟨hpart.trans ((hx s).1 a s₁ h₁), hP⟩

theorem NeverFails.failsKeeping (hx : NeverFails (fun _ => True) x) : FailsKeeping part P x := by
  intro s e s' h
  exact absurd trivial (hx s e s' h)

theorem tentative_pure (a : α) : Tentative part P (pure a : EStateM ε σ α) := by
  intro s
  constructor
  · intro b s' h
    rw [(pure_ok_iff.mp h).2]
  · intro e s' h
    exact absurd h (by simp)

theorem tentative_get : Tentative part P (get : EStateM ε σ σ) := by
  intro s
  constructor
  · intro a s' h
    rw [(get_ok_iff.mp h).2]
  · intro e s' h
    exact absurd h (by simp)

theorem tentative_modify {g : σ → σ} (hg : ∀ s, part (g s) = part s) :
    Tentative part P (modify g : EStateM ε σ PUnit) := by
  intro s
  constructor
  · intro a s' h
    rw [← modify_ok_iff.mp h]
    exact hg s
  · intro e s' h
    exact absurd h (by simp)

theorem tentative_require (p : Prop) [Decidable p] {e : ε} (he : P e) :
    Tentative part P (require p e : EStateM ε σ Unit) := by
  intro s
  constructor
  · intro a s' h
    rw [(require_ok_iff.mp h).2]
  · intro e' s' h
    obtain ⟨_, rfl, rfl⟩ := require_error_iff.mp h
    exact ⟨rfl, he⟩

theorem tentative_orThrow (o : Option α) {e : ε} (he : P e) :
    Tentative part P (orThrow o e : EStateM ε σ α) := by
  intro s
  constructor
  · intro a s' h
    rw [(orThrow_ok_iff.mp h).2]
  · intro e' s' h
    obtain ⟨_, rfl, rfl⟩ := orThrow_error_iff.mp h
    exact ⟨rfl, he⟩

theorem tentative_liftExcept {δ : Type} {g : δ → ε} (hg : ∀ d, P (g d)) (r : Except δ α) :
    Tentative part P (liftExcept g r : EStateM ε σ α) := by
  intro s
  constructor
  · intro a s' h
    rw [(liftExcept_ok_iff.mp h).2]
  · intro e s' h
    obtain ⟨d, _, rfl, rfl⟩ := liftExcept_error_iff.mp h
    exact ⟨rfl, hg d⟩

theorem tentative_forM {γ : Type} {g : γ → EStateM ε σ PUnit} (hg : ∀ c, Tentative part P (g c))
    (xs : List γ) : Tentative part P (xs.forM g) := by
  induction xs with
  | nil => exact tentative_pure _
  | cons x rest ih => exact .bind (hg x) fun _ => ih

end Commit

/-- The state satisfies `I` however the computation ends, if it did before. -/
def Keeps (I : σ → Prop) (x : EStateM ε σ α) : Prop :=
  ∀ s, I s → (∀ a s', x s = .ok a s' → I s') ∧ ∀ e s', x s = .error e s' → I s'

section Invariant

variable {I : σ → Prop} {x : EStateM ε σ α} {f : α → EStateM ε σ β}

theorem ReadOnly.keeps (hx : ReadOnly x) : Keeps I x := by
  intro s hs
  constructor
  · intro a s' h
    rw [(hx s).1 a s' h]
    exact hs
  · intro e s' h
    rw [(hx s).2 e s' h]
    exact hs

/-- What comes after a result only has to keep `I` for the results there are. -/
theorem Keeps.bind_of (hx : Keeps I x)
    (hf : ∀ a, (∃ s s', x s = .ok a s') → Keeps I (f a)) : Keeps I (x >>= f) := by
  intro s hs
  constructor
  · intro b s' h
    obtain ⟨a, s₁, h₁, h₂⟩ := bind_ok_iff.mp h
    exact (hf a ⟨s, s₁, h₁⟩ s₁ ((hx s hs).1 a s₁ h₁)).1 b s' h₂
  · intro e s' h
    rcases bind_error_iff.mp h with h₁ | ⟨a, s₁, h₁, h₂⟩
    · exact (hx s hs).2 e s' h₁
    · exact (hf a ⟨s, s₁, h₁⟩ s₁ ((hx s hs).1 a s₁ h₁)).2 e s' h₂

theorem Keeps.bind (hx : Keeps I x) (hf : ∀ a, Keeps I (f a)) : Keeps I (x >>= f) :=
  hx.bind_of fun a _ => hf a

/-- After a check that was passed. -/
theorem keeps_liftExcept_bind {δ : Type} {g : δ → ε} {r : Except δ α}
    (hf : ∀ a, r = .ok a → Keeps I (f a)) : Keeps I (liftExcept g r >>= f) := by
  refine (readOnly_liftExcept g r).keeps.bind_of fun a h => ?_
  obtain ⟨_, _, hok⟩ := h
  exact hf a (liftExcept_ok_iff.mp hok).1

theorem keeps_modify {g : σ → σ} (hg : ∀ s, I s → I (g s)) :
    Keeps I (modify g : EStateM ε σ PUnit) := by
  intro s hs
  constructor
  · intro a s' h
    rw [← modify_ok_iff.mp h]
    exact hg s hs
  · intro e s' h
    exact absurd h (by simp)

theorem Keeps.onlyIf {p : Prop} [Decidable p] {y : EStateM ε σ Unit} (hy : Keeps I y) :
    Keeps I (onlyIf p y) := by
  unfold Attempt.onlyIf
  split
  · exact hy
  · exact (readOnly_pure ()).keeps

end Invariant

end Attempt
