import Pwm.Lib.Run

/-!
# Sequence numbers

Every key has a counter, and events carry a key and a number. The events are
consecutive between two readings of the counters when, for each key, they
carry the numbers that its counter went through. Consecutive events are
distinct.
-/

namespace Sequence

variable {κ : Type} [DecidableEq κ]

/-- The numbers of the events of one key, in order. -/
def ofKey (es : List (κ × Nat)) (k : κ) : List Nat :=
  (es.filter fun e => decide (e.1 = k)).map Prod.snd

@[simp] theorem ofKey_nil (k : κ) : ofKey ([] : List (κ × Nat)) k = [] := rfl

theorem ofKey_append (es es' : List (κ × Nat)) (k : κ) :
    ofKey (es ++ es') k = ofKey es k ++ ofKey es' k := by
  simp [ofKey]

theorem ofKey_singleton (j k : κ) (n : Nat) : ofKey [(j, n)] k = if j = k then [n] else [] := by
  by_cases h : j = k <;> simp [ofKey, h]

/-- The events carry, for each key, the numbers from the first counter up to the second. -/
def Consecutive (c : κ → Nat) (es : List (κ × Nat)) (c' : κ → Nat) : Prop :=
  ∀ k, ofKey es k = List.range' (c k) (ofKey es k).length ∧ c' k = c k + (ofKey es k).length

theorem consecutive_nil {c c' : κ → Nat} (h : ∀ k, c' k = c k) :
    Consecutive c [] c' := by
  intro k
  simpa using h k

theorem consecutive_singleton {c c' : κ → Nat} {j : κ}
    (h : ∀ k, c' k = c k + if j = k then 1 else 0) : Consecutive c [(j, c j)] c' := by
  intro k
  rw [ofKey_singleton, h k]
  by_cases hj : j = k
  · subst hj
    simp
  · simp [hj]

theorem Consecutive.append {c c₁ c₂ : κ → Nat} {es es' : List (κ × Nat)}
    (h : Consecutive c es c₁) (h' : Consecutive c₁ es' c₂) : Consecutive c (es ++ es') c₂ := by
  intro k
  obtain ⟨hnums, hcount⟩ := h k
  obtain ⟨hnums', hcount'⟩ := h' k
  rw [ofKey_append, List.length_append]
  constructor
  · calc ofKey es k ++ ofKey es' k
        = List.range' (c k) (ofKey es k).length ++
            List.range' (c k + (ofKey es k).length) (ofKey es' k).length := by
          rw [← hcount, ← hnums, ← hnums']
      _ = List.range' (c k) ((ofKey es k).length + (ofKey es' k).length) := by
          rw [List.range'_append_1]
  · omega

theorem Consecutive.le {c c' : κ → Nat} {es : List (κ × Nat)} (h : Consecutive c es c') (k : κ) :
    c k ≤ c' k := by
  rw [(h k).2]
  exact Nat.le_add_right _ _

/-- No event occurs twice. -/
theorem Consecutive.nodup {c c' : κ → Nat} {es : List (κ × Nat)} (h : Consecutive c es c') :
    es.Nodup := by
  have hkey : ∀ k, (ofKey es k).Nodup := by
    intro k
    rw [(h k).1]
    exact List.nodup_range'
  clear h
  induction es with
  | nil => exact List.nodup_nil
  | cons e rest ih =>
      have hcons : ∀ k, ofKey (e :: rest) k = ofKey [e] k ++ ofKey rest k := fun k =>
        ofKey_append [e] rest k
      refine List.nodup_cons.mpr ⟨?_, ih fun k => ?_⟩
      · intro hmem
        have hnums := hkey e.1
        rw [hcons, ofKey_singleton, if_pos rfl, List.singleton_append, List.nodup_cons] at hnums
        refine hnums.1 (List.mem_map.mpr ⟨e, ?_, rfl⟩)
        simpa using hmem
      · have hnums := hkey k
        rw [hcons] at hnums
        exact hnums.of_append_right

/-- Consecutive events of every step are consecutive over a run. -/
theorem consecutive_of_run {σ ℓ : Type} {step : σ → ℓ → σ → Prop} {counter : σ → κ → Nat}
    {events : ℓ → List (κ × Nat)}
    (hstep : ∀ s l s', step s l s' → Consecutive (counter s) (events l) (counter s'))
    {s s' : σ} {ls : List ℓ} (hrun : Run step s ls s') :
    Consecutive (counter s) (ls.flatMap events) (counter s') := by
  induction hrun with
  | nil => exact consecutive_nil fun _ => rfl
  | snoc _ hl ih =>
      rw [List.flatMap_append, List.flatMap_singleton]
      exact ih.append (hstep _ _ _ hl)

end Sequence
