import Pwm.Ledger.Frozen

/-!
# One policy of a row

What a row holds of a policy is spread over two masks and the deferred rows.
Seen policy by policy, every way of writing them sets, activates or deactivates
one policy and leaves the others alone.
-/

namespace Pwm

open BitVec Attempt

/-! ## Bits of the masks -/

@[simp] theorem getLsbD_bit (p q : PolicyKind) :
    p.bit.getLsbD q.policyId.toNat = decide (p = q) := by
  cases p <;> cases q <;> decide

@[simp] theorem getElem_bit (p q : PolicyKind) (hlt : q.policyId.toNat < 16) :
    p.bit[q.policyId.toNat] = decide (p = q) := by
  rw [← BitVec.getLsbD_eq_getElem, getLsbD_bit]

@[simp] theorem policyId_lt (p : PolicyKind) : p.policyId.toNat < 16 := by
  cases p <;> decide

/-- The mask test reads the stored bit. -/
theorem and_bit_ne_zero_iff (mask : U16) (p : PolicyKind) :
    mask &&& p.bit ≠ 0#16 ↔ mask.getLsbD p.policyId.toNat = true := by
  rw [PolicyKind.bit, ← BitVec.twoPow_eq, BitVec.and_twoPow]
  cases hget : mask.getLsbD p.policyId.toNat with
  | false => simp
  | true =>
      have hne : BitVec.twoPow 16 p.policyId.toNat ≠ 0#16 := by
        cases p <;> decide
      simpa using hne

/-! ## The view -/

/-- What a row holds of one policy: its bits in the two masks and its deferred heights. -/
@[ext]
structure PolicyView where
  active : Bool
  dormant : Bool
  deferred : List U64
  deriving DecidableEq

namespace PolicyView

/-- The policy takes effect at this height. -/
def activeAt (v : PolicyView) (h : U64) : Bool :=
  v.active || v.deferred.any fun t => decide (t ≤ h)

/-- A policy that is not installed. -/
def absent : PolicyView := ⟨false, false, []⟩

/-- What an activation mode makes of a policy at a height. -/
def given (h : U64) : ActivationMode → PolicyView
  | .dormant => ⟨false, true, []⟩
  | .immediately => ⟨true, false, []⟩
  | .deferred t => ⟨decide (t ≤ h), false, [t]⟩

/-- A dormant policy becomes active; an active one stays; a deferred one is refused. -/
def activate (v : PolicyView) : Option PolicyView :=
  if v.deferred ≠ [] then none
  else if v.active then some v
  else if v.dormant then some { v with active := true, dormant := false }
  else none

/-- The first height still to come is struck out, or else the active policy becomes dormant. -/
def deactivate (h : U64) (v : PolicyView) : Option PolicyView :=
  if v.deferred.any fun t => decide (h < t) then
    some { v with deferred := v.deferred.eraseP fun t => decide (h < t) }
  else if v.active then some { v with active := false, dormant := true }
  else none

/-- The number of records that hold the policy. -/
def records (v : PolicyView) : Nat :=
  v.active.toNat + v.dormant.toNat + v.deferred.length

end PolicyView

/-- The heights at which rows of a policy take effect, in their order. -/
def heightsOf (p : PolicyKind) (rows : List DeferredPolicyEntry) : List U64 :=
  (rows.filter fun row => decide (row.policy = p)).map DeferredPolicyEntry.activateAtHeight

def PolicyFields.view (a : PolicyFields) (p : PolicyKind) : PolicyView where
  active := a.activePolicies.getLsbD p.policyId.toNat
  dormant := a.dormantPolicies.getLsbD p.policyId.toNat
  deferred := heightsOf p a.deferredPolicies

/-- The view of one policy of an account row. -/
def Account.view (a : Account) (p : PolicyKind) : PolicyView :=
  a.policyFields.view p

theorem view_of_policyFields {a b : Account} (hsame : a.policyFields = b.policyFields)
    (p : PolicyKind) : a.view p = b.view p := by
  rw [Account.view, Account.view, hsame]

section Rows

variable {rows : List DeferredPolicyEntry} {p q : PolicyKind} {h : U64}

@[simp] theorem heightsOf_nil : heightsOf p [] = [] := rfl

theorem heightsOf_cons (row : DeferredPolicyEntry) :
    heightsOf p (row :: rows) =
      if row.policy = p then row.activateAtHeight :: heightsOf p rows else heightsOf p rows := by
  by_cases hrow : row.policy = p <;> simp [heightsOf, hrow]

theorem heightsOf_append (rows' : List DeferredPolicyEntry) :
    heightsOf p (rows ++ rows') = heightsOf p rows ++ heightsOf p rows' := by
  simp [heightsOf]

/-- The rows of one policy are struck out. -/
theorem heightsOf_filter_ne (rows : List DeferredPolicyEntry) :
    heightsOf p (rows.filter fun row => decide (row.policy ≠ q)) =
      if q = p then [] else heightsOf p rows := by
  induction rows with
  | nil => simp
  | cons row rest ih =>
      by_cases hrow : row.policy = q
      · rw [List.filter_cons_of_neg (by simpa using hrow), ih, heightsOf_cons]
        by_cases hq : q = p
        · rw [if_pos hq, if_pos hq]
        · rw [if_neg hq, if_neg hq, if_neg (hrow ▸ hq)]
      · rw [List.filter_cons_of_pos (by simpa using hrow), heightsOf_cons, ih, heightsOf_cons]
        by_cases hq : q = p
        · rw [if_pos hq, if_pos hq, if_neg (hq ▸ hrow)]
        · rw [if_neg hq, if_neg hq]

/-- One row of a policy is struck out. -/
theorem heightsOf_eraseP (rows : List DeferredPolicyEntry) :
    heightsOf p (rows.eraseP fun row => decide (row.policy = q ∧ h < row.activateAtHeight)) =
      if q = p then (heightsOf p rows).eraseP fun t => decide (h < t) else heightsOf p rows := by
  induction rows with
  | nil => simp
  | cons row rest ih =>
      by_cases hrow : row.policy = q ∧ h < row.activateAtHeight
      · rw [List.eraseP_cons_of_pos (by simpa using hrow), heightsOf_cons]
        by_cases hq : q = p
        · rw [if_pos hq, if_pos (hrow.1.trans hq),
            List.eraseP_cons_of_pos (by simpa using hrow.2)]
        · rw [if_neg hq, if_neg (hrow.1 ▸ hq)]
      · rw [List.eraseP_cons_of_neg (by simpa using hrow), heightsOf_cons, ih, heightsOf_cons]
        by_cases hq : q = p
        · rw [if_pos hq, if_pos hq]
          by_cases hp : row.policy = p
          · have hlate : ¬ h < row.activateAtHeight := fun hlt => hrow ⟨hp.trans hq.symm, hlt⟩
            rw [if_pos hp, if_pos hp, List.eraseP_cons_of_neg (by simpa using hlate)]
          · rw [if_neg hp, if_neg hp]
        · rw [if_neg hq, if_neg hq]

theorem any_heightsOf (f : U64 → Bool) (rows : List DeferredPolicyEntry) :
    (heightsOf p rows).any f =
      rows.any fun row => decide (row.policy = p) && f row.activateAtHeight := by
  simp only [heightsOf, List.any_map, List.any_filter, Function.comp_def]

theorem find?_policy_eq_none_iff :
    (rows.find? fun row => decide (row.policy = p)) = none ↔ heightsOf p rows = [] := by
  simp [heightsOf]

end Rows

theorem policyIsActiveAt_eq (a : Account) (p : PolicyKind) (h : U64) :
    policyIsActiveAt a p h = (a.view p).activeAt h := by
  have hactive : decide (a.activePolicies &&& p.bit ≠ 0#16) =
      a.activePolicies.getLsbD p.policyId.toNat := by
    rw [Bool.eq_iff_iff, decide_eq_true_eq]
    exact and_bit_ne_zero_iff _ _
  rw [policyIsActiveAt, hactive, PolicyView.activeAt]
  simp only [Account.view, PolicyFields.view, Account.policyFields, any_heightsOf,
    Bool.decide_and]

/-! ## Policy actions -/

section Actions

variable {a b : Account} {p q : PolicyKind} {h : U64}

/-- Setting a policy decides what the row holds of it, and leaves the other policies alone. -/
theorem setPolMode_view (a : Account) (p q : PolicyKind) (mode : ActivationMode) (h : U64) :
    (setPolMode a q mode h).view p = if q = p then PolicyView.given h mode else a.view p := by
  have hrows := heightsOf_filter_ne (p := p) (q := q) a.deferredPolicies
  simp only [ne_eq, decide_not] at hrows
  by_cases hq : q = p
  · rw [if_pos hq] at hrows ⊢
    subst hq
    cases mode with
    | dormant =>
        simp [setPolMode, Account.view, PolicyFields.view, Account.policyFields,
          PolicyView.given, hrows]
    | immediately =>
        simp [setPolMode, Account.view, PolicyFields.view, Account.policyFields,
          PolicyView.given, hrows]
    | deferred t =>
        by_cases ht : t ≤ h <;>
          simp [setPolMode, Account.view, PolicyFields.view, Account.policyFields,
            PolicyView.given, heightsOf_append, heightsOf_cons, hrows, ht]
  · rw [if_neg hq] at hrows ⊢
    cases mode with
    | dormant =>
        simp [setPolMode, Account.view, PolicyFields.view, Account.policyFields, hrows, hq]
    | immediately =>
        simp [setPolMode, Account.view, PolicyFields.view, Account.policyFields, hrows, hq]
    | deferred t =>
        by_cases ht : t ≤ h <;>
          simp [setPolMode, Account.view, PolicyFields.view, Account.policyFields,
            heightsOf_append, heightsOf_cons, hrows, hq, ht]

/-- The row in which a dormant policy was made active. -/
def activatedRow (a : Account) (q : PolicyKind) : Account :=
  { a with
    dormantPolicies := a.dormantPolicies &&& ~~~q.bit
    activePolicies := a.activePolicies ||| q.bit
    finalized := a.finalized || decide (q = .routingEmergencyRedirect) }

theorem view_activated (a : Account) (p q : PolicyKind) :
    (activatedRow a q).view p =
      if q = p then { a.view p with active := true, dormant := false } else a.view p := by
  by_cases hq : q = p <;>
    simp [activatedRow, Account.view, PolicyFields.view, Account.policyFields, hq]

/-- The row in which an active policy was made dormant. -/
def deactivatedRow (a : Account) (q : PolicyKind) : Account :=
  { a with
    activePolicies := a.activePolicies &&& ~~~q.bit
    dormantPolicies := a.dormantPolicies ||| q.bit }

theorem view_deactivated (a : Account) (p q : PolicyKind) :
    (deactivatedRow a q).view p =
      if q = p then { a.view p with active := false, dormant := true } else a.view p := by
  by_cases hq : q = p <;>
    simp [deactivatedRow, Account.view, PolicyFields.view, Account.policyFields, hq]

/-- The row in which a deferred policy was struck out. -/
theorem view_struck (a : Account) (p q : PolicyKind) {idx : Nat}
    (hidx : a.deferredPolicies.findIdx? (fun row =>
      decide (row.policy = q ∧ h < row.activateAtHeight)) = some idx) :
    ({ a with deferredPolicies := a.deferredPolicies.eraseIdx idx } : Account).view p =
      if q = p then { a.view p with deferred := (a.view p).deferred.eraseP fun t => decide (h < t) }
      else a.view p := by
  have herase : a.deferredPolicies.eraseIdx idx = a.deferredPolicies.eraseP fun row =>
      decide (row.policy = q ∧ h < row.activateAtHeight) := by
    rw [List.eraseP_eq_eraseIdx, hidx]
  simp only [Account.view, PolicyFields.view, Account.policyFields, herase, heightsOf_eraseP]
  split <;> rfl

/-- What a policy action makes of the view of one policy. -/
def PolicyView.act (h : U64) (p : PolicyKind) (action : PolicyAction) (v : PolicyView) :
    Option PolicyView :=
  match action with
  | .setPolicy policy mode => some (if policy = p then .given h mode else v)
  | .activatePolicy policyId _ =>
      if PolicyKind.fromPolicyId policyId = some p then v.activate else some v
  | .deactivatePolicy policyId =>
      if PolicyKind.fromPolicyId policyId = some p then
        if p.isReversible then v.deactivate h else none
      else some v

/-- An activation that succeeds finds the policy active already, or dormant. -/
theorem activatePolicy_ok {policyId : U8} {target : Option AccountId}
    (hok : applyPolicyAction a (.activatePolicy policyId target) h = .ok b) :
    ∃ q, PolicyKind.fromPolicyId policyId = some q ∧ (a.view q).deferred = [] ∧
      (((a.view q).active = true ∧ b = a) ∨
        ((a.view q).active = false ∧ (a.view q).dormant = true ∧ b = activatedRow a q)) := by
  simp only [applyPolicyAction] at hok
  cases hpolicy : PolicyKind.fromPolicyId policyId with
  | none => simp [hpolicy] at hok
  | some q =>
      simp only [hpolicy] at hok
      refine ⟨q, rfl, ?_⟩
      cases hrow : a.deferredPolicies.find? fun row => decide (row.policy = q) with
      | some row =>
          simp only [hrow] at hok
          split at hok <;> cases hok
      | none =>
          simp only [hrow, and_bit_ne_zero_iff] at hok
          refine ⟨find?_policy_eq_none_iff.mp hrow, ?_⟩
          by_cases hactive : a.activePolicies.getLsbD q.policyId.toNat = true
          · rw [if_pos hactive] at hok
            exact .inl ⟨hactive, (Except.ok.inj hok).symm⟩
          · rw [if_neg hactive] at hok
            by_cases hdormant : a.dormantPolicies &&& q.bit = 0#16
            · simp [hdormant] at hok
            · rw [if_neg hdormant] at hok
              refine .inr ⟨Bool.eq_false_iff.mpr hactive, ?_, (Except.ok.inj hok).symm⟩
              exact (and_bit_ne_zero_iff _ _).mp hdormant

theorem activatePolicy_view {policyId : U8} {target : Option AccountId}
    (hok : applyPolicyAction a (.activatePolicy policyId target) h = .ok b) (p : PolicyKind) :
    (a.view p).act h p (.activatePolicy policyId target) = some (b.view p) := by
  obtain ⟨q, hpolicy, hnone, hcase⟩ := activatePolicy_ok hok
  rw [PolicyView.act, hpolicy]
  by_cases hq : q = p
  · subst hq
    rw [if_pos rfl, PolicyView.activate, if_neg (not_not_intro hnone)]
    obtain ⟨hactive, rfl⟩ | ⟨hoff, hdormant, rfl⟩ := hcase
    · rw [if_pos hactive]
    · rw [if_neg (Bool.eq_false_iff.mp hoff), if_pos hdormant, view_activated, if_pos rfl]
  · rw [if_neg fun heq => hq (Option.some.inj heq)]
    obtain ⟨_, rfl⟩ | ⟨_, _, rfl⟩ := hcase
    · rfl
    · rw [view_activated, if_neg hq]

/-- A height still to come is one that deactivation finds. -/
theorem any_late_eq_isSome (a : Account) (q : PolicyKind) (h : U64) :
    ((a.view q).deferred.any fun t => decide (h < t)) =
      (a.deferredPolicies.findIdx? fun row =>
        decide (row.policy = q ∧ h < row.activateAtHeight)).isSome := by
  simp only [Account.view, PolicyFields.view, Account.policyFields, any_heightsOf,
    List.findIdx?_isSome, Bool.decide_and]

/-- A deactivation that succeeds strikes out a height to come, or finds the policy active. -/
theorem deactivatePolicy_ok {policyId : U8}
    (hok : applyPolicyAction a (.deactivatePolicy policyId) h = .ok b) :
    ∃ q, PolicyKind.fromPolicyId policyId = some q ∧ q.isReversible = true ∧
      ((∃ idx, a.deferredPolicies.findIdx? (fun row =>
          decide (row.policy = q ∧ h < row.activateAtHeight)) = some idx ∧
          b = { a with deferredPolicies := a.deferredPolicies.eraseIdx idx }) ∨
        (((a.view q).deferred.any fun t => decide (h < t)) = false ∧ (a.view q).active = true ∧
          b = deactivatedRow a q)) := by
  simp only [applyPolicyAction] at hok
  cases hpolicy : PolicyKind.fromPolicyId policyId with
  | none => simp [hpolicy] at hok
  | some q =>
      simp only [hpolicy] at hok
      by_cases hrev : q.isReversible = true
      · rw [if_neg (not_not_intro hrev)] at hok
        refine ⟨q, rfl, hrev, ?_⟩
        cases hidx : a.deferredPolicies.findIdx? fun row =>
            decide (row.policy = q ∧ h < row.activateAtHeight) with
        | some idx =>
            simp only [hidx] at hok
            exact .inl ⟨idx, rfl, (Except.ok.inj hok).symm⟩
        | none =>
            simp only [hidx] at hok
            by_cases hactive : a.activePolicies &&& q.bit = 0#16
            · simp [hactive] at hok
            · rw [if_neg hactive] at hok
              refine .inr ⟨?_, (and_bit_ne_zero_iff _ _).mp hactive, (Except.ok.inj hok).symm⟩
              rw [any_late_eq_isSome, hidx, Option.isSome_none]
      · simp [hrev] at hok

theorem deactivatePolicy_view {policyId : U8}
    (hok : applyPolicyAction a (.deactivatePolicy policyId) h = .ok b) (p : PolicyKind) :
    (a.view p).act h p (.deactivatePolicy policyId) = some (b.view p) := by
  obtain ⟨q, hpolicy, hrev, hcase⟩ := deactivatePolicy_ok hok
  rw [PolicyView.act, hpolicy]
  by_cases hq : q = p
  · subst hq
    rw [if_pos rfl, if_pos hrev, PolicyView.deactivate]
    obtain ⟨idx, hidx, rfl⟩ | ⟨hnone, hactive, rfl⟩ := hcase
    · rw [any_late_eq_isSome, hidx, Option.isSome_some, if_pos rfl, view_struck a q q hidx,
        if_pos rfl]
    · rw [hnone, if_neg Bool.false_ne_true, if_pos hactive, view_deactivated, if_pos rfl]
  · rw [if_neg fun heq => hq (Option.some.inj heq)]
    obtain ⟨idx, hidx, rfl⟩ | ⟨_, _, rfl⟩ := hcase
    · rw [view_struck a p q hidx, if_neg hq]
    · rw [view_deactivated, if_neg hq]

/-- A policy action leaves the row initialised and its rescue address in place. -/
theorem applyPolicyAction_rest {action : PolicyAction}
    (hok : applyPolicyAction a action h = .ok b) :
    b.initialized = a.initialized ∧ b.rescueAddress = a.rescueAddress := by
  cases action with
  | setPolicy policy mode =>
      obtain rfl := Except.ok.inj hok
      cases mode <;> exact ⟨rfl, rfl⟩
  | activatePolicy policyId target =>
      obtain ⟨q, _, _, ⟨_, rfl⟩ | ⟨_, _, rfl⟩⟩ := activatePolicy_ok hok
      · exact ⟨rfl, rfl⟩
      · exact ⟨rfl, rfl⟩
  | deactivatePolicy policyId =>
      obtain ⟨q, _, _, ⟨idx, _, rfl⟩ | ⟨_, _, rfl⟩⟩ := deactivatePolicy_ok hok
      · exact ⟨rfl, rfl⟩
      · exact ⟨rfl, rfl⟩

/-- A policy action acts on one policy, in the terms of its view. -/
theorem applyPolicyAction_view {action : PolicyAction}
    (hok : applyPolicyAction a action h = .ok b) (p : PolicyKind) :
    (a.view p).act h p action = some (b.view p) := by
  cases action with
  | setPolicy policy mode =>
      obtain rfl := Except.ok.inj hok
      rw [PolicyView.act, setPolMode_view]
  | activatePolicy policyId target => exact activatePolicy_view hok p
  | deactivatePolicy policyId => exact deactivatePolicy_view hok p

/-- A reversible policy whose view can be deactivated is deactivated by its action. -/
theorem deactivatePolicy_succeeds (hrev : p.isReversible = true)
    (hstep : (a.view p).deactivate h ≠ none) :
    ∃ b, applyPolicyAction a (.deactivatePolicy p.policyId) h = .ok b := by
  simp only [applyPolicyAction, PolicyKind.fromPolicyId_policyId]
  rw [if_neg (not_not_intro hrev)]
  have hlate := any_late_eq_isSome a p h
  cases hidx : a.deferredPolicies.findIdx? fun row =>
      decide (row.policy = p ∧ h < row.activateAtHeight) with
  | some idx => exact ⟨_, rfl⟩
  | none =>
      have hactive : a.activePolicies &&& p.bit ≠ 0#16 := by
        intro hoff
        have hview : (a.view p).active = false :=
          Bool.eq_false_iff.mpr fun hon => (and_bit_ne_zero_iff _ _).mpr hon hoff
        rw [hidx, Option.isSome_none] at hlate
        exact hstep (by simp [PolicyView.deactivate, hlate, hview])
      simp only [if_neg hactive]
      exact ⟨_, rfl⟩

/-- The mode that a list of initial policies ends with for a policy. -/
def lastMode (p : PolicyKind) (rows : List InitPolicyEntry) : Option ActivationMode :=
  (rows.reverse.find? fun row => decide (row.policy = p)).map InitPolicyEntry.activation

/-- The initial policies set, in their order, the policies they name. -/
theorem foldl_setPolMode_view (rows : List InitPolicyEntry) (a : Account) (p : PolicyKind)
    (h : U64) :
    (rows.foldl (fun a (row : InitPolicyEntry) => setPolMode a row.policy row.activation h)
      a).view p = (lastMode p rows).elim (a.view p) (PolicyView.given h) := by
  induction rows using List.reverseRecOn with
  | nil => rfl
  | append_singleton rest row ih =>
      rw [List.foldl_append, List.foldl_cons, List.foldl_nil, setPolMode_view, ih]
      by_cases hrow : row.policy = p <;> simp [lastMode, hrow]

end Actions

end Pwm
