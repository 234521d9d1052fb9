import Pwm.Ledger.Pending

/-!
# Finalized accounts

An account is finalized by activating its emergency redirect. From then on it
acts no more, and what others send to it goes to its rescue address, as long
as the redirect does not lead back to it.
-/

namespace Pwm

open BitVec Attempt MapSum

/-! ## The policy fields of a row -/

/-- What the policies read of an account, apart from its flags. -/
structure PolicyFields where
  initialized : Bool
  finalized : Bool
  rescueAddress : Option AccountId
  activePolicies : U16
  dormantPolicies : U16
  deferredPolicies : List DeferredPolicyEntry
  deriving DecidableEq

def Account.policyFields (a : Account) : PolicyFields :=
  ⟨a.initialized, a.finalized, a.rescueAddress, a.activePolicies, a.dormantPolicies,
    a.deferredPolicies⟩

theorem Credited.policyFields {a a' : Account} (h : Credited a a') :
    a'.policyFields = a.policyFields := by
  rw [h.rest]
  rfl

/-- The policy fields of an account, when it has a row. -/
def State.policyFieldsOf (st : State) (id : AccountId) : Option PolicyFields :=
  (st.accounts[id]?).map Account.policyFields

theorem policyFieldsOf_of_row {s : State} {id : AccountId} {a : Account}
    (h : s.accounts[id]? = some a) : s.policyFieldsOf id = some a.policyFields := by
  rw [State.policyFieldsOf, h, Option.map_some]

theorem RowKept.policyFieldsOf {j : AccountId} {s s' : State} (h : RowKept j s s') :
    s'.policyFieldsOf j = s.policyFieldsOf j := by
  cases ha : s.accounts[j]? with
  | none =>
      cases ha' : s'.accounts[j]? with
      | none => rw [State.policyFieldsOf, State.policyFieldsOf, ha, ha']
      | some a' =>
          obtain ⟨a, hrow, _⟩ := h.row_before ha'
          rw [ha] at hrow
          cases hrow
  | some a =>
      obtain ⟨a', ha', hcredit⟩ := h.row ha
      rw [policyFieldsOf_of_row ha, policyFieldsOf_of_row ha', hcredit.policyFields]

/-! ## The row of the signer -/

/-- The row of the signer after its body was applied: the policy fields change only by INIT and by
a policy action. -/
inductive OwnRow (C : Crypto) (genCfg : GenCfg) (tx : SignedTx) (h : U64) (acc : Account) (s : State)
    (a' : Account) : Prop
  | same (hsame : a'.policyFields = acc.policyFields)
  | init {index flags : U32} (hbody : tx.body = .init index flags)
      (hinit : acc.initialized = false) (hfinal : a'.finalized = acc.finalized)
  | policy {account : AccountId} {action : PolicyAction} {fee : U128} {a : Account}
      (hbody : tx.body = .policy account action fee) (hinit : acc.initialized = true)
      (hvalid : validatePolAction C s (touchAcctMrks acc h genCfg) action tx = .ok ())
      (haction : applyPolicyAction (touchAcctMrks acc h genCfg) action h = .ok a)
      (hsame : a'.policyFields = a.policyFields)

section Arms

variable {C : Crypto} {genCfg : GenCfg} {tx : SignedTx} {h now : U64} {id : AccountId}
  {acc : Account} {s s' : State} {u : Unit}

theorem setPolMode_finalized (a : Account) (policy : PolicyKind) (activation : ActivationMode)
    (inclH : U64) : (setPolMode a policy activation inclH).finalized = a.finalized := by
  cases activation <;> rfl

theorem initRow_finalized (index flags : U32) :
    (initRow tx h acc index flags).finalized = acc.finalized := by
  have hfold : ∀ (rows : List InitPolicyEntry) (a : Account),
      (rows.foldl (fun a (row : InitPolicyEntry) => setPolMode a row.policy row.activation h)
        a).finalized = a.finalized := by
    intro rows
    induction rows with
    | nil => exact fun _ => rfl
    | cons row rest ih =>
        intro a
        rw [List.foldl_cons, ih, setPolMode_finalized]
  unfold initRow
  cases tx.initV4 with
  | none => rfl
  | some ext => exact hfold _ _

theorem getElem?_putAcc_self (s : State) (id : AccountId) (a : Account) :
    (s.putAcc id a).accounts[id]? = some a := by
  rw [getElem?_putAcc, if_pos rfl]

theorem transferNow_ownRow {dst : AccountId} {amount fee total : U128}
    (hok : transferNow genCfg h id acc dst amount fee total s = .ok u s') :
    ∃ a', s'.accounts[id]? = some a' ∧ a'.policyFields = acc.policyFields := by
  obtain ⟨balance, nonce, _, _, ⟨_, rfl⟩ | ⟨hne, toAcc, _, rfl⟩⟩ := transferNow_ok hok
  · exact ⟨_, getElem?_putAcc_self _ _ _, rfl⟩
  · refine ⟨debitedRow genCfg h acc balance nonce, ?_, rfl⟩
    rw [getElem?_putAcc, if_neg hne, getElem?_putAcc, if_pos rfl]

theorem creditImport_ownRow {toId : AccountId} {src : Account} {amount : U128}
    (hok : creditImport id toId src amount s = .ok u s') :
    ∃ a', s'.accounts[id]? = some a' ∧ a'.policyFields = src.policyFields := by
  obtain ⟨_, rfl⟩ | ⟨hne, toAcc, _, rfl⟩ := creditImport_ok hok
  · exact ⟨_, getElem?_putAcc_self _ _ _, rfl⟩
  · refine ⟨src, ?_, rfl⟩
    rw [getElem?_putAcc, if_neg hne, getElem?_putAcc, if_pos rfl]

theorem evacuateIfNamed_policyFields {target : Option AccountId} {a a' : Account}
    (hok : evacuateIfNamed id target a s = .ok a' s') : a'.policyFields = a.policyFields := by
  obtain ⟨_, rfl, _⟩ | ⟨t, _, hevac⟩ := evacuateIfNamed_ok hok
  · rfl
  · obtain ⟨_, rfl, _⟩ | ⟨_, targetAcc, _, rfl, _⟩ := evacuate_ok hevac
    · rfl
    · rfl

/-- The row of the signer after the arm of its body. -/
theorem applyBody_ownRow {redirTo : Option AccountId} {a₀ : Account}
    (hrow : s.accounts[id]? = some a₀) (hacc : acc = signerRow a₀ tx)
    (hok : applyBody C genCfg tx h id acc redirTo s = .ok u s') :
    ∃ a', s'.accounts[id]? = some a' ∧ OwnRow C genCfg tx h acc s a' := by
  have hstart : acc.policyFields = a₀.policyFields := by
    rw [hacc, signerRow]
    split <;> rfl
  unfold applyBody at hok
  cases hbody : tx.body with
  | init index flags =>
      simp only [hbody] at hok
      obtain ⟨hinit, nonce, _, rfl⟩ := applyInit_ok hok
      exact ⟨_, getElem?_putAcc_self _ _ _, .init hbody hinit (initRow_finalized index flags)⟩
  | transfer toId amount fee =>
      simp only [hbody] at hok
      obtain ⟨_, total, _, _, ⟨_, hqueue⟩ | ⟨_, hnow⟩⟩ := applyTransfer_ok hok
      · obtain ⟨_, feePwm, _, rfl⟩ := enqueueConservation_ok hqueue
        exact ⟨a₀, hrow, .same hstart.symm⟩
      · obtain ⟨a', ha', hsame⟩ := transferNow_ownRow hnow
        exact ⟨a', ha', .same hsame⟩
  | stake amount =>
      simp only [hbody] at hok
      obtain ⟨_, balance, staked, nonce, _, _, _, rfl⟩ := applyStake_ok hok
      exact ⟨_, getElem?_putAcc_self _ _ _, .same rfl⟩
  | unstake amount =>
      simp only [hbody] at hok
      obtain ⟨_, balance, staked, nonce, _, _, _, rfl⟩ := applyUnstake_ok hok
      exact ⟨_, getElem?_putAcc_self _ _ _, .same rfl⟩
  | burnMark markAmount beneficiary =>
      simp only [hbody] at hok
      obtain ⟨_, marks, nonce, _, _, rfl⟩ := applyBurnMark_ok hok
      exact ⟨_, getElem?_putAcc_self _ _ _, .same rfl⟩
  | claimIPv4Batch phase batchRoot registrySig =>
      simp only [hbody] at hok
      obtain ⟨_, phaseRow, nonce, _, _, rfl⟩ := applyClaimIPv4Batch_ok hok
      exact ⟨_, getElem?_putAcc_self _ _ _, .same rfl⟩
  | exportTx toId targetDomain amount fee =>
      simp only [hbody] at hok
      obtain ⟨_, total, balance, nonce, exportId, _, _, _, _, rfl⟩ := applyExport_ok hok
      exact ⟨_, getElem?_putAcc_self _ _ _, .same rfl⟩
  | importTx toId amount exportId =>
      simp only [hbody] at hok
      obtain ⟨_, _, _, expected, insert, fee, balance, nonce, s₁, _, _, _, _, _, hcredit, rfl⟩ :=
        applyImport_ok hok
      obtain ⟨a', ha', hsame⟩ := creditImport_ownRow hcredit
      exact ⟨a', by rw [settleImport_accounts, ha'], .same hsame⟩
  | policy targetAccount action fee =>
      simp only [hbody] at hok
      obtain ⟨hinit, a, balance, a', nonce, s₁, hvalid, haction, _, hevac, _, rfl⟩ :=
        applyPolicy_ok hok
      have hsame : a'.policyFields = a.policyFields :=
        (evacuateIfNamed_policyFields hevac).trans rfl
      exact ⟨_, getElem?_putAcc_self _ _ _, .policy hbody hinit hvalid haction hsame⟩

/-- The bit of the emergency redirect. -/
def redirectBit : U16 :=
  PolicyKind.routingEmergencyRedirect.bit

theorem policyId_of_fromPolicyId {policyId : U8} {policy : PolicyKind}
    (hid : PolicyKind.fromPolicyId policyId = some policy) : policyId = policy.policyId := by
  unfold PolicyKind.fromPolicyId at hid
  split_ifs at hid with h0 h1 h2 h3 h4
  all_goals
    obtain rfl := Option.some.inj hid
    assumption

/-- A policy action that finalizes a row activates its dormant redirect. -/
theorem applyPolicyAction_finalized {a b : Account} {action : PolicyAction}
    (hok : applyPolicyAction a action h = .ok b) (hlive : a.finalized = false)
    (hfinal : b.finalized = true) :
    pendingPolAllowed action = true ∧ b.initialized = a.initialized ∧
      b.rescueAddress = a.rescueAddress ∧ b.activePolicies &&& redirectBit ≠ 0#16 ∧
      b.dormantPolicies &&& redirectBit = 0#16 := by
  cases action with
  | setPolicy policy activation =>
      obtain rfl := Except.ok.inj hok
      rw [setPolMode_finalized, hlive] at hfinal
      cases hfinal
  | activatePolicy policyId activationTarget =>
      simp only [applyPolicyAction] at hok
      split at hok
      · cases hok
      · rename_i policy hpolicy
        split at hok
        · split at hok <;> cases hok
        · split at hok
          · obtain rfl := Except.ok.inj hok
            rw [hlive] at hfinal
            cases hfinal
          · split at hok
            · cases hok
            · obtain rfl := Except.ok.inj hok
              obtain rfl : policy = .routingEmergencyRedirect := by simpa [hlive] using hfinal
              refine ⟨?_, rfl, rfl, ?_, ?_⟩
              · rw [policyId_of_fromPolicyId hpolicy]
                rfl
              · have hbit : redirectBit ≠ 0#16 := by decide
                grind [redirectBit]
              · grind [redirectBit]
  | deactivatePolicy policyId =>
      simp only [applyPolicyAction] at hok
      split at hok
      · cases hok
      · split at hok
        · cases hok
        · split at hok
          · obtain rfl := Except.ok.inj hok
            rw [hlive] at hfinal
            cases hfinal
          · split at hok
            · cases hok
            · obtain rfl := Except.ok.inj hok
              rw [hlive] at hfinal
              cases hfinal

end Arms

/-! ## Finalized accounts do not act -/

/-- A finalized row: its redirect is active for good, nothing of it waits in the queue, and no
chain of two redirects leads back to it. -/
structure FrozenRow (s : State) (j : AccountId) (a : PolicyFields) : Prop where
  initialized : a.initialized = true
  active : a.activePolicies &&& redirectBit ≠ 0#16
  dormant : a.dormantPolicies &&& redirectBit = 0#16
  queue : ∀ row ∈ s.pendingConservation, row.sender ≠ j
  rescue : ∃ r, a.rescueAddress = some r ∧ r ≠ j ∧
    ∀ b, s.policyFieldsOf r = some b → b.finalized = true → b.rescueAddress ≠ some j

/-- The invariant of finalized accounts. -/
def FrozenInv (s : State) : Prop :=
  ∀ j a, s.policyFieldsOf j = some a → a.finalized = true → FrozenRow s j a

section Frozen

variable {C : Crypto} {genCfg : GenCfg} {tx : SignedTx} {h now : U64} {s s' : State} {u : Unit}

/-- A step after which no account is newly finalized, and which queues nothing for a finalized
account. -/
theorem FrozenInv.mono (hinv : FrozenInv s)
    (hback : ∀ j a, s'.policyFieldsOf j = some a → a.finalized = true →
      s.policyFieldsOf j = some a)
    (hqueue : ∀ row ∈ s'.pendingConservation, row ∈ s.pendingConservation ∨
      ∀ a, s'.policyFieldsOf row.sender = some a → a.finalized = false) : FrozenInv s' := by
  intro j a ha hfinal
  have hrow := hinv j a (hback j a ha hfinal) hfinal
  obtain ⟨r, hr, hne, hcycle⟩ := hrow.rescue
  refine ⟨hrow.initialized, hrow.active, hrow.dormant, ?_, r, hr, hne, ?_⟩
  · intro row hmem hsender
    rcases hqueue row hmem with hold | hlive
    · exact hrow.queue row hold hsender
    · rw [hlive a (hsender ▸ ha)] at hfinal
      cases hfinal
  · exact fun b hb hbfinal => hcycle b (hback r b hb hbfinal) hbfinal

/-- No policy-checked transaction is applied whose account is finalized, initialised and has an
active redirect. -/
theorem applyTxWithCtx_signer_not_finalized (hok : applyTxWithCtx C genCfg tx h now s = .ok u s')
    {a : Account} (ha : s.accounts[tx.computedAccountId C]? = some a)
    (hrow : a.finalized = true → a.initialized = true ∧ a.activePolicies &&& redirectBit ≠ 0#16) :
    a.finalized = false := by
  rw [Bool.eq_false_iff]
  intro hfinal
  obtain ⟨hinitialized, hactive⟩ := hrow hfinal
  obtain ⟨acc, redirTo, hacc, _, hgate, _, hbody⟩ := applyTxImpl_ok hok
  rw [initStub_of_row ha] at hacc hgate hbody
  obtain rfl := Option.some.inj (ha.symm.trans hacc)
  have hnot := policyGate_not_finalized hgate ha
  have hblocked : isFinalizedBlocked tx.body a = false := by
    simpa [hfinal] using hnot
  cases htx : tx.body with
  | init index flags =>
      simp only [applyBody, htx] at hbody
      obtain ⟨hinit, _⟩ := applyInit_ok hbody
      rw [signerRow, if_pos hinitialized, hinitialized] at hinit
      cases hinit
  | policy account action fee =>
      rw [htx, isFinalizedBlocked] at hblocked
      cases action with
      | activatePolicy policyId activationTarget =>
          simp only [finalizedPolicyAllowed, Bool.not_eq_false', decide_eq_true_eq] at hblocked
          exact hactive hblocked.2.1
      | setPolicy policy activation => simp [finalizedPolicyAllowed] at hblocked
      | deactivatePolicy policyId => simp [finalizedPolicyAllowed] at hblocked
  | _ => simp [htx, isFinalizedBlocked] at hblocked

/-- No policy-checked transaction of a finalized account is applied. -/
theorem applyTxWithCtx_signer_live (hinv : FrozenInv s)
    (hok : applyTxWithCtx C genCfg tx h now s = .ok u s') {a : Account}
    (ha : s.accounts[tx.computedAccountId C]? = some a) : a.finalized = false := by
  refine applyTxWithCtx_signer_not_finalized hok ha fun hfinal => ?_
  have hrow := hinv _ _ (policyFieldsOf_of_row ha) hfinal
  exact ⟨hrow.initialized, hrow.active⟩

/-- A redirect to this target comes back: the target is the account itself, or a finalized account
whose rescue address is the account. -/
def LeadsBack (s : State) (id target : AccountId) : Prop :=
  target = id ∨ ∃ b, s.policyFieldsOf target = some b ∧ b.finalized = true ∧
    b.rescueAddress = some id

/-- The redirect that a transaction activates leads away from its account. -/
def LeadsAway (C : Crypto) (s : State) (tx : SignedTx) : Prop :=
  ∀ account action fee target, tx.body = .policy account action fee →
    emergencyActTarget action = some target → ¬ LeadsBack s (tx.computedAccountId C) target

/-- What the queue holds after a transaction of this signer. -/
theorem applyTxImpl_pending {skipPolicy : Bool}
    (hok : applyTxImpl C genCfg tx h now skipPolicy s = .ok u s') :
    ∀ row ∈ s'.pendingConservation, row ∈ s.pendingConservation ∨
      row.sender = tx.computedAccountId C := by
  obtain ⟨acc, redirTo, _, _, _, _, hbody⟩ := applyTxImpl_ok hok
  intro row hrow
  cases applyBody_pending hbody with
  | queued _ _ _ _ _ _ _ hqueue =>
      rw [hqueue, pushPending_pendingConservation, initStub_pending] at hrow
      rcases List.mem_append.mp hrow with hold | hnew
      · exact .inl hold
      · rw [List.mem_singleton.mp hnew]
        exact .inr rfl
  | dropped hqueue =>
      rw [hqueue, initStub_pending] at hrow
      exact .inl (List.mem_filter.mp hrow).1
  | kept hqueue _ =>
      rw [hqueue, initStub_pending] at hrow
      exact .inl hrow

/-- The row that INIT starts from is not finalized. -/
theorem initStub_new_row {acc : Account} (hnone : s.accounts[tx.computedAccountId C]? = none)
    (hacc : (initStub C tx s).accounts[tx.computedAccountId C]? = some acc) :
    acc.finalized = false := by
  unfold initStub at hacc
  cases htx : tx.body with
  | init index flags =>
      simp only [htx, hnone, Option.isSome_none, Bool.false_eq_true, if_false] at hacc
      rw [getElem?_putAcc_self] at hacc
      obtain rfl := Option.some.inj hacc
      rfl
  | _ =>
      simp only [htx, hnone] at hacc
      cases hacc

/-- The signer of a transaction that finalized it. -/
theorem applyTxWithCtx_finalizes (hinv : FrozenInv s)
    (hok : applyTxWithCtx C genCfg tx h now s = .ok u s') {a : PolicyFields}
    (ha : s'.policyFieldsOf (tx.computedAccountId C) = some a) (hfinal : a.finalized = true) :
    ∃ account action fee target, tx.body = .policy account action fee ∧
      emergencyActTarget action = some target ∧ a.rescueAddress = some target ∧
      a.initialized = true ∧ a.activePolicies &&& redirectBit ≠ 0#16 ∧
      a.dormantPolicies &&& redirectBit = 0#16 ∧
      ∀ row ∈ s'.pendingConservation, row.sender ≠ tx.computedAccountId C := by
  obtain ⟨acc, redirTo, hacc, _, _, _, hbody⟩ := applyTxImpl_ok hok
  have hlive : acc.finalized = false := by
    cases hrow : s.accounts[tx.computedAccountId C]? with
    | some a₀ =>
        rw [initStub_of_row hrow, hrow] at hacc
        obtain rfl := Option.some.inj hacc
        exact applyTxWithCtx_signer_live hinv hok hrow
    | none => exact initStub_new_row hrow hacc
  obtain ⟨a', ha', hown⟩ := applyBody_ownRow hacc rfl hbody
  rw [policyFieldsOf_of_row ha'] at ha
  obtain rfl := Option.some.inj ha
  have hsigner : (signerRow acc tx).finalized = false := by
    rw [signerRow]
    split <;> exact hlive
  have hfinal : a'.finalized = true := hfinal
  cases hown with
  | same hsame =>
      have hkept : a'.finalized = (signerRow acc tx).finalized :=
        congrArg PolicyFields.finalized hsame
      rw [hkept, hsigner] at hfinal
      cases hfinal
  | init hbody _ hkept =>
      rw [hkept, hsigner] at hfinal
      cases hfinal
  | policy htx hinit hvalid haction hsame =>
      rename_i account action fee b
      have hbfinal : b.finalized = true := by
        rw [← hfinal]
        exact (congrArg PolicyFields.finalized hsame).symm
      obtain ⟨hallowed, hbinit, hbrescue, hactive, hdormant⟩ :=
        applyPolicyAction_finalized haction hsigner hbfinal
      obtain ⟨target, htarget, hrescue⟩ := validatePolAction_target hvalid hallowed
      refine ⟨account, action, fee, target, htx, htarget, ?_, ?_, ?_, ?_, ?_⟩
      · rw [hsame]
        exact hbrescue.trans hrescue
      · rw [hsame]
        exact hbinit.trans hinit
      · rw [hsame]
        exact hactive
      · rw [hsame]
        exact hdormant
      · simp only [applyBody, htx] at hbody
        have hqueue := applyPolicy_pending hbody
        rw [htarget] at hqueue
        intro row hrow
        rw [hqueue] at hrow
        simpa using (List.mem_filter.mp hrow).2

/-- An account that is finalized after a transaction was so before, or is its signer. -/
theorem applyTxWithCtx_frozenInv (hinv : FrozenInv s) (haway : LeadsAway C s tx)
    (hok : applyTxWithCtx C genCfg tx h now s = .ok u s') : FrozenInv s' := by
  have hother : ∀ j, tx.computedAccountId C ≠ j → s'.policyFieldsOf j = s.policyFieldsOf j :=
    fun j hj => (applyTxImpl_rowKept hj hok).policyFieldsOf
  by_cases hnew : ∃ a, s'.policyFieldsOf (tx.computedAccountId C) = some a ∧ a.finalized = true
  · obtain ⟨a₁, ha₁, hfinal₁⟩ := hnew
    obtain ⟨account, action, fee, target, htx, htarget, hrescue, hinit, hactive, hdormant, hqueue⟩ :=
      applyTxWithCtx_finalizes hinv hok ha₁ hfinal₁
    have hback := haway account action fee target htx htarget
    intro j a ha hfinal
    by_cases hj : tx.computedAccountId C = j
    · subst hj
      obtain rfl := Option.some.inj (ha₁.symm.trans ha)
      have hne : target ≠ tx.computedAccountId C := fun heq => hback (.inl heq)
      refine ⟨hinit, hactive, hdormant, hqueue, target, hrescue, hne, ?_⟩
      intro b hb hbfinal hcycle
      rw [hother target (Ne.symm hne)] at hb
      exact hback (.inr ⟨b, hb, hbfinal, hcycle⟩)
    · rw [hother j hj] at ha
      have hrow := hinv j a ha hfinal
      obtain ⟨r, hr, hne, hcycle⟩ := hrow.rescue
      refine ⟨hrow.initialized, hrow.active, hrow.dormant, ?_, r, hr, hne, ?_⟩
      · intro row hmem hsender
        rcases applyTxImpl_pending hok row hmem with hold | hown
        · exact hrow.queue row hold hsender
        · exact hj (hown.symm.trans hsender)
      · intro b hb hbfinal hcycled
        by_cases hsigner : tx.computedAccountId C = r
        · -- the signer turns to an account that already redirects to it
          subst hsigner
          obtain rfl := Option.some.inj (ha₁.symm.trans hb)
          obtain rfl := Option.some.inj (hrescue.symm.trans hcycled)
          exact hback (.inr ⟨a, ha, hfinal, hr⟩)
        · rw [hother r hsigner] at hb
          exact hcycle b hb hbfinal hcycled
  · refine hinv.mono ?_ ?_
    · intro j a ha hfinal
      have hj : tx.computedAccountId C ≠ j := by
        rintro rfl
        exact hnew ⟨a, ha, hfinal⟩
      rwa [← hother j hj]
    · intro row hmem
      rcases applyTxImpl_pending hok row hmem with hold | hown
      · exact .inl hold
      · refine .inr fun a ha => ?_
        rw [hown] at ha
        rw [Bool.eq_false_iff]
        exact fun hfinal => hnew ⟨a, ha, hfinal⟩

end Frozen

/-! ## The drain -/

section Drain

variable {genCfg : GenCfg} {h : U64} {s s' : State} {rows : List PendingConservationTransfer}
  {moves : List DrainMove} {u : Unit}

/-- A drained transfer moves money only. -/
theorem applyDueConservation_policyFieldsOf {row : PendingConservationTransfer}
    (hok : applyDueConservation genCfg h row s = .ok u s') (j : AccountId) :
    s'.policyFieldsOf j = s.policyFieldsOf j := by
  by_cases hj : row.sender = j
  · subst hj
    obtain ⟨senderAcc, dst, total, balance, nonce, toAcc, hsender, _, _, _, _, _, hto, rfl⟩ :=
      applyDueConservation_ok hok
    by_cases hdst : dst = row.sender
    · subst hdst
      rw [policyFieldsOf_of_row hto, policyFieldsOf_of_row (getElem?_putAcc_self _ _ _)]
      rfl
    · rw [policyFieldsOf_of_row hsender, State.policyFieldsOf, getElem?_putAcc, if_neg hdst,
        getElem?_putAcc_self]
      rfl
  · exact (applyDueConservation_rowKept hj hok).policyFieldsOf

theorem drains_policyFieldsOf (hd : Drains genCfg h rows s moves s') (j : AccountId) :
    s'.policyFieldsOf j = s.policyFieldsOf j := by
  induction hd with
  | nil => rfl
  | kept _ ih => exact ih
  | executed hrow _ ih => rw [ih, applyDueConservation_policyFieldsOf hrow]

/-- A drain leaves in the queue only what was there. -/
theorem drains_pending_subset (hd : Drains genCfg h rows s moves s') :
    ∀ row ∈ s'.pendingConservation, row ∈ s.pendingConservation ∨ row ∈ rows := by
  induction hd with
  | nil => exact fun row hrow => .inl hrow
  | kept _ ih =>
      intro row hrow
      rcases ih row hrow with hold | hrest
      · rcases List.mem_append.mp hold with hold | hput
        · exact .inl hold
        · exact .inr (List.mem_cons.mpr (.inl (List.mem_singleton.mp hput)))
      · exact .inr (List.mem_cons_of_mem _ hrest)
  | executed hexec _ ih =>
      intro row hrow
      rcases ih row hrow with hold | hrest
      · rw [applyDueConservation_pending hexec] at hold
        exact .inl hold
      · exact .inr (List.mem_cons_of_mem _ hrest)

/-- The rows that a drain executes were in the queue, and the policy fields that a move starts from
are those of the start. -/
theorem drains_move (hd : Drains genCfg h rows s moves s') :
    ∀ m ∈ moves, m.row ∈ rows ∧ ∀ j, m.pre.policyFieldsOf j = s.policyFieldsOf j := by
  induction hd with
  | nil =>
      intro m hm
      cases hm
  | kept _ ih =>
      intro m hm
      obtain ⟨hmem, hsame⟩ := ih m hm
      exact ⟨List.mem_cons_of_mem _ hmem, hsame⟩
  | executed hexec _ ih =>
      intro m hm
      rcases List.mem_cons.mp hm with rfl | hm
      · exact ⟨List.mem_cons_self, fun _ => rfl⟩
      · obtain ⟨hmem, hsame⟩ := ih m hm
        refine ⟨List.mem_cons_of_mem _ hmem, fun j => ?_⟩
        rw [hsame, applyDueConservation_policyFieldsOf hexec]

end Drain

/-! ## Steps -/

/-- A step whose applied transaction had its policies checked. -/
def PolicyStep (C : Crypto) (genCfg : GenCfg) (s : State) (l : LedgerLabel) (s' : State) : Prop :=
  LedgerStep C genCfg s l s' ∧ ∀ tx, l = .applied tx →
    ∃ h now, applyTxWithCtx C genCfg tx h now s = .ok () s'

/-- Such a step that activates no redirect which leads back. -/
def AwayStep (C : Crypto) (genCfg : GenCfg) (s : State) (l : LedgerLabel) (s' : State) : Prop :=
  PolicyStep C genCfg s l s' ∧ ∀ tx, l = .applied tx → LeadsAway C s tx

section Steps

variable {C : Crypto} {genCfg : GenCfg} {s s' : State} {l : LedgerLabel}

theorem policyStep_applied {tx : SignedTx} {h now : U64}
    (hok : applyTxWithCtx C genCfg tx h now s = .ok () s') :
    PolicyStep C genCfg s (.applied tx) s' := by
  refine ⟨.applied hok, fun tx' htx => ?_⟩
  obtain rfl := LedgerLabel.applied.inj htx
  exact ⟨h, now, hok⟩

theorem awayStep_applied {tx : SignedTx} {h now : U64}
    (hok : applyTxWithCtx C genCfg tx h now s = .ok () s') (haway : LeadsAway C s tx) :
    AwayStep C genCfg s (.applied tx) s' := by
  refine ⟨policyStep_applied hok, fun tx' htx => ?_⟩
  obtain rfl := LedgerLabel.applied.inj htx
  exact haway

/-- Only policy bodies activate a redirect. -/
theorem leadsAway_of_body {tx : SignedTx}
    (hbody : ∀ account action fee, tx.body ≠ .policy account action fee) :
    LeadsAway C s tx :=
  fun account action fee _ hpolicy => absurd hpolicy (hbody account action fee)

theorem step_failed_frozenInv {tx : SignedTx} (hinv : FrozenInv s)
    (hstep : LedgerStep C genCfg s (.failed tx) s') : FrozenInv s' := by
  refine hinv.mono ?_ ?_
  · intro j a ha hfinal
    cases hrow : s.accounts[j]? with
    | some a₀ => rwa [← (step_failed_rowKept hstep hrow).policyFieldsOf]
    | none =>
        by_cases hj : tx.computedAccountId C = j
        · subst hj
          cases hstep with
          | failed herr =>
              rcases applyTxImpl_error C genCfg herr with rfl | rfl
              · exact ha
              · obtain ⟨acc, hacc, rfl⟩ := Option.map_eq_some_iff.mp ha
                have hlive := initStub_new_row hrow hacc
                rw [Account.policyFields, hlive] at hfinal
                cases hfinal
        · have hkept := step_rowKept hstep (j := j) (by simpa [LedgerLabel.actors, eq_comm] using hj)
          rwa [← hkept.policyFieldsOf]
  · intro row hrow
    rw [step_pending_same hstep (by simp) (by simp)] at hrow
    exact .inl hrow

theorem awayStep_frozenInv (hinv : FrozenInv s) (hstep : AwayStep C genCfg s l s') :
    FrozenInv s' := by
  obtain ⟨⟨hstep, hchecked⟩, haway⟩ := hstep
  cases l with
  | applied tx =>
      obtain ⟨h, now, hok⟩ := hchecked tx rfl
      exact applyTxWithCtx_frozenInv hinv (haway tx rfl) hok
  | failed tx => exact step_failed_frozenInv hinv hstep
  | drained h moves =>
      cases hstep with
      | drained hok =>
          have hd := drains_of_ok hok
          refine hinv.mono ?_ ?_
          · intro j a ha _
            rw [drains_policyFieldsOf hd] at ha
            exact ha
          · intro row hrow
            rcases drains_pending_subset hd row hrow with hnone | hold
            · cases hnone
            · exact .inl hold
  | _ =>
      refine hinv.mono ?_ ?_
      · intro j a ha _
        have hkept := step_rowKept hstep (j := j) List.not_mem_nil
        rwa [← hkept.policyFieldsOf]
      · intro row hrow
        rw [step_pending_same hstep (by simp) (by simp)] at hrow
        exact .inl hrow

/-- The row of a finalized account is at most credited. -/
theorem awayStep_rowKept (hinv : FrozenInv s) (hstep : AwayStep C genCfg s l s') {j : AccountId}
    {a : Account} (ha : s.accounts[j]? = some a) (hfinal : a.finalized = true) :
    RowKept j s s' := by
  obtain ⟨⟨hstep, hchecked⟩, _⟩ := hstep
  cases l with
  | applied tx =>
      obtain ⟨h, now, hok⟩ := hchecked tx rfl
      refine applyTxImpl_rowKept ?_ hok
      rintro rfl
      rw [applyTxWithCtx_signer_live hinv hok ha] at hfinal
      cases hfinal
  | failed tx => exact step_failed_rowKept hstep ha
  | drained h moves =>
      refine step_rowKept hstep fun hmem => ?_
      cases hstep with
      | drained hok =>
          obtain ⟨m, hm, hsender⟩ := List.mem_map.mp hmem
          have hrow := (drains_move (drains_of_ok hok) m hm).1
          exact (hinv j _ (policyFieldsOf_of_row ha) hfinal).queue m.row hrow hsender
  | _ => exact step_rowKept hstep List.not_mem_nil

/-- The invariant along a run, and what a finalized account is at its end. -/
theorem awayRun_frozen {s₁ s₂ : State} {ls : List LedgerLabel}
    (hrun : Run (AwayStep C genCfg) s₁ ls s₂) (hinv : FrozenInv s₁) {j : AccountId} {a : Account}
    (ha : s₁.accounts[j]? = some a) (hfinal : a.finalized = true) :
    FrozenInv s₂ ∧ ∃ a', s₂.accounts[j]? = some a' ∧ Credited a a' := by
  refine hrun.invariant (I := fun s => FrozenInv s ∧
    ∃ a', s.accounts[j]? = some a' ∧ Credited a a') ?_ ⟨hinv, a, ha, .refl a⟩
  rintro s l s' ⟨hinv, b, hb, hcredit⟩ hstep
  have hbfinal : b.finalized = true := by rw [hcredit.finalized, hfinal]
  obtain ⟨b', hb', hnext⟩ := (awayStep_rowKept hinv hstep hb hbfinal).row hb
  exact ⟨awayStep_frozenInv hinv hstep, b', hb', hcredit.trans hnext⟩

end Steps

/-- No row of genesis is finalized. -/
theorem genesis_frozenInv {genCfg : GenCfg} {s : State} (hgen : IsGenesis genCfg s) :
    FrozenInv s := by
  intro j a ha hfinal
  obtain ⟨acc, hacc, rfl⟩ := Option.map_eq_some_iff.mp ha
  obtain ⟨r, marks, rfl⟩ := genesis_row hgen hacc
  cases hfinal

/-! ## Transfers to a finalized account -/

section Transfers

variable {C : Crypto} {genCfg : GenCfg} {tx : SignedTx} {h now : U64} {s s' : State} {u : Unit}

/-- Only a finalized recipient redirects, and it redirects to its rescue address. -/
theorem recipientPolicy_redirect {senderId toId dst : AccountId} {a : Account}
    (hpolicy : recipientPolicy s senderId toId a h = .redirect dst) :
    a.finalized = true ∧ a.rescueAddress = some dst := by
  unfold recipientPolicy at hpolicy
  split_ifs at hpolicy with hfinal
  refine ⟨hfinal.1, ?_⟩
  unfold evalEmergRedirect at hpolicy
  cases hrescue : a.rescueAddress with
  | none => simp [hrescue] at hpolicy
  | some rescueId =>
      simp only [hrescue] at hpolicy
      cases hacc : s.accounts[rescueId]? with
      | none => simp [hacc] at hpolicy
      | some rescueAcc =>
          simp only [hacc] at hpolicy
          split_ifs at hpolicy
          rw [PolicyDecision.redirect.inj hpolicy]

/-- A finalized recipient with an active redirect allows nothing. -/
theorem recipientPolicy_frozen {senderId toId : AccountId} {a : Account}
    (hfinal : a.finalized = true) (hactive : a.activePolicies &&& redirectBit ≠ 0#16) :
    recipientPolicy s senderId toId a h ≠ .allow := by
  have hat : policyIsActiveAt a .routingEmergencyRedirect h = true := by
    rw [policyIsActiveAt, Bool.or_eq_true, decide_eq_true_eq]
    exact .inl hactive
  rw [recipientPolicy, if_pos ⟨hfinal, hat⟩, evalEmergRedirect]
  intro hallow
  split at hallow
  · cases hallow
  · split at hallow
    · cases hallow
    · split_ifs at hallow

/-- The policies reject a transfer to a finalized account or send it to the rescue address. -/
theorem evaluatePolicy_to_frozen {id : AccountId} {a : Account} {amount fee : U128}
    (ha : s.accounts[id]? = some a) (hfinal : a.finalized = true)
    (hrow : FrozenRow s id a.policyFields) (hbody : tx.body = .transfer id amount fee) :
    (∃ e, s.evaluatePolicy C tx h = .reject e) ∨
      ∃ dst, dst ≠ id ∧ a.rescueAddress = some dst ∧ s.evaluatePolicy C tx h = .redirect dst := by
  have hinit : s.initializedAcc id = some a := by
    rw [State.initializedAcc, ha]
    exact Option.filter_eq_some_iff.mpr ⟨rfl, hrow.initialized⟩
  cases hsender : s.accounts[tx.computedAccountId C]? with
  | none =>
      simp only [State.evaluatePolicy, hsender]
      exact .inl ⟨_, rfl⟩
  | some senderAcc =>
      simp only [State.evaluatePolicy, hsender]
      split_ifs
      · exact .inl ⟨_, rfl⟩
      · exact .inl ⟨_, rfl⟩
      · simp only [hbody, hinit]
        cases hpolicy : recipientPolicy s (tx.computedAccountId C) id a h with
        | allow => exact absurd hpolicy (recipientPolicy_frozen hfinal hrow.active)
        | reject e => exact .inl ⟨e, rfl⟩
        | redirect dst =>
            obtain ⟨_, hrescue⟩ := recipientPolicy_redirect hpolicy
            obtain ⟨r, hr, hne, _⟩ := hrow.rescue
            have hr : a.rescueAddress = some r := hr
            obtain rfl := Option.some.inj (hrescue.symm.trans hr)
            exact .inr ⟨dst, hne, hrescue, rfl⟩

/-- A transfer to a finalized account leaves its row as it was, and queues at most a transfer to
the rescue address. -/
theorem applyTxWithCtx_to_frozen {id : AccountId} {a : Account} {amount fee : U128}
    (ha : s.accounts[id]? = some a) (hfinal : a.finalized = true)
    (hrow : FrozenRow s id a.policyFields) (hbody : tx.body = .transfer id amount fee)
    (hother : tx.computedAccountId C ≠ id)
    (hok : applyTxWithCtx C genCfg tx h now s = .ok u s') :
    s'.accounts[id]? = s.accounts[id]? ∧ ∀ row ∈ s'.pendingConservation,
      row ∉ s.pendingConservation → a.rescueAddress = some row.recipient := by
  obtain ⟨acc, redirTo, _, _, hgate, _, happly⟩ := applyTxImpl_ok hok
  have hstub : initStub C tx s = s := by
    rw [initStub, hbody]
  rw [hstub] at hgate happly
  have hdst : ∃ dst, dst ≠ id ∧ a.rescueAddress = some dst ∧ redirTo = some dst := by
    rcases evaluatePolicy_to_frozen (C := C) (h := h) ha hfinal hrow hbody with
      ⟨e, hreject⟩ | ⟨dst, hne, hrescue, hredirect⟩
    · rw [policyGate, hreject] at hgate
      cases hgate
    · rw [policyGate, hredirect] at hgate
      exact ⟨dst, hne, hrescue, (Except.ok.inj hgate).symm⟩
  obtain ⟨dst, hne, hrescue, rfl⟩ := hdst
  simp only [applyBody, hbody] at happly
  obtain ⟨_, total, _, _, ⟨_, hqueue⟩ | ⟨_, hnow⟩⟩ := applyTransfer_ok happly
  · obtain ⟨_, feePwm, _, rfl⟩ := enqueueConservation_ok hqueue
    refine ⟨rfl, fun row hmem hnew => ?_⟩
    rcases List.mem_append.mp hmem with hold | hput
    · exact absurd hold hnew
    · rw [List.mem_singleton.mp hput]
      exact hrescue
  · have hpending := transferNow_pending hnow
    obtain ⟨balance, nonce, _, _, ⟨_, rfl⟩ | ⟨_, toAcc, _, rfl⟩⟩ := transferNow_ok hnow
    · refine ⟨by rw [getElem?_putAcc, if_neg hother, addFee_accounts], fun row hmem hnew => ?_⟩
      exact absurd (hpending ▸ hmem) hnew
    · refine ⟨?_, fun row hmem hnew => absurd (hpending ▸ hmem) hnew⟩
      rw [getElem?_putAcc, Option.getD_some, if_neg hne, getElem?_putAcc, if_neg hother,
        addFee_accounts]

/-- A queued transfer to the rescue address does not come back. -/
theorem drained_not_to_frozen {id : AccountId} {a : PolicyFields}
    (hrow : FrozenRow s id a) (hok : drainConservationAtHeight genCfg h s = .ok u s')
    {m : DrainMove} (hm : m ∈ drainMoves genCfg h s)
    (hrescue : a.rescueAddress = some m.row.recipient) : m.dst h ≠ some id := by
  obtain ⟨r, hr, hne, hcycle⟩ := hrow.rescue
  obtain rfl := Option.some.inj (hrescue.symm.trans hr)
  have hfields := (drains_move (drains_of_ok hok) m hm).2
  rw [DrainMove.dst, conservationRecipientDst]
  cases hinit : m.pre.initializedAcc m.row.recipient with
  | none => simp [Except.toOption]
  | some b =>
      cases hpolicy : recipientPolicy m.pre m.row.sender m.row.recipient b h with
      | allow => simpa [hpolicy, Except.toOption] using hne
      | reject e => simp [hpolicy, Except.toOption]
      | redirect dst =>
          obtain ⟨hbfinal, hbrescue⟩ := recipientPolicy_redirect hpolicy
          have hb := (Option.filter_eq_some_iff.mp hinit).1
          have hfieldsb := policyFieldsOf_of_row hb
          rw [hfields] at hfieldsb
          have hnot := hcycle b.policyFields hfieldsb hbfinal
          simp only [hpolicy, Except.toOption]
          intro heq
          rw [← heq] at hnot
          exact hnot hbrescue

end Transfers

/-- What a finalized account is and keeps: its redirect is active for good, its nonce, stake and
policies are as they were, and its balance has not fallen. -/
structure Frozen (a a' : Account) : Prop where
  finalized : a'.finalized = true
  active : a'.activePolicies &&& redirectBit ≠ 0#16
  dormant : a'.dormantPolicies &&& redirectBit = 0#16
  nonce : a'.nonce = a.nonce
  staked : a'.stakedPwmRaw = a.stakedPwmRaw
  policies : a'.policyFields = a.policyFields
  balance : a.balancePwm.toNat ≤ a'.balancePwm.toNat

/-- In every run from genesis in which no activated redirect leads back to its account, a finalized
account stays as it is but for credits. A later transfer to it is rejected or redirected to another
account, writes nothing to its row, and is not drained into it either. -/
theorem finalized_frozen {C : Crypto} {genCfg : GenCfg} {s₀ s₁ s₂ : State}
    {ls₁ ls₂ : List LedgerLabel} {id : AccountId} {a : Account} (hgen : IsGenesis genCfg s₀)
    (hrun₁ : Run (AwayStep C genCfg) s₀ ls₁ s₁) (hrun₂ : Run (AwayStep C genCfg) s₁ ls₂ s₂)
    (ha : s₁.accounts[id]? = some a) (hfinal : a.finalized = true) :
    (∃ a', s₂.accounts[id]? = some a' ∧ Frozen a a') ∧
      ∀ tx amount fee h, tx.body = .transfer id amount fee → tx.computedAccountId C ≠ id →
        ((∃ e, s₂.evaluatePolicy C tx h = .reject e) ∨
          ∃ dst, dst ≠ id ∧ s₂.evaluatePolicy C tx h = .redirect dst) ∧
        ∀ now s₃, applyTxWithCtx C genCfg tx h now s₂ = .ok () s₃ →
          s₃.accounts[id]? = s₂.accounts[id]? ∧
          ∀ row ∈ s₃.pendingConservation, row ∉ s₂.pendingConservation →
            ∀ ls₃ s₄, Run (AwayStep C genCfg) s₃ ls₃ s₄ →
              ∀ h' moves, .drained h' moves ∈ ls₃ →
                ∀ m ∈ moves, m.row = row → m.dst h' ≠ some id := by
  have hinv₁ : FrozenInv s₁ :=
    hrun₁.invariant (fun _ _ _ hinv hstep => awayStep_frozenInv hinv hstep) (genesis_frozenInv hgen)
  obtain ⟨hinv₂, a', ha', hcredit⟩ := awayRun_frozen hrun₂ hinv₁ ha hfinal
  have hfinal' : a'.finalized = true := by rw [hcredit.finalized, hfinal]
  have hrow := hinv₂ id _ (policyFieldsOf_of_row ha') hfinal'
  refine ⟨⟨a', ha', hfinal', hrow.active, hrow.dormant, hcredit.nonce, hcredit.staked,
    hcredit.policyFields, hcredit.balance⟩, ?_⟩
  intro tx amount fee h hbody hother
  refine ⟨?_, fun now s₃ hok => ?_⟩
  · rcases evaluatePolicy_to_frozen ha' hfinal' hrow hbody with
      hreject | ⟨dst, hne, _, hredirect⟩
    · exact .inl hreject
    · exact .inr ⟨dst, hne, hredirect⟩
  · obtain ⟨hsame, hqueued⟩ := applyTxWithCtx_to_frozen ha' hfinal' hrow hbody hother hok
    refine ⟨hsame, ?_⟩
    intro row hmem hnew ls₃ s₄ hrun₃ h' moves hlabel m hm hrowm
    have haway : LeadsAway C s₂ tx := by
      intro account action fee' target htx
      rw [hbody] at htx
      cases htx
    have hinv₃ : FrozenInv s₃ := applyTxWithCtx_frozenInv hinv₂ haway hok
    obtain ⟨before, after, rfl⟩ := List.append_of_mem hlabel
    obtain ⟨mid, next, hbefore, ⟨hdrain, _⟩, _⟩ := hrun₃.step_at
    obtain ⟨hinvm, b, hb, hcreditm⟩ := awayRun_frozen hbefore hinv₃ (hsame.trans ha') hfinal'
    have hbfinal : b.finalized = true := by rw [hcreditm.finalized, hfinal']
    have hrowb := hinvm id _ (policyFieldsOf_of_row hb) hbfinal
    cases hdrain with
    | drained hokm =>
        refine drained_not_to_frozen hrowb hokm hm ?_
        rw [hrowm, ← hqueued row hmem hnew]
        exact hcreditm.rescue

/-- An account that a redirect to another account finalized. -/
theorem finalized_frozen_rescued :
    Run (AwayStep SelfDrain.crypto devNet) devNet.state0
        [.applied SelfDrain.initTx, .applied SelfDrain.transferTx, .applied SelfDrain.activateTx]
        SelfDrain.afterActivate ∧
      ∃ a a', SelfDrain.afterActivate.accounts[SelfDrain.rescuedId]? = some a ∧
        SelfDrain.afterActivate.accounts[SelfDrain.rescuedId]? = some a' ∧ Frozen a a' := by
  have haway : LeadsAway SelfDrain.crypto SelfDrain.afterTransfer SelfDrain.activateTx := by
    intro account action fee target htx htarget hback
    obtain ⟨-, rfl, -⟩ := TxBody.policy.inj htx
    obtain rfl := Option.some.inj htarget
    rcases hback with heq | ⟨b, hb, hfinal, _⟩
    · revert heq
      decide
    · have hlive : (SelfDrain.afterTransfer.policyFieldsOf devNetRow.acct).map
          PolicyFields.finalized = some false := by
        decide +kernel
      rw [hb, Option.map_some, hfinal] at hlive
      cases hlive
  have hrun : Run (AwayStep SelfDrain.crypto devNet) devNet.state0
      [.applied SelfDrain.initTx, .applied SelfDrain.transferTx, .applied SelfDrain.activateTx]
      SelfDrain.afterActivate := by
    have hinit := awayStep_applied SelfDrain.init_applied
      (leadsAway_of_body (by simp [SelfDrain.initTx]))
    have htransfer := awayStep_applied SelfDrain.transfer_applied
      (leadsAway_of_body (by simp [SelfDrain.transferTx]))
    exact (((Run.nil _).snoc hinit).snoc htransfer).snoc
      (awayStep_applied SelfDrain.activate_applied haway)
  have hrow : ∃ a, SelfDrain.afterActivate.accounts[SelfDrain.rescuedId]? = some a ∧
      a.finalized = true := by
    have hfinal : (SelfDrain.afterActivate.accounts[SelfDrain.rescuedId]?).map
        Account.finalized = some true := by
      decide +kernel
    obtain ⟨a, ha, hfinal⟩ := Option.map_eq_some_iff.mp hfinal
    exact ⟨a, ha, hfinal⟩
  obtain ⟨a, ha, hfinal⟩ := hrow
  have hgen : IsGenesis devNet devNet.state0 := ⟨devNet.state0.activeValidatorIndices, rfl⟩
  have hend := (finalized_frozen hgen hrun (.nil _) ha hfinal).1
  obtain ⟨a', ha', hfrozen⟩ := hend
  exact ⟨hrun, a, a', ha, ha', hfrozen⟩

/-! ## An account that is its own rescue address -/

namespace SelfRescue

def initTx : SignedTx :=
  { SelfDrain.initTx with
    initV4 := SelfDrain.initTx.initV4.map fun ext =>
      { ext with rescueAddress := some SelfDrain.rescuedId }
    signature := 0x2b8f0106d95df961ee3132f94941bee30ab41f7291895e97931dc3a7e933dced1b24e06d6448e3ddc1402cce0ad28ff9c69706ba2ad639b186ae2e3aa956740d#512 }

def activateSig : Bytes64 :=
  0x060eaf78430b200180158190a8bc3eaab6140c21c880e2b5b6d82ed9106763c937de73c3f6ce0a6b1554dcb3e47b87d3f4745b237f6a8dcdc732b9c73f4f5a07#512

/-- The owner signs as the rescue account too. -/
def activateTx : SignedTx :=
  { SelfDrain.activateTx with
    body := .policy SelfDrain.rescuedId (.activatePolicy 1#8 (some SelfDrain.rescuedId)) 0#128
    cosigns := [⟨SelfDrain.rescuedPk, .rescue, activateSig⟩]
    signature := activateSig }

def senderRow : GRow where
  acct := 0x32b5a349bcf8e16ba699c009568c2d31a441e83568fc6d289a6e99fe6654a1b7#256
  pubkey := 0x381199b86f23bf22a877d9659ddbfe31f0ae02100f5e1cd9a3693a1e56fee686#256
  derIdx := 0#32
  bal := 1000#128

def senderSk : SigningKey :=
  0x410b55811695dcb8a984a416388df509d81d81da0a75d4223ca92ccc7d4a7293#256

def transferTx : SignedTx where
  domainCode := 0x32b5#16
  signerPk := senderRow.pubkey
  derivationIndex := 0#32
  nonce := 0#64
  body := .transfer SelfDrain.rescuedId 10#128 1#128
  signature := 0x6531fb80fbd4553ae6623601341955e9fdc5d8c6c29eca2dae597d3617eb14e8925fec3a52a26ef25972cef75b20177bde1f301f21508995d5f6623793acc102#512

/-- The devnet with a second funded account. -/
def net : GenCfg :=
  { devNet with funding := ⟨[devNetRow, senderRow]⟩, accounts := [devNetRow, senderRow] }

def crypto : Crypto :=
  .ofTables
    [(SelfDrain.rescuedPk.beBytes 32 ++ (0#32).leBytes 4, SelfDrain.rescuedId),
      (senderRow.pubkey.beBytes 32 ++ (0#32).leBytes 4, senderRow.acct)]
    [⟨SelfDrain.rescuedSk, SelfDrain.rescuedPk, [(initTx.signingMessage, initTx.signature),
        (activateTx.signingMessage, activateSig)]⟩,
      ⟨senderSk, senderRow.pubkey, [(transferTx.signingMessage, transferTx.signature)]⟩]

def afterInit : State := endState (applyTxWithCtx crypto net initTx 1#64 0#64 net.state0)
def afterActivate : State := endState (applyTxWithCtx crypto net activateTx 2#64 0#64 afterInit)
def afterTransfer : State := endState (applyTxWithCtx crypto net transferTx 3#64 0#64 afterActivate)

theorem run_afterActivate :
    Run (PolicyStep crypto net) net.state0 [.applied initTx, .applied activateTx] afterActivate := by
  have h₁ : applyTxWithCtx crypto net initTx 1#64 0#64 net.state0 = .ok () afterInit := by
    decide +kernel
  have h₂ : applyTxWithCtx crypto net activateTx 2#64 0#64 afterInit = .ok () afterActivate := by
    decide +kernel
  exact ((Run.nil _).snoc (policyStep_applied h₁)).snoc (policyStep_applied h₂)

end SelfRescue

/-- The transfer of another account is redirected to the finalized account itself. -/
theorem self_rescue_credits :
    IsGenesis SelfRescue.net SelfRescue.net.state0 ∧
      Run (PolicyStep SelfRescue.crypto SelfRescue.net) SelfRescue.net.state0
        [.applied SelfRescue.initTx, .applied SelfRescue.activateTx] SelfRescue.afterActivate ∧
      SelfRescue.afterActivate.evaluatePolicy SelfRescue.crypto SelfRescue.transferTx 3#64 =
        .redirect SelfDrain.rescuedId ∧
      applyTxWithCtx SelfRescue.crypto SelfRescue.net SelfRescue.transferTx 3#64 0#64
        SelfRescue.afterActivate = .ok () SelfRescue.afterTransfer ∧
      (SelfRescue.afterActivate.accounts[SelfDrain.rescuedId]?).map
        (fun a => (a.finalized, a.balancePwm)) = some (true, 0#128) ∧
      (SelfRescue.afterTransfer.accounts[SelfDrain.rescuedId]?).map
        (fun a => (a.finalized, a.balancePwm)) = some (true, 10#128) := by
  refine ⟨⟨SelfRescue.net.state0.activeValidatorIndices, rfl⟩, SelfRescue.run_afterActivate, ?_⟩
  refine ⟨?_, ?_, ?_, ?_⟩ <;> decide +kernel

end Pwm
