import Pwm.Ledger.PolicyView

/-!
# Policy modes along runs

Only the applied transactions of its own account change what a row holds of a
policy. When none of them gives the emergency redirect a mode other than
dormant, an active redirect stays and its account is finalized; when none
defers a reversible policy, a policy has at most one mode and can be
deactivated while it is active.
-/

namespace Pwm

open BitVec Attempt

/-! ## One policy of an account -/

/-- What an account holds of a policy; nothing, when it has no row. -/
def State.viewOf (st : State) (j : AccountId) (p : PolicyKind) : PolicyView :=
  (st.policyFieldsOf j).elim .absent fun a => a.view p

/-- The mode that a transaction gives a policy of its account. -/
def SignedTx.givenMode (tx : SignedTx) (p : PolicyKind) : Option ActivationMode :=
  match tx.body with
  | .init _ _ => tx.initV4.bind fun ext => lastMode p ext.initialPolicies
  | .policy _ (.setPolicy policy mode) _ => if policy = p then some mode else none
  | _ => none

/-- What a transaction that takes effect at a height makes of one policy of its account. -/
inductive ModeChange (tx : SignedTx) (h : U64) (p : PolicyKind) : PolicyView → PolicyView → Prop
  | same (v : PolicyView) : ModeChange tx h p v v
  | given {mode : ActivationMode} (hmode : tx.givenMode p = some mode) (v : PolicyView) :
      ModeChange tx h p v (.given h mode)
  | activated {account : AccountId} {policyId : U8} {target : Option AccountId} {fee : U128}
      {v v' : PolicyView} (hbody : tx.body = .policy account (.activatePolicy policyId target) fee)
      (hid : PolicyKind.fromPolicyId policyId = some p) (hstep : v.activate = some v') :
      ModeChange tx h p v v'
  | deactivated {account : AccountId} {policyId : U8} {fee : U128} {v v' : PolicyView}
      (hbody : tx.body = .policy account (.deactivatePolicy policyId) fee)
      (hid : PolicyKind.fromPolicyId policyId = some p) (hrev : p.isReversible = true)
      (hstep : v.deactivate h = some v') : ModeChange tx h p v v'

section Views

variable {C : Crypto} {genCfg : GenCfg} {tx : SignedTx} {h now : U64} {skipPolicy : Bool}
  {s s' : State} {l : LedgerLabel} {u : Unit} {j : AccountId} {p : PolicyKind}

theorem viewOf_of_row {a : Account} (ha : s.accounts[j]? = some a) (p : PolicyKind) :
    s.viewOf j p = a.view p := by
  rw [State.viewOf, policyFieldsOf_of_row ha]
  rfl

theorem viewOf_of_policyFieldsOf (hsame : s'.policyFieldsOf j = s.policyFieldsOf j)
    (p : PolicyKind) : s'.viewOf j p = s.viewOf j p := by
  rw [State.viewOf, State.viewOf, hsame]

/-- A new row has no policies, like an account without a row. -/
theorem view_newRow (pk : Bytes32) (idx : U32) (p : PolicyKind) :
    ({ signingPubkey := pk, derivationIndex := idx } : Account).view p = .absent := by
  simp [Account.view, PolicyFields.view, Account.policyFields, PolicyView.absent]

theorem initStub_viewOf (tx : SignedTx) (s : State) (j : AccountId) (p : PolicyKind) :
    (initStub C tx s).viewOf j p = s.viewOf j p := by
  cases hrow : s.accounts[tx.computedAccountId C]? with
  | some a => rw [initStub_of_row hrow]
  | none =>
      unfold initStub
      cases hbody : tx.body with
      | init index flags =>
          simp only [hrow, Option.isSome_none, Bool.false_eq_true, if_false]
          by_cases hj : tx.computedAccountId C = j
          · subst hj
            rw [viewOf_of_row (getElem?_putAcc_self _ _ _), view_newRow, State.viewOf,
              State.policyFieldsOf, hrow]
            rfl
          · refine viewOf_of_policyFieldsOf ?_ p
            rw [State.policyFieldsOf, State.policyFieldsOf, getElem?_putAcc, if_neg hj]
      | _ => rfl

/-- The policy fields of an account change only in its own transactions. One that fails leaves at
most the row that INIT starts from. -/
theorem step_policyFieldsOf (hstep : LedgerStep C genCfg s l s')
    (hl : ∀ tx, l = .applied tx → tx.computedAccountId C ≠ j) :
    s'.policyFieldsOf j = s.policyFieldsOf j ∨
      s.accounts[j]? = none ∧ ∃ tx, s' = initStub C tx s := by
  cases l with
  | applied tx =>
      have hj : j ≠ tx.computedAccountId C := (hl tx rfl).symm
      exact .inl (step_rowKept hstep (by simpa [LedgerLabel.actors] using hj)).policyFieldsOf
  | failed tx =>
      cases hrow : s.accounts[j]? with
      | some a => exact .inl (step_failed_rowKept hstep hrow).policyFieldsOf
      | none =>
          cases hstep with
          | failed herr =>
              rcases applyTxImpl_error C genCfg herr with rfl | rfl
              · exact .inl rfl
              · exact .inr ⟨rfl, tx, rfl⟩
  | drained h moves =>
      cases hstep with
      | drained hok => exact .inl (drains_policyFieldsOf (drains_of_ok hok) j)
  | _ => exact .inl (step_rowKept hstep List.not_mem_nil).policyFieldsOf

/-- The policies of an account change only in its own transactions. -/
theorem step_viewOf (hstep : LedgerStep C genCfg s l s')
    (hl : ∀ tx, l = .applied tx → tx.computedAccountId C ≠ j) (p : PolicyKind) :
    s'.viewOf j p = s.viewOf j p := by
  rcases step_policyFieldsOf hstep hl with hsame | ⟨_, tx, rfl⟩
  · exact viewOf_of_policyFieldsOf hsame p
  · exact initStub_viewOf tx s j p

theorem initRow_view (acc : Account) (index flags : U32) (hbody : tx.body = .init index flags)
    (p : PolicyKind) :
    (initRow tx h acc index flags).view p =
      (tx.givenMode p).elim (acc.view p) (PolicyView.given h) := by
  rw [SignedTx.givenMode, hbody, initRow]
  cases tx.initV4 with
  | none => rfl
  | some ext =>
      exact foldl_setPolMode_view ext.initialPolicies _ p h

theorem signerRow_view (acc : Account) (tx : SignedTx) (p : PolicyKind) :
    (signerRow acc tx).view p = acc.view p := by
  refine view_of_policyFields ?_ p
  rw [signerRow]
  split <;> rfl

/-- The change of one policy that a policy body makes. -/
theorem modeChange_of_action {a b : Account} {account : AccountId} {action : PolicyAction}
    {fee : U128} (hbody : tx.body = .policy account action fee)
    (hok : applyPolicyAction a action h = .ok b) (p : PolicyKind) :
    ModeChange tx h p (a.view p) (b.view p) := by
  have hact := applyPolicyAction_view hok p
  cases action with
  | setPolicy policy mode =>
      rw [← Option.some.inj hact]
      by_cases hpolicy : policy = p
      · rw [if_pos hpolicy]
        exact .given (by rw [SignedTx.givenMode, hbody]; exact if_pos hpolicy) _
      · rw [if_neg hpolicy]
        exact .same _
  | activatePolicy policyId target =>
      rw [PolicyView.act] at hact
      by_cases hid : PolicyKind.fromPolicyId policyId = some p
      · rw [if_pos hid] at hact
        exact .activated hbody hid hact
      · rw [if_neg hid] at hact
        rw [← Option.some.inj hact]
        exact .same _
  | deactivatePolicy policyId =>
      rw [PolicyView.act] at hact
      by_cases hid : PolicyKind.fromPolicyId policyId = some p
      · rw [if_pos hid] at hact
        by_cases hrev : p.isReversible = true
        · rw [if_pos hrev] at hact
          exact .deactivated hbody hid hrev hact
        · rw [if_neg hrev] at hact
          cases hact
      · rw [if_neg hid] at hact
        rw [← Option.some.inj hact]
        exact .same _

/-- What a transaction that takes effect makes of each policy of its account. -/
theorem applyTxImpl_modeChange (hok : applyTxImpl C genCfg tx h now skipPolicy s = .ok u s')
    (p : PolicyKind) :
    ModeChange tx h p (s.viewOf (tx.computedAccountId C) p)
      (s'.viewOf (tx.computedAccountId C) p) := by
  obtain ⟨acc, redirTo, hacc, _, _, _, hbody⟩ := applyTxImpl_ok hok
  rw [← initStub_viewOf (C := C) tx s, viewOf_of_row hacc, ← signerRow_view acc tx]
  obtain ⟨a', ha', hown⟩ := applyBody_ownRow hacc rfl hbody
  rw [viewOf_of_row ha']
  cases hown with
  | same hsame =>
      rw [view_of_policyFields hsame]
      exact .same _
  | init htx hinit hfinal =>
      simp only [applyBody, htx] at hbody
      obtain ⟨_, nonce, _, rfl⟩ := applyInit_ok hbody
      rw [getElem?_putAcc_self] at ha'
      obtain rfl := Option.some.inj ha'
      have hview := initRow_view (h := h) (signerRow acc tx) _ _ htx p
      cases hmode : tx.givenMode p with
      | none =>
          rw [hmode] at hview
          exact hview ▸ .same _
      | some mode =>
          rw [hmode] at hview
          exact hview ▸ .given hmode _
  | policy htx hinit hvalid haction hsame =>
      rw [view_of_policyFields hsame]
      exact modeChange_of_action htx haction p

end Views

/-! ## One mode at a time -/

/-- No deferred mode that a transaction gives at this height is due at once, and none is given to
a reversible policy. -/
def SignedTx.DefersWell (tx : SignedTx) (h : U64) : Prop :=
  ∀ p t, tx.givenMode p = some (.deferred t) → p.isReversible = false ∧ h < t

/-- A step whose applied transaction defers well at the height of its block. -/
def ModeStep (C : Crypto) (genCfg : GenCfg) (s : State) (l : LedgerLabel) (s' : State) : Prop :=
  LedgerStep C genCfg s l s' ∧ ∀ tx, l = .applied tx →
    ∃ h now skipPolicy, applyTxImpl C genCfg tx h now skipPolicy s = .ok () s' ∧ tx.DefersWell h

/-- A policy is not installed, active, dormant or, when it is irreversible, deferred once. -/
inductive OneMode (p : PolicyKind) : PolicyView → Prop
  | absent : OneMode p .absent
  | active : OneMode p ⟨true, false, []⟩
  | dormant : OneMode p ⟨false, true, []⟩
  | deferred (hrev : p.isReversible = false) (t : U64) : OneMode p ⟨false, false, [t]⟩

section Modes

variable {C : Crypto} {genCfg : GenCfg} {tx : SignedTx} {h now : U64} {skipPolicy : Bool}
  {s s' : State} {l : LedgerLabel} {ls : List LedgerLabel} {u : Unit} {j : AccountId}
  {p : PolicyKind} {v v' : PolicyView}

theorem OneMode.records_le (hmode : OneMode p v) : v.records ≤ 1 := by
  cases hmode <;> simp [PolicyView.records, PolicyView.absent]

/-- A reversible policy with one mode is deactivated from the active mode only. -/
theorem OneMode.deactivate_eq (hmode : OneMode p v) (hrev : p.isReversible = true) :
    v.deactivate h = if v.active then some ⟨false, true, []⟩ else none := by
  cases hmode with
  | deferred hnot t => simp [hrev] at hnot
  | _ => rfl

/-- A reversible policy with one mode is active at a height only by its bit. -/
theorem OneMode.activeAt_eq (hmode : OneMode p v) (hrev : p.isReversible = true) :
    v.activeAt h = v.active := by
  cases hmode with
  | deferred hnot t => simp [hrev] at hnot
  | _ => rfl

theorem OneMode.activate (hmode : OneMode p v) (hstep : v.activate = some v') : OneMode p v' := by
  cases hmode with
  | absent => simp [PolicyView.activate, PolicyView.absent] at hstep
  | active =>
      obtain rfl := Option.some.inj hstep
      exact .active
  | dormant =>
      obtain rfl := Option.some.inj hstep
      exact .active
  | deferred hrev t => simp [PolicyView.activate] at hstep

theorem OneMode.given {mode : ActivationMode}
    (hwell : ∀ t, mode = .deferred t → p.isReversible = false ∧ h < t) :
    OneMode p (.given h mode) := by
  cases mode with
  | dormant => exact .dormant
  | immediately => exact .active
  | deferred t =>
      obtain ⟨hrev, hlate⟩ := hwell t rfl
      rw [PolicyView.given, decide_eq_false (BitVec.not_le.mpr hlate)]
      exact .deferred hrev t

theorem ModeChange.oneMode (hchange : ModeChange tx h p v v') (hwell : tx.DefersWell h)
    (hmode : OneMode p v) : OneMode p v' := by
  cases hchange with
  | same => exact hmode
  | given hgiven => exact .given fun t ht => hwell p t (ht ▸ hgiven)
  | activated _ _ hstep => exact hmode.activate hstep
  | deactivated _ _ hrev hstep =>
      rw [hmode.deactivate_eq hrev] at hstep
      split at hstep
      · obtain rfl := Option.some.inj hstep
        exact .dormant
      · cases hstep

/-- Every policy of every account has one mode. -/
def OneModeInv (s : State) : Prop :=
  ∀ j p, OneMode p (s.viewOf j p)

theorem modeStep_oneMode (hinv : OneModeInv s) (hstep : ModeStep C genCfg s l s') :
    OneModeInv s' := by
  intro j p
  by_cases hl : ∃ tx, l = .applied tx ∧ tx.computedAccountId C = j
  · obtain ⟨tx, rfl, rfl⟩ := hl
    obtain ⟨h, now, skipPolicy, hok, hwell⟩ := hstep.2 tx rfl
    exact (applyTxImpl_modeChange hok p).oneMode hwell (hinv _ p)
  · rw [step_viewOf hstep.1 (fun tx htx hj => hl ⟨tx, htx, hj⟩)]
    exact hinv j p

/-- Genesis installs no policy. -/
theorem genesis_viewOf (hgen : IsGenesis genCfg s) (j : AccountId) (p : PolicyKind) :
    s.viewOf j p = .absent := by
  cases hrow : s.accounts[j]? with
  | none =>
      rw [State.viewOf, State.policyFieldsOf, hrow]
      rfl
  | some a =>
      obtain ⟨r, marks, rfl⟩ := genesis_row hgen hrow
      rw [viewOf_of_row hrow]
      simp [Account.view, PolicyFields.view, Account.policyFields, PolicyView.absent,
        Account.genesisFunded]

theorem modeRun_oneMode (hgen : IsGenesis genCfg s) (hrun : Run (ModeStep C genCfg) s ls s') :
    OneModeInv s' := by
  refine hrun.invariant (fun _ _ _ hinv hstep => modeStep_oneMode hinv hstep) fun j p => ?_
  rw [genesis_viewOf hgen]
  exact .absent

/-- A transaction that sets or activates a policy of its account. -/
def SignedTx.SetsOrActivates (tx : SignedTx) (p : PolicyKind) : Prop :=
  match tx.body with
  | .policy _ (.setPolicy policy _) _ => policy = p
  | .policy _ (.activatePolicy policyId _) _ => PolicyKind.fromPolicyId policyId = some p
  | _ => False

/-- Only INIT and the transactions that set a policy give it a mode. -/
theorem givenMode_body {mode : ActivationMode} (hmode : tx.givenMode p = some mode) :
    (∃ index flags, tx.body = .init index flags) ∨ tx.SetsOrActivates p := by
  cases hbody : tx.body with
  | init index flags => exact .inl ⟨index, flags, rfl⟩
  | policy account action fee =>
      cases action with
      | setPolicy policy activation =>
          right
          simp only [SignedTx.givenMode, hbody] at hmode
          simp only [SignedTx.SetsOrActivates, hbody]
          by_contra hne
          rw [if_neg hne] at hmode
          cases hmode
      | _ => simp [SignedTx.givenMode, hbody] at hmode
  | _ => simp [SignedTx.givenMode, hbody] at hmode

/-- An initialised account of which a policy is active at no height. -/
def SwitchedOff (s : State) (j : AccountId) (p : PolicyKind) : Prop :=
  ∃ a, s.policyFieldsOf j = some a ∧ a.initialized = true ∧ (a.view p).active = false ∧
    (a.view p).deferred = []

/-- An initialised account stays initialised, and does not INIT again. -/
theorem applyTxImpl_initialized (hok : applyTxImpl C genCfg tx h now skipPolicy s = .ok u s')
    {a : Account} (ha : s.accounts[tx.computedAccountId C]? = some a)
    (hinit : a.initialized = true) :
    (∀ index flags, tx.body ≠ .init index flags) ∧
      ∃ a', s'.accounts[tx.computedAccountId C]? = some a' ∧ a'.initialized = true := by
  obtain ⟨acc, redirTo, hacc, _, _, _, hbody⟩ := applyTxImpl_ok hok
  rw [initStub_of_row ha] at hacc hbody
  obtain rfl := Option.some.inj (ha.symm.trans hacc)
  rw [signerRow, if_pos hinit] at hbody
  have hrow : a = signerRow a tx := (if_pos hinit).symm
  obtain ⟨a', ha', hown⟩ := applyBody_ownRow ha hrow hbody
  have hnoinit : ∀ index flags, tx.body ≠ .init index flags := by
    intro index flags htx
    simp only [applyBody, htx] at hbody
    rw [(applyInit_ok hbody).1] at hinit
    cases hinit
  refine ⟨hnoinit, a', ha', ?_⟩
  cases hown with
  | same hsame => exact (congrArg PolicyFields.initialized hsame).trans hinit
  | init htx _ _ => exact absurd htx (hnoinit _ _)
  | policy _ _ _ haction hsame =>
      calc a'.initialized = _ := congrArg PolicyFields.initialized hsame
        _ = a.initialized := (applyPolicyAction_rest haction).1
        _ = true := hinit

/-- A policy that is off stays off in a transaction that neither sets nor activates it. -/
theorem ModeChange.off (hchange : ModeChange tx h p v v')
    (hnoinit : ∀ index flags, tx.body ≠ .init index flags) (hkeeps : ¬ tx.SetsOrActivates p)
    (hactive : v.active = false) (hdeferred : v.deferred = []) : v' = v := by
  cases hchange with
  | same => rfl
  | given hmode =>
      rcases givenMode_body hmode with ⟨index, flags, hbody⟩ | hsets
      · exact absurd hbody (hnoinit index flags)
      · exact absurd hsets hkeeps
  | activated hbody hid _ =>
      refine absurd ?_ hkeeps
      rw [SignedTx.SetsOrActivates, hbody]
      exact hid
  | deactivated _ _ _ hstep => simp [PolicyView.deactivate, hactive, hdeferred] at hstep

theorem step_switchedOff (hoff : SwitchedOff s j p) (hstep : LedgerStep C genCfg s l s')
    (hl : ∀ tx, l = .applied tx → tx.computedAccountId C = j → ¬ tx.SetsOrActivates p) :
    SwitchedOff s' j p := by
  obtain ⟨f, hf, hinit, hactive, hdeferred⟩ := hoff
  obtain ⟨a, ha, rfl⟩ := Option.map_eq_some_iff.mp hf
  by_cases hown : ∃ tx, l = .applied tx ∧ tx.computedAccountId C = j
  · obtain ⟨tx, rfl, rfl⟩ := hown
    cases hstep with
    | applied hok =>
        obtain ⟨hnoinit, a', ha', hinit'⟩ := applyTxImpl_initialized hok ha hinit
        have hchange := applyTxImpl_modeChange hok p
        rw [viewOf_of_row ha, viewOf_of_row ha'] at hchange
        have hview : a'.view p = a.view p :=
          hchange.off hnoinit (hl tx rfl rfl) hactive hdeferred
        refine ⟨a'.policyFields, policyFieldsOf_of_row ha', hinit', ?_⟩
        exact (congrArg PolicyView.active hview).trans hactive |>.symm ▸
          ⟨rfl, (congrArg PolicyView.deferred hview).trans hdeferred⟩
  · rcases step_policyFieldsOf hstep (fun tx htx hj => hown ⟨tx, htx, hj⟩) with hsame | ⟨hnone, _⟩
    · exact ⟨a.policyFields, hsame.trans hf, hinit, hactive, hdeferred⟩
    · rw [ha] at hnone
      cases hnone

/-- A policy transaction that takes effect: the action on the row of its account. -/
theorem applyTxImpl_policy {account : AccountId} {action : PolicyAction} {fee : U128}
    (hbody : tx.body = .policy account action fee)
    (hok : applyTxImpl C genCfg tx h now skipPolicy s = .ok u s') :
    ∃ a b a', s.accounts[tx.computedAccountId C]? = some a ∧ a.initialized = true ∧
      validatePolAction C s (touchAcctMrks a h genCfg) action tx = .ok () ∧
      applyPolicyAction (touchAcctMrks a h genCfg) action h = .ok b ∧
      s'.accounts[tx.computedAccountId C]? = some a' ∧ a'.policyFields = b.policyFields := by
  obtain ⟨acc, redirTo, hacc, _, _, _, happly⟩ := applyTxImpl_ok hok
  have hstub : initStub C tx s = s := by
    rw [initStub, hbody]
  rw [hstub] at hacc happly
  simp only [applyBody, hbody] at happly
  obtain ⟨hinit, b, balance, c, nonce, s₁, hvalid, haction, _, hevac, _, rfl⟩ :=
    applyPolicy_ok happly
  have hrow : signerRow acc tx = acc ∧ acc.initialized = true := by
    unfold signerRow at hinit ⊢
    split at hinit
    · rename_i hyes
      exact ⟨if_pos hyes, hinit⟩
    · rename_i hno
      exact absurd hinit hno
  rw [hrow.1] at hvalid haction
  refine ⟨acc, b, _, hacc, hrow.2, hvalid, haction, getElem?_putAcc_self _ _ _, ?_⟩
  exact (evacuateIfNamed_policyFields hevac).trans rfl

/-- A reversible policy with one mode is off after its deactivation. -/
theorem deactivate_switchedOff (hinv : OneModeInv s) {account : AccountId} {fee : U128}
    (hbody : tx.body = .policy account (.deactivatePolicy p.policyId) fee)
    (hok : applyTxImpl C genCfg tx h now skipPolicy s = .ok u s') :
    SwitchedOff s' (tx.computedAccountId C) p := by
  obtain ⟨a, b, a', ha, hinit, _, haction, ha', hsame⟩ := applyTxImpl_policy hbody hok
  have hmode : OneMode p (a.view p) := viewOf_of_row ha p ▸ hinv _ p
  have hact : (a.view p).act h p (.deactivatePolicy p.policyId) = some (b.view p) :=
    applyPolicyAction_view haction p
  rw [PolicyView.act, PolicyKind.fromPolicyId_policyId, if_pos rfl] at hact
  have hoff : b.view p = ⟨false, true, []⟩ := by
    by_cases hrev : p.isReversible = true
    · rw [if_pos hrev, hmode.deactivate_eq hrev] at hact
      split at hact
      · exact (Option.some.inj hact).symm
      · cases hact
    · rw [if_neg hrev] at hact
      cases hact
  have hview : a'.view p = ⟨false, true, []⟩ := (view_of_policyFields hsame p).trans hoff
  refine ⟨a'.policyFields, policyFieldsOf_of_row ha', ?_, congrArg PolicyView.active hview,
    congrArg PolicyView.deferred hview⟩
  calc a'.initialized = b.initialized := congrArg PolicyFields.initialized hsame
    _ = a.initialized := (applyPolicyAction_rest haction).1
    _ = true := hinit

/-- In every run from genesis whose transactions defer no reversible policy, and no other one to a
height that is due, each account holds each policy in at most one record; a reversible policy can be
deactivated at every height at which it is active; and a deactivated policy is inactive until a
later transaction of the account sets or activates it. -/
theorem policy_modes {s₀ : State} (hgen : IsGenesis genCfg s₀)
    (hrun : Run (ModeStep C genCfg) s₀ ls s) :
    (∀ (j : AccountId) a p, s.accounts[j]? = some a → (a.view p).records ≤ 1) ∧
      (∀ (j : AccountId) a p h, s.accounts[j]? = some a → p.isReversible = true →
        policyIsActiveAt a p h = true →
          ∃ b, applyPolicyAction a (.deactivatePolicy p.policyId) h = .ok b) ∧
      ∀ tx account p fee h now skipPolicy s₁, tx.body = .policy account (.deactivatePolicy p.policyId)
          fee → applyTxImpl C genCfg tx h now skipPolicy s = .ok () s₁ →
        ∀ ls₂ s₂, Run (ModeStep C genCfg) s₁ ls₂ s₂ →
          (∀ tx', .applied tx' ∈ ls₂ → tx'.computedAccountId C = tx.computedAccountId C →
            ¬ tx'.SetsOrActivates p) →
          ∀ a, s₂.accounts[tx.computedAccountId C]? = some a →
            ∀ h', h ≤ h' → policyIsActiveAt a p h' = false := by
  have hinv := modeRun_oneMode hgen hrun
  refine ⟨?_, ?_, ?_⟩
  · intro j a p ha
    exact (viewOf_of_row ha p ▸ hinv j p : OneMode p (a.view p)).records_le
  · intro j a p h ha hrev hactive
    have hmode : OneMode p (a.view p) := viewOf_of_row ha p ▸ hinv j p
    rw [policyIsActiveAt_eq, hmode.activeAt_eq hrev] at hactive
    refine deactivatePolicy_succeeds hrev ?_
    rw [hmode.deactivate_eq hrev, if_pos hactive]
    simp
  · intro tx account p fee h now skipPolicy s₁ hbody hok ls₂ s₂ hrun₂ hkeeps a ha h' _
    have hlater : Run (fun s l s' => LedgerStep C genCfg s l s' ∧ l ∈ ls₂) s₁ ls₂ s₂ :=
      hrun₂.mono_labels fun s l s' hstep hmem => ⟨hstep.1, hmem⟩
    have hoff : SwitchedOff s₂ (tx.computedAccountId C) p := by
      refine hlater.invariant (I := fun s => SwitchedOff s (tx.computedAccountId C) p) ?_
        (deactivate_switchedOff hinv hbody hok)
      rintro s l s' hoff ⟨hstep, hmem⟩
      exact step_switchedOff hoff hstep fun tx' htx hj => hkeeps tx' (htx ▸ hmem) hj
    obtain ⟨f, hf, _, hactive, hdeferred⟩ := hoff
    rw [policyFieldsOf_of_row ha] at hf
    obtain rfl := Option.some.inj hf
    rw [policyIsActiveAt_eq, PolicyView.activeAt, Account.view, hactive, hdeferred]
    rfl

end Modes

/-! ## The emergency redirect -/

/-- A transaction that gives the emergency redirect no mode but dormant. -/
def SignedTx.LeavesRedirect (tx : SignedTx) : Prop :=
  ∀ mode, tx.givenMode .routingEmergencyRedirect = some mode → mode = .dormant

/-- A policy-checked step whose applied transaction gives the redirect no mode but dormant. -/
def RedirectStep (C : Crypto) (genCfg : GenCfg) (s : State) (l : LedgerLabel) (s' : State) : Prop :=
  PolicyStep C genCfg s l s' ∧ ∀ tx, l = .applied tx → tx.LeavesRedirect

/-- The transaction activates the redirect of its account, with the cosignature of its rescue
account. -/
def ActivatesRedirect (C : Crypto) (s : State) (tx : SignedTx) : Prop :=
  ∃ account target fee a rescueAcc,
    tx.body = .policy account
      (.activatePolicy PolicyKind.routingEmergencyRedirect.policyId (some target)) fee ∧
    s.accounts[tx.computedAccountId C]? = some a ∧ a.rescueAddress = some target ∧
    s.initializedAcc target = some rescueAcc ∧
    hasRoleCosign C tx .rescue rescueAcc.signingPubkey = true

/-- The redirect is not deferred, and active exactly on the finalized rows, which are
initialised. -/
structure RedirectRow (a : PolicyFields) : Prop where
  deferred : (a.view .routingEmergencyRedirect).deferred = []
  active : (a.view .routingEmergencyRedirect).active = a.finalized
  initialized : a.finalized = true → a.initialized = true

def RedirectInv (s : State) : Prop :=
  ∀ j a, s.policyFieldsOf j = some a → RedirectRow a

section Redirect

variable {C : Crypto} {genCfg : GenCfg} {tx : SignedTx} {h now : U64} {s s' : State}
  {l : LedgerLabel} {ls : List LedgerLabel} {u : Unit} {j : AccountId}

theorem RedirectRow.activeAt {a : Account} (hrow : RedirectRow a.policyFields) (h : U64) :
    policyIsActiveAt a .routingEmergencyRedirect h = a.finalized := by
  have hactive : (a.view .routingEmergencyRedirect).active = a.finalized := hrow.active
  have hdeferred : (a.view .routingEmergencyRedirect).deferred = [] := hrow.deferred
  rw [policyIsActiveAt_eq, PolicyView.activeAt, hactive, hdeferred, List.any_nil, Bool.or_false]

theorem validatePolAction_rescue {a : Account} {target : Option AccountId}
    (hok : validatePolAction C s a
      (.activatePolicy PolicyKind.routingEmergencyRedirect.policyId target) tx = .ok ()) :
    ∃ rescueId rescueAcc, target = some rescueId ∧ a.rescueAddress = some rescueId ∧
      s.initializedAcc rescueId = some rescueAcc ∧
      hasRoleCosign C tx .rescue rescueAcc.signingPubkey = true := by
  simp only [validatePolAction, PolicyKind.fromPolicyId_policyId] at hok
  split at hok
  · cases hok
  · cases hrescue : a.rescueAddress with
    | none => simp [hrescue] at hok
    | some rescueId =>
        simp only [hrescue] at hok
        cases target with
        | none => cases hok
        | some target =>
            simp only at hok
            split_ifs at hok with hne _
            cases hacc : s.initializedAcc rescueId with
            | none => simp [hacc] at hok
            | some rescueAcc =>
                simp only [hacc, Option.map_some] at hok
                split_ifs at hok with hcosign
                exact ⟨rescueId, rescueAcc, by simpa using hne, rfl, hacc, hcosign⟩

/-- What a row that is not finalized, and whose redirect is off, holds of the redirect after a policy
action: it is active if it was activated, which finalized the row. -/
theorem applyPolicyAction_redirect {a b : Account} {action : PolicyAction}
    (hok : applyPolicyAction a action h = .ok b)
    (hleaves : ∀ mode, action = .setPolicy .routingEmergencyRedirect mode → mode = .dormant)
    (hlive : a.finalized = false) (hactive : (a.view .routingEmergencyRedirect).active = false)
    (hdeferred : (a.view .routingEmergencyRedirect).deferred = []) :
    (b.view .routingEmergencyRedirect).deferred = [] ∧
      (b.view .routingEmergencyRedirect).active = b.finalized ∧
      (b.finalized = true → ∃ target,
        action = .activatePolicy PolicyKind.routingEmergencyRedirect.policyId target) := by
  cases action with
  | setPolicy policy mode =>
      obtain rfl := Except.ok.inj hok
      rw [setPolMode_view, setPolMode_finalized, hlive]
      by_cases hpolicy : policy = .routingEmergencyRedirect
      · obtain rfl := hleaves mode (by rw [hpolicy])
        rw [if_pos hpolicy]
        exact ⟨rfl, rfl, fun hfalse => absurd hfalse Bool.false_ne_true⟩
      · rw [if_neg hpolicy]
        exact ⟨hdeferred, hactive, fun hfalse => absurd hfalse Bool.false_ne_true⟩
  | activatePolicy policyId target =>
      obtain ⟨q, hid, _, ⟨_, rfl⟩ | ⟨_, _, rfl⟩⟩ := activatePolicy_ok hok
      · rw [hlive]
        exact ⟨hdeferred, hactive, fun hfalse => absurd hfalse Bool.false_ne_true⟩
      · rw [view_activated]
        by_cases hq : q = .routingEmergencyRedirect
        · rw [if_pos hq]
          subst hq
          refine ⟨hdeferred, by simp [activatedRow], fun _ => ⟨target, ?_⟩⟩
          rw [policyId_of_fromPolicyId hid]
        · have hfinal : (activatedRow a q).finalized = false := by
            simp [activatedRow, hlive, hq]
          rw [if_neg hq, hfinal]
          exact ⟨hdeferred, hactive, fun hfalse => absurd hfalse Bool.false_ne_true⟩
  | deactivatePolicy policyId =>
      obtain ⟨q, _, hrev, hcase⟩ := deactivatePolicy_ok hok
      have hq : q ≠ .routingEmergencyRedirect := by
        rintro rfl
        cases hrev
      have hsame : b.view .routingEmergencyRedirect = a.view .routingEmergencyRedirect ∧
          b.finalized = a.finalized := by
        obtain ⟨idx, hidx, rfl⟩ | ⟨_, _, rfl⟩ := hcase
        · exact ⟨by rw [view_struck a _ q hidx, if_neg hq], rfl⟩
        · exact ⟨by rw [view_deactivated, if_neg hq], rfl⟩
      rw [hsame.1, hsame.2, hlive]
      exact ⟨hdeferred, hactive, fun hfalse => absurd hfalse Bool.false_ne_true⟩

/-- A row whose redirect is off, as an account without a row. -/
theorem redirectOff_of_row (hold : ∀ a, s.policyFieldsOf j = some a →
      RedirectRow a ∧ a.finalized = false) :
    (s.viewOf j .routingEmergencyRedirect).deferred = [] ∧
      (s.viewOf j .routingEmergencyRedirect).active = false := by
  rw [State.viewOf]
  cases hf : s.policyFieldsOf j with
  | none => exact ⟨rfl, rfl⟩
  | some a =>
      obtain ⟨hrow, hlive⟩ := hold a hf
      exact ⟨hrow.deferred, hrow.active.trans hlive⟩

theorem ModeChange.redirectOff {v v' : PolicyView}
    (hchange : ModeChange tx h .routingEmergencyRedirect v v') (hleaves : tx.LeavesRedirect)
    (hbody : ¬ ∃ account action fee, tx.body = .policy account action fee)
    (hoff : v.deferred = [] ∧ v.active = false) : v'.deferred = [] ∧ v'.active = false := by
  cases hchange with
  | same => exact hoff
  | given hmode =>
      rw [hleaves _ hmode]
      exact ⟨rfl, rfl⟩
  | activated htx _ _ => exact absurd ⟨_, _, _, htx⟩ hbody
  | deactivated htx _ _ _ => exact absurd ⟨_, _, _, htx⟩ hbody

/-- The signer of a policy-checked transaction that takes effect is not finalized. -/
theorem redirectRow_signer (hinv : RedirectInv s)
    (hok : applyTxWithCtx C genCfg tx h now s = .ok u s') :
    ∀ a, s.policyFieldsOf (tx.computedAccountId C) = some a →
      RedirectRow a ∧ a.finalized = false := by
  intro f hf
  obtain ⟨a, ha, rfl⟩ := Option.map_eq_some_iff.mp hf
  have hrow := hinv _ _ hf
  refine ⟨hrow, applyTxWithCtx_signer_not_finalized hok ha fun hfinal => ?_⟩
  refine ⟨hrow.initialized hfinal, (and_bit_ne_zero_iff _ _).mpr ?_⟩
  exact hrow.active.trans hfinal

/-- The row of an account that was not finalized, after one of its policy transactions. -/
theorem applyTxImpl_policy_redirectRow {skipPolicy : Bool} {account : AccountId}
    {action : PolicyAction} {fee : U128} (hbody : tx.body = .policy account action fee)
    (hok : applyTxImpl C genCfg tx h now skipPolicy s = .ok u s') (hleaves : tx.LeavesRedirect)
    (hold : ∀ a, s.policyFieldsOf (tx.computedAccountId C) = some a →
      RedirectRow a ∧ a.finalized = false) :
    ∃ a', s'.policyFieldsOf (tx.computedAccountId C) = some a' ∧ RedirectRow a' ∧
      (a'.finalized = true → ActivatesRedirect C s tx) := by
  obtain ⟨a, b, a', ha, hinit, hvalid, haction, ha', hsame⟩ := applyTxImpl_policy hbody hok
  obtain ⟨hrow, hlive⟩ := hold _ (policyFieldsOf_of_row ha)
  have hgives : ∀ mode, action = .setPolicy .routingEmergencyRedirect mode → mode = .dormant := by
    rintro mode rfl
    refine hleaves mode ?_
    rw [SignedTx.givenMode, hbody]
    exact if_pos rfl
  obtain ⟨hdeferred, hactive, hactivates⟩ := applyPolicyAction_redirect haction hgives hlive
    (hrow.active.trans hlive) hrow.deferred
  refine ⟨a'.policyFields, policyFieldsOf_of_row ha', ?_, ?_⟩
  · rw [hsame]
    exact ⟨hdeferred, hactive, fun _ => (applyPolicyAction_rest haction).1.trans hinit⟩
  · intro hfinal
    rw [hsame] at hfinal
    obtain ⟨target, rfl⟩ := hactivates hfinal
    obtain ⟨rescueId, rescueAcc, rfl, hrescue, hacc, hcosign⟩ := validatePolAction_rescue hvalid
    exact ⟨account, rescueId, fee, a, rescueAcc, hbody, ha, hrescue, hacc, hcosign⟩

/-- The row of an account that was not finalized, after one of its transactions. -/
theorem applyTxImpl_redirectRow {skipPolicy : Bool}
    (hok : applyTxImpl C genCfg tx h now skipPolicy s = .ok u s') (hleaves : tx.LeavesRedirect)
    (hold : ∀ a, s.policyFieldsOf (tx.computedAccountId C) = some a →
      RedirectRow a ∧ a.finalized = false) :
    ∃ a', s'.policyFieldsOf (tx.computedAccountId C) = some a' ∧ RedirectRow a' ∧
      (a'.finalized = true → ActivatesRedirect C s tx) := by
  by_cases hpolicy : ∃ account action fee, tx.body = .policy account action fee
  · obtain ⟨account, action, fee, hbody⟩ := hpolicy
    exact applyTxImpl_policy_redirectRow hbody hok hleaves hold
  · obtain ⟨acc, redirTo, hacc, _, _, _, hbody⟩ := applyTxImpl_ok hok
    have hlive : (signerRow acc tx).finalized = false := by
      have hacclive : acc.finalized = false := by
        cases hrow : s.accounts[tx.computedAccountId C]? with
        | none => exact initStub_new_row hrow hacc
        | some a =>
            rw [initStub_of_row hrow, hrow] at hacc
            obtain rfl := Option.some.inj hacc
            exact (hold _ (policyFieldsOf_of_row hrow)).2
      rw [signerRow]
      split <;> exact hacclive
    obtain ⟨a', ha', hown⟩ := applyBody_ownRow hacc rfl hbody
    have hlive' : a'.finalized = false := by
      cases hown with
      | same hsame => exact (congrArg PolicyFields.finalized hsame).trans hlive
      | init _ _ hfinal => exact hfinal.trans hlive
      | policy htx _ _ _ _ => exact absurd ⟨_, _, _, htx⟩ hpolicy
    have hchange := applyTxImpl_modeChange hok .routingEmergencyRedirect
    rw [viewOf_of_row ha'] at hchange
    obtain ⟨hdeferred, hactive⟩ := hchange.redirectOff hleaves hpolicy (redirectOff_of_row hold)
    refine ⟨a'.policyFields, policyFieldsOf_of_row ha', ⟨hdeferred, ?_, ?_⟩, ?_⟩
    · exact hactive.trans hlive'.symm
    · exact fun hfinal => absurd (hlive'.symm.trans hfinal) Bool.false_ne_true
    · exact fun hfinal => absurd (hlive'.symm.trans hfinal) Bool.false_ne_true

/-- The row that INIT starts from is that of its own account. -/
theorem initStub_new_signer {a : Account} (hnone : s.accounts[j]? = none)
    (ha : (initStub C tx s).accounts[j]? = some a) : tx.computedAccountId C = j := by
  by_contra hj
  have hkept := (initStub_rowKept s hj).policyFieldsOf
  rw [policyFieldsOf_of_row ha, State.policyFieldsOf, hnone] at hkept
  cases hkept

theorem initStub_redirectRow {a : Account} (hnone : s.accounts[j]? = none)
    (ha : (initStub C tx s).accounts[j]? = some a) :
    RedirectRow a.policyFields ∧ a.finalized = false := by
  obtain rfl := initStub_new_signer hnone ha
  have hlive := initStub_new_row hnone ha
  have hview : a.view .routingEmergencyRedirect = .absent := by
    rw [← viewOf_of_row ha, initStub_viewOf, State.viewOf, State.policyFieldsOf, hnone]
    rfl
  refine ⟨⟨congrArg PolicyView.deferred hview, ?_, ?_⟩, hlive⟩
  · exact (congrArg PolicyView.active hview).trans hlive.symm
  · exact fun hfinal => absurd (hlive.symm.trans hfinal) Bool.false_ne_true

theorem redirectStep_inv (hinv : RedirectInv s) (hstep : RedirectStep C genCfg s l s') :
    RedirectInv s' := by
  obtain ⟨⟨hledger, hchecked⟩, hleaves⟩ := hstep
  intro j a ha
  by_cases hown : ∃ tx, l = .applied tx ∧ tx.computedAccountId C = j
  · obtain ⟨tx, rfl, rfl⟩ := hown
    obtain ⟨h, now, hok⟩ := hchecked tx rfl
    obtain ⟨a', ha', hrow, _⟩ := applyTxImpl_redirectRow hok (hleaves tx rfl)
      (redirectRow_signer hinv hok)
    obtain rfl := Option.some.inj (ha'.symm.trans ha)
    exact hrow
  · rcases step_policyFieldsOf hledger (fun tx htx hj => hown ⟨tx, htx, hj⟩) with
      hsame | ⟨hnone, tx, rfl⟩
    · exact hinv j a (hsame ▸ ha)
    · obtain ⟨acc, hacc, rfl⟩ := Option.map_eq_some_iff.mp ha
      exact (initStub_redirectRow hnone hacc).1

theorem genesis_redirectInv (hgen : IsGenesis genCfg s) : RedirectInv s := by
  intro j f hf
  obtain ⟨a, ha, rfl⟩ := Option.map_eq_some_iff.mp hf
  have hview : a.view .routingEmergencyRedirect = .absent := by
    rw [← viewOf_of_row ha, genesis_viewOf hgen]
  obtain ⟨r, marks, rfl⟩ := genesis_row hgen ha
  refine ⟨congrArg PolicyView.deferred hview, congrArg PolicyView.active hview, ?_⟩
  exact fun hfinal => absurd hfinal Bool.false_ne_true

/-- A finalized account stays finalized. -/
theorem redirectStep_finalized (hinv : RedirectInv s) (hstep : RedirectStep C genCfg s l s')
    {a : Account} (ha : s.accounts[j]? = some a) (hfinal : a.finalized = true) :
    ∃ a', s'.accounts[j]? = some a' ∧ a'.finalized = true := by
  obtain ⟨⟨hledger, hchecked⟩, _⟩ := hstep
  have hother : ∀ tx, l = .applied tx → tx.computedAccountId C ≠ j := by
    rintro tx rfl rfl
    obtain ⟨h, now, hok⟩ := hchecked tx rfl
    have hlive := (redirectRow_signer hinv hok _ (policyFieldsOf_of_row ha)).2
    exact absurd (hlive.symm.trans hfinal) Bool.false_ne_true
  have hsame : s'.policyFieldsOf j = s.policyFieldsOf j := by
    rcases step_policyFieldsOf hledger hother with hsame | ⟨hnone, _⟩
    · exact hsame
    · rw [ha] at hnone
      cases hnone
  rw [policyFieldsOf_of_row ha] at hsame
  obtain ⟨a', ha', hfields⟩ := Option.map_eq_some_iff.mp hsame
  exact ⟨a', ha', (congrArg PolicyFields.finalized hfields).trans hfinal⟩

/-- A finalized account became so in a step of the run, which activated its redirect. -/
theorem redirectRun_activated (hinv : RedirectInv s)
    (hlive : ∀ a, s.accounts[j]? = some a → a.finalized = false)
    (hrun : Run (RedirectStep C genCfg) s ls s') :
    RedirectInv s' ∧ ∀ a, s'.accounts[j]? = some a → a.finalized = true →
      ∃ before tx after mid, ls = before ++ .applied tx :: after ∧
        Run (RedirectStep C genCfg) s before mid ∧ tx.computedAccountId C = j ∧
        ActivatesRedirect C mid tx := by
  induction hrun with
  | nil => exact ⟨hinv, fun a ha hfinal => absurd ((hlive a ha).symm.trans hfinal) Bool.false_ne_true⟩
  | @snoc s₁ s₂ ls l hrun hstep ih =>
      obtain ⟨hinv₁, hbefore⟩ := ih
      refine ⟨redirectStep_inv hinv₁ hstep, fun a ha hfinal => ?_⟩
      obtain ⟨⟨hledger, hchecked⟩, hleaves⟩ := hstep
      by_cases hown : ∃ tx, l = .applied tx ∧ tx.computedAccountId C = j
      · obtain ⟨tx, rfl, rfl⟩ := hown
        obtain ⟨h, now, hok⟩ := hchecked tx rfl
        obtain ⟨f, hf, _, hactivates⟩ := applyTxImpl_redirectRow hok (hleaves tx rfl)
          (redirectRow_signer hinv₁ hok)
        rw [policyFieldsOf_of_row ha] at hf
        obtain rfl := Option.some.inj hf
        exact ⟨ls, tx, [], s₁, rfl, hrun, rfl, hactivates hfinal⟩
      · rcases step_policyFieldsOf hledger (fun tx htx hj => hown ⟨tx, htx, hj⟩) with
          hsame | ⟨hnone, tx, rfl⟩
        · rw [policyFieldsOf_of_row ha] at hsame
          obtain ⟨a₁, ha₁, hfields⟩ := Option.map_eq_some_iff.mp hsame.symm
          obtain ⟨before, tx, after, mid, hsplit, hmid, hj, hactivates⟩ := hbefore a₁ ha₁
            ((congrArg PolicyFields.finalized hfields).trans hfinal)
          refine ⟨before, tx, after ++ [l], mid, ?_, hmid, hj, hactivates⟩
          rw [hsplit, List.append_assoc, List.cons_append]
        · have hnew := (initStub_redirectRow hnone ha).2.symm.trans hfinal
          exact absurd hnew Bool.false_ne_true

/-- In every run from genesis whose transactions are policy-checked and give the redirect no mode
but dormant: an account on which the emergency redirect is active at some height is finalized, one
of its transactions activated the redirect with the cosignature of its rescue account, and the
redirect is active at every height from then on. -/
theorem redirect_final {s₀ s₁ : State} {ls₁ : List LedgerLabel} (hgen : IsGenesis genCfg s₀)
    (hrun₁ : Run (RedirectStep C genCfg) s₀ ls₁ s₁) {a : Account} (ha : s₁.accounts[j]? = some a)
    (hactive : policyIsActiveAt a .routingEmergencyRedirect h = true) :
    a.finalized = true ∧
      (∃ before tx after mid, ls₁ = before ++ .applied tx :: after ∧
        Run (RedirectStep C genCfg) s₀ before mid ∧ tx.computedAccountId C = j ∧
        ActivatesRedirect C mid tx) ∧
      ∀ ls₂ s₂, Run (RedirectStep C genCfg) s₁ ls₂ s₂ →
        ∃ a', s₂.accounts[j]? = some a' ∧ a'.finalized = true ∧
          ∀ h', policyIsActiveAt a' .routingEmergencyRedirect h' = true := by
  have hinv := genesis_redirectInv hgen
  have hlive : ∀ b, s₀.accounts[j]? = some b → b.finalized = false := by
    intro b hb
    obtain ⟨r, marks, rfl⟩ := genesis_row hgen hb
    rfl
  obtain ⟨hinv₁, hactivated⟩ := redirectRun_activated hinv hlive hrun₁
  have hfinal : a.finalized = true := by
    rwa [(hinv₁ j _ (policyFieldsOf_of_row ha)).activeAt] at hactive
  refine ⟨hfinal, hactivated a ha hfinal, ?_⟩
  intro ls₂ s₂ hrun₂
  have hkept : RedirectInv s₂ ∧ ∃ a', s₂.accounts[j]? = some a' ∧ a'.finalized = true := by
    refine hrun₂.invariant (I := fun s => RedirectInv s ∧
      ∃ a', s.accounts[j]? = some a' ∧ a'.finalized = true) ?_ ⟨hinv₁, a, ha, hfinal⟩
    rintro s l s' ⟨hinv, b, hb, hbfinal⟩ hstep
    exact ⟨redirectStep_inv hinv hstep, redirectStep_finalized hinv hstep hb hbfinal⟩
  obtain ⟨hinv₂, a', ha', hfinal'⟩ := hkept
  refine ⟨a', ha', hfinal', fun h' => ?_⟩
  rw [(hinv₂ j _ (policyFieldsOf_of_row ha')).activeAt, hfinal']

end Redirect

namespace OpenRedirect

def setTx : SignedTx where
  domainCode := 0x32bc#16
  signerPk := devNetRow.pubkey
  derivationIndex := 0#32
  nonce := 0#64
  body := .policy devNetRow.acct (.setPolicy .routingEmergencyRedirect .immediately) 1#128
  signature := 0x22ffdd14a9d079c5df1fc70c3420c22291cdd21b94cdaea35f1590e3a1562ad2ff8c9f9321e647d5b4be71a9e60766a7b71b9b90d2674e58dde3d2ffe32e290f#512

def unsetTx : SignedTx :=
  { setTx with
    nonce := 1#64
    body := .policy devNetRow.acct (.setPolicy .routingEmergencyRedirect .dormant) 1#128
    signature := 0xbb7385a6cde57ad325dfdeff4cfb42c28ff2acb5a063919fa0e89b7d660e94d741e72a2b7635f09a973bcd61ae5809da69f323f6f6ec2d2cd73d95886033790a#512 }

def crypto : Crypto :=
  .ofTables [(devNetRow.pubkey.beBytes 32 ++ (0#32).leBytes 4, devNetRow.acct)]
    [⟨devNetSk, devNetRow.pubkey, [(setTx.signingMessage, setTx.signature),
      (unsetTx.signingMessage, unsetTx.signature)]⟩]

def afterSet : State := endState (applyTxWithCtx crypto devNet setTx 1#64 0#64 devNet.state0)
def afterUnset : State := endState (applyTxWithCtx crypto devNet unsetTx 2#64 0#64 afterSet)

end OpenRedirect

/-- Without any cosignature a redirect is set active on an account that is not finalized, and then
set dormant. -/
theorem redirect_set_and_unset :
    IsGenesis devNet devNet.state0 ∧
      Run (PolicyStep OpenRedirect.crypto devNet) devNet.state0 [.applied OpenRedirect.setTx]
        OpenRedirect.afterSet ∧
      (OpenRedirect.afterSet.accounts[devNetRow.acct]?).map (fun a =>
        (policyIsActiveAt a .routingEmergencyRedirect 1#64, a.finalized)) = some (true, false) ∧
      OpenRedirect.setTx.cosigns = [] ∧
      Run (PolicyStep OpenRedirect.crypto devNet) OpenRedirect.afterSet
        [.applied OpenRedirect.unsetTx] OpenRedirect.afterUnset ∧
      (OpenRedirect.afterUnset.accounts[devNetRow.acct]?).map (fun a =>
        policyIsActiveAt a .routingEmergencyRedirect 2#64) = some false := by
  have hset : applyTxWithCtx OpenRedirect.crypto devNet OpenRedirect.setTx 1#64 0#64 devNet.state0 =
      .ok () OpenRedirect.afterSet := by
    decide +kernel
  have hunset : applyTxWithCtx OpenRedirect.crypto devNet OpenRedirect.unsetTx 2#64 0#64
      OpenRedirect.afterSet = .ok () OpenRedirect.afterUnset := by
    decide +kernel
  refine ⟨⟨devNet.state0.activeValidatorIndices, rfl⟩, .single (policyStep_applied hset), ?_, rfl,
    .single (policyStep_applied hunset), ?_⟩ <;> decide +kernel

theorem redirectStep_applied {C : Crypto} {genCfg : GenCfg} {tx : SignedTx} {h now : U64}
    {s s' : State} (hok : applyTxWithCtx C genCfg tx h now s = .ok () s')
    (hleaves : tx.LeavesRedirect) : RedirectStep C genCfg s (.applied tx) s' := by
  refine ⟨policyStep_applied hok, fun tx' htx => ?_⟩
  obtain rfl := LedgerLabel.applied.inj htx
  exact hleaves

/-- An account that an activated redirect finalized. -/
theorem redirect_final_rescued :
    Run (RedirectStep SelfDrain.crypto devNet) devNet.state0
        [.applied SelfDrain.initTx, .applied SelfDrain.transferTx, .applied SelfDrain.activateTx]
        SelfDrain.afterActivate ∧
      ∃ a, SelfDrain.afterActivate.accounts[SelfDrain.rescuedId]? = some a ∧
        a.finalized = true := by
  have hrun : Run (RedirectStep SelfDrain.crypto devNet) devNet.state0
      [.applied SelfDrain.initTx, .applied SelfDrain.transferTx, .applied SelfDrain.activateTx]
      SelfDrain.afterActivate := by
    refine (((Run.nil _).snoc (redirectStep_applied SelfDrain.init_applied ?_)).snoc
      (redirectStep_applied SelfDrain.transfer_applied ?_)).snoc
      (redirectStep_applied SelfDrain.activate_applied ?_)
    · intro mode hmode
      exact (Option.some.inj hmode).symm
    · intro mode hmode
      cases hmode
    · intro mode hmode
      cases hmode
  have hsome : (SelfDrain.afterActivate.accounts[SelfDrain.rescuedId]?).map (fun a =>
      policyIsActiveAt a .routingEmergencyRedirect 2#64) = some true := by
    decide +kernel
  obtain ⟨a, ha, hactive⟩ := Option.map_eq_some_iff.mp hsome
  have hgen : IsGenesis devNet devNet.state0 := ⟨devNet.state0.activeValidatorIndices, rfl⟩
  exact ⟨hrun, a, ha, (redirect_final hgen hrun ha hactive).1⟩

/-! ## A filter of the devnet account -/

namespace Filter

def onTx : SignedTx where
  domainCode := 0x32bc#16
  signerPk := devNetRow.pubkey
  derivationIndex := 0#32
  nonce := 0#64
  body := .policy devNetRow.acct (.setPolicy .senderFilter .immediately) 1#128
  signature := 0xbfa4c90c9483af7e1983e52038fe1f186b9d3f76e912746ce5a0b99e770e75ce2ebf3537a9117d5514d3b0714808aac27778268b1b8003ef24231f08ada8ea0c#512

def deferTx : SignedTx :=
  { onTx with
    body := .policy devNetRow.acct (.setPolicy .senderFilter (.deferred 5#64)) 1#128
    signature := 0x706c9e9a50e7a4b231dc424712833241b805acf8e838be9da3a28297456e1f6db724a8f0f4e3b4087398d03ddc9a8231bed54c47763880d60e49e49d9a392a0e#512 }

def offTx : SignedTx :=
  { onTx with
    nonce := 1#64
    body := .policy devNetRow.acct (.deactivatePolicy 2#8) 1#128
    signature := 0x56ccaa52894ee76943c1fe056b4aa0d9fa56f314669cb2f4fec303ac8292760ea04bacff5ff2d9788581e36c737bfe10a2fa6f3881bd67cc46cf8c9f6572610a#512 }

def crypto : Crypto :=
  .ofTables [(devNetRow.pubkey.beBytes 32 ++ (0#32).leBytes 4, devNetRow.acct)]
    [⟨devNetSk, devNetRow.pubkey, [(onTx.signingMessage, onTx.signature),
      (deferTx.signingMessage, deferTx.signature), (offTx.signingMessage, offTx.signature)]⟩]

def afterOn : State := endState (applyTxWithCtx crypto devNet onTx 1#64 0#64 devNet.state0)
def afterOff : State := endState (applyTxWithCtx crypto devNet offTx 2#64 0#64 afterOn)

/-- The filter is deferred at height 1, before it is due. -/
def afterEarly : State := endState (applyTxWithCtx crypto devNet deferTx 1#64 0#64 devNet.state0)

/-- The filter is deferred at height 5, when it is due, and then deactivated. -/
def afterLate : State := endState (applyTxWithCtx crypto devNet deferTx 5#64 0#64 devNet.state0)
def afterLateOff : State := endState (applyTxWithCtx crypto devNet offTx 6#64 0#64 afterLate)

/-- The row of the devnet account. -/
def row (s : State) : Option Account :=
  s.accounts[devNetRow.acct]?

theorem on_applied : applyTxWithCtx crypto devNet onTx 1#64 0#64 devNet.state0 = .ok () afterOn := by
  decide +kernel

theorem off_applied : applyTxWithCtx crypto devNet offTx 2#64 0#64 afterOn = .ok () afterOff := by
  decide +kernel

theorem modeStep_on : ModeStep crypto devNet devNet.state0 (.applied onTx) afterOn := by
  refine ⟨.applied on_applied, ?_⟩
  intro tx htx
  obtain rfl := LedgerLabel.applied.inj htx
  refine ⟨1#64, 0#64, false, on_applied, ?_⟩
  intro p t hmode
  cases p <;> simp [SignedTx.givenMode, onTx] at hmode

end Filter

/-- The filter is off after its deactivation. -/
theorem policy_modes_filter :
    Run (ModeStep Filter.crypto devNet) devNet.state0 [.applied Filter.onTx] Filter.afterOn ∧
      ∃ a, Filter.row Filter.afterOff = some a ∧
        ∀ h', 2#64 ≤ h' → policyIsActiveAt a .senderFilter h' = false := by
  have hrun := Run.single Filter.modeStep_on
  refine ⟨hrun, ?_⟩
  have hsome : (Filter.row Filter.afterOff).isSome = true := by
    decide +kernel
  obtain ⟨a, ha⟩ := Option.isSome_iff_exists.mp hsome
  have hid : Filter.offTx.computedAccountId Filter.crypto = devNetRow.acct := by
    decide
  have hend : Filter.afterOff.accounts[Filter.offTx.computedAccountId Filter.crypto]? = some a := by
    rw [hid]
    exact ha
  have hgen : IsGenesis devNet devNet.state0 := ⟨devNet.state0.activeValidatorIndices, rfl⟩
  refine ⟨a, ha, (policy_modes hgen hrun).2.2 Filter.offTx devNetRow.acct .senderFilter 1#128 2#64
    0#64 false Filter.afterOff rfl Filter.off_applied [] Filter.afterOff (.nil _) ?_ a hend⟩
  intro tx' hmem
  cases hmem

/-- A deferred filter that has become active cannot be deactivated; one that is deferred to a height
that is due is held twice, and is still active after its deactivation. -/
theorem deferred_modes :
    IsGenesis devNet devNet.state0 ∧
      Run (LedgerStep Filter.crypto devNet) devNet.state0 [.applied Filter.deferTx]
        Filter.afterEarly ∧
      (Filter.row Filter.afterEarly).map (fun a => (policyIsActiveAt a .senderFilter 5#64,
        (applyPolicyAction a (.deactivatePolicy 2#8) 5#64).toOption.isSome)) = some (true, false) ∧
      Run (LedgerStep Filter.crypto devNet) devNet.state0 [.applied Filter.deferTx]
        Filter.afterLate ∧
      (Filter.row Filter.afterLate).map (fun a => (a.view .senderFilter).records) = some 2 ∧
      applyTxWithCtx Filter.crypto devNet Filter.offTx 6#64 0#64 Filter.afterLate =
        .ok () Filter.afterLateOff ∧
      (Filter.row Filter.afterLateOff).map (fun a => policyIsActiveAt a .senderFilter 6#64) =
        some true := by
  have hearly : applyTxWithCtx Filter.crypto devNet Filter.deferTx 1#64 0#64 devNet.state0 =
      .ok () Filter.afterEarly := by
    decide +kernel
  have hlate : applyTxWithCtx Filter.crypto devNet Filter.deferTx 5#64 0#64 devNet.state0 =
      .ok () Filter.afterLate := by
    decide +kernel
  refine ⟨⟨devNet.state0.activeValidatorIndices, rfl⟩, .single (.applied hearly), ?_,
    .single (.applied hlate), ?_, ?_, ?_⟩ <;> decide +kernel

end Pwm
