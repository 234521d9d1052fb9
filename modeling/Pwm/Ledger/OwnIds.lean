import Pwm.Ledger.Frozen

/-!
# Accounts stand at the address of their key

The address of an account is the hash of its key and index. A row keeps both
once it is initialised, and a row that is not takes them over from its signer.
-/

namespace Pwm

open BitVec Attempt MapSum

/-- The row has the key that its address is made of, if it is initialised. -/
def OwnKey (C : Crypto) (id : AccountId) (a : Account) : Prop :=
  a.initialized = true → accountIdFromParts C a.signingPubkey a.derivationIndex = id

/-- Every initialised row stands at the address of its key. -/
def State.OwnIds (C : Crypto) (st : State) : Prop :=
  ∀ id a, st.accounts[id]? = some a → OwnKey C id a

/-- Two rows have one key. -/
def SameKey (a b : Account) : Prop :=
  a.signingPubkey = b.signingPubkey ∧ a.derivationIndex = b.derivationIndex

section Keys

variable {C : Crypto} {id : AccountId} {a b : Account} {s s' : State}

theorem SameKey.refl (a : Account) : SameKey a a := ⟨rfl, rfl⟩

theorem SameKey.trans {c : Account} (h₁ : SameKey a b) (h₂ : SameKey b c) : SameKey a c :=
  ⟨h₁.1.trans h₂.1, h₁.2.trans h₂.2⟩

theorem Credited.sameKey (h : Credited a b) : SameKey b a := by
  rw [h.rest]
  exact SameKey.refl _

theorem OwnKey.credited (h : OwnKey C id a) (hcredit : Credited a b) : OwnKey C id b := by
  obtain ⟨hkey, hindex⟩ := hcredit.sameKey
  intro hinit
  rw [hkey, hindex]
  exact h (hcredit.initialized ▸ hinit)

theorem setPolMode_sameKey (a : Account) (policy : PolicyKind) (activation : ActivationMode)
    (inclH : U64) : SameKey (setPolMode a policy activation inclH) a := by
  cases activation <;> exact SameKey.refl _

theorem applyPolicyAction_sameKey {action : PolicyAction} {h : U64}
    (hok : applyPolicyAction a action h = .ok b) : SameKey b a := by
  cases action with
  | setPolicy policy activation =>
      obtain rfl := Except.ok.inj hok
      exact setPolMode_sameKey a policy activation h
  | activatePolicy policyId activationTarget =>
      simp only [applyPolicyAction] at hok
      split at hok
      · cases hok
      · split at hok
        · split at hok <;> cases hok
        · split at hok
          · obtain rfl := Except.ok.inj hok
            exact SameKey.refl _
          · split at hok
            · cases hok
            · obtain rfl := Except.ok.inj hok
              exact SameKey.refl _
  | deactivatePolicy policyId =>
      simp only [applyPolicyAction] at hok
      split at hok
      · cases hok
      · split at hok
        · cases hok
        · split at hok
          · obtain rfl := Except.ok.inj hok
            exact SameKey.refl _
          · split at hok
            · cases hok
            · obtain rfl := Except.ok.inj hok
              exact SameKey.refl _

theorem initRow_sameKey {tx : SignedTx} {h : U64} {acc : Account} (index flags : U32) :
    SameKey (initRow tx h acc index flags) acc := by
  have hfold : ∀ (rows : List InitPolicyEntry) (b : Account), SameKey b acc →
      SameKey (rows.foldl (fun a (row : InitPolicyEntry) =>
        setPolMode a row.policy row.activation h) b) acc := by
    intro rows
    induction rows with
    | nil => exact fun _ hb => hb
    | cons row rest ih =>
        exact fun b hb => ih _ ((setPolMode_sameKey b row.policy row.activation h).trans hb)
  unfold initRow
  cases tx.initV4 with
  | none => exact SameKey.refl _
  | some ext => exact hfold _ _ (SameKey.refl _)

end Keys

/-! ## The signer's row -/

section Arms

variable {C : Crypto} {genCfg : GenCfg} {tx : SignedTx} {h now : U64} {id : AccountId}
  {acc : Account} {s s' : State} {u : Unit}

theorem transferNow_key {dst : AccountId} {amount fee total : U128}
    (hok : transferNow genCfg h id acc dst amount fee total s = .ok u s') :
    ∃ a', s'.accounts[id]? = some a' ∧ SameKey a' acc := by
  obtain ⟨balance, nonce, _, _, ⟨_, rfl⟩ | ⟨hne, toAcc, _, rfl⟩⟩ := transferNow_ok hok
  · exact ⟨_, getElem?_putAcc_self _ _ _, SameKey.refl _⟩
  · refine ⟨debitedRow genCfg h acc balance nonce, ?_, SameKey.refl _⟩
    rw [getElem?_putAcc, if_neg hne, getElem?_putAcc, if_pos rfl]

theorem creditImport_key {toId : AccountId} {src : Account} {amount : U128}
    (hok : creditImport id toId src amount s = .ok u s') :
    ∃ a', s'.accounts[id]? = some a' ∧ SameKey a' src := by
  obtain ⟨_, rfl⟩ | ⟨hne, toAcc, _, rfl⟩ := creditImport_ok hok
  · exact ⟨_, getElem?_putAcc_self _ _ _, SameKey.refl _⟩
  · refine ⟨src, ?_, SameKey.refl _⟩
    rw [getElem?_putAcc, if_neg hne, getElem?_putAcc, if_pos rfl]

theorem evacuateIfNamed_key {target : Option AccountId} {a a' : Account}
    (hok : evacuateIfNamed id target a s = .ok a' s') : SameKey a' a := by
  obtain ⟨_, rfl, _⟩ | ⟨t, _, hevac⟩ := evacuateIfNamed_ok hok
  · exact SameKey.refl _
  · obtain ⟨_, rfl, _⟩ | ⟨_, targetAcc, _, rfl, _⟩ := evacuate_ok hevac
    · exact SameKey.refl _
    · exact SameKey.refl _

/-- An arm leaves the signer's row as it was, or writes it with the key it was given. -/
theorem applyBody_key {redirTo : Option AccountId}
    (hok : applyBody C genCfg tx h id acc redirTo s = .ok u s') :
    s'.accounts = s.accounts ∨ ∃ a', s'.accounts[id]? = some a' ∧ SameKey a' acc := by
  unfold applyBody at hok
  cases hbody : tx.body with
  | init index flags =>
      simp only [hbody] at hok
      obtain ⟨_, nonce, _, rfl⟩ := applyInit_ok hok
      exact .inr ⟨_, getElem?_putAcc_self _ _ _, initRow_sameKey index flags⟩
  | transfer toId amount fee =>
      simp only [hbody] at hok
      obtain ⟨_, total, _, _, ⟨_, hqueue⟩ | ⟨_, hnow⟩⟩ := applyTransfer_ok hok
      · obtain ⟨_, feePwm, _, rfl⟩ := enqueueConservation_ok hqueue
        exact .inl rfl
      · exact .inr (transferNow_key hnow)
  | stake amount =>
      simp only [hbody] at hok
      obtain ⟨_, balance, staked, nonce, _, _, _, rfl⟩ := applyStake_ok hok
      exact .inr ⟨_, getElem?_putAcc_self _ _ _, SameKey.refl _⟩
  | unstake amount =>
      simp only [hbody] at hok
      obtain ⟨_, balance, staked, nonce, _, _, _, rfl⟩ := applyUnstake_ok hok
      exact .inr ⟨_, getElem?_putAcc_self _ _ _, SameKey.refl _⟩
  | burnMark markAmount beneficiary =>
      simp only [hbody] at hok
      obtain ⟨_, marks, nonce, _, _, rfl⟩ := applyBurnMark_ok hok
      exact .inr ⟨_, getElem?_putAcc_self _ _ _, SameKey.refl _⟩
  | claimIPv4Batch phase batchRoot registrySig =>
      simp only [hbody] at hok
      obtain ⟨_, phaseRow, nonce, _, _, rfl⟩ := applyClaimIPv4Batch_ok hok
      exact .inr ⟨_, getElem?_putAcc_self _ _ _, SameKey.refl _⟩
  | exportTx toId targetDomain amount fee =>
      simp only [hbody] at hok
      obtain ⟨_, total, balance, nonce, exportId, _, _, _, _, rfl⟩ := applyExport_ok hok
      exact .inr ⟨_, getElem?_putAcc_self _ _ _, SameKey.refl _⟩
  | importTx toId amount exportId =>
      simp only [hbody] at hok
      obtain ⟨_, _, _, expected, insert, fee, balance, nonce, s₁, _, _, _, _, _, hcredit, rfl⟩ :=
        applyImport_ok hok
      obtain ⟨a', ha', hsame⟩ := creditImport_key hcredit
      exact .inr ⟨a', by rw [settleImport_accounts, ha'], hsame⟩
  | policy targetAccount action fee =>
      simp only [hbody] at hok
      obtain ⟨_, a, balance, a', nonce, s₁, _, haction, _, hevac, _, rfl⟩ := applyPolicy_ok hok
      have haction' : SameKey a (touchAcctMrks acc h genCfg) := applyPolicyAction_sameKey haction
      have hevac' : SameKey a' { a with balancePwm := balance } := evacuateIfNamed_key hevac
      have hkey : SameKey a' acc := hevac'.trans haction'
      exact .inr ⟨_, getElem?_putAcc_self _ _ _, hkey⟩

theorem initStub_ownIds (hown : s.OwnIds C) : (initStub C tx s).OwnIds C := by
  intro j a ha
  unfold initStub at ha
  cases hbody : tx.body with
  | init index flags =>
      simp only [hbody] at ha
      split at ha
      · exact hown j a ha
      · rw [getElem?_putAcc] at ha
        split at ha
        · obtain rfl := Option.some.inj ha
          exact fun hinit => absurd hinit Bool.false_ne_true
        · exact hown j a ha
  | _ =>
      rw [hbody] at ha
      exact hown j a ha

/-- The row that the arms see has the key of its address. -/
theorem signerRow_key {a : Account} (hown : OwnKey C (tx.computedAccountId C) a) :
    accountIdFromParts C (signerRow a tx).signingPubkey (signerRow a tx).derivationIndex =
      tx.computedAccountId C := by
  unfold signerRow
  split
  · rename_i hinit
    exact hown hinit
  · rfl

theorem applyTxImpl_ownIds {skipPolicy : Bool} (hown : s.OwnIds C)
    (hok : applyTxImpl C genCfg tx h now skipPolicy s = .ok u s') : s'.OwnIds C := by
  obtain ⟨a₀, redirTo, hrow, _, _, _, hbody⟩ := applyTxImpl_ok hok
  have hstub : (initStub C tx s).OwnIds C := initStub_ownIds hown
  have hkey := signerRow_key (hstub _ a₀ hrow)
  intro j a ha
  by_cases hj : tx.computedAccountId C = j
  · subst hj
    obtain hsame | ⟨a', ha', hpk, hidx⟩ := applyBody_key hbody
    · rw [hsame] at ha
      exact hstub _ a ha
    · obtain rfl := Option.some.inj (ha'.symm.trans ha)
      intro _
      rw [hpk, hidx]
      exact hkey
  · obtain ⟨b, hb, hcredit⟩ := (applyBody_rowKept hj hbody).row_before ha
    exact (hstub j b hb).credited hcredit

theorem applyDueConservation_ownIds {row : PendingConservationTransfer} (hown : s.OwnIds C)
    (hok : applyDueConservation genCfg h row s = .ok u s') : s'.OwnIds C := by
  obtain ⟨senderAcc, dst, total, balance, nonce, toAcc, hsender, _, _, _, _, _, hto, rfl⟩ :=
    applyDueConservation_ok hok
  intro j a ha
  rw [getElem?_putAcc, getElem?_putAcc] at ha
  split at ha
  · rename_i hj
    obtain rfl := Option.some.inj ha
    exact (hown j toAcc (hj ▸ hto)).credited (.creditedRow genCfg h toAcc _)
  · split at ha
    · rename_i hj
      obtain rfl := Option.some.inj ha
      exact hown j senderAcc (hj ▸ hsender)
    · exact hown j a ha

end Arms

/-! ## Steps and runs -/

section Steps

variable {C : Crypto} {genCfg : GenCfg} {s s' : State} {l : LedgerLabel} {ls : List LedgerLabel}

theorem drains_ownIds {h : U64} {rows : List PendingConservationTransfer} {moves : List DrainMove}
    (hown : s.OwnIds C) (hd : Drains genCfg h rows s moves s') : s'.OwnIds C := by
  induction hd with
  | nil => exact hown
  | kept _ ih => exact ih hown
  | executed hrow _ ih => exact ih (applyDueConservation_ownIds hown hrow)

theorem ownIds_of_kept (hown : s.OwnIds C) (hkept : ∀ j, RowKept j s s') : s'.OwnIds C := by
  intro j a ha
  obtain ⟨b, hb, hcredit⟩ := (hkept j).row_before ha
  exact (hown j b hb).credited hcredit

/-- No step moves a key to another address. -/
theorem step_ownIds (hown : s.OwnIds C) (hstep : LedgerStep C genCfg s l s') : s'.OwnIds C := by
  cases l with
  | applied tx =>
      cases hstep with
      | applied hok => exact applyTxImpl_ownIds hown hok
  | failed tx =>
      cases hstep with
      | failed herr =>
          rcases applyTxImpl_error C genCfg herr with rfl | rfl
          · exact hown
          · exact initStub_ownIds hown
  | drained h moves =>
      cases hstep with
      | drained hok =>
          have hstart : ({ s with pendingConservation := [] } : State).OwnIds C := hown
          exact drains_ownIds hstart (drains_of_ok hok)
  | _ => exact ownIds_of_kept hown fun j => step_rowKept hstep List.not_mem_nil

theorem run_ownIds (hown : s.OwnIds C) (hrun : Run (LedgerStep C genCfg) s ls s') :
    s'.OwnIds C :=
  hrun.invariant (fun _ _ _ hown hstep => step_ownIds hown hstep) hown

end Steps

end Pwm
