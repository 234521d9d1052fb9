import Pwm.Ledger.Frozen

/-!
# Emergency activation

What a successful activation of the emergency redirect leaves of the account and
of its rescue account. An account whose redirect is active already takes the
short cut of the activation helper: its funds move, but it is not finalized.
-/

namespace Pwm

open BitVec Attempt

section Activate

variable {a b : Account} {h : U64} {t : Option AccountId}

/-- The activation finalizes a row unless its redirect is active already. -/
theorem applyPolicyAction_activate
    (hok : applyPolicyAction a (.activatePolicy PolicyKind.routingEmergencyRedirect.policyId t) h =
      .ok b) :
    b.finalized = true ↔ a.finalized = true ∨ a.activePolicies &&& redirectBit = 0#16 := by
  simp only [applyPolicyAction, PolicyKind.fromPolicyId_policyId] at hok
  split at hok
  · split at hok <;> cases hok
  · split at hok
    · rename_i hactive
      obtain rfl := Except.ok.inj hok
      exact ⟨Or.inl, fun hcase => hcase.resolve_right hactive⟩
    · rename_i hinactive
      split at hok
      · cases hok
      · obtain rfl := Except.ok.inj hok
        refine ⟨fun _ => .inr (not_not.mp hinactive), fun _ => ?_⟩
        simp

end Activate

/-- The account is emptied and finalized, the rescue account has its funds after the fee, nothing
of the account is queued, and its nonce is the next one. -/
structure Evacuated (id : AccountId) (fee : U128) (acc rescue acc' rescue' : Account)
    (s' : State) : Prop where
  finalized : acc'.finalized = true
  balance : acc'.balancePwm = 0#128
  stake : acc'.stakedPwmRaw = 0#128
  credited : rescue'.balancePwm.toNat =
    rescue.balancePwm.toNat + (acc.balancePwm.toNat - fee.toNat + acc.stakedPwmRaw.toNat)
  pending : ∀ row ∈ s'.pendingConservation, row.sender ≠ id
  nonce : acc'.nonce.toNat = acc.nonce.toNat + 1

section Evacuation

variable {C : Crypto} {genCfg : GenCfg} {tx : SignedTx} {h now : U64} {skipPolicy : Bool}
  {s s' : State} {account target : AccountId} {fee : U128}

/-- The rescue row with the funds of an account. -/
def rescuedRow (rescue : Account) (balance stake : U128) : Account :=
  { rescue with balancePwm := (rescue.balancePwm.saturatingAdd balance).saturatingAdd stake }

/-- The row of an evacuated account. -/
def emptiedRow (a : Account) (nonce : U64) : Account :=
  { a with balancePwm := 0#128, stakedPwmRaw := 0#128, nonce := nonce }

/-- The rescue account gets the sum unless its balance saturates. -/
theorem rescuedRow_balance_iff (rescue : Account) (balance stake : U128) :
    (rescuedRow rescue balance stake).balancePwm.toNat =
        rescue.balancePwm.toNat + (balance.toNat + stake.toNat) ↔
      rescue.balancePwm.toNat + (balance.toNat + stake.toNat) < 2 ^ 128 := by
  rw [rescuedRow, toNat_saturatingAdd, toNat_saturatingAdd]
  omega

/-- What an activation that names another account leaves. -/
theorem applyPolicy_evacuates {id : AccountId} {acc : Account} {u : Unit} (hne : target ≠ id)
    (hok : applyPolicy C genCfg tx h id acc account
      (.activatePolicy PolicyKind.routingEmergencyRedirect.policyId (some target)) fee s =
        .ok u s') :
    ∃ a rescue balance nonce, acc.rescueAddress = some target ∧
      s.accounts[target]? = some rescue ∧
      applyPolicyAction (touchAcctMrks acc h genCfg)
        (.activatePolicy PolicyKind.routingEmergencyRedirect.policyId (some target)) h = .ok a ∧
      acc.balancePwm.checkedSub fee = some balance ∧ acc.nonce.checkedAdd 1#64 = some nonce ∧
      s' = (((s.addFee fee).dropPending id).putAcc target
        (rescuedRow rescue balance acc.stakedPwmRaw)).putAcc id (emptiedRow a nonce) := by
  obtain ⟨-, a, balance, a', nonce, s₁, hvalid, haction, hbalance, hevac, hnonce, rfl⟩ :=
    applyPolicy_ok hok
  obtain ⟨hsameBalance, hsameStake, hsameNonce⟩ := applyPolicyAction_sameFunds haction
  obtain ⟨_, hnamed, hrescue⟩ := validatePolAction_target hvalid rfl
  obtain rfl := Option.some.inj hnamed
  obtain ⟨hnone, -⟩ | ⟨t, hsome, hevac⟩ := evacuateIfNamed_ok hevac
  · cases hnone
  obtain rfl := Option.some.inj hsome
  obtain ⟨hself, -⟩ | ⟨-, rescue, hrow, rfl, rfl⟩ := evacuate_ok hevac
  · exact absurd hself hne
  rw [hsameBalance, touchAcctMrks_balancePwm] at hbalance
  rw [hsameNonce, touchAcctMrks_nonce] at hnonce
  refine ⟨a, rescue, balance, nonce, hrescue, hrow, haction, hbalance, hnonce, ?_⟩
  rw [hsameStake, touchAcctMrks_stakedPwmRaw]
  rfl

/-- A successful activation that names another account leaves the account emptied and finalized
and its rescue account credited in full exactly when the redirect was not active before, or the
account was finalized, and the sum fits into the rescue balance. -/
theorem emergency_activation_evacuates_iff (hne : target ≠ tx.computedAccountId C)
    (hbody : tx.body = .policy account
      (.activatePolicy PolicyKind.routingEmergencyRedirect.policyId (some target)) fee)
    (hok : applyTxImpl C genCfg tx h now skipPolicy s = .ok () s') :
    ∃ acc rescue acc' rescue', s.accounts[tx.computedAccountId C]? = some acc ∧
      s.accounts[target]? = some rescue ∧ acc.rescueAddress = some target ∧
      s'.accounts[tx.computedAccountId C]? = some acc' ∧ s'.accounts[target]? = some rescue' ∧
      (Evacuated (tx.computedAccountId C) fee acc rescue acc' rescue' s' ↔
        (acc.finalized = true ∨ acc.activePolicies &&& redirectBit = 0#16) ∧
          rescue.balancePwm.toNat +
            (acc.balancePwm.toNat - fee.toNat + acc.stakedPwmRaw.toNat) < 2 ^ 128) := by
  obtain ⟨acc, redirTo, hacc, hnonce, -, -, happly⟩ := applyTxImpl_ok hok
  have hstub : initStub C tx s = s := by rw [initStub, hbody]
  rw [hstub] at hacc happly
  simp only [applyBody, hbody] at happly
  have hsigner : signerRow acc tx = acc := by
    have hinit := (applyPolicy_ok happly).1
    unfold signerRow at hinit ⊢
    split at hinit
    · exact if_pos ‹_›
    · rename_i hnot
      exact absurd hinit hnot
  rw [hsigner] at happly
  obtain ⟨a, rescue, balance, nonce, hrescue, hrow, haction, hbalance, hnext, rfl⟩ :=
    applyPolicy_evacuates hne happly
  have hfinal := applyPolicyAction_activate haction
  change _ ↔ acc.finalized = true ∨ acc.activePolicies &&& redirectBit = 0#16 at hfinal
  obtain ⟨hfee, hleft⟩ := checkedSub_eq_some_iff.mp hbalance
  have hraised : nonce.toNat = acc.nonce.toNat + 1 := checkedAdd_eq_some_iff.mp hnext
  have hfits := rescuedRow_balance_iff rescue balance acc.stakedPwmRaw
  rw [hleft] at hfits
  refine ⟨acc, rescue, emptiedRow a nonce, rescuedRow rescue balance acc.stakedPwmRaw, hacc, hrow,
    hrescue, ?_, ?_, fun hall => ⟨hfinal.mp hall.finalized, hfits.mp hall.credited⟩,
    fun hcond => ⟨hfinal.mpr hcond.1, rfl, rfl, hfits.mpr hcond.2, ?_, hraised⟩⟩
  · rw [getElem?_putAcc, if_pos rfl]
  · rw [getElem?_putAcc, if_neg (Ne.symm hne), getElem?_putAcc, if_pos rfl]
  · intro row hmem
    rw [putAcc_pendingConservation, putAcc_pendingConservation] at hmem
    exact of_decide_eq_true (List.mem_filter.mp hmem).2

end Evacuation

/-- The activation of a dormant redirect. -/
theorem emergency_activation_evacuates_dormant :
    ∃ id, id = SelfDrain.activateTx.computedAccountId SelfDrain.crypto ∧ devNetRow.acct ≠ id ∧
      ∃ acc rescue acc' rescue', SelfDrain.afterTransfer.accounts[id]? = some acc ∧
        SelfDrain.afterTransfer.accounts[devNetRow.acct]? = some rescue ∧
        acc.rescueAddress = some devNetRow.acct ∧
        SelfDrain.afterActivate.accounts[id]? = some acc' ∧
        SelfDrain.afterActivate.accounts[devNetRow.acct]? = some rescue' ∧
        (Evacuated id 0#128 acc rescue acc' rescue' SelfDrain.afterActivate ↔
          (acc.finalized = true ∨ acc.activePolicies &&& redirectBit = 0#16) ∧
            rescue.balancePwm.toNat +
              (acc.balancePwm.toNat - (0#128).toNat + acc.stakedPwmRaw.toNat) < 2 ^ 128) := by
  have hne : devNetRow.acct ≠ SelfDrain.activateTx.computedAccountId SelfDrain.crypto := by
    decide
  have hbody : SelfDrain.activateTx.body = .policy SelfDrain.rescuedId
      (.activatePolicy PolicyKind.routingEmergencyRedirect.policyId (some devNetRow.acct))
      0#128 := by
    decide
  exact ⟨_, rfl, hne, emergency_activation_evacuates_iff hne hbody SelfDrain.activate_applied⟩

/-! ## A redirect that was installed as active -/

namespace ActiveRedirect

/-- As `SelfDrain.initTx`, with the redirect active at once. -/
def initTx : SignedTx :=
  { SelfDrain.initTx with
    initV4 := SelfDrain.initTx.initV4.map fun ext =>
      { ext with initialPolicies := [⟨.routingEmergencyRedirect, .immediately⟩] }
    signature := 0x76a94a7abdefcf24f7f3971c12f7690f5d01d5b2c3287840ab9113fd3c4429af97f4e853e17afaafcd4b816ca5c541a3b0786139c25449eb34496e6466b1f70c#512 }

def crypto : Crypto :=
  .ofTables
    [(devNetRow.pubkey.beBytes 32 ++ (0#32).leBytes 4, devNetRow.acct),
      (SelfDrain.rescuedPk.beBytes 32 ++ (0#32).leBytes 4, SelfDrain.rescuedId)]
    [⟨devNetSk, devNetRow.pubkey, [(SelfDrain.activateTx.signingMessage,
        0xe4ec7032ebb988a877a0149054299785b0b10d5f283425f91a352648cac6f0a92ddb1ff9442e4c165dc1889b82094363263366143bdcb582fd950d7a9e82d703#512)]⟩,
      ⟨SelfDrain.rescuedSk, SelfDrain.rescuedPk, [(initTx.signingMessage, initTx.signature),
        (SelfDrain.activateTx.signingMessage, SelfDrain.activateTx.signature)]⟩]

def afterInit : State := endState (applyTxWithCtx crypto devNet initTx 1#64 0#64 devNet.state0)

def afterActivate : State :=
  endState (applyTxWithCtx crypto devNet SelfDrain.activateTx 2#64 0#64 afterInit)

end ActiveRedirect

/-- The activation succeeds and the account is not finalized. -/
theorem activeRedirect_not_finalized :
    devNetRow.acct ≠ SelfDrain.rescuedId ∧
      applyTxWithCtx ActiveRedirect.crypto devNet ActiveRedirect.initTx 1#64 0#64 devNet.state0 =
        .ok () ActiveRedirect.afterInit ∧
      applyTxWithCtx ActiveRedirect.crypto devNet SelfDrain.activateTx 2#64 0#64
        ActiveRedirect.afterInit = .ok () ActiveRedirect.afterActivate ∧
      (ActiveRedirect.afterActivate.accounts[SelfDrain.rescuedId]?).map Account.finalized =
        some false := by
  decide +kernel

end Pwm
