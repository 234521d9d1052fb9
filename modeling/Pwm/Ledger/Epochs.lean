import Pwm.Core.ApplySpec
import Pwm.Core.Chain
import Pwm.Ledger.Steps

/-!
# Epochs

The epoch counter and the active validator set change at an epoch boundary and
nowhere else: no transaction, timeout, drain or reward writes them.
-/

namespace Pwm

open BitVec Attempt

/-- The epoch counter and the active validator set. -/
def State.epoch (st : State) : U64 × List U16 :=
  (st.epochCounter, st.activeValidatorIndices)

section Fields

variable (st : State) (id : AccountId) (a : Account) (fee : U128) (lock : CrossShardLock)
  (row : PendingConservationTransfer)

@[simp] theorem putAcc_epoch : (st.putAcc id a).epoch = st.epoch := rfl
@[simp] theorem addFee_epoch : (st.addFee fee).epoch = st.epoch := rfl
@[simp] theorem pushLock_epoch : (st.pushLock lock).epoch = st.epoch := rfl
@[simp] theorem pushPending_epoch : (st.pushPending row).epoch = st.epoch := rfl
@[simp] theorem dropPending_epoch : (st.dropPending id).epoch = st.epoch := rfl

@[simp] theorem recordExport_epoch (genCfg : GenCfg) (h : U64) (exportId : Bytes32)
    (prov : ExportProvenance) :
    (st.recordExport genCfg h id exportId prov).epoch = st.epoch := by
  unfold State.recordExport
  dsimp only
  split <;> rfl

@[simp] theorem registerProvenance_epoch (insert : Bool) (exportId : Bytes32)
    (prov : ExportProvenance) :
    (st.registerProvenance insert exportId prov).epoch = st.epoch := by
  cases insert <;> rfl

@[simp] theorem settleImport_epoch (exportId : Bytes32) :
    (st.settleImport exportId).epoch = st.epoch := by
  unfold State.settleImport State.releaseLock
  split <;> rfl

@[simp] theorem initStub_epoch (C : Crypto) (tx : SignedTx) :
    (initStub C tx st).epoch = st.epoch := by
  unfold initStub
  cases tx.body with
  | init index flags =>
      dsimp only
      split <;> rfl
  | _ => rfl

end Fields

/-! ## Transactions -/

section Apply

variable {C : Crypto} {genCfg : GenCfg} {tx : SignedTx} {h now : U64} {id : AccountId}
  {acc : Account} {s s' : State} {u : Unit}

theorem transferNow_epoch {dst : AccountId} {amount fee total : U128}
    (hok : transferNow genCfg h id acc dst amount fee total s = .ok u s') :
    s'.epoch = s.epoch := by
  obtain ⟨balance, nonce, _, _, ⟨_, rfl⟩ | ⟨_, toAcc, _, rfl⟩⟩ := transferNow_ok hok
  · rfl
  · rfl

theorem creditImport_epoch {toId : AccountId} {src : Account} {amount : U128}
    (hok : creditImport id toId src amount s = .ok u s') : s'.epoch = s.epoch := by
  obtain ⟨_, rfl⟩ | ⟨_, toAcc, _, rfl⟩ := creditImport_ok hok
  · rfl
  · rfl

theorem evacuateIfNamed_epoch {target : Option AccountId} {a a' : Account}
    (hok : evacuateIfNamed id target a s = .ok a' s') : s'.epoch = s.epoch := by
  obtain ⟨_, _, rfl⟩ | ⟨t, _, hevac⟩ := evacuateIfNamed_ok hok
  · rfl
  · obtain ⟨_, _, rfl⟩ | ⟨_, targetAcc, _, _, rfl⟩ := evacuate_ok hevac
    · rfl
    · rfl

theorem applyBody_epoch {redirTo : Option AccountId}
    (hok : applyBody C genCfg tx h id acc redirTo s = .ok u s') : s'.epoch = s.epoch := by
  unfold applyBody at hok
  cases hbody : tx.body with
  | init index flags =>
      simp only [hbody] at hok
      obtain ⟨_, nonce, _, rfl⟩ := applyInit_ok hok
      rfl
  | transfer toId amount fee =>
      simp only [hbody] at hok
      obtain ⟨_, total, _, _, ⟨_, hqueue⟩ | ⟨_, hnow⟩⟩ := applyTransfer_ok hok
      · obtain ⟨_, feePwm, _, rfl⟩ := enqueueConservation_ok hqueue
        rfl
      · exact transferNow_epoch hnow
  | stake amount =>
      simp only [hbody] at hok
      obtain ⟨_, balance, staked, nonce, _, _, _, rfl⟩ := applyStake_ok hok
      rfl
  | unstake amount =>
      simp only [hbody] at hok
      obtain ⟨_, balance, staked, nonce, _, _, _, rfl⟩ := applyUnstake_ok hok
      rfl
  | burnMark markAmount reason =>
      simp only [hbody] at hok
      obtain ⟨_, marks, nonce, _, _, rfl⟩ := applyBurnMark_ok hok
      rfl
  | claimIPv4Batch phase batchRoot registrySig =>
      simp only [hbody] at hok
      obtain ⟨_, phaseRow, nonce, _, _, rfl⟩ := applyClaimIPv4Batch_ok hok
      rfl
  | exportTx toId targetDomain amount fee =>
      simp only [hbody] at hok
      obtain ⟨_, total, balance, nonce, exportId, _, _, _, _, rfl⟩ := applyExport_ok hok
      rw [putAcc_epoch, recordExport_epoch, addFee_epoch]
  | importTx toId amount exportId =>
      simp only [hbody] at hok
      obtain ⟨_, _, _, expected, insert, fee, balance, nonce, s₁, _, _, _, _, _, hcredit, rfl⟩ :=
        applyImport_ok hok
      rw [settleImport_epoch, creditImport_epoch hcredit, registerProvenance_epoch, addFee_epoch]
  | policy targetAccount action fee =>
      simp only [hbody] at hok
      obtain ⟨_, a, balance, a', nonce, s₁, _, _, _, hevac, _, rfl⟩ := applyPolicy_ok hok
      rw [putAcc_epoch, evacuateIfNamed_epoch hevac, addFee_epoch]

theorem applyTxImpl_epoch {skipPolicy : Bool}
    (hok : applyTxImpl C genCfg tx h now skipPolicy s = .ok u s') : s'.epoch = s.epoch := by
  obtain ⟨acc, redirTo, _, _, _, _, hbody⟩ := applyTxImpl_ok hok
  rw [applyBody_epoch hbody, initStub_epoch]

theorem forM_applyTxWithCtx_epoch {txs : List SignedTx}
    (hok : (txs.forM fun tx => applyTxWithCtx C genCfg tx h now) s = .ok u s') :
    s'.epoch = s.epoch := by
  induction txs generalizing s with
  | nil =>
      obtain ⟨_, rfl⟩ := pure_ok_iff.mp hok
      rfl
  | cons tx rest ih =>
      obtain ⟨_, s₁, htx, hrest⟩ := bind_ok_iff.mp hok
      rw [ih hrest, applyTxImpl_epoch htx]

end Apply

/-! ## What happens at a height -/

section Height

variable {cfg : GenCfg} {h : U64} {s s' : State}

theorem refundStep_epoch (h : U64) (s : State) (lock : CrossShardLock) :
    (refundStep h s lock).epoch = s.epoch := by
  unfold refundStep
  split <;> rfl

theorem foldl_refundStep_epoch (h : U64) (locks : List CrossShardLock) (s : State) :
    (locks.foldl (refundStep h) s).epoch = s.epoch := by
  induction locks generalizing s with
  | nil => rfl
  | cons lock rest ih => rw [List.foldl_cons, ih, refundStep_epoch]

@[simp] theorem refundExpLocks_epoch (s : State) (h : U64) :
    (s.refundExpLocks h).epoch = s.epoch :=
  foldl_refundStep_epoch h _ _

theorem drains_epoch {rows : List PendingConservationTransfer} {moves : List DrainMove}
    (hd : Drains cfg h rows s moves s') : s'.epoch = s.epoch := by
  induction hd with
  | nil => rfl
  | kept _ ih => rw [ih, pushPending_epoch]
  | executed hrow _ ih =>
      obtain ⟨senderAcc, dst, total, balance, nonce, toAcc, _, _, _, _, _, _, _, rfl⟩ :=
        applyDueConservation_ok hrow
      rw [ih, putAcc_epoch, putAcc_epoch, addFee_epoch]

theorem drainConservationAtHeight_epoch {u : Unit}
    (hok : drainConservationAtHeight cfg h s = .ok u s') : s'.epoch = s.epoch := by
  rw [drains_epoch (drains_of_ok hok)]
  rfl

@[simp] theorem rewardBlock_epoch (cfg : GenCfg) (s : State) (prodAcct : AccountId) (h : U64) :
    (rewardBlock cfg s prodAcct h).epoch = s.epoch := by
  unfold rewardBlock
  split <;> rfl

/-- The active set after the roll: computed again at a boundary, otherwise as it was. -/
theorem rollEpochIfNeeded_epoch (cfg : GenCfg) (s : State) (h : U64) :
    (rollEpochIfNeeded cfg s h).epoch =
      if isEpochBoundary h cfg then
        (s.epochCounter.saturatingAdd 1#64, recomputeActiveIdxs cfg s)
      else s.epoch := by
  unfold rollEpochIfNeeded
  split <;> rfl

end Height

end Pwm
