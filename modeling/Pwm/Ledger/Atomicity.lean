import Pwm.Core.Apply
import Pwm.Core.Crypto

/-!
# What a failed application leaves behind

Every arm makes its checks before its first write. The stub row that INIT
creates is the one write that comes before a check.
-/

namespace Pwm

open Attempt

/-- The fault is an error returned to the caller. -/
def Fault.IsErr (f : Fault) : Prop := ∃ e, f = .err e

theorem not_isErr_panic : ¬ Fault.IsErr .panic := by
  rintro ⟨e, he⟩
  cases he

section Arms

variable (C : Crypto) (genCfg : GenCfg) (tx : SignedTx) (h : U64) (id : AccountId) (acc : Account)

theorem neverFails_putNextNonce (a : Account) : NeverFails Fault.IsErr (putNextNonce id a) :=
  .bind (neverFails_orThrow _ not_isErr_panic) fun _ => neverFails_modify _

theorem failsClean_applyInit (index flags : U32) :
    FailsClean Fault.IsErr (applyInit tx h id acc index flags) :=
  .after_readOnly (readOnly_require _ _) fun _ => (neverFails_putNextNonce id _).failsClean

theorem failsClean_enqueueConservation (dst : AccountId) (amount fee : U128) :
    FailsClean Fault.IsErr (enqueueConservation C genCfg tx h id dst amount fee) := by
  refine .after_readOnly readOnly_get fun st => ?_
  refine .after_readOnly (readOnly_require _ _) fun _ => ?_
  refine .after_readOnly (readOnly_orThrow _ _) fun feePwm => ?_
  exact (neverFails_modify _).failsClean

theorem neverFails_transferNow (dst : AccountId) (amount fee total : U128) :
    NeverFails Fault.IsErr (transferNow genCfg h id acc dst amount fee total) := by
  refine .bind (neverFails_orThrow _ not_isErr_panic) fun balance => ?_
  refine .bind (neverFails_orThrow _ not_isErr_panic) fun nonce => ?_
  refine .bind (neverFails_modify _) fun _ => ?_
  split
  · exact neverFails_modify _
  · refine .bind neverFails_get fun st => ?_
    exact .bind (neverFails_orThrow _ not_isErr_panic) fun toAcc => neverFails_modify _

theorem failsClean_applyTransfer (redirTo : Option AccountId) (toId : AccountId)
    (amount fee : U128) :
    FailsClean Fault.IsErr (applyTransfer C genCfg tx h id acc redirTo toId amount fee) := by
  refine .after_readOnly (readOnly_require _ _) fun _ => ?_
  refine .after_readOnly readOnly_get fun st => ?_
  refine .after_readOnly (readOnly_onlyIf _ (readOnly_liftExcept _ _)) fun _ => ?_
  refine .after_readOnly (readOnly_orThrow _ _) fun total => ?_
  refine .after_readOnly (readOnly_require _ _) fun _ => ?_
  split
  · exact failsClean_enqueueConservation C genCfg tx h id _ amount fee
  · exact (neverFails_transferNow genCfg h id acc _ amount fee total).failsClean

theorem failsClean_applyStake (amount : U128) :
    FailsClean Fault.IsErr (applyStake genCfg h id acc amount) := by
  refine .after_readOnly (readOnly_require _ _) fun _ => ?_
  refine .after_readOnly (readOnly_require _ _) fun _ => ?_
  refine .after_readOnly (readOnly_orThrow _ _) fun balance => ?_
  refine .after_readOnly (readOnly_orThrow _ _) fun staked => ?_
  exact (neverFails_putNextNonce id _).failsClean

theorem failsClean_applyUnstake (amount : U128) :
    FailsClean Fault.IsErr (applyUnstake genCfg h id acc amount) := by
  refine .after_readOnly (readOnly_require _ _) fun _ => ?_
  refine .after_readOnly (readOnly_require _ _) fun _ => ?_
  refine .after_readOnly (readOnly_orThrow _ _) fun staked => ?_
  refine .after_readOnly (readOnly_orThrow _ _) fun balance => ?_
  exact (neverFails_putNextNonce id _).failsClean

theorem failsClean_applyBurnMark (markAmount : U32) :
    FailsClean Fault.IsErr (applyBurnMark genCfg h id acc markAmount) := by
  refine .after_readOnly (readOnly_require _ _) fun _ => ?_
  refine .after_readOnly (readOnly_require _ _) fun _ => ?_
  refine .after_readOnly (readOnly_orThrow _ _) fun marks => ?_
  exact (neverFails_putNextNonce id _).failsClean

theorem failsClean_applyClaimIPv4Batch (phase : U8) (batchRoot : Bytes32) (registrySig : Bytes64) :
    FailsClean Fault.IsErr
      (applyClaimIPv4Batch C genCfg id acc phase batchRoot registrySig) := by
  refine .after_readOnly (readOnly_require _ _) fun _ => ?_
  refine .after_readOnly (readOnly_require _ _) fun _ => ?_
  refine .after_readOnly (readOnly_liftExcept _ _) fun phaseRow => ?_
  refine .after_readOnly readOnly_get fun st => ?_
  refine .after_readOnly (readOnly_liftExcept _ _) fun _ => ?_
  exact (neverFails_putNextNonce id _).failsClean

/-- The id is asked for after the fee was paid, but an EXPORT always has one. -/
theorem failsClean_applyExport (toId : AccountId) (targetDomain : U16) (amount fee : U128)
    {exportId : Bytes32} (hid : tx.exportId C = some exportId) :
    FailsClean Fault.IsErr (applyExport C genCfg tx h id acc toId targetDomain amount fee) := by
  refine .after_readOnly (readOnly_require _ _) fun _ => ?_
  refine .after_readOnly (readOnly_require _ _) fun _ => ?_
  refine .after_readOnly (readOnly_orThrow _ _) fun total => ?_
  refine .after_readOnly (readOnly_require _ _) fun _ => ?_
  refine .after_readOnly (readOnly_orThrow _ _) fun balance => ?_
  refine .after_readOnly (readOnly_orThrow _ _) fun nonce => ?_
  refine (NeverFails.bind (neverFails_modify _) fun _ => ?_).failsClean
  rw [hid]
  exact .bind (neverFails_pure exportId) fun _ => neverFails_modify _

theorem neverFails_creditImport (toId : AccountId) (src : Account) (amount : U128) :
    NeverFails Fault.IsErr (creditImport id toId src amount) := by
  rw [creditImport]
  split
  · exact neverFails_modify _
  · refine .bind neverFails_get fun st => ?_
    exact .bind (neverFails_orThrow _ not_isErr_panic) fun toAcc => neverFails_modify _

theorem readOnly_checkImport (toId : AccountId) (amount : U128) (exportId : Bytes32) :
    ReadOnly (checkImport tx id acc toId amount exportId) := by
  refine .bind (readOnly_require _ _) fun _ => ?_
  refine .bind (readOnly_require _ _) fun _ => ?_
  refine .bind readOnly_get fun st => ?_
  refine .bind (readOnly_require _ _) fun _ => ?_
  refine .bind (readOnly_require _ _) fun _ => ?_
  refine .bind (readOnly_liftExcept _ _) fun expected => ?_
  refine .bind (readOnly_require _ _) fun _ => ?_
  refine .bind (readOnly_onlyIf _ (readOnly_liftExcept _ _)) fun _ => ?_
  refine .bind (readOnly_orThrow _ _) fun fee => ?_
  refine .bind (readOnly_require _ _) fun _ => ?_
  exact .bind (readOnly_require _ _) fun _ => readOnly_pure _

theorem failsClean_applyImport (toId : AccountId) (amount : U128) (exportId : Bytes32) :
    FailsClean Fault.IsErr (applyImport tx id acc toId amount exportId) := by
  refine .after_readOnly (readOnly_checkImport tx id acc toId amount exportId) fun p => ?_
  refine .after_readOnly readOnly_get fun st => ?_
  refine .after_readOnly (readOnly_orThrow _ _) fun balance => ?_
  -- from the fee payment on no step returns an error
  refine (NeverFails.bind (neverFails_modify _) fun _ => ?_).failsClean
  refine .bind (neverFails_onlyIf _ (neverFails_modify _)) fun _ => ?_
  refine .bind (neverFails_orThrow _ not_isErr_panic) fun nonce => ?_
  refine .bind (neverFails_creditImport id toId _ amount) fun _ => ?_
  exact .bind (neverFails_modify _) fun _ => neverFails_modify _

theorem neverFails_evacuate (target : AccountId) (a : Account) :
    NeverFails Fault.IsErr (evacuate id target a) := by
  refine .bind (neverFails_modify _) fun _ => ?_
  split
  · exact neverFails_pure a
  · refine .bind neverFails_get fun st => ?_
    refine .bind (neverFails_orThrow _ not_isErr_panic) fun targetAcc => ?_
    exact .bind (neverFails_modify _) fun _ => neverFails_pure _

theorem neverFails_evacuateIfNamed (target : Option AccountId) (a : Account) :
    NeverFails Fault.IsErr (evacuateIfNamed id target a) := by
  cases target with
  | none => exact neverFails_pure a
  | some target => exact neverFails_evacuate id target a

theorem failsClean_applyPolicy (targetAccount : AccountId) (action : PolicyAction) (fee : U128) :
    FailsClean Fault.IsErr (applyPolicy C genCfg tx h id acc targetAccount action fee) := by
  refine .after_readOnly (readOnly_require _ _) fun _ => ?_
  refine .after_readOnly (readOnly_require _ _) fun _ => ?_
  refine .after_readOnly readOnly_get fun st => ?_
  refine .after_readOnly (readOnly_liftExcept _ _) fun _ => ?_
  refine .after_readOnly (readOnly_liftExcept _ _) fun a => ?_
  refine .after_readOnly (readOnly_orThrow _ _) fun balance => ?_
  refine (NeverFails.bind (neverFails_modify _) fun _ => ?_).failsClean
  exact .bind (neverFails_evacuateIfNamed id _ _) fun a => neverFails_putNextNonce id a

theorem failsClean_applyBody (redirTo : Option AccountId) :
    FailsClean Fault.IsErr (applyBody C genCfg tx h id acc redirTo) := by
  rw [applyBody]
  cases hbody : tx.body with
  | init index flags => exact failsClean_applyInit tx h id acc index flags
  | transfer toId amount fee =>
      exact failsClean_applyTransfer C genCfg tx h id acc redirTo toId amount fee
  | stake amount => exact failsClean_applyStake genCfg h id acc amount
  | unstake amount => exact failsClean_applyUnstake genCfg h id acc amount
  | burnMark markAmount _ => exact failsClean_applyBurnMark genCfg h id acc markAmount
  | claimIPv4Batch phase batchRoot registrySig =>
      exact failsClean_applyClaimIPv4Batch C genCfg id acc phase batchRoot registrySig
  | exportTx toId targetDomain amount fee =>
      have hid : tx.exportId C = some (C.blake3 (tx.exportIdBytes C)) := by
        simp [SignedTx.exportId, hbody]
      exact failsClean_applyExport C genCfg tx h id acc toId targetDomain amount fee hid
  | importTx toId amount exportId => exact failsClean_applyImport tx id acc toId amount exportId
  | policy targetAccount action fee =>
      exact failsClean_applyPolicy C genCfg tx h id acc targetAccount action fee

end Arms

section Apply

variable (C : Crypto) (genCfg : GenCfg) {tx : SignedTx} {h now : U64} {skipPolicy : Bool}

theorem readOnly_txPrologue : ReadOnly (txPrologue C tx h skipPolicy) := by
  refine .bind readOnly_get fun st => ?_
  refine .bind (readOnly_orThrow _ _) fun acc => ?_
  refine .bind (readOnly_require _ _) fun _ => ?_
  refine .bind (readOnly_require _ _) fun _ => ?_
  refine .bind (readOnly_liftExcept _ _) fun redirTo => ?_
  exact .bind (readOnly_require _ _) fun _ => readOnly_pure _

/-- An application that returns an error leaves the state, or the state with the stub row. -/
theorem applyTxImpl_error {s s' : State} {e : TxError}
    (herr : applyTxImpl C genCfg tx h now skipPolicy s = .error (.err e) s') :
    s' = s ∨ s' = initStub C tx s := by
  rcases bind_error_iff.mp herr with hshape | ⟨_, s₁, hshape, hrest⟩
  · exact Or.inl ((readOnly_liftExcept _ _ s).2 _ _ hshape)
  · obtain rfl := (readOnly_liftExcept _ _ s).1 _ _ hshape
    rcases bind_error_iff.mp hrest with hstub | ⟨_, s₂, hstub, hrest⟩
    · exact absurd hstub (by simp)
    · obtain rfl := modify_ok_iff.mp hstub
      have hclean : FailsClean Fault.IsErr
          (txPrologue C tx h skipPolicy >>= fun p =>
            applyBody C genCfg tx h (tx.computedAccountId C) p.1 p.2) :=
        .after_readOnly (readOnly_txPrologue C) fun p =>
          failsClean_applyBody C genCfg tx h _ p.1 p.2
      exact Or.inr (hclean _ _ _ hrest ⟨e, rfl⟩)

/-- The state a failed application leaves: the one before it, except that a failed INIT of an
account without a row has added the empty stub row of that account. -/
theorem applyTx_error_state {s s' : State} {e : TxError}
    (herr : applyTxWithCtx C genCfg tx h now s = .error (.err e) s' ∨
      applyPrecheckedTx C genCfg tx h now s = .error (.err e) s') :
    s' = s ∨
      (∃ index flags, tx.body = .init index flags) ∧
        s.accounts[tx.computedAccountId C]? = none ∧
        s' = s.putAcc (tx.computedAccountId C)
          { signingPubkey := tx.signerPk, derivationIndex := tx.derivationIndex } := by
  have hstub : s' = s ∨ s' = initStub C tx s := by
    rcases herr with herr | herr <;> exact applyTxImpl_error C genCfg herr
  rcases hstub with rfl | rfl
  · exact Or.inl rfl
  · cases hbody : tx.body with
    | init index flags =>
        cases hrow : s.accounts[tx.computedAccountId C]? with
        | none =>
            refine Or.inr ⟨⟨index, flags, rfl⟩, rfl, ?_⟩
            simp [initStub, hbody, hrow]
        | some acc => exact Or.inl (by simp [initStub, hbody, hrow])
    | _ => exact Or.inl (by simp [initStub, hbody])

end Apply

/-- An INIT of the devnet key with nonce 1. -/
def initAheadTx : SignedTx where
  domainCode := 0x32bc#16
  signerPk := devNetRow.pubkey
  derivationIndex := 0#32
  nonce := 1#64
  body := .init 0#32 0#32
  signature := 0x62e7e758c2f761eb1af334285be4876a03a1a1951cb9349bcc47d71bbbb977e716f91df511c70c0037d347dde48cb1ce098578dd1d0355ce9eaa38e210fbbc0d#512

def initAheadCrypto : Crypto :=
  .ofTables [(devNetRow.pubkey.beBytes 32 ++ (0#32).leBytes 4, devNetRow.acct)]
    [⟨devNetSk, devNetRow.pubkey, [(initAheadTx.signingMessage, initAheadTx.signature)]⟩]

/-- The failed INIT leaves a row that was not there. -/
def initAheadStub : State :=
  State.putAcc {} devNetRow.acct { signingPubkey := devNetRow.pubkey }

theorem applyTx_error_adds_stub :
    applyTxWithCtx initAheadCrypto devNet initAheadTx 1#64 0#64 {} =
      .error (.err .badNonce) initAheadStub ∧ initAheadStub ≠ {} := by
  decide +kernel

theorem applyTx_error_state_initAhead :
    initAheadStub = {} ∨
      (∃ index flags, initAheadTx.body = .init index flags) ∧
        ({} : State).accounts[initAheadTx.computedAccountId initAheadCrypto]? = none ∧
        initAheadStub = State.putAcc {} (initAheadTx.computedAccountId initAheadCrypto)
          { signingPubkey := initAheadTx.signerPk,
            derivationIndex := initAheadTx.derivationIndex } :=
  @applyTx_error_state initAheadCrypto devNet initAheadTx 1#64 0#64 {} initAheadStub .badNonce
    (Or.inl (by decide +kernel))

end Pwm
