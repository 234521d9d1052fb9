import Pwm.Core.Chain

/-!
# The validation worker

A worker checks a client's transaction against what the node published of its
tip: a snapshot of the ledger, the hot rows for plain transfers, the height
and the configuration. A transaction that passes enters a seal as validated.
-/

namespace Pwm

/-- What the checks of a plain transfer read of an account. -/
structure AccountHot where
  balance : U128
  nonce : U64
  flags : U32
  activePolicies : U8
  initialized : Bool
  deriving DecidableEq

def accountHot (id : AccountId) (account : Account) : AccountHot where
  balance := account.balancePwm
  nonce := account.nonce
  flags := account.flags ||| (addressFlags id &&& (cosignNonDisableable ||| conservation))
  activePolicies :=
    if account.activePolicies ≠ 0#16 ∨ account.dormantPolicies ≠ 0#16 ∨
        account.deferredPolicies ≠ [] ∨ account.finalized ∨ account.rescueAddress.isSome then 1#8
    else 0#8
  initialized := account.initialized

abbrev HotMap := Std.ExtTreeMap AccountId AccountHot compare

def buildMap (st : State) : HotMap :=
  st.accounts.map accountHot

/-- What a worker reads. -/
structure WorkerCtx where
  snapshot : State
  hotIndex : HotMap
  tipHeight : U64
  cfg : GenCfg

/-- The published tip of a chain. -/
def Chain.workerCtx (ch : Chain) : WorkerCtx where
  snapshot := ch.st
  hotIndex := buildMap ch.st
  tipHeight := ch.tipH
  cfg := ch.cfg

inductive TxRejectReason
  | shapeInvalid (e : TxError)
  | policyDenied
  | staleDuplicate
  | precheckFailed (msg : String)
  deriving DecidableEq

/-- Why a worker does not pass a transaction on; a panic ends its thread. -/
inductive WorkerFault
  | reject (reason : TxRejectReason)
  | panic
  deriving DecidableEq

def precheckMsg (reason : String) : WorkerFault :=
  .reject (.precheckFailed reason)

def precheckErr : TxError → WorkerFault
  | .badNonce => .reject .staleDuplicate
  | .duplicateImport => .reject .staleDuplicate
  | .alreadyInit => .reject .staleDuplicate
  | e => precheckMsg e.text

/-- Dry run of a transaction on a copy of the ledger. -/
def State.precheckApplyWithCtx (C : Crypto) (st : State) (tx : SignedTx)
    (inclusionHeight blockUnixTime : U64) (genCfg : GenCfg) : Except Fault Unit :=
  match applyTxWithCtx C genCfg tx inclusionHeight blockUnixTime st with
  | .ok _ _ => .ok ()
  | .error e _ => .error e

/-- Dry run on the next block after the tip. -/
def State.precheckApplyTip (C : Crypto) (st : State) (tx : SignedTx) (tipHeight blockUnixTime : U64)
    (genCfg : GenCfg) : Except Fault Unit :=
  st.precheckApplyWithCtx C tx (tipHeight.saturatingAdd 1#64) blockUnixTime genCfg

def hotSafe (account : AccountHot) : Bool :=
  decide (account.flags = 0#32 ∧ account.activePolicies = 0#8)

def checkHotTransfer (nonce : U64) (amount fee : U128) (sender recipient : AccountHot) :
    Except WorkerFault Unit :=
  if ¬ sender.initialized then .error (precheckMsg "sender account is not initialized")
  else if ¬ recipient.initialized then .error (precheckMsg "recipient account is not initialized")
  else if nonce ≠ sender.nonce then .error (.reject .staleDuplicate)
  else match amount.checkedAdd fee with
  | none => .error (precheckMsg "transfer amount plus fee overflow")
  | some total =>
      if sender.balance < total then .error (precheckMsg "insufficient balance") else .ok ()

section Precheck

variable (C : Crypto) (ctx : WorkerCtx) (tx : SignedTx)

/-- The short check of a transfer between two accounts without flags and policies. -/
def precheckHot : Option (Except WorkerFault Unit) :=
  match tx.body with
  | .transfer toId amount fee =>
      match ctx.hotIndex[tx.computedAccountId C]?, ctx.hotIndex[toId]? with
      | some sender, some recipient =>
          if ¬ hotSafe sender ∨ ¬ hotSafe recipient then none
          else some (checkHotTransfer tx.nonce amount fee sender recipient)
      | _, _ => none
  | _ => none

def isInit (body : TxBody) : Bool :=
  match body with
  | .init _ _ => true
  | _ => false

/-- The full check: the policies at the tip, then a dry run on the next block. -/
def precheckFull (now : Except String U64) : Except WorkerFault Unit :=
  if ¬ isInit tx.body ∧ ctx.snapshot.evaluatePolicy C tx ctx.tipHeight ≠ .allow then
    .error (.reject .policyDenied)
  else match now with
  | .error msg => .error (precheckMsg msg)
  | .ok nextTs =>
      match ctx.snapshot.precheckApplyWithCtx C tx (ctx.tipHeight.saturatingAdd 1#64) nextTs
        ctx.cfg with
      | .ok _ => .ok ()
      | .error (.err e) => .error (precheckErr e)
      | .error .panic => .error .panic

def precheckClient (now : Except String U64) : Except WorkerFault SealEntry := do
  match validateTxShape C tx with
  | .ok _ => .ok ()
  | .error e => .error (.reject (.shapeInvalid e))
  (precheckHot C ctx tx).getD (precheckFull C ctx tx now)
  .ok (.preValidated tx ctx.tipHeight)

/-- What a worker passes on has a valid shape and signature and passed the short or the full
check. -/
theorem precheckClient_ok {now : Except String U64} {entry : SealEntry}
    (hok : precheckClient C ctx tx now = .ok entry) :
    validateTxShape C tx = .ok () ∧
      (precheckHot C ctx tx).getD (precheckFull C ctx tx now) = .ok () ∧
      entry = .preValidated tx ctx.tipHeight := by
  unfold precheckClient at hok
  cases hshape : validateTxShape C tx with
  | error e => simp [hshape, bind, Except.bind] at hok
  | ok _ =>
      simp only [hshape, bind, Except.bind] at hok
      cases hcheck : (precheckHot C ctx tx).getD (precheckFull C ctx tx now) with
      | error e => simp [hcheck] at hok
      | ok _ =>
          simp only [hcheck] at hok
          exact ⟨rfl, rfl, (Except.ok.inj hok).symm⟩

/-- The full check of a body other than INIT: the policies allow it, and the dry run succeeds. -/
theorem precheckFull_ok {now : Except String U64} (hok : precheckFull C ctx tx now = .ok ())
    (hbody : isInit tx.body = false) :
    ctx.snapshot.evaluatePolicy C tx ctx.tipHeight = .allow ∧ ∃ nextTs s',
      applyTxWithCtx C ctx.cfg tx (ctx.tipHeight.saturatingAdd 1#64) nextTs ctx.snapshot =
        .ok () s' := by
  unfold precheckFull at hok
  split at hok
  · cases hok
  · rename_i hpolicy
    refine ⟨by simpa [hbody] using hpolicy, ?_⟩
    cases hnow : now with
    | error msg => simp [hnow] at hok
    | ok nextTs =>
        simp only [hnow] at hok
        refine ⟨nextTs, ?_⟩
        unfold State.precheckApplyWithCtx at hok
        cases hrun : applyTxWithCtx C ctx.cfg tx (ctx.tipHeight.saturatingAdd 1#64) nextTs
            ctx.snapshot with
        | ok _ s' => exact ⟨s', rfl⟩
        | error fault s' =>
            rw [hrun] at hok
            cases fault <;> cases hok

end Precheck

end Pwm
