import Pwm.Core.Serial
import Pwm.Lib.Attempt

/-!
# Applying transactions to the ledger

One transaction is checked against the account of its signer and the policies,
then acted on by the arm of its body. A failed application ends in the state
it had reached. Additions and subtractions without a saturating or checked
form panic on overflow, as in every build profile of the workspace.
-/

namespace Pwm

open BitVec Attempt

/-- How an application fails: with an error returned to the caller, or by a panic. -/
inductive Fault
  | err (e : TxError)
  | panic
  deriving DecidableEq

/-- A computation on the ledger. -/
abbrev Ledger (α : Type) := EStateM Fault State α

def claimIpv4MsgTag : List U8 := strBytes "PWM/IPV4/CLAIM/V1"

namespace State

def putAcc (st : State) (id : AccountId) (a : Account) : State :=
  { st with accounts := st.accounts.insert id a }

def addFee (st : State) (fee : U128) : State :=
  { st with feePool := st.feePool.saturatingAdd fee }

def pushLock (st : State) (lock : CrossShardLock) : State :=
  { st with crossShardLocks := st.crossShardLocks ++ [lock] }

def pushPending (st : State) (row : PendingConservationTransfer) : State :=
  { st with pendingConservation := st.pendingConservation ++ [row] }

def lockIdx (st : State) (exportId : Bytes32) : Option Nat :=
  st.crossShardLocks.findIdx? fun row => decide (row.exportId = exportId)

def hasPendingConserv (st : State) (sender : AccountId) : Bool :=
  st.pendingConservation.any fun row => decide (row.sender = sender)

end State

def findClaimPhase (genCfg : GenCfg) (phase : U8) : Except TxError ClaimPhaseConfig :=
  match genCfg.ipv4ClaimPhases.find? fun row => decide (row.phase = phase) with
  | some row => .ok row
  | none => .error .policySchemaInvalid

def claimIpv4Msg (phase : U8) (batchRoot : Bytes32) (claimant : AccountId) : List U8 :=
  claimIpv4MsgTag ++ [phase] ++ batchRoot.beBytes 32 ++ claimant.beBytes 32

def verifyClaimSig (C : Crypto) (st : State) (regId : AccountId) (msg : List U8)
    (registrySig : Bytes64) : Except TxError Unit :=
  match (st.initializedAcc regId).map Account.signingPubkey with
  | none => .error .policySchemaInvalid
  | some regPk => if C.verify regPk msg registrySig then .ok () else .error .badSignature

def pendingPolAllowed : PolicyAction → Bool
  | .activatePolicy policyId _ => decide (policyId = PolicyKind.routingEmergencyRedirect.policyId)
  | _ => false

def pendingTxConflict : TxBody → Bool
  | .transfer _ _ _ => false
  | .policy _ action _ => !pendingPolAllowed action
  | _ => true

def requireRecipient (st : State) (id : AccountId) : Except TxError Unit :=
  match st.accounts[id]? with
  | none => .error .recipientMissing
  | some acc => if acc.initialized then .ok () else .error .recipientNotInitialized

/-! ## The arms -/

section Arms

variable (C : Crypto) (genCfg : GenCfg) (tx : SignedTx) (h : U64) (id : AccountId) (acc : Account)

/-- The row written by INIT, with its nonce still to be raised. -/
def initRow (index flags : U32) : Account :=
  let a := { acc with initialized := true, index := index, flags := flags }
  let a := match tx.initV4 with
    | none => a
    | some ext =>
        ext.initialPolicies.foldl
          (fun a (row : InitPolicyEntry) => setPolMode a row.policy row.activation h)
          { a with
            ownerKind := ext.ownerKind
            ownerDisplayName := ext.ownerDisplayName
            ownerCountryHint := ext.ownerCountryHint
            companyMetadataCommitment := some ext.companyMetadataCommitment
            externalVerificationRef := some ext.externalVerificationRef
            requestedDomainLo := some ext.requestedDomainLo
            rescueAddress := ext.rescueAddress }
  { a with marksLastBlock := h }

/-- Write the signer's row back with the next nonce. -/
def putNextNonce (a : Account) : Ledger Unit := do
  let nonce ← orThrow (a.nonce.checkedAdd 1#64) .panic
  modify fun st => st.putAcc id { a with nonce := nonce }

def applyInit (index flags : U32) : Ledger Unit := do
  require (¬ acc.initialized) (.err .alreadyInit)
  putNextNonce id (initRow tx h acc index flags)

def conservationRow (dst : AccountId) (amount : U128) (feePwm : U64) :
    PendingConservationTransfer where
  sender := id
  recipient := dst
  amountPwm := amount
  feePwm := feePwm
  nonce := tx.nonce
  enqueueHeight := h
  executeAtHeight := h.saturatingAdd genCfg.conservationDelayBlocks
  txHash := tx.txHash C

/-- Queue a transfer of an account with the conservation flag. -/
def enqueueConservation (dst : AccountId) (amount fee : U128) : Ledger Unit := do
  let st ← get
  require (¬ st.hasPendingConserv id) (.err .conservationPendingExists)
  let feePwm ← orThrow (fee.tryFrom 64) (.err .policySchemaInvalid)
  modify fun st => st.pushPending (conservationRow C genCfg tx h id dst amount feePwm)

/-- Debit the signer, pay the fee and credit the destination. -/
def transferNow (dst : AccountId) (amount fee total : U128) : Ledger Unit := do
  let src := touchAcctMrks acc h genCfg
  let balance ← orThrow (src.balancePwm.checkedSub total) .panic
  let nonce ← orThrow (src.nonce.checkedAdd 1#64) .panic
  let src := { src with balancePwm := balance, nonce := nonce }
  modify fun st => st.addFee fee
  if dst = id then
    -- debit and credit act on the same row
    modify fun st => st.putAcc id { src with balancePwm := src.balancePwm.saturatingAdd amount }
  else
    let st ← get
    let toAcc ← orThrow (st.accounts[dst]?) .panic
    let toAcc := touchAcctMrks toAcc h genCfg
    modify fun st => (st.putAcc id src).putAcc dst
      { toAcc with balancePwm := toAcc.balancePwm.saturatingAdd amount }

def applyTransfer (redirTo : Option AccountId) (toId : AccountId) (amount fee : U128) :
    Ledger Unit := do
  require acc.initialized (.err .notInitialized)
  let dst := redirTo.getD toId
  let st ← get
  onlyIf (dst ≠ id) (liftExcept .err (requireRecipient st dst))
  let total ← orThrow (amount.checkedAdd fee) (.err .insufficient)
  require (total ≤ acc.balancePwm) (.err .insufficient)
  if conservationFlag id then enqueueConservation C genCfg tx h id dst amount fee
  else transferNow genCfg h id acc dst amount fee total

def applyStake (amount : U128) : Ledger Unit := do
  require acc.initialized (.err .notInitialized)
  require (amount ≤ acc.balancePwm) (.err .insufficient)
  let a := touchAcctMrks acc h genCfg
  let balance ← orThrow (a.balancePwm.checkedSub amount) .panic
  let staked ← orThrow (a.stakedPwmRaw.checkedAdd amount) .panic
  putNextNonce id { a with balancePwm := balance, stakedPwmRaw := staked }

def applyUnstake (amount : U128) : Ledger Unit := do
  require acc.initialized (.err .notInitialized)
  require (amount ≤ acc.stakedPwmRaw) (.err .insufficient)
  let a := touchAcctMrks acc h genCfg
  let staked ← orThrow (a.stakedPwmRaw.checkedSub amount) .panic
  let balance ← orThrow (a.balancePwm.checkedAdd amount) .panic
  putNextNonce id { a with balancePwm := balance, stakedPwmRaw := staked }

def applyBurnMark (markAmount : U32) : Ledger Unit := do
  require acc.initialized (.err .notInitialized)
  let a := touchAcctMrks acc h genCfg
  require (markAmount ≤ a.storedMarks) (.err .insufficientMarks)
  let marks ← orThrow (a.storedMarks.checkedSub markAmount) .panic
  putNextNonce id { a with storedMarks := marks }

def applyClaimIPv4Batch (phase : U8) (batchRoot : Bytes32) (registrySig : Bytes64) :
    Ledger Unit := do
  require acc.initialized (.err .notInitialized)
  require (acc.ipv4ClaimedPhase = none) (.err .policyDenied)
  let phaseRow ← liftExcept .err (findClaimPhase genCfg phase)
  let msg := claimIpv4Msg phase batchRoot id
  let st ← get
  liftExcept .err (verifyClaimSig C st phaseRow.registryAddress msg registrySig)
  putNextNonce id { acc with
    balancePwm := acc.balancePwm.saturatingAdd phaseRow.allocation
    ipv4ClaimedPhase := some phase }

def exportLock (exportId : Bytes32) (amount : U128) (targetDomain : U16) : CrossShardLock where
  exportId := exportId
  sender := id
  amountPwm := amount
  targetDomain := targetDomain
  refundAccount := id
  lockHeight := h
  unlockHeight := h.saturatingAdd genCfg.xshardLockToBlocks
  state := .locked

/-- Record an export: the registry keeps an entry that is there, and a lock with this id is not
pushed twice. -/
def State.recordExport (st : State) (exportId : Bytes32) (prov : ExportProvenance) : State :=
  let st := { st with
    exportedRegistry := st.exportedRegistry.insertIfNew exportId prov }
  if (st.lockIdx exportId).isNone then
    st.pushLock (exportLock genCfg h id exportId prov.amount prov.targetDomain)
  else st

def applyExport (toId : AccountId) (targetDomain : U16) (amount fee : U128) : Ledger Unit := do
  require acc.initialized (.err .notInitialized)
  require (exportContextIsValid tx) (.err .invalidExport)
  let total ← orThrow (amount.checkedAdd fee) (.err .insufficient)
  require (total ≤ acc.balancePwm) (.err .insufficient)
  let balance ← orThrow (acc.balancePwm.checkedSub total) .panic
  let nonce ← orThrow (acc.nonce.checkedAdd 1#64) .panic
  modify fun st => st.addFee fee
  let exportId ← orThrow (tx.exportId C) (.err .invalidExport)
  modify fun st => (st.recordExport genCfg h id exportId ⟨toId, targetDomain, amount⟩).putAcc id
    { acc with balancePwm := balance, nonce := nonce }

/-- The export an IMPORT refers to, and whether it is still to be put in the registry. -/
def expectedExport (st : State) (exportId : Bytes32) : Except TxError (ExportProvenance × Bool) :=
  match st.exportedRegistry[exportId]? with
  | some existing =>
      match tx.importProvenance with
      | some prov => if existing ≠ prov then .error .invalidImport else .ok (existing, false)
      | none => .ok (existing, false)
  | none =>
      match tx.importProvenance with
      | some prov => .ok (prov, true)
      | none => .error .invalidImport

/-- A lock that is still held is released. -/
def State.releaseLock (st : State) (lockIdx : Option Nat) : State :=
  match lockIdx with
  | none => st
  | some idx =>
      { st with crossShardLocks := st.crossShardLocks.modify idx fun lock =>
          if lock.state = .locked then { lock with state := .released } else lock }

/-- Credit the recipient of an import, which may be the signer itself. -/
def creditImport (toId : AccountId) (src : Account) (amount : U128) : Ledger Unit :=
  if toId = id then
    modify fun st => st.putAcc id { src with balancePwm := src.balancePwm.saturatingAdd amount }
  else do
    let st ← get
    let toAcc ← orThrow (st.accounts[toId]?) .panic
    modify fun st => (st.putAcc id src).putAcc toId
      { toAcc with balancePwm := toAcc.balancePwm.saturatingAdd amount }

/-- The checks of an import: what it refers to, whether that is still to be recorded, and the
fee. -/
def checkImport (toId : AccountId) (amount : U128) (exportId : Bytes32) :
    Ledger (ExportProvenance × Bool × U128) := do
  require acc.initialized (.err .notInitialized)
  require (importContextIsValid tx) (.err .invalidImport)
  let st ← get
  let lockState :=
    ((st.lockIdx exportId).bind fun idx => st.crossShardLocks[idx]?).map CrossShardLock.state
  require (lockState ≠ some .refunded) (.err .exportLockRefunded)
  require (exportId ∉ st.importedSet) (.err .duplicateImport)
  let (expected, shouldInsertProvenance) ← liftExcept .err (expectedExport tx st exportId)
  require (expected.amount = amount ∧ expected.toId = toId ∧
    hiByte expected.targetDomain = hiByte tx.domainCode) (.err .invalidImport)
  onlyIf (toId ≠ id) (liftExcept .err (requireRecipient st toId))
  let fee ← orThrow tx.importFee (.err .importFeeTooLow)
  require (minImportFeeUnits ≤ fee) (.err .importFeeTooLow)
  require (fee ≤ acc.balancePwm) (.err .insufficient)
  pure (expected, shouldInsertProvenance, fee)

def applyImport (toId : AccountId) (amount : U128) (exportId : Bytes32) : Ledger Unit := do
  let (expected, shouldInsertProvenance, fee) ← checkImport tx id acc toId amount exportId
  let lockIdx := (← get).lockIdx exportId
  let balance ← orThrow (acc.balancePwm.checkedSub fee) .panic
  modify fun st => st.addFee fee
  onlyIf shouldInsertProvenance (modify fun st =>
    { st with exportedRegistry := st.exportedRegistry.insert exportId expected })
  let nonce ← orThrow (acc.nonce.checkedAdd 1#64) .panic
  creditImport id toId { acc with balancePwm := balance, nonce := nonce } amount
  modify fun st => st.releaseLock lockIdx
  modify fun st => { st with importedSet := st.importedSet.insert exportId }

def Account.creditIfPos (a : Account) (amount : U128) : Account :=
  if 0#128 < amount then { a with balancePwm := a.balancePwm.saturatingAdd amount } else a

def Account.clearBalance (a : Account) : Account :=
  if 0#128 < a.balancePwm then { a with balancePwm := 0#128 } else a

def Account.clearStake (a : Account) : Account :=
  if 0#128 < a.stakedPwmRaw then { a with stakedPwmRaw := 0#128 } else a

/-- Emergency evacuation: pending transfers are dropped, balance and stake move to the target. -/
def evacuate (target : AccountId) (a : Account) : Ledger Account := do
  modify fun st => { st with
    pendingConservation := st.pendingConservation.filter fun row => decide (row.sender ≠ id) }
  if target = id then pure a
  else
    let st ← get
    let targetAcc ← orThrow (st.accounts[target]?) .panic
    let amount := a.balancePwm
    let stake := a.stakedPwmRaw
    modify fun st => st.putAcc target ((targetAcc.creditIfPos amount).creditIfPos stake)
    pure a.clearBalance.clearStake

def evacuateIfNamed (target : Option AccountId) (a : Account) : Ledger Account :=
  match target with
  | some target => evacuate id target a
  | none => pure a

def applyPolicy (targetAccount : AccountId) (action : PolicyAction) (fee : U128) :
    Ledger Unit := do
  require acc.initialized (.err .notInitialized)
  require (targetAccount = id) (.err .policyDenied)
  let a := touchAcctMrks acc h genCfg
  let st ← get
  liftExcept .err (validatePolAction C st a action tx)
  let a ← liftExcept .err (applyPolicyAction a action h)
  let balance ← orThrow (a.balancePwm.checkedSub fee) (.err .insufficient)
  let a := { a with balancePwm := balance }
  modify fun st => st.addFee fee
  let a ← evacuateIfNamed id (emergencyActTarget action) a
  putNextNonce id a

def applyBody (redirTo : Option AccountId) : Ledger Unit :=
  match tx.body with
  | .init index flags => applyInit tx h id acc index flags
  | .transfer toId amount fee => applyTransfer C genCfg tx h id acc redirTo toId amount fee
  | .stake amount => applyStake genCfg h id acc amount
  | .unstake amount => applyUnstake genCfg h id acc amount
  | .burnMark markAmount _ => applyBurnMark genCfg h id acc markAmount
  | .claimIPv4Batch phase batchRoot registrySig =>
      applyClaimIPv4Batch C genCfg id acc phase batchRoot registrySig
  | .exportTx toId targetDomain amount fee =>
      applyExport C genCfg tx h id acc toId targetDomain amount fee
  | .importTx toId amount exportId => applyImport tx id acc toId amount exportId
  | .policy targetAccount action fee => applyPolicy C genCfg tx h id acc targetAccount action fee

end Arms

/-! ## One transaction -/

section Apply

variable (C : Crypto) (genCfg : GenCfg)

/-- INIT creates an empty stub row when its account has none. -/
def initStub (tx : SignedTx) (st : State) : State :=
  let id := tx.computedAccountId C
  match tx.body with
  | .init _ _ =>
      if (st.accounts[id]?).isSome then st
      else st.putAcc id { signingPubkey := tx.signerPk, derivationIndex := tx.derivationIndex }
  | _ => st

/-- The signer's row as the arms see it: a row that is not initialised takes over the signer. -/
def signerRow (acc : Account) (tx : SignedTx) : Account :=
  if acc.initialized then acc
  else { acc with signingPubkey := tx.signerPk, derivationIndex := tx.derivationIndex }

/-- The redirect target that the policies name, if any. -/
def policyGate (st : State) (tx : SignedTx) (inclusionHeight : U64) (skipPolicy : Bool) :
    Except TxError (Option AccountId) :=
  if skipPolicy then .ok none
  else match st.evaluatePolicy C tx inclusionHeight with
  | .allow => .ok none
  | .reject e => .error e
  | .redirect toId => .ok (some toId)

/-- The checks that come before the arm of the body. -/
def txPrologue (tx : SignedTx) (inclusionHeight : U64) (skipPolicy : Bool) :
    Ledger (Account × Option AccountId) := do
  let id := tx.computedAccountId C
  let st ← get
  let acc ← orThrow (st.accounts[id]?) (.err .noAccount)
  require (acc.initialized → acc.signingPubkey = tx.signerPk ∧
    acc.derivationIndex = tx.derivationIndex) (.err .badSignature)
  require (acc.nonce = tx.nonce) (.err .badNonce)
  let redirTo ← liftExcept .err (policyGate C st tx inclusionHeight skipPolicy)
  require (¬ (st.hasPendingConserv id ∧ pendingTxConflict tx.body))
    (.err .conservationPendingExists)
  pure (signerRow acc tx, redirTo)

def applyTxImpl (tx : SignedTx) (inclusionHeight _blockUnixTime : U64) (skipPolicy : Bool) :
    Ledger Unit := do
  liftExcept .err
    (if skipPolicy then validateShapeNoSig C tx else validateTxShape C tx)
  modify (initStub C tx)
  let (acc, redirTo) ← txPrologue C tx inclusionHeight skipPolicy
  applyBody C genCfg tx inclusionHeight (tx.computedAccountId C) acc redirTo

/-- Applies one signed tx in the context of the block that includes it. -/
def applyTxWithCtx (tx : SignedTx) (inclusionHeight blockUnixTime : U64) : Ledger Unit :=
  applyTxImpl C genCfg tx inclusionHeight blockUnixTime false

/-- Applies a tx already checked against this tip, without running the policies again. -/
def applyPrecheckedTx (tx : SignedTx) (inclusionHeight blockUnixTime : U64) : Ledger Unit :=
  applyTxImpl C genCfg tx inclusionHeight blockUnixTime true

end Apply

/-! ## What happens at a height -/

/-- One lock of the timeout pass, pushed back refunded or as it was. -/
def refundStep (currentHeight : U64) (st : State) (lock : CrossShardLock) : State :=
  if lock.state ≠ .locked ∨ currentHeight < lock.unlockHeight then st.pushLock lock
  else
    let st := { st with
      accounts := st.accounts.modify lock.refundAccount fun acc =>
        { acc with balancePwm := acc.balancePwm.saturatingAdd lock.amountPwm }
      importedSet := st.importedSet.insert lock.exportId }
    st.pushLock { lock with state := .refunded }

def State.refundExpLocks (st : State) (currentHeight : U64) : State :=
  st.crossShardLocks.foldl (refundStep currentHeight) { st with crossShardLocks := [] }

section Drain

variable (genCfg : GenCfg) (currentHeight : U64) (row : PendingConservationTransfer)

/-- Debit the sender and credit the destination from two rows read before either is written. -/
def settleConservation (senderAcc : Account) (dst : AccountId) (total : U128) : Ledger Unit := do
  let src := touchAcctMrks senderAcc currentHeight genCfg
  let balance ← orThrow (src.balancePwm.checkedSub total) .panic
  let nonce ← orThrow (src.nonce.checkedAdd 1#64) .panic
  modify fun st => st.addFee (row.feePwm.setWidth 128)
  let st ← get
  let toAcc ← orThrow (st.accounts[dst]?) .panic
  let toAcc := touchAcctMrks toAcc currentHeight genCfg
  modify fun st =>
    (st.putAcc row.sender { src with balancePwm := balance, nonce := nonce }).putAcc dst
      { toAcc with balancePwm := toAcc.balancePwm.saturatingAdd row.amountPwm }

def applyDueConservation : Ledger Unit := do
  let st ← get
  let senderAcc ← orThrow (st.accounts[row.sender]?) (.err .noAccount)
  require senderAcc.initialized (.err .notInitialized)
  require (senderAcc.nonce = row.nonce) (.err .badNonce)
  let fee : U128 := row.feePwm.setWidth 128
  require (¬ (senderAcc.finalized ∧
    isFinalizedBlocked (.transfer row.recipient row.amountPwm fee) senderAcc))
    (.err .policyAccountFinalized)
  let dst ← liftExcept .err (conservationRecipientDst st row.sender row.recipient currentHeight)
  liftExcept .err (requireRecipient st dst)
  let total ← orThrow (row.amountPwm.checkedAdd fee) (.err .insufficient)
  require (total ≤ senderAcc.balancePwm) (.err .insufficient)
  settleConservation genCfg currentHeight row senderAcc dst total

/-- One pending row: kept when it is not due or when it fails, otherwise executed. -/
def drainRow : Ledger Unit := fun st =>
  if currentHeight < row.executeAtHeight then .ok () (st.pushPending row)
  else match applyDueConservation genCfg currentHeight row st with
  | .ok _ st' => .ok () st'
  | .error (.err _) st' => .ok () (st'.pushPending row)
  | .error .panic st' => .error .panic st'

/-- The rows are taken out of the queue, and those that remain are put back in their order. -/
def drainConservationAtHeight : Ledger Unit := do
  let st ← get
  modify fun st => { st with pendingConservation := [] }
  st.pendingConservation.forM fun row => drainRow genCfg currentHeight row

end Drain

def State.rewardProducer (st : State) (producer : AccountId) (reward : U128) : State :=
  { st with accounts := st.accounts.modify producer fun a =>
      { a with balancePwm := a.balancePwm.saturatingAdd reward } }

/-- The reward of the later policies, paid from a stake upwards. -/
def State.rewardProducerV2 (st : State) (producer : AccountId) (reward stakeMin seasonPpm : U128) :
    State :=
  { st with accounts := st.accounts.modify producer fun a =>
      if a.stakedPwmRaw < stakeMin then a
      else
        { a with
          balancePwm := a.balancePwm.saturatingAdd (reward.saturatingMul seasonPpm / ppmDenom) } }

/-! ## Evidence -/

def evidenceRecordId (C : Crypto) (height : U64) (offenderValidatorIdx : U16)
    (evidenceType : EvidenceType) (payloadHash : Bytes32) : Bytes32 :=
  let ty := evidenceType.bytes
  C.blake3 (strBytes "PWMv6/evidence-record" ++ height.leBytes 8 ++
    offenderValidatorIdx.leBytes 2 ++ (BitVec.ofNat 32 ty.length).leBytes 4 ++ ty ++
    payloadHash.beBytes 32)

def appendEvidence (C : Crypto) (height : U64) (offenderValidatorIdx : U16)
    (evidenceType : EvidenceType) (payloadHash : Bytes32) (reporter : Option AccountId) :
    Ledger Bytes32 := do
  let recordId := evidenceRecordId C height offenderValidatorIdx evidenceType payloadHash
  let st ← get
  require (∀ record ∈ st.evidenceLog, record.recordId ≠ recordId) (.err .evidenceDuplicate)
  modify fun st => { st with evidenceLog := st.evidenceLog ++
    [⟨recordId, height, offenderValidatorIdx, evidenceType, payloadHash, reporter⟩] }
  pure recordId

end Pwm
