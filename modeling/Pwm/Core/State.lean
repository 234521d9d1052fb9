import Pwm.Core.Genesis
import Pwm.Core.Tx

/-!
# Ledger state and policy evaluation

The whole state of one shard, the state built at genesis, and the policies
that decide whether a transaction may act on a snapshot of it.
-/

namespace Pwm

open BitVec

inductive CrossShardLockState
  | locked
  | released
  | refunded
  deriving DecidableEq

structure CrossShardLock where
  exportId : Bytes32
  sender : AccountId
  amountPwm : U128
  targetDomain : U16
  refundAccount : AccountId
  lockHeight : U64
  unlockHeight : U64
  state : CrossShardLockState
  deriving DecidableEq

inductive EvidenceType
  | duplicateVote
  | invalidAttestation
  | unavailableProposer
  | customStub (code : U16)
  deriving DecidableEq

structure EvidenceRecord where
  recordId : Bytes32
  height : U64
  offenderValidatorIdx : U16
  evidenceType : EvidenceType
  payloadHash : Bytes32
  reporter : Option AccountId
  deriving DecidableEq

structure PendingConservationTransfer where
  sender : AccountId
  recipient : AccountId
  amountPwm : U128
  feePwm : U64
  nonce : U64
  enqueueHeight : U64
  executeAtHeight : U64
  txHash : Bytes32
  deriving DecidableEq

abbrev AccountMap := Std.ExtTreeMap AccountId Account compare
abbrev ExportRegistry := Std.ExtTreeMap Bytes32 ExportProvenance compare
abbrev IdSet := Std.ExtTreeSet Bytes32 compare

/-- Live ledger and fee sink. -/
structure State where
  accounts : AccountMap := ∅
  feePool : U128 := 0#128
  importedSet : IdSet := ∅
  exportedRegistry : ExportRegistry := ∅
  epochCounter : U64 := 0#64
  activeValidatorIndices : List U16 := []
  crossShardLocks : List CrossShardLock := []
  evidenceLog : List EvidenceRecord := []
  pendingConservation : List PendingConservationTransfer := []
  deriving DecidableEq

def Account.genesisFunded (pubkey : Bytes32) (derivationIndex : U32) (balance : U128) : Account :=
  { signingPubkey := pubkey, derivationIndex := derivationIndex, balancePwm := balance,
    initialized := true }

/-- The smaller of a 128-bit value and the marks cap. -/
def asMarksU32 (value : U128) : U32 :=
  (if value ≤ marksCap.setWidth 128 then value else marksCap.setWidth 128).setWidth 32

/-- The genesis state: all rows initialised, marks from whole PWM balances. -/
def GenCfg.state0 (cfg : GenCfg) : State :=
  cfg.funding.accounts.foldl (fun st r =>
    let acc := { Account.genesisFunded r.pubkey r.derIdx r.bal with
      storedMarks := asMarksU32 (r.bal / pwmRawScale) }
    { st with accounts := st.accounts.insert r.acct acc }) {}

/-! ## Policies -/

inductive PolicyDecision
  | allow
  | reject (e : TxError)
  | redirect (toId : AccountId)
  deriving DecidableEq

/-- Only the activation of the emergency redirect leaves a finalized account. -/
def finalizedPolicyAllowed (acc : Account) : PolicyAction → Bool
  | .activatePolicy policyId _ =>
      decide (policyId = PolicyKind.routingEmergencyRedirect.policyId ∧
        acc.activePolicies &&& PolicyKind.routingEmergencyRedirect.bit = 0#16 ∧
        acc.dormantPolicies &&& PolicyKind.routingEmergencyRedirect.bit ≠ 0#16)
  | .setPolicy _ _ => false
  | .deactivatePolicy _ => false

def isFinalizedBlocked (body : TxBody) (acc : Account) : Bool :=
  match body with
  | .policy _ action _ => !finalizedPolicyAllowed acc action
  | .init _ _ => false
  | _ => true

def cosignProtBody : TxBody → Bool
  | .transfer _ _ _ => true
  | .policy _ _ _ => true
  | _ => false

def hasValidCosign (C : Crypto) (tx : SignedTx) : Bool :=
  tx.cosigns.any fun row => C.verify row.signerPk tx.signingMessage row.signature

def hasRoleCosign (C : Crypto) (tx : SignedTx) (role : CosignRole) (signerPk : Bytes32) : Bool :=
  tx.cosigns.any fun row =>
    decide (row.role = role ∧ row.signerPk = signerPk) &&
      C.verify row.signerPk tx.signingMessage row.signature

def emergencyActTarget : PolicyAction → Option AccountId
  | .activatePolicy policyId activationTarget =>
      if policyId = PolicyKind.routingEmergencyRedirect.policyId then activationTarget else none
  | _ => none

def evalEmergRedirect (st : State) (senderId : AccountId) (acc : Account) : PolicyDecision :=
  match acc.rescueAddress with
  | none => .reject .policyRescueRequired
  | some rescueId =>
      match st.accounts[rescueId]? with
      | none => .reject .recipientMissing
      | some rescueAcc =>
          if ¬ rescueAcc.initialized then .reject .recipientNotInitialized
          else if ¬ sameHiDomain senderId rescueId then .reject .policyRoutingDenied
          else .redirect rescueId

/-- What the policies of an initialised recipient say about a transfer to it. -/
def recipientPolicy (st : State) (senderId toId : AccountId) (recipientAcc : Account)
    (chainTipHeight : U64) : PolicyDecision :=
  if recipientAcc.finalized ∧
      policyIsActiveAt recipientAcc .routingEmergencyRedirect chainTipHeight then
    evalEmergRedirect st senderId recipientAcc
  else if policyIsActiveAt recipientAcc .routingSameDomainOnly chainTipHeight ∧
      ¬ sameHiDomain senderId toId then
    .reject .policyRoutingDenied
  else if policyIsActiveAt recipientAcc .senderFilter chainTipHeight ∧ senderId ≠ toId then
    .reject .policySenderFiltered
  else if policyIsActiveAt recipientAcc .defaultBehavior chainTipHeight then
    .reject .policyDenied
  else .allow

/-- An account row, when it is there and initialised. -/
def State.initializedAcc (st : State) (id : AccountId) : Option Account :=
  (st.accounts[id]?).filter fun acc => acc.initialized

/-- Pure policy evaluator over a state snapshot. -/
def State.evaluatePolicy (C : Crypto) (st : State) (tx : SignedTx) (chainTipHeight : U64) :
    PolicyDecision :=
  let senderId := tx.computedAccountId C
  match st.accounts[senderId]? with
  | none => .reject .noAccount
  | some senderAcc =>
      if senderAcc.finalized ∧ isFinalizedBlocked tx.body senderAcc then
        .reject .policyAccountFinalized
      else if cosignNonDis senderId ∧ cosignProtBody tx.body ∧ ¬ hasValidCosign C tx then
        .reject .policyMissingCosign
      else match tx.body with
      | .transfer toId _ _ =>
          match st.initializedAcc toId with
          | some recipientAcc => recipientPolicy st senderId toId recipientAcc chainTipHeight
          | none => .allow
      | .policy targetAccount _ _ =>
          match st.accounts[targetAccount]? with
          | some targetAcc =>
              if (policyIsActiveAt targetAcc .cosignRequired chainTipHeight ∨
                  cosignNonDis targetAccount) ∧ ¬ hasValidCosign C tx then
                .reject .policyMissingCosign
              else .allow
          | none => .allow
      | _ => .allow

/-- The account that a delayed transfer is credited to when it is drained. -/
def conservationRecipientDst (st : State) (senderId recipientId : AccountId)
    (chainTipHeight : U64) : Except TxError AccountId :=
  match st.initializedAcc recipientId with
  | none => .error .recipientNotInitialized
  | some recipientAcc =>
      match recipientPolicy st senderId recipientId recipientAcc chainTipHeight with
      | .redirect toId => .ok toId
      | .reject e => .error e
      | .allow => .ok recipientId

def validatePolAction (C : Crypto) (st : State) (acc : Account) (action : PolicyAction)
    (tx : SignedTx) : Except TxError Unit :=
  if cosignNonDis (tx.computedAccountId C) ∧ policyWeakensCosign action then
    .error .policyFlagNonDisableable
  else match action with
  | .activatePolicy policyId activationTarget =>
      match PolicyKind.fromPolicyId policyId with
      | none => .error .policySchemaInvalid
      | some .routingEmergencyRedirect =>
          match acc.rescueAddress with
          | none => .error .policyRescueRequired
          | some rescueId =>
              match activationTarget with
              | none => .error .policyActivationTargetRequired
              | some target =>
                  if target ≠ rescueId then .error .policyActivationTargetMismatch
                  else if ¬ sameHiDomain (tx.computedAccountId C) target then
                    .error .policyRoutingDenied
                  else match (st.initializedAcc rescueId).map Account.signingPubkey with
                  | none => .error .policyEmergencyCosignRequired
                  | some rescuePk =>
                      if hasRoleCosign C tx .rescue rescuePk then .ok ()
                      else .error .policyEmergencyCosignRequired
      | some _ => .ok ()
  | _ => .ok ()

/-- The account row after a policy action. -/
def applyPolicyAction (acc : Account) (action : PolicyAction) (inclusionHeight : U64) :
    Except TxError Account :=
  match action with
  | .setPolicy policy activation => .ok (setPolMode acc policy activation inclusionHeight)
  | .activatePolicy policyId _ =>
      match PolicyKind.fromPolicyId policyId with
      | none => .error .policySchemaInvalid
      | some policy =>
          match acc.deferredPolicies.find? fun row => decide (row.policy = policy) with
          | some row =>
              if inclusionHeight < row.activateAtHeight then .error .policyNotActive
              else .error .policyDenied
          | none =>
              let bit := policy.bit
              if acc.activePolicies &&& bit ≠ 0#16 then .ok acc
              else if acc.dormantPolicies &&& bit = 0#16 then .error .policyNotInstalled
              else
                .ok { acc with
                  dormantPolicies := acc.dormantPolicies &&& ~~~bit
                  activePolicies := acc.activePolicies ||| bit
                  finalized := acc.finalized || decide (policy = .routingEmergencyRedirect) }
  | .deactivatePolicy policyId =>
      match PolicyKind.fromPolicyId policyId with
      | none => .error .policySchemaInvalid
      | some policy =>
          if ¬ policy.isReversible then .error .policyIrreversible
          else
            match acc.deferredPolicies.findIdx? fun row =>
                decide (row.policy = policy ∧ inclusionHeight < row.activateAtHeight) with
            | some idx => .ok { acc with deferredPolicies := acc.deferredPolicies.eraseIdx idx }
            | none =>
                let bit := policy.bit
                if acc.activePolicies &&& bit = 0#16 then .error .policyNotActive
                else
                  .ok { acc with
                    activePolicies := acc.activePolicies &&& ~~~bit
                    dormantPolicies := acc.dormantPolicies ||| bit }

end Pwm
