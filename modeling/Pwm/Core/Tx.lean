import Pwm.Core.Types

/-!
# Signed transactions

Bodies, the bytes that are signed and hashed, the structural checks made
before a transaction reaches the ledger, and the errors with their texts.
-/

namespace Pwm

open BitVec

inductive TxError
  | badSignature
  | domainMismatch
  | noAccount
  | notInitialized
  | recipientMissing
  | recipientNotInitialized
  | badNonce
  | insufficient
  | insufficientMarks
  | alreadyInit
  | invalidTransfer
  | invalidExport
  | invalidImport
  | duplicateImport
  | exportLockRefunded
  | invalidPurposeLength
  | invalidPurposeChars
  | unsupportedTxKind
  | importFeeTooLow
  | policySchemaInvalid
  | policyNotInstalled
  | policyNotActive
  | policyDenied
  | policySenderFiltered
  | policyRoutingDenied
  | policyMissingCosign
  | policyRescueRequired
  | policyEmergencyCosignRequired
  | policyAccountFinalized
  | policyIrreversible
  | policyFlagNonDisableable
  | conservationDelayRequired
  | conservationPendingExists
  | policyActivationFeeMustBeZero
  | policyActivationTargetMismatch
  | policyActivationTargetRequired
  | policyActivationTargetNotAllowed
  | evidenceDuplicate
  deriving DecidableEq

/-- The text an error is displayed with. -/
def TxError.text : TxError → String
  | badSignature => "bad signature"
  | domainMismatch => "domain mismatch"
  | noAccount => "account not found"
  | notInitialized => "account not initialized"
  | recipientMissing => "recipient account not found"
  | recipientNotInitialized => "recipient account not initialized"
  | badNonce => "bad nonce"
  | insufficient => "insufficient balance"
  | insufficientMarks => "insufficient marks"
  | alreadyInit => "already initialized"
  | invalidTransfer => "invalid transfer"
  | invalidExport => "invalid export"
  | invalidImport => "invalid import"
  | duplicateImport => "duplicate import"
  | exportLockRefunded => "export lock refunded"
  | invalidPurposeLength => "invalid purpose length"
  | invalidPurposeChars => "invalid purpose chars"
  | unsupportedTxKind => "unsupported tx kind"
  | importFeeTooLow => "import fee too low"
  | policySchemaInvalid => "policy schema invalid"
  | policyNotInstalled => "policy not installed"
  | policyNotActive => "policy not active"
  | policyDenied => "policy denied"
  | policySenderFiltered => "policy sender filtered"
  | policyRoutingDenied => "policy routing denied"
  | policyMissingCosign => "policy missing cosign"
  | policyRescueRequired => "policy rescue required"
  | policyEmergencyCosignRequired => "policy emergency cosign required"
  | policyAccountFinalized => "policy account finalized"
  | policyIrreversible => "policy irreversible"
  | policyFlagNonDisableable => "policy flag non-disableable"
  | conservationDelayRequired => "conservation delay required"
  | conservationPendingExists => "conservation pending exists"
  | policyActivationFeeMustBeZero => "policy activation fee must be zero"
  | policyActivationTargetMismatch => "policy activation target mismatch"
  | policyActivationTargetRequired => "policy activation target required"
  | policyActivationTargetNotAllowed => "policy activation target not allowed"
  | evidenceDuplicate => "evidence duplicate"

/-- An IMPORT fee below this many raw units is refused. -/
def minImportFeeUnits : U128 := 10000#128

inductive CosignRole
  | rescue
  | organization
  | witness
  deriving DecidableEq

structure Cosignature where
  signerPk : Bytes32
  role : CosignRole
  signature : Bytes64
  deriving DecidableEq

structure InitPolicyEntry where
  policy : PolicyKind
  activation : ActivationMode
  deriving DecidableEq

structure CosignPolicy where
  minSigners : U8
  deriving DecidableEq

structure InitV4Extension where
  ownerKind : String
  ownerDisplayName : String
  ownerCountryHint : String
  companyMetadataCommitment : Bytes32
  externalVerificationRef : String
  requestedDomainLo : U8
  rescueAddress : Option AccountId
  initialPolicies : List InitPolicyEntry
  cosignPolicy : Option CosignPolicy
  deriving DecidableEq

def initOwnerKindMax : Nat := 32
def initOwnerNameMax : Nat := 64
def initOwnerCountryMax : Nat := 8
def initExtRefMax : Nat := 96
def initMaxPolicies : Nat := 16

/-- Where an exported amount is to be credited. -/
structure ExportProvenance where
  toId : AccountId
  targetDomain : U16
  amount : U128
  deriving DecidableEq

inductive TxBody
  | init (index flags : U32)
  | transfer (toId : AccountId) (amount fee : U128)
  | stake (amount : U128)
  | unstake (amount : U128)
  | burnMark (markAmount : U32) (beneficiary : Option AccountId)
  | claimIPv4Batch (phase : U8) (batchRoot : Bytes32) (registrySig : Bytes64)
  | exportTx (toId : AccountId) (targetDomain : U16) (amount fee : U128)
  | importTx (toId : AccountId) (amount : U128) (exportId : Bytes32)
  | policy (targetAccount : AccountId) (action : PolicyAction) (fee : U128)
  deriving DecidableEq

/-- The fee carried by the body itself. -/
def TxBody.feeAmount : TxBody → U128
  | .transfer _ _ fee => fee
  | .exportTx _ _ _ fee => fee
  | .policy _ _ fee => fee
  | _ => 0#128

structure SignedTx where
  domainCode : U16
  signerPk : Bytes32
  derivationIndex : U32
  nonce : U64
  body : TxBody
  burnPurpose : Option String := none
  importFee : Option U128 := none
  importProvenance : Option ExportProvenance := none
  initV4 : Option InitV4Extension := none
  cosigns : List Cosignature := []
  signature : Bytes64
  deriving DecidableEq

/-! ## Signed bytes -/

/-- Trimmed by `normalizeBurnPurpose`: the characters of the Unicode property White_Space. -/
def isWhitespace (c : Char) : Bool :=
  let n := c.toNat
  (9 ≤ n && n ≤ 13) || n == 0x20 || n == 0x85 || n == 0xA0 || n == 0x1680 ||
    (0x2000 ≤ n && n ≤ 0x200A) || n == 0x2028 || n == 0x2029 || n == 0x202F || n == 0x205F ||
    n == 0x3000

def normalizeBurnPurpose (value : String) : String :=
  String.ofList ((value.toList.dropWhile isWhitespace).reverse.dropWhile isWhitespace).reverse

/-- A length as `u16`, capped at the largest one. -/
def lenU16 (bytes : List U8) : U16 :=
  BitVec.ofNat 16 (min bytes.length 0xFFFF)

def pushLenPrefixedBytes (payload : List U8) : List U8 :=
  (lenU16 payload).leBytes 2 ++ payload

def pushOptAccountId : Option AccountId → List U8
  | some id => 1#8 :: id.beBytes 32
  | none => [0#8]

def activationBytes : ActivationMode → List U8
  | .dormant => [0#8]
  | .immediately => [1#8]
  | .deferred activateAtHeight => 2#8 :: activateAtHeight.leBytes 8

def pushPolicyActionSigning : PolicyAction → List U8
  | .setPolicy policy activation => 0#8 :: policy.policyId :: activationBytes activation
  | .activatePolicy policyId activationTarget =>
      1#8 :: policyId :: pushOptAccountId activationTarget
  | .deactivatePolicy policyId => [2#8, policyId]

def initV4Bytes (ext : InitV4Extension) : List U8 :=
  let polCount : U8 := BitVec.ofNat 8 (min ext.initialPolicies.length 0xFF)
  [1#8] ++ pushLenPrefixedBytes (strBytes ext.ownerKind) ++
    pushLenPrefixedBytes (strBytes ext.ownerDisplayName) ++
    pushLenPrefixedBytes (strBytes ext.ownerCountryHint) ++
    ext.companyMetadataCommitment.beBytes 32 ++
    pushLenPrefixedBytes (strBytes ext.externalVerificationRef) ++
    [ext.requestedDomainLo] ++ pushOptAccountId ext.rescueAddress ++ [polCount] ++
    (ext.initialPolicies.take polCount.toNat).flatMap
      (fun row => row.policy.policyId :: activationBytes row.activation) ++
    (match ext.cosignPolicy with
      | some cosign => [1#8, cosign.minSigners]
      | none => [0#8])

namespace SignedTx

def computedAccountId (C : Crypto) (tx : SignedTx) : AccountId :=
  accountIdFromParts C tx.signerPk tx.derivationIndex

/-- The body's share of the signed bytes. -/
def bodyBytes (tx : SignedTx) : List U8 :=
  match tx.body with
  | .init index flags =>
      [1#8] ++ index.leBytes 4 ++ flags.leBytes 4 ++ tx.initV4.elim [] initV4Bytes
  | .transfer toId amount fee =>
      [2#8] ++ toId.beBytes 32 ++ amount.leBytes 16 ++ fee.leBytes 16
  | .stake amount => [3#8] ++ amount.leBytes 16
  | .unstake amount => [4#8] ++ amount.leBytes 16
  | .burnMark markAmount beneficiary =>
      [5#8] ++ markAmount.leBytes 4 ++
        pushLenPrefixedBytes (strBytes ((tx.burnPurpose.map normalizeBurnPurpose).getD "")) ++
        pushOptAccountId beneficiary
  | .claimIPv4Batch phase batchRoot registrySig =>
      [8#8, phase] ++ batchRoot.beBytes 32 ++ registrySig.beBytes 64
  | .exportTx toId targetDomain amount fee =>
      [6#8] ++ toId.beBytes 32 ++ targetDomain.leBytes 2 ++ amount.leBytes 16 ++ fee.leBytes 16
  | .importTx toId amount exportId =>
      [7#8] ++ toId.beBytes 32 ++ amount.leBytes 16 ++ (tx.importFee.getD 0#128).leBytes 16 ++
        exportId.beBytes 32 ++
        (match tx.importProvenance with
          | some p => 1#8 :: (p.toId.beBytes 32 ++ p.targetDomain.leBytes 2 ++ p.amount.leBytes 16)
          | none => [0#8])
  | .policy targetAccount action fee =>
      [9#8] ++ targetAccount.beBytes 32 ++ pushPolicyActionSigning action ++ fee.leBytes 16

def signingMessage (tx : SignedTx) : List U8 :=
  strBytes "PWMv0/TX" ++ tx.domainCode.leBytes 2 ++ tx.signerPk.beBytes 32 ++
    tx.derivationIndex.leBytes 4 ++ tx.nonce.leBytes 8 ++ tx.bodyBytes

def txHash (C : Crypto) (tx : SignedTx) : Bytes32 :=
  C.blake3 tx.signingMessage

def verifySig (C : Crypto) (tx : SignedTx) : Bool :=
  C.verify tx.signerPk tx.signingMessage tx.signature

def exportOutputIndex : U32 := 0#32

/-- The bytes hashed into an export id: source domain, tx hash, output index, nonce. -/
def exportIdBytes (C : Crypto) (tx : SignedTx) : List U8 :=
  tx.domainCode.leBytes 2 ++ (tx.txHash C).beBytes 32 ++ exportOutputIndex.leBytes 4 ++
    tx.nonce.leBytes 8

def exportId (C : Crypto) (tx : SignedTx) : Option Bytes32 :=
  match tx.body with
  | .exportTx _ _ _ _ => some (C.blake3 (tx.exportIdBytes C))
  | _ => none

/-- Domain, signer and nonce stand at fixed places before the body. -/
theorem header_of_signingMessage {tx tx' : SignedTx}
    (h : tx.signingMessage = tx'.signingMessage) :
    tx.signerPk = tx'.signerPk ∧ tx.derivationIndex = tx'.derivationIndex ∧
      tx.nonce = tx'.nonce := by
  unfold signingMessage at h
  obtain ⟨h, _⟩ := List.append_inj h (by simp)
  obtain ⟨h, hnonce⟩ := List.append_inj h (by simp)
  obtain ⟨h, hindex⟩ := List.append_inj h (by simp)
  obtain ⟨_, hpk⟩ := List.append_inj h (by simp)
  exact ⟨beBytes_injective 32 hpk, leBytes_injective 4 hindex, leBytes_injective 8 hnonce⟩

theorem txHash_of_exportIdBytes (C : Crypto) {tx tx' : SignedTx}
    (h : tx.exportIdBytes C = tx'.exportIdBytes C) : tx.txHash C = tx'.txHash C := by
  unfold exportIdBytes at h
  obtain ⟨h, _⟩ := List.append_inj h (by simp)
  obtain ⟨h, _⟩ := List.append_inj h (by simp)
  obtain ⟨_, hhash⟩ := List.append_inj h (by simp)
  exact beBytes_injective 32 hhash

end SignedTx

/-! ## Structural checks -/

def validateInitV4Ext (ext : InitV4Extension) : Except TxError Unit := do
  if ext.ownerKind = "" ∨ initOwnerKindMax < (strBytes ext.ownerKind).length then
    throw .policySchemaInvalid
  if ext.ownerDisplayName = "" ∨ initOwnerNameMax < (strBytes ext.ownerDisplayName).length then
    throw .policySchemaInvalid
  if ext.ownerCountryHint = "" ∨ initOwnerCountryMax < (strBytes ext.ownerCountryHint).length then
    throw .policySchemaInvalid
  if initExtRefMax < (strBytes ext.externalVerificationRef).length then
    throw .policySchemaInvalid
  if initMaxPolicies < ext.initialPolicies.length then
    throw .policySchemaInvalid
  if ext.initialPolicies.any fun row => decide (16#8 ≤ row.policy.policyId) then
    throw .policySchemaInvalid

def validateBurnPurpose (value : String) : Except TxError Unit := do
  let len := (strBytes value).length
  if ¬ (1 ≤ len ∧ len ≤ 80) then
    throw .invalidPurposeLength
  if value.toList.any fun ch =>
      decide (ch.toNat ≤ 0x1F ∨ 0x7F ≤ ch.toNat ∧ ch.toNat ≤ 0x9F) then
    throw .invalidPurposeChars

/-- The checks of a policy body, made by its own account. -/
def validatePolicyShape (aid targetAccount : AccountId) (action : PolicyAction) (fee : U128) :
    Except TxError Unit := do
  if targetAccount ≠ aid then
    throw .policySchemaInvalid
  if cosignNonDis aid ∧ policyWeakensCosign action then
    throw .policyFlagNonDisableable
  match action with
  | .setPolicy _ _ =>
      if fee = 0#128 then throw .policySchemaInvalid
  | .activatePolicy policyId activationTarget =>
      match PolicyKind.fromPolicyId policyId with
      | none => throw .policySchemaInvalid
      | some pol =>
          if fee ≠ 0#128 ∧ pol ≠ .routingEmergencyRedirect then
            throw .policyActivationFeeMustBeZero
          if pol = .routingEmergencyRedirect ∧ activationTarget.isNone then
            throw .policyActivationTargetRequired
          if pol ≠ .routingEmergencyRedirect ∧ activationTarget.isSome then
            throw .policyActivationTargetNotAllowed
  | .deactivatePolicy policyId =>
      if fee = 0#128 then throw .policySchemaInvalid
      if (PolicyKind.fromPolicyId policyId).isNone then throw .policySchemaInvalid

/-- The checks of the body against the optional fields. The guards stand between the arms, in
the order in which the code tries them. -/
def validateBodyShape (tx : SignedTx) (aid : AccountId) : Except TxError Unit :=
  match tx.body with
  | .init _ _ => tx.initV4.elim (.ok ()) validateInitV4Ext
  | body =>
      if tx.initV4.isSome then throw .policySchemaInvalid
      else match body with
      | .burnMark _ _ =>
          match tx.burnPurpose.map normalizeBurnPurpose with
          | none => throw .invalidPurposeLength
          | some normalized => validateBurnPurpose normalized
      | body =>
          if tx.burnPurpose.isSome then throw .policySchemaInvalid
          else match body with
          | .claimIPv4Batch _ _ registrySig =>
              if registrySig = 0#512 then throw .policySchemaInvalid else .ok ()
          | .importTx _ _ _ =>
              if tx.importFee.getD 0#128 < minImportFeeUnits then throw .importFeeTooLow
              else .ok ()
          | body =>
              if tx.importFee.isSome ∨ tx.importProvenance.isSome then throw .policySchemaInvalid
              else match body with
              | .policy targetAccount action fee => validatePolicyShape aid targetAccount action fee
              | _ => .ok ()

def validateTxShapeInner (C : Crypto) (tx : SignedTx) (checkSig : Bool) : Except TxError Unit := do
  if checkSig ∧ ¬ tx.verifySig C then
    throw .badSignature
  let aid := tx.computedAccountId C
  if domainOfAccountId aid ≠ tx.domainCode then
    throw .domainMismatch
  match tx.body with
  | .transfer toId _ _ => if toId = aid then throw .invalidTransfer
  | _ => pure ()
  validateBodyShape tx aid

def validateTxShape (C : Crypto) (tx : SignedTx) : Except TxError Unit :=
  validateTxShapeInner C tx true

def validateShapeNoSig (C : Crypto) (tx : SignedTx) : Except TxError Unit :=
  validateTxShapeInner C tx false

/-- Source-side export context checks: explicit cross-domain route and recipient domain
coherence. -/
def exportContextIsValid (tx : SignedTx) : Bool :=
  match tx.body with
  | .exportTx toId targetDomain amount _ =>
      decide (amount ≠ 0#128 ∧ hiByte tx.domainCode ≠ hiByte targetDomain ∧
        hiByte (domainOfAccountId toId) = hiByte targetDomain)
  | _ => true

/-- Target-side import context checks. -/
def importContextIsValid (tx : SignedTx) : Bool :=
  match tx.body with
  | .importTx toId amount _ =>
      decide (amount ≠ 0#128 ∧ hiByte (domainOfAccountId toId) = hiByte tx.domainCode)
  | _ => true

end Pwm
