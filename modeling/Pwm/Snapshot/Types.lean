import Pwm.Node.CrossShard

/-!
# The snapshot envelope

What a snapshot holds, and its written form: byte arrays as hexadecimal text,
amounts as decimal text, maps as rows. Account rows pass through two written
forms of different ages.
-/

namespace Pwm

/-! ## What a snapshot holds -/

structure SnapshotGenesisRow where
  acct : Bytes32
  pubkey : Bytes32
  derIdx : U32
  deriving DecidableEq

inductive BlocksStored
  | inline
  | epochs
  deriving DecidableEq

structure SnapshotGenAnchor where
  schemaV : U32
  genesisStateRoot : Bytes32
  gencfgDigest : Bytes32
  block1HdrHash : Bytes32
  signerProdIdx : U32
  signature : Bytes64
  deriving DecidableEq

structure SnapshotIntentRow where
  intentId : Bytes32
  exportId : Bytes32
  source : Bytes32
  toId : Bytes32
  targetDomain : U16
  amount : U128
  fee : U128
  status : IntentStatus
  createdHeight : U64
  expiresAtHeight : U64
  lastError : Option String
  deriving DecidableEq

structure SnapshotIntentLockRow where
  source : Bytes32
  intentId : Bytes32
  deriving DecidableEq

structure SnapshotRoamingWire where
  intents : List SnapshotIntentRow := []
  locks : List SnapshotIntentLockRow := []
  deriving DecidableEq

structure SnapshotData where
  version : U32
  genesisAccounts : List SnapshotGenesisRow
  genesisAnchor : Option SnapshotGenAnchor := none
  blocks : List Block
  state : State
  roaming : SnapshotRoamingWire := {}
  crossShard : CrossShardLedger := {}
  /-- With `epochs`, the bodies are in the epoch files. -/
  blocksStored : BlocksStored := .inline
  checkpointHeight : U64 := 0#64
  deriving DecidableEq

def snapshotVersion : U32 := 4#32

/-! ## Its written form -/

structure SnapshotGenesisRowV2 where
  acct : String
  pubkey : String
  derIdx : U32

structure SnapshotGenAnchorV3 where
  schemaV : U32
  genesisStateRoot : String
  gencfgDigest : String
  block1HdrHash : String
  signerProdIdx : U32
  signature : String

structure BlockHdrV2 where
  height : U64
  prevHash : String
  ts : U64
  prodIdx : U32
  txRoot : String
  stateRoot : String
  sig : String

structure CosignatureV2 where
  signerPk : String
  role : CosignRole
  signature : String

structure ImportProvV2 where
  toId : String
  targetDomain : U16
  amount : String

structure InitPolicyV2 where
  policy : String
  activation : String

structure CosignPolicyV2 where
  minSigners : U8

structure InitV4ExtV2 where
  ownerKind : String
  ownerDisplayName : String
  ownerCountryHint : String
  companyMetadataCommitment : String
  externalVerificationRef : String
  requestedDomainLo : U8
  rescueAddress : Option String
  initialPolicies : List InitPolicyV2
  cosignPolicy : Option CosignPolicyV2

inductive PolicyActionV2
  | setPolicy (policy activation : String)
  | activatePolicy (policyId : U8) (activationTarget : Option String)
  | deactivatePolicy (policyId : U8)

inductive TxBodyV2
  | init (index flags : U32)
  | transfer (toId amount fee : String)
  | stake (amount : String)
  | unstake (amount : String)
  | burnMark (markAmount : String) (beneficiary : Option String)
  | claimIpv4Batch (phase : U8) (batchRoot registrySig : String)
  | claim (mode claimUnits : String) (anchorRef : U64) (fee : String)
  | exportTx (toId : String) (targetDomain : U16) (amount fee : String)
  | importTx (toId amount exportId : String)
  | policy (targetAccount : String) (action : PolicyActionV2) (fee : String)

structure SignedTxV2 where
  domainCode : U16
  signerPk : String
  derivationIndex : U32
  nonce : U64
  body : TxBodyV2
  burnPurpose : Option String
  importFee : Option String
  importProvenance : Option ImportProvV2
  initV4 : Option InitV4ExtV2
  cosigns : List CosignatureV2
  signature : String

structure BlockV2 where
  hdr : BlockHdrV2
  txs : List SignedTxV2

structure SnapshotIntentRowV2 where
  intentId : String
  exportId : String
  source : String
  toId : String
  targetDomain : U16
  amount : String
  fee : String
  status : IntentStatus
  createdHeight : U64
  expiresAtHeight : U64
  lastError : Option String

structure SnapshotIntentLockRowV2 where
  source : String
  intentId : String

structure SnapshotRoamingV2 where
  intents : List SnapshotIntentRowV2
  locks : List SnapshotIntentLockRowV2

structure SnapshotCrossShardFactV2 where
  exportId : String
  sourceDomainHi : U8
  targetDomainHi : U8
  amount : String
  status : CrossShardStatus
  firstHeight : U64
  lastHeight : U64
  source : Option String
  toId : String
  intentId : Option String
  origin : CrossShardOrigin

structure SnapshotCrossShardV2 where
  facts : List SnapshotCrossShardFactV2

structure SnapshotExportRowV2 where
  exportId : String
  toId : String
  targetDomain : U16
  amount : String

structure SnapshotAccountV3 where
  signingPubkey : String
  derivationIndex : U32
  balancePwm : String
  stakedPwmRaw : String
  storedMarks : String
  marksLastBlock : U64
  initialized : Bool
  index : U32
  flags : U32
  nonce : U64
  rescueAddress : Option String
  activePolicies : U16
  dormantPolicies : U16
  deferredPolicies : List DeferredPolicyEntry
  ipv4ClaimedPhase : Option U8
  finalized : Bool
  ownerKind : String
  ownerDisplayName : String
  ownerCountryHint : String
  companyMetadataCommitment : Option String
  externalVerificationRef : Option String
  requestedDomainLo : Option U8

structure SnapshotStateRowV3 where
  id : String
  account : SnapshotAccountV3

structure SnapshotStateV3 where
  accounts : List SnapshotStateRowV3
  feePool : String
  importedSet : List String
  exportedRegistry : List SnapshotExportRowV2

structure SnapshotStateV4 where
  accounts : List SnapshotStateRowV3
  feePool : String
  importedSet : List String
  exportedRegistry : List SnapshotExportRowV2
  epochCounter : U64
  activeValidatorIndices : List U16
  crossShardLocks : List CrossShardLock
  evidenceLog : List EvidenceRecord
  pendingConservation : List PendingConservationTransfer

structure SnapshotDataV4 where
  version : U32
  genesisAccounts : List SnapshotGenesisRowV2
  genesisAnchor : Option SnapshotGenAnchorV3
  blocks : List BlockV2
  state : SnapshotStateV4
  roaming : SnapshotRoamingV2
  crossShard : SnapshotCrossShardV2
  blocksStored : BlocksStored
  checkpointHeight : U64

/-! ## The rows of a state between its two forms -/

/-- An account row without deferred policies and claimed phase. -/
structure SnapshotAccountWire where
  signingPubkey : Bytes32 := 0#256
  derivationIndex : U32 := 0#32
  balancePwm : U128 := 0#128
  staked : U128 := 0#128
  marks : U32 := 0#32
  initialized : Bool := false
  index : U32 := 0#32
  flags : U32 := 0#32
  nonce : U64 := 0#64
  lastClaimUnixTime : U64 := 0#64
  lastClaimAnchorRef : U64 := 0#64
  freeClaimUtcDay : Option U64 := none
  lastStakeChangeHeight : U64 := 0#64
  rescueAddress : Option Bytes32 := none
  activePolicies : U16 := 0#16
  dormantPolicies : U16 := 0#16
  finalized : Bool := false
  ownerKind : String := ""
  ownerDisplayName : String := ""
  ownerCountryHint : String := ""
  companyMetadataCommitment : Option Bytes32 := none
  externalVerificationRef : Option String := none
  requestedDomainLo : Option U8 := none

structure SnapshotStateRow where
  id : Bytes32
  account : SnapshotAccountWire

structure SnapshotExportRow where
  exportId : Bytes32
  toId : Bytes32
  targetDomain : U16
  amount : U128

structure SnapshotStateWire where
  accounts : List SnapshotStateRow
  feePool : U128
  importedSet : List Bytes32
  exportedRegistry : List SnapshotExportRow
  epochCounter : U64
  activeValidatorIndices : List U16
  crossShardLocks : List CrossShardLock
  evidenceLog : List EvidenceRecord
  pendingConservation : List PendingConservationTransfer

end Pwm
