import Pwm.Lib.RowTable
import Pwm.Snapshot.WireText

/-!
# Writing and reading a snapshot

The conversions between a snapshot and its written form. Every field that is
text is read with the path that an error names; the first error ends the
reading.
-/

namespace Pwm

open RowTable

/-- The path of a row. -/
def rowPath (path : String) (i : Nat) : String :=
  path ++ "[" ++ toString i ++ "]"

/-! ## Transactions -/

def policyActionToV2 : PolicyAction → PolicyActionV2
  | .setPolicy policy activation =>
      .setPolicy (policyKindToStr policy) (activationToStr activation)
  | .activatePolicy policyId activationTarget =>
      .activatePolicy policyId (activationTarget.map (hexOf 32))
  | .deactivatePolicy policyId => .deactivatePolicy policyId

def policyActionFromV2 (value : PolicyActionV2) (path : String) : Except String PolicyAction :=
  match value with
  | .setPolicy policy activation => do
      let policy ← policyKindFromStr policy (path ++ ".policy")
      let activation ← activationFromStr activation (path ++ ".activation")
      .ok (.setPolicy policy activation)
  | .activatePolicy policyId activationTarget => do
      let activationTarget ← readOption
        (fun v => hexV2 32 v (path ++ ".activation_target")) activationTarget
      .ok (.activatePolicy policyId activationTarget)
  | .deactivatePolicy policyId => .ok (.deactivatePolicy policyId)

def initPolicyToV2 (row : InitPolicyEntry) : InitPolicyV2 :=
  ⟨policyKindToStr row.policy, activationToStr row.activation⟩

def initPolicyFromV2 (row : InitPolicyV2) (path : String) : Except String InitPolicyEntry := do
  let policy ← policyKindFromStr row.policy (path ++ ".policy")
  let activation ← activationFromStr row.activation (path ++ ".activation")
  .ok ⟨policy, activation⟩

def initV4ToV2 (value : InitV4Extension) : InitV4ExtV2 where
  ownerKind := value.ownerKind
  ownerDisplayName := value.ownerDisplayName
  ownerCountryHint := value.ownerCountryHint
  companyMetadataCommitment := hexOf 32 value.companyMetadataCommitment
  externalVerificationRef := value.externalVerificationRef
  requestedDomainLo := value.requestedDomainLo
  rescueAddress := value.rescueAddress.map (hexOf 32)
  initialPolicies := value.initialPolicies.map initPolicyToV2
  cosignPolicy := value.cosignPolicy.map fun x => ⟨x.minSigners⟩

def initV4FromV2 (value : InitV4ExtV2) (path : String) : Except String InitV4Extension := do
  let companyMetadataCommitment ←
    hexV2 32 value.companyMetadataCommitment (path ++ ".company_metadata_commitment")
  let rescueAddress ← readOption
    (fun v => hexV2 32 v (path ++ ".rescue_address")) value.rescueAddress
  let initialPolicies ← readRows
    (fun i row => initPolicyFromV2 row (rowPath (path ++ ".initial_policies") i))
    value.initialPolicies
  .ok
    { ownerKind := value.ownerKind
      ownerDisplayName := value.ownerDisplayName
      ownerCountryHint := value.ownerCountryHint
      companyMetadataCommitment := companyMetadataCommitment
      externalVerificationRef := value.externalVerificationRef
      requestedDomainLo := value.requestedDomainLo
      rescueAddress := rescueAddress
      initialPolicies := initialPolicies
      cosignPolicy := value.cosignPolicy.map fun x => ⟨x.minSigners⟩ }

def cosignToV2 (value : Cosignature) : CosignatureV2 :=
  ⟨hexOf 32 value.signerPk, value.role, hexOf 64 value.signature⟩

def cosignFromV2 (value : CosignatureV2) (path : String) : Except String Cosignature := do
  let signerPk ← hexV2 32 value.signerPk (path ++ ".signer_pk")
  let signature ← hexV2 64 value.signature (path ++ ".signature")
  .ok ⟨signerPk, value.role, signature⟩

def provToV2 (value : ExportProvenance) : ImportProvV2 :=
  ⟨hexOf 32 value.toId, value.targetDomain, decOf value.amount⟩

def provFromV2 (value : ImportProvV2) (path : String) : Except String ExportProvenance := do
  let toId ← hexV2 32 value.toId (path ++ ".to")
  let amount ← decV2 value.amount (path ++ ".amount")
  .ok ⟨toId, value.targetDomain, amount⟩

def bodyToV2 : TxBody → TxBodyV2
  | .init index flags => .init index flags
  | .transfer toId amount fee => .transfer (hexOf 32 toId) (decOf amount) (decOf fee)
  | .stake amount => .stake (decOf amount)
  | .unstake amount => .unstake (decOf amount)
  | .burnMark markAmount beneficiary =>
      .burnMark (decOfU32 markAmount) (beneficiary.map (hexOf 32))
  | .claimIPv4Batch phase batchRoot registrySig =>
      .claimIpv4Batch phase (hexOf 32 batchRoot) (hexOf 64 registrySig)
  | .exportTx toId targetDomain amount fee =>
      .exportTx (hexOf 32 toId) targetDomain (decOf amount) (decOf fee)
  | .importTx toId amount exportId => .importTx (hexOf 32 toId) (decOf amount) (hexOf 32 exportId)
  | .policy targetAccount action fee =>
      .policy (hexOf 32 targetAccount) (policyActionToV2 action) (decOf fee)

def bodyFromV2 (value : TxBodyV2) (path : String) : Except String TxBody :=
  match value with
  | .init index flags => .ok (.init index flags)
  | .transfer toId amount fee => do
      let toId ← hexV2 32 toId (path ++ ".to")
      let amount ← decV2 amount (path ++ ".amount")
      let fee ← decV2 fee (path ++ ".fee")
      .ok (.transfer toId amount fee)
  | .stake amount => do
      let amount ← decV2 amount (path ++ ".amount")
      .ok (.stake amount)
  | .unstake amount => do
      let amount ← decV2 amount (path ++ ".amount")
      .ok (.unstake amount)
  | .burnMark markAmount beneficiary => do
      let markAmount ← decV2U32 markAmount (path ++ ".mark_amount")
      let beneficiary ← readOption (fun v => hexV2 32 v (path ++ ".beneficiary")) beneficiary
      .ok (.burnMark markAmount beneficiary)
  | .claimIpv4Batch phase batchRoot registrySig => do
      let batchRoot ← hexV2 32 batchRoot (path ++ ".batch_root")
      let registrySig ← hexV2 64 registrySig (path ++ ".registry_sig")
      .ok (.claimIPv4Batch phase batchRoot registrySig)
  | .claim _ _ _ _ => .error (path ++ ": tx body variant " ++ "\x60claim\x60 is retired in V5")
  | .exportTx toId targetDomain amount fee => do
      let toId ← hexV2 32 toId (path ++ ".to")
      let amount ← decV2 amount (path ++ ".amount")
      let fee ← decV2 fee (path ++ ".fee")
      .ok (.exportTx toId targetDomain amount fee)
  | .importTx toId amount exportId => do
      let toId ← hexV2 32 toId (path ++ ".to")
      let amount ← decV2 amount (path ++ ".amount")
      let exportId ← hexV2 32 exportId (path ++ ".export_id")
      .ok (.importTx toId amount exportId)
  | .policy targetAccount action fee => do
      let targetAccount ← hexV2 32 targetAccount (path ++ ".target_account")
      let action ← policyActionFromV2 action (path ++ ".action")
      let fee ← decV2 fee (path ++ ".fee")
      .ok (.policy targetAccount action fee)

def txToV2 (value : SignedTx) : SignedTxV2 where
  domainCode := value.domainCode
  signerPk := hexOf 32 value.signerPk
  derivationIndex := value.derivationIndex
  nonce := value.nonce
  body := bodyToV2 value.body
  burnPurpose := value.burnPurpose
  importFee := value.importFee.map decOf
  importProvenance := value.importProvenance.map provToV2
  initV4 := value.initV4.map initV4ToV2
  cosigns := value.cosigns.map cosignToV2
  signature := hexOf 64 value.signature

def txFromV2 (value : SignedTxV2) (path : String) : Except String SignedTx := do
  let signerPk ← hexV2 32 value.signerPk (path ++ ".signer_pk")
  let body ← bodyFromV2 value.body (path ++ ".body")
  let importFee ← readOption (fun v => decV2 v (path ++ ".import_fee")) value.importFee
  let importProvenance ← readOption
    (fun v => provFromV2 v (path ++ ".import_provenance")) value.importProvenance
  let initV4 ← readOption (fun v => initV4FromV2 v (path ++ ".init_v4")) value.initV4
  let cosigns ← readRows (fun i row => cosignFromV2 row (rowPath (path ++ ".cosigns") i))
    value.cosigns
  let signature ← hexV2 64 value.signature (path ++ ".signature")
  .ok
    { domainCode := value.domainCode
      signerPk := signerPk
      derivationIndex := value.derivationIndex
      nonce := value.nonce
      body := body
      burnPurpose := value.burnPurpose
      importFee := importFee
      importProvenance := importProvenance
      initV4 := initV4
      cosigns := cosigns
      signature := signature }

/-! ## Blocks -/

def hdrToV2 (value : BlockHdr) : BlockHdrV2 where
  height := value.height
  prevHash := hexOf 32 value.prevHash
  ts := value.ts
  prodIdx := value.prodIdx
  txRoot := hexOf 32 value.txRoot
  stateRoot := hexOf 32 value.stateRoot
  sig := hexOf 64 value.sig

def hdrFromV2 (value : BlockHdrV2) (path : String) : Except String BlockHdr := do
  let prevHash ← hexV2 32 value.prevHash (path ++ ".prev_hash")
  let txRoot ← hexV2 32 value.txRoot (path ++ ".tx_root")
  let stateRoot ← hexV2 32 value.stateRoot (path ++ ".state_root")
  let sig ← hexV2 64 value.sig (path ++ ".sig")
  .ok
    { height := value.height, prevHash := prevHash, ts := value.ts, prodIdx := value.prodIdx,
      txRoot := txRoot, stateRoot := stateRoot, sig := sig }

def blockToV2 (value : Block) : BlockV2 :=
  ⟨hdrToV2 value.hdr, value.txs.map txToV2⟩

def blockFromV2 (value : BlockV2) (path : String) : Except String Block := do
  let hdr ← hdrFromV2 value.hdr (path ++ ".hdr")
  let txs ← readRows (fun i tx => txFromV2 tx (rowPath (path ++ ".txs") i)) value.txs
  .ok ⟨hdr, txs⟩

/-! ## Accounts and the state -/

def accountToV3 (value : Account) : SnapshotAccountV3 where
  signingPubkey := hexOf 32 value.signingPubkey
  derivationIndex := value.derivationIndex
  balancePwm := decOf value.balancePwm
  stakedPwmRaw := decOf value.stakedPwmRaw
  storedMarks := decOfU32 value.storedMarks
  marksLastBlock := value.marksLastBlock
  initialized := value.initialized
  index := value.index
  flags := value.flags
  nonce := value.nonce
  rescueAddress := value.rescueAddress.map (hexOf 32)
  activePolicies := value.activePolicies
  dormantPolicies := value.dormantPolicies
  deferredPolicies := value.deferredPolicies
  ipv4ClaimedPhase := value.ipv4ClaimedPhase
  finalized := value.finalized
  ownerKind := value.ownerKind
  ownerDisplayName := value.ownerDisplayName
  ownerCountryHint := value.ownerCountryHint
  companyMetadataCommitment := value.companyMetadataCommitment.map (hexOf 32)
  externalVerificationRef := value.externalVerificationRef
  requestedDomainLo := value.requestedDomainLo

def accountFromV3 (value : SnapshotAccountV3) (path : String) : Except String Account := do
  let signingPubkey ← hexV2 32 value.signingPubkey (path ++ ".signing_pubkey")
  let balancePwm ← decV2 value.balancePwm (path ++ ".balance_pwm")
  let stakedPwmRaw ← decV2 value.stakedPwmRaw (path ++ ".staked_pwm_raw")
  let storedMarks ← decV2Marks value.storedMarks (path ++ ".stored_marks")
  let rescueAddress ← readOption
    (fun v => hexV2 32 v (path ++ ".rescue_address")) value.rescueAddress
  let companyMetadataCommitment ← readOption
    (fun v => hexV2 32 v (path ++ ".company_metadata_commitment")) value.companyMetadataCommitment
  .ok
    { signingPubkey := signingPubkey
      derivationIndex := value.derivationIndex
      balancePwm := balancePwm
      stakedPwmRaw := stakedPwmRaw
      storedMarks := storedMarks
      marksLastBlock := value.marksLastBlock
      initialized := value.initialized
      index := value.index
      flags := value.flags
      nonce := value.nonce
      rescueAddress := rescueAddress
      activePolicies := value.activePolicies
      dormantPolicies := value.dormantPolicies
      deferredPolicies := value.deferredPolicies
      ipv4ClaimedPhase := value.ipv4ClaimedPhase
      finalized := value.finalized
      ownerKind := value.ownerKind
      ownerDisplayName := value.ownerDisplayName
      ownerCountryHint := value.ownerCountryHint
      companyMetadataCommitment := companyMetadataCommitment
      externalVerificationRef := value.externalVerificationRef
      requestedDomainLo := value.requestedDomainLo }

/-- The older written form of a row. -/
def SnapshotAccountWire.ofAccount (value : Account) : SnapshotAccountWire where
  signingPubkey := value.signingPubkey
  derivationIndex := value.derivationIndex
  balancePwm := value.balancePwm
  staked := value.stakedPwmRaw
  marks := value.storedMarks
  initialized := value.initialized
  index := value.index
  flags := value.flags
  nonce := value.nonce
  lastClaimUnixTime := 0#64
  lastClaimAnchorRef := value.marksLastBlock
  freeClaimUtcDay := none
  lastStakeChangeHeight := value.marksLastBlock
  rescueAddress := value.rescueAddress
  activePolicies := value.activePolicies
  dormantPolicies := value.dormantPolicies
  finalized := value.finalized
  ownerKind := value.ownerKind
  ownerDisplayName := value.ownerDisplayName
  ownerCountryHint := value.ownerCountryHint
  companyMetadataCommitment := value.companyMetadataCommitment
  externalVerificationRef := value.externalVerificationRef
  requestedDomainLo := value.requestedDomainLo

def SnapshotAccountWire.toAccount (value : SnapshotAccountWire) : Account where
  signingPubkey := value.signingPubkey
  derivationIndex := value.derivationIndex
  balancePwm := value.balancePwm
  stakedPwmRaw := value.staked
  storedMarks := value.marks
  marksLastBlock :=
    if value.lastClaimAnchorRef ≤ value.lastStakeChangeHeight then value.lastStakeChangeHeight
    else value.lastClaimAnchorRef
  initialized := value.initialized
  index := value.index
  flags := value.flags
  nonce := value.nonce
  rescueAddress := value.rescueAddress
  activePolicies := value.activePolicies
  dormantPolicies := value.dormantPolicies
  finalized := value.finalized
  ownerKind := value.ownerKind
  ownerDisplayName := value.ownerDisplayName
  ownerCountryHint := value.ownerCountryHint
  companyMetadataCommitment := value.companyMetadataCommitment
  externalVerificationRef := value.externalVerificationRef
  requestedDomainLo := value.requestedDomainLo

def exportRowToV2 (exportId : Bytes32) (row : ExportProvenance) : SnapshotExportRowV2 :=
  ⟨hexOf 32 exportId, hexOf 32 row.toId, row.targetDomain, decOf row.amount⟩

def exportRowFromV2 (row : SnapshotExportRowV2) (path : String) :
    Except String SnapshotExportRow := do
  let exportId ← hexV2 32 row.exportId (path ++ ".export_id")
  let toId ← hexV2 32 row.toId (path ++ ".to")
  let amount ← decV2 row.amount (path ++ ".amount")
  .ok ⟨exportId, toId, row.targetDomain, amount⟩

def stateRowFromV3 (row : SnapshotStateRowV3) (path : String) : Except String SnapshotStateRow := do
  let id ← hexV2 32 row.id (path ++ ".id")
  let account ← accountFromV3 row.account (path ++ ".account")
  .ok ⟨id, .ofAccount account⟩

def stateToV4 (value : State) : SnapshotStateV4 where
  accounts := value.accounts.toList.map fun p => ⟨hexOf 32 p.1, accountToV3 p.2⟩
  feePool := decOf value.feePool
  importedSet := value.importedSet.toList.map (hexOf 32)
  exportedRegistry := value.exportedRegistry.toList.map fun p => exportRowToV2 p.1 p.2
  epochCounter := value.epochCounter
  activeValidatorIndices := value.activeValidatorIndices
  crossShardLocks := value.crossShardLocks
  evidenceLog := value.evidenceLog
  pendingConservation := value.pendingConservation

/-- The maps of a state, each id once. -/
def stateFromWire (wire : SnapshotStateWire) : Except String State := do
  let dup (what place : String) (id : Bytes32) : String :=
    "snapshot state contract error: duplicate " ++ what ++ " id " ++ hexEncode id ++ " in state." ++
      place
  let accounts ← keyedMap (dup "account" "accounts")
    (wire.accounts.map fun row => (row.id, row.account.toAccount))
  let importedSet ← keySet (dup "export" "imported_set") wire.importedSet
  let exportedRegistry ← keyedMap (dup "export" "exported_registry")
    (wire.exportedRegistry.map fun row =>
      (row.exportId, ExportProvenance.mk row.toId row.targetDomain row.amount))
  .ok
    { accounts := accounts
      feePool := wire.feePool
      importedSet := importedSet
      exportedRegistry := exportedRegistry
      epochCounter := wire.epochCounter
      activeValidatorIndices := wire.activeValidatorIndices
      crossShardLocks := wire.crossShardLocks
      evidenceLog := wire.evidenceLog
      pendingConservation := wire.pendingConservation }

def stateFromV3 (value : SnapshotStateV3) (path : String) : Except String State := do
  let accounts ← readRows (fun i row => stateRowFromV3 row (rowPath (path ++ ".accounts") i))
    value.accounts
  let feePool ← decV2 value.feePool (path ++ ".fee_pool")
  let importedSet ← readRows
    (fun i id => hexV2 32 id (rowPath (path ++ ".imported_set") i)) value.importedSet
  let exportedRegistry ← readRows
    (fun i row => exportRowFromV2 row (rowPath (path ++ ".exported_registry") i))
    value.exportedRegistry
  let wire : SnapshotStateWire :=
    { accounts := accounts
      feePool := feePool
      importedSet := importedSet
      exportedRegistry := exportedRegistry
      epochCounter := 0#64
      activeValidatorIndices := []
      crossShardLocks := []
      evidenceLog := []
      pendingConservation := [] }
  (stateFromWire wire).mapError fun e => path ++ ": " ++ e

def stateFromV4 (value : SnapshotStateV4) (path : String) : Except String State := do
  let state ← stateFromV3
    ⟨value.accounts, value.feePool, value.importedSet, value.exportedRegistry⟩ path
  .ok
    { state with
      epochCounter := value.epochCounter
      activeValidatorIndices := value.activeValidatorIndices
      crossShardLocks := value.crossShardLocks
      evidenceLog := value.evidenceLog
      pendingConservation := value.pendingConservation }

/-! ## Roaming and cross-shard facts -/

def intentToV2 (row : SnapshotIntentRow) : SnapshotIntentRowV2 where
  intentId := hexOf 32 row.intentId
  exportId := hexOf 32 row.exportId
  source := hexOf 32 row.source
  toId := hexOf 32 row.toId
  targetDomain := row.targetDomain
  amount := decOf row.amount
  fee := decOf row.fee
  status := row.status
  createdHeight := row.createdHeight
  expiresAtHeight := row.expiresAtHeight
  lastError := row.lastError

def intentFromV2 (row : SnapshotIntentRowV2) (path : String) : Except String SnapshotIntentRow := do
  let intentId ← hexV2 32 row.intentId (path ++ ".intent_id")
  let exportId ← hexV2 32 row.exportId (path ++ ".export_id")
  let source ← hexV2 32 row.source (path ++ ".source")
  let toId ← hexV2 32 row.toId (path ++ ".to")
  let amount ← decV2 row.amount (path ++ ".amount")
  let fee ← decV2 row.fee (path ++ ".fee")
  .ok
    { intentId := intentId
      exportId := exportId
      source := source
      toId := toId
      targetDomain := row.targetDomain
      amount := amount
      fee := fee
      status := row.status
      createdHeight := row.createdHeight
      expiresAtHeight := row.expiresAtHeight
      lastError := row.lastError }

def intentLockToV2 (row : SnapshotIntentLockRow) : SnapshotIntentLockRowV2 :=
  ⟨hexOf 32 row.source, hexOf 32 row.intentId⟩

def intentLockFromV2 (row : SnapshotIntentLockRowV2) (path : String) :
    Except String SnapshotIntentLockRow := do
  let source ← hexV2 32 row.source (path ++ ".source")
  let intentId ← hexV2 32 row.intentId (path ++ ".intent_id")
  .ok ⟨source, intentId⟩

def roamingToV2 (value : SnapshotRoamingWire) : SnapshotRoamingV2 :=
  ⟨value.intents.map intentToV2, value.locks.map intentLockToV2⟩

def roamingFromV2 (value : SnapshotRoamingV2) : Except String SnapshotRoamingWire := do
  let intents ← readRows (fun i row => intentFromV2 row (rowPath "roaming.intents" i)) value.intents
  let locks ← readRows (fun i row => intentLockFromV2 row (rowPath "roaming.locks" i)) value.locks
  .ok ⟨intents, locks⟩

def factToV2 (fact : CrossShardFact) : SnapshotCrossShardFactV2 where
  exportId := hexOf 32 fact.exportId
  sourceDomainHi := fact.sourceDomainHi
  targetDomainHi := fact.targetDomainHi
  amount := decOf fact.amount
  status := fact.status
  firstHeight := fact.firstHeight
  lastHeight := fact.lastHeight
  source := fact.source.map (hexOf 32)
  toId := hexOf 32 fact.toId
  intentId := fact.intentId.map (hexOf 32)
  origin := fact.origin

def factFromV2 (row : SnapshotCrossShardFactV2) (path : String) :
    Except String CrossShardFact := do
  let exportId ← hexV2 32 row.exportId (path ++ ".export_id")
  let source ← readOption (fun v => hexV2 32 v (path ++ ".source")) row.source
  let intentId ← readOption (fun v => hexV2 32 v (path ++ ".intent_id")) row.intentId
  let amount ← decV2 row.amount (path ++ ".amount")
  let toId ← hexV2 32 row.toId (path ++ ".to")
  .ok
    { exportId := exportId
      sourceDomainHi := row.sourceDomainHi
      targetDomainHi := row.targetDomainHi
      amount := amount
      status := row.status
      firstHeight := row.firstHeight
      lastHeight := row.lastHeight
      source := source
      toId := toId
      intentId := intentId
      origin := row.origin }

def crossShardToV2 (value : CrossShardLedger) : SnapshotCrossShardV2 :=
  ⟨value.facts.toList.map fun p => factToV2 p.2⟩

/-- Each fact is written to a ledger that starts empty. -/
def crossShardFromV2 (value : SnapshotCrossShardV2) : Except String CrossShardLedger := do
  let facts ← readRows (fun i row => factFromV2 row (rowPath "cross_shard.facts" i)) value.facts
  .ok (facts.foldl (fun ledger fact => (ledger.upsert fact).1) {})

/-! ## Snapshots -/

def genesisRowToV2 (row : SnapshotGenesisRow) : SnapshotGenesisRowV2 :=
  ⟨hexOf 32 row.acct, hexOf 32 row.pubkey, row.derIdx⟩

def genesisRowFromV2 (row : SnapshotGenesisRowV2) (path : String) :
    Except String SnapshotGenesisRow := do
  let acct ← hexV2 32 row.acct (path ++ ".acct")
  let pubkey ← hexV2 32 row.pubkey (path ++ ".pubkey")
  .ok ⟨acct, pubkey, row.derIdx⟩

def anchorToV3 (value : SnapshotGenAnchor) : SnapshotGenAnchorV3 where
  schemaV := value.schemaV
  genesisStateRoot := hexOf 32 value.genesisStateRoot
  gencfgDigest := hexOf 32 value.gencfgDigest
  block1HdrHash := hexOf 32 value.block1HdrHash
  signerProdIdx := value.signerProdIdx
  signature := hexOf 64 value.signature

def anchorFromV3 (value : SnapshotGenAnchorV3) : Except String SnapshotGenAnchor := do
  let genesisStateRoot ← hexV2 32 value.genesisStateRoot "genesis_anchor.genesis_state_root"
  let gencfgDigest ← hexV2 32 value.gencfgDigest "genesis_anchor.gencfg_digest"
  let block1HdrHash ← hexV2 32 value.block1HdrHash "genesis_anchor.block1_hdr_hash"
  let signature ← hexV2 64 value.signature "genesis_anchor.signature"
  .ok
    { schemaV := value.schemaV
      genesisStateRoot := genesisStateRoot
      gencfgDigest := gencfgDigest
      block1HdrHash := block1HdrHash
      signerProdIdx := value.signerProdIdx
      signature := signature }

def dataToV4 (value : SnapshotData) : SnapshotDataV4 where
  version := snapshotVersion
  genesisAccounts := value.genesisAccounts.map genesisRowToV2
  genesisAnchor := value.genesisAnchor.map anchorToV3
  blocks := value.blocks.map blockToV2
  state := stateToV4 value.state
  roaming := roamingToV2 value.roaming
  crossShard := crossShardToV2 value.crossShard
  blocksStored := value.blocksStored
  checkpointHeight := value.checkpointHeight

def dataFromV4 (value : SnapshotDataV4) : Except String SnapshotData := do
  Attempt.check (value.version = snapshotVersion)
    ("version: unsupported snapshot version " ++ toString value.version.toNat ++ ", expected " ++
      toString snapshotVersion.toNat)
  let genesisAccounts ← readRows
    (fun i row => genesisRowFromV2 row (rowPath "genesis_accounts" i)) value.genesisAccounts
  let genesisAnchor ← readOption anchorFromV3 value.genesisAnchor
  let blocks ← readRows (fun i block => blockFromV2 block (rowPath "blocks" i)) value.blocks
  let state ← stateFromV4 value.state "state"
  let roaming ← roamingFromV2 value.roaming
  let crossShard ← crossShardFromV2 value.crossShard
  .ok
    { version := snapshotVersion
      genesisAccounts := genesisAccounts
      genesisAnchor := genesisAnchor
      blocks := blocks
      state := state
      roaming := roaming
      crossShard := crossShard
      blocksStored := value.blocksStored
      checkpointHeight := value.checkpointHeight }

end Pwm
