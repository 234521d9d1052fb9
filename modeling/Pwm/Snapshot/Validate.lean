import Pwm.Core.Apply
import Pwm.Snapshot.Types

/-!
# Validating a snapshot

The blocks of a snapshot are run again from genesis, each with all its checks,
and the state they lead to is compared with the one of the snapshot.
-/

namespace Pwm

open BitVec Attempt

/-- Why a snapshot or a block list is not taken. -/
inductive SnapFault
  | err (msg : String)
  | panic
  deriving DecidableEq

def snapshotGenesisAccounts (cfg : GenCfg) : List SnapshotGenesisRow :=
  cfg.funding.accounts.map fun r => ⟨r.acct, r.pubkey, r.derIdx⟩

/-- The ledger that the first block is run on. -/
def replayStart (cfg : GenCfg) : State :=
  { cfg.state0 with activeValidatorIndices := recomputeActiveIdxs cfg cfg.state0 }

/-- Every initialised account is at the address of its key. -/
def validateSnapshotStateAccounts (C : Crypto) (snapshot : SnapshotData) :
    Except SnapFault Unit :=
  match snapshot.state.accounts.toList.find? fun p =>
      p.2.initialized && decide (accountIdFromParts C p.2.signingPubkey p.2.derivationIndex ≠ p.1)
  with
  | some p =>
      .error (.err ("snapshot state mismatch: account id " ++ hexEncode p.1 ++
        " does not match signing_pubkey/derivation_index"))
  | none => .ok ()

def blockTxKind (blk : Block) : String :=
  let hasExport := blk.txs.any fun tx => match tx.body with
    | .exportTx _ _ _ _ => true
    | _ => false
  let hasImport := blk.txs.any fun tx => match tx.body with
    | .importTx _ _ _ => true
    | _ => false
  let hasOther := blk.txs.any fun tx => match tx.body with
    | .exportTx _ _ _ _ => false
    | .importTx _ _ _ => false
    | _ => true
  if blk.txs = [] then "empty"
  else if hasExport && hasImport then "mixed"
  else if hasExport && !hasOther then "Export"
  else if hasImport && !hasOther then "Import"
  else if hasExport || hasImport then "mixed"
  else "other"

def mismatchClass (snapshot : SnapshotData) (txKind : String) : String :=
  if snapshot.blocksStored = .epochs ∧ 0#64 < snapshot.checkpointHeight ∧
      snapshot.checkpointHeight ≠ BitVec.ofNat 64 snapshot.blocks.length then
    "manifest_summary_drift"
  else if txKind = "other" then "other"
  else "state_root_divergence"

/-- The outcome of a step of a replay that returns no error. -/
def replayTotal (r : EStateM.Result Fault State Unit) : Except SnapFault State :=
  match r with
  | .ok _ st => .ok st
  | .error _ _ => .error .panic

section Blocks

variable (C : Crypto) (cfg : GenCfg)

def mismatchAt (i : Nat) (what : String) : SnapFault :=
  .err ("snapshot chain mismatch: block[" ++ toString i ++ "] " ++ what)

/-- The transactions of a block, numbered for the error. -/
def validateTxs (i : Nat) (hdr : BlockHdr) : Nat → List SignedTx → State → Except SnapFault State
  | _, [], st => .ok st
  | txI, tx :: rest, st =>
      match applyTxWithCtx C cfg tx hdr.height hdr.ts st with
      | .ok _ st => validateTxs i hdr (txI + 1) rest st
      | .error (.err e) _ =>
          .error (.err ("snapshot chain mismatch: block[" ++ toString i ++ "] tx[" ++
            toString txI ++ "] is invalid during replay: " ++ e.text))
      | .error .panic _ => .error .panic

def rootMismatch (snapshot : SnapshotData) (i : Nat) (h : U64) (blk : Block)
    (replayRoot : Bytes32) : SnapFault :=
  let txKind := blockTxKind blk
  .err ("snapshot chain mismatch: first_bad_height=" ++ toString h.toNat ++ " block_idx=" ++
    toString i ++ " block_hash=" ++ hexEncode (hdrHash C blk.hdr) ++ " tx_kind=" ++ txKind ++
    " class=" ++ mismatchClass snapshot txKind ++ " header_root=" ++ hexEncode blk.hdr.stateRoot ++
    " replay_root=" ++ hexEncode replayRoot)

/-- One block after the one with this hash. -/
def validateBlock (snapshot : SnapshotData) (i : Nat) (prev : Bytes32) (st : State)
    (blk : Block) : Except SnapFault State := do
  let h : U64 := BitVec.ofNat 64 (i + 1)
  check (blk.hdr.height = h)
    (mismatchAt i ("has height " ++ toString blk.hdr.height.toNat ++ ", expected " ++
      toString h.toNat))
  check (blk.hdr.prevHash = prev) (mismatchAt i "prev_hash does not match previous header hash")
  check (blk.hdr.txRoot = txsRoot C blk.txs) (mismatchAt i "tx_root is invalid")
  let st := rollEpochIfNeeded cfg st h
  let wantProdIdx ← (pickProdIdx h st.activeValidatorIndices).mapError fun e =>
    mismatchAt i ("cannot pick proposer: " ++ e)
  check (blk.hdr.prodIdx = wantProdIdx)
    (mismatchAt i ("prod_idx " ++ toString blk.hdr.prodIdx.toNat ++ ", expected " ++
      toString wantProdIdx.toNat))
  let prod ← orFail (cfg.vals.set[blk.hdr.prodIdx.toNat]?) (mismatchAt i "prod_idx out of range")
  check (blk.hdr.verifySig C prod.pubkey) (mismatchAt i "has invalid producer signature")
  let st := st.refundExpLocks h
  let st ← validateTxs C cfg i blk.hdr 0 blk.txs st
  let st := st.refundExpLocks h
  let st ← replayTotal (drainConservationAtHeight cfg h st)
  let prodAcct ← orFail (cfg.prodAcct blk.hdr.prodIdx) .panic
  let st := rewardBlock cfg st prodAcct h
  let replayRoot := digest C st
  check (blk.hdr.stateRoot = replayRoot) (rootMismatch C snapshot i h blk replayRoot)
  .ok st

/-- The blocks from the one with this place on. -/
def validateBlocks (snapshot : SnapshotData) : Nat → Bytes32 → State → List Block →
    Except SnapFault State
  | _, _, st, [] => .ok st
  | i, prev, st, blk :: rest => do
      let st ← validateBlock C cfg snapshot i prev st blk
      validateBlocks snapshot (i + 1) (hdrHash C blk.hdr) st rest

/-- The envelope: configuration, version and genesis rows. -/
def validateEnvelope (snapshot : SnapshotData) : Except SnapFault Unit := do
  check (cfg.vals.set ≠ [])
    (.err "snapshot validation error: genesis config has zero validators")
  check (snapshot.version = snapshotVersion)
    (.err ("snapshot version mismatch: got " ++ toString snapshot.version.toNat ++ ", expected " ++
      toString snapshotVersion.toNat))
  check (snapshot.blocks.length ≤ (allOnes 64).toNat)
    (.err "snapshot chain mismatch: blocks length exceeds supported u64 height range")
  let want := snapshotGenesisAccounts cfg
  check (snapshot.genesisAccounts.length = want.length)
    (.err ("snapshot genesis mismatch: rows " ++ toString snapshot.genesisAccounts.length ++ " != " ++
      toString want.length))
  match (snapshot.genesisAccounts.zip want).findIdx? fun p => decide (p.1 ≠ p.2) with
  | some i => .error (.err ("snapshot genesis mismatch at row " ++ toString i))
  | none => .ok ()

/-- The state of the snapshot against the tip, or against genesis without blocks. -/
def validateTip (snapshot : SnapshotData) (replayState : State) : Except SnapFault Unit :=
  let stRoot := digest C snapshot.state
  match snapshot.blocks.getLast? with
  | some last => do
      check (last.hdr.height = BitVec.ofNat 64 snapshot.blocks.length)
        (.err ("snapshot chain mismatch: tip height " ++ toString last.hdr.height.toNat ++
          " does not match blocks length " ++ toString snapshot.blocks.length))
      check (last.hdr.stateRoot = stRoot) (.err "snapshot state root mismatch with tip block")
      check (digest C replayState = stRoot)
        (.err "snapshot state mismatch: persisted state does not match replayed chain state")
  | none =>
      check (stRoot = digest C cfg.state0)
        (.err "snapshot state mismatch: empty block history must match genesis state")

/-- Accepts a snapshot; with the bodies in the epoch files its state is the replayed one. -/
def validateSnapshot (snapshot : SnapshotData) : Except SnapFault SnapshotData := do
  validateEnvelope cfg snapshot
  let snapshot := match snapshot.blocksStored with
    | .epochs => { snapshot with state := cfg.state0 }
    | .inline => snapshot
  let replayState ←
    validateBlocks C cfg snapshot 0 (prevGen C) (replayStart cfg) snapshot.blocks
  let snapshot := match snapshot.blocksStored with
    | .epochs => { snapshot with state := replayState }
    | .inline => snapshot
  validateSnapshotStateAccounts C snapshot
  validateTip C cfg snapshot replayState
  .ok snapshot

end Blocks

end Pwm
