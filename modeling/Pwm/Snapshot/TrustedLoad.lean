import Pwm.Snapshot.EnginesAgree
import Pwm.Snapshot.EpochReaders

/-!
# The trusted load

A node that trusts its summary takes the state from it and checks the last
blocks only: their links, their signatures and their producers. Which producers
are due is computed back from the state at the tip.
-/

namespace Pwm

open BitVec Attempt

/-! ## Producers of the tail -/

/-- The first epoch boundary in a range of heights. -/
def tailEpochBndH (cfg : GenCfg) (firstH tipH : U64) : Option U64 :=
  let epochLen := cfg.epochLengthBlocks
  if epochLen = 0#64 then none
  else
    let rem := firstH % epochLen
    let bndH :=
      if rem = 0#64 then firstH else firstH.saturatingAdd (epochLen.saturatingSub rem)
    if bndH ≤ tipH then some bndH else none

/-- The heights from one to another, both included. -/
def heightsUpTo (a b : U64) : List U64 :=
  (List.range' a.toNat (b.toNat + 1 - a.toNat)).map (BitVec.ofNat 64)

/-- Puts down the producers of these heights; a place outside the tail ends it in this way. -/
def setProducers (st : State) (tailFirstH : U64) (outside : U64 → SnapFault) :
    List U64 → List (Option U32) → Except SnapFault (List (Option U32))
  | [], want => .ok want
  | h :: rest, want => do
      let prodIdx ← (pickProdIdx h st.activeValidatorIndices).mapError fun e =>
        .err s!"snapshot trust validation: height {h.toNat} proposer pick failed: {e}"
      let tailPos := (h.saturatingSub tailFirstH).toNat
      check (tailPos < want.length) (outside h)
      setProducers st tailFirstH outside rest (want.set tailPos (some prodIdx))

/-- The producers of the tail as far as the active set of the tip decides them: from the first
boundary in the tail on, or all without one. -/
def trustTailProdIdx (cfg : GenCfg) (snapState : State) (tipH tailFirstH : U64) :
    Except SnapFault (List (Option U32)) := do
  let behind ← orFail (tipH.checkedSub tailFirstH) .panic
  let want := List.replicate (behind.toNat + 1) none
  match tailEpochBndH cfg tailFirstH tipH with
  | some bndH =>
      setProducers snapState tailFirstH (fun h => .err
        s!"snapshot trust validation: height {h.toNat} outside tail {tailFirstH.toNat}..={tipH.toNat}")
        (heightsUpTo bndH tipH) want
  | none => setProducers snapState tailFirstH (fun _ => .panic) (heightsUpTo tailFirstH tipH) want

/-! ## The genesis anchor -/

section Anchor

variable (C : Crypto) (cfgJson : GenCfg → List U8) (cfg : GenCfg)

def genAnchV : U32 := 1#32

def anchStRoot : Bytes32 := digest C cfg.state0

/-- The digest of the configuration's JSON text. -/
def cfgDig : Bytes32 := C.blake3 (cfgJson cfg)

def anchMsg (genRoot cfgDig blk1Hash : Bytes32) : Bytes32 :=
  C.blake3 (strBytes "PWMv0/SNAPGENANCHOR/v1" ++ genRoot.beBytes 32 ++ cfgDig.beBytes 32 ++
    blk1Hash.beBytes 32)

def mkAnch (blk1Hash : Bytes32) (signerIdx : U32) (sk : SigningKey) : SnapshotGenAnchor :=
  let genRoot := anchStRoot C cfg
  let cfgHash := cfgDig C cfgJson cfg
  { schemaV := genAnchV
    genesisStateRoot := genRoot
    gencfgDigest := cfgHash
    block1HdrHash := blk1Hash
    signerProdIdx := signerIdx
    signature := C.sign sk ((anchMsg C genRoot cfgHash blk1Hash).beBytes 32) }

def chkAnch (anch : SnapshotGenAnchor) (blk1Hash : Bytes32) : Except String Unit := do
  check (anch.schemaV = genAnchV)
    s!"snapshot genesis_anchor schema {anch.schemaV.toNat} != {genAnchV.toNat}"
  check (anch.genesisStateRoot = anchStRoot C cfg)
    "snapshot genesis_anchor mismatch: genesis_state_root"
  check (anch.gencfgDigest = cfgDig C cfgJson cfg)
    "snapshot genesis_anchor mismatch: gencfg_digest"
  check (anch.block1HdrHash = blk1Hash) "snapshot genesis_anchor mismatch: block1_hdr_hash"
  let vk ← orFail (cfg.vals.set[anch.signerProdIdx.toNat]?)
    "snapshot genesis_anchor signer_prod_idx out of range"
  let msg := anchMsg C anch.genesisStateRoot anch.gencfgDigest anch.block1HdrHash
  check (C.verify vk.pubkey (msg.beBytes 32) anch.signature)
    "snapshot genesis_anchor signature invalid"

end Anchor

/-! ## The first block -/

section BlockOne

variable (C : Crypto) (J : BlockJson) (cfg : GenCfg) (s : EpochStore)

def findBlk1 (snapshot : SnapshotData) : Except String (Option Block) :=
  match snapshot.blocks.find? fun b => decide (b.hdr.height = 1#64) with
  | some blk => .ok (some blk)
  | none => loadBlockAtHeight J s 1#64

/-- The transactions of the first block, numbered for the error. -/
def blk1Txs (hdr : BlockHdr) : Nat → List SignedTx → State → Except SnapFault State
  | _, [], st => .ok st
  | txI, tx :: rest, st =>
      match applyTxWithCtx C cfg tx 1#64 hdr.ts st with
      | .ok _ st => blk1Txs hdr (txI + 1) rest st
      | .error (.err e) _ =>
          .error (.err ("snapshot trust validation: block1 tx[" ++ toString txI ++
            "] replay failed: " ++ e.text))
      | .error .panic _ => .error .panic

/-- Runs the first block again from genesis; its hash. -/
def preflightBlk1 (snapshot : SnapshotData) : Except SnapFault Bytes32 :=
  if snapshot.checkpointHeight = 0#64 then .ok 0#256
  else do
    let found ← (findBlk1 J s snapshot).mapError .err
    let blk ← orFail found
      (.err "snapshot trust validation: missing genesis anchor block1 (pruned)")
    check (blk.hdr.height = 1#64)
      (.err "snapshot trust validation: genesis preflight expects block height 1")
    check (blk.hdr.prevHash = prevGen C)
      (.err "snapshot trust validation: block1 prev_hash mismatch with genesis")
    check (blk.hdr.txRoot = txsRoot C blk.txs)
      (.err "snapshot trust validation: block1 tx_root is invalid")
    let prod ← orFail (cfg.vals.set[blk.hdr.prodIdx.toNat]?)
      (.err "snapshot trust validation: block1 prod_idx out of range")
    check (blk.hdr.verifySig C prod.pubkey)
      (.err "snapshot trust validation: block1 has invalid producer signature")
    let st := (rollEpochIfNeeded cfg (replayStart cfg) 1#64).refundExpLocks 1#64
    let st ← blk1Txs C cfg blk.hdr 0 blk.txs st
    let st := st.refundExpLocks 1#64
    let st ← replayTotal (drainConservationAtHeight cfg 1#64 st)
    let prodAcct ← orFail (cfg.prodAcct blk.hdr.prodIdx) .panic
    let st := rewardBlock cfg st prodAcct 1#64
    check (blk.hdr.stateRoot = digest C st)
      (.err "snapshot trust validation: block1 state_root mismatch after replay")
    .ok (hdrHash C blk.hdr)

end BlockOne

/-! ## The tail -/

structure SnapshotLoadOpts where
  verifyChain : Bool
  anchorSk : Option SigningKey
  anchorIdx : U32

section Tail

variable (C : Crypto) (J : BlockJson) (cfg : GenCfg) (s : EpochStore)

/-- The header of the block before the first one of the tail. -/
def tailParent (h : U64) : Except SnapFault Bytes32 :=
  if h = 1#64 then .ok (prevGen C)
  else do
    let found ← (loadBlockAtHeight J s (h - 1#64)).mapError .err
    let parent ← orFail found
      (.err s!"snapshot trust validation: missing parent block at height {(h - 1#64).toNat}")
    .ok (hdrHash C parent.hdr)

/-- The links of a block, and the error when they do not hold. -/
def trustLink (i : Nat) (h : U64) (prev : Option Block) (blk : Block) : Except SnapFault Unit :=
  match prev with
  | none => do
      let parentHash ← tailParent C J s h
      check (blk.hdr.prevHash = parentHash)
        (.err (if h = 1#64 then
            "snapshot trust validation: block[0] at height 1 must chain from genesis"
          else
            s!"snapshot trust validation: block[{i}] prev_hash does not link to height {(h - 1#64).toNat}"))
  | some prevBlk =>
      check (blk.hdr.prevHash = hdrHash C prevBlk.hdr)
        (.err s!"snapshot trust validation: block[{i}] prev_hash does not match previous header hash")

/-- One block of the tail, after the one before it if that is in the tail. -/
def trustBlock (firstH : U64) (want : List (Option U32)) (i : Nat) (prev : Option Block)
    (blk : Block) : Except SnapFault Unit := do
  let h := firstH + BitVec.ofNat 64 i
  check (blk.hdr.height = h)
    (.err s!"snapshot trust validation: block[{i}] height {blk.hdr.height.toNat}, expected {h.toNat}")
  trustLink C J s i h prev blk
  check (blk.hdr.txRoot = txsRoot C blk.txs)
    (.err s!"snapshot trust validation: block[{i}] tx_root is invalid")
  let wantProdIdx ← orFail (want[i]?)
    (.err s!"snapshot trust validation: block[{i}] missing expected proposer")
  match wantProdIdx with
  | some idx =>
      check (blk.hdr.prodIdx = idx)
        (.err s!"snapshot trust validation: block[{i}] prod_idx {blk.hdr.prodIdx.toNat}, expected {idx.toNat}")
  | none => .ok ()
  let prod ← orFail (cfg.vals.set[blk.hdr.prodIdx.toNat]?)
    (.err s!"snapshot trust validation: block[{i}] prod_idx out of range")
  check (blk.hdr.verifySig C prod.pubkey)
    (.err s!"snapshot trust validation: block[{i}] has invalid producer signature")

def trustBlocks (firstH : U64) (want : List (Option U32)) :
    Nat → Option Block → List Block → Except SnapFault Unit
  | _, _, [] => .ok ()
  | i, prev, blk :: rest => do
      trustBlock C J cfg s firstH want i prev blk
      trustBlocks firstH want (i + 1) (some blk) rest

/-- The number of blocks, their first and last height, the hash of the tip and the root of the
state; the first height. -/
def trustShape (man : EpochManifest) (snapshot : SnapshotData) : Except SnapFault U64 := do
  let tip := man.canonicalH
  let n := snapshot.blocks.length
  check (n ≠ 0) (.err "snapshot trust validation: tip>0 but tail blocks missing")
  let last ← orFail snapshot.blocks.getLast? .panic
  check (last.hdr.height = tip)
    (.err s!"snapshot trust validation: tail tip height {last.hdr.height.toNat} != manifest tip {tip.toNat}")
  let startH := ((tip.saturatingSub (BitVec.ofNat 64 tailBlockCap)).saturatingAdd 1#64).umax 1#64
  let behind ← orFail (tip.checkedSub startH) .panic
  check (n = behind.toNat + 1)
    (.err s!"snapshot trust validation: expected {behind.toNat + 1} tail blocks, got {n}")
  let before ← orFail (tip.checkedSub (BitVec.ofNat 64 n)) .panic
  let firstH := before + 1#64
  check (firstH = startH)
    (.err s!"snapshot trust validation: tail range mismatch (first_h {firstH.toNat} vs start_h {startH.toNat})")
  let wantTipHex := hexEncode (hdrHash C last.hdr)
  check (man.tipHash = wantTipHex)
    (.err ("snapshot trust validation: manifest tip_hash " ++ man.tipHash ++ " != hdr_hash(last) " ++
      wantTipHex))
  check (last.hdr.stateRoot = digest C snapshot.state)
    (.err "snapshot trust validation: state root mismatch with tip block")
  .ok firstH

end Tail

/-! ## The whole load -/

section Load

variable (C : Crypto) (J : BlockJson) (cfgJson : GenCfg → List U8) (cfg : GenCfg) (s : EpochStore)

/-- Gives the snapshot an anchor, signed with the key of the options. -/
def attachAnch (opts : SnapshotLoadOpts) (snapshot : SnapshotData) :
    Except SnapFault SnapshotData :=
  match snapshot.genesisAnchor with
  | some _ => .ok snapshot
  | none => do
      let blk1Hash ← preflightBlk1 C J cfg s snapshot
      let sk ← orFail opts.anchorSk
        (.err "snapshot trust validation: legacy snapshot missing genesis_anchor and signer key unavailable; rerun with --snapshot-verify-chain or set PWM_SNAPSHOT_ANCHOR_MIGRATE=1 for temporary bypass")
      .ok { snapshot with genesisAnchor := some (mkAnch C cfgJson cfg blk1Hash opts.anchorIdx sk) }

/-- Checks the anchor, or attaches one, or goes on without when that is allowed. -/
def trustAnchor (opts : SnapshotLoadOpts) (allowLegacyEnv : Bool) (snapshot : SnapshotData)
    (blk1Hash : Bytes32) : Except SnapFault SnapshotData :=
  match snapshot.genesisAnchor with
  | some anch => do
      (chkAnch C cfgJson cfg anch blk1Hash).mapError .err
      .ok snapshot
  | none =>
      if opts.anchorSk.isSome then attachAnch C J cfgJson cfg s opts snapshot
      else if !opts.verifyChain && !allowLegacyEnv then
        .error (.err "snapshot trust validation: missing genesis_anchor on legacy snapshot; set PWM_SNAPSHOT_ANCHOR_MIGRATE=1 (unsafe) or rerun with --snapshot-verify-chain")
      else .ok snapshot

def validateSnapshotTrusted (opts : SnapshotLoadOpts) (allowLegacyEnv : Bool)
    (snapshot : SnapshotData) : Except SnapFault SnapshotData := do
  validateEnvelope cfg snapshot
  check (snapshot.blocksStored = .epochs)
    (.err "snapshot trust validation: blocks_stored must be epochs")
  let man ← orFail s.manifest (.err "snapshot trust validation: missing epoch manifest")
  (ensureEpochManSchema man.schemaV).mapError .err
  let tip := man.canonicalH
  check (tip = snapshot.checkpointHeight)
    (.err s!"snapshot trust validation: summary checkpoint_height {snapshot.checkpointHeight.toNat} != manifest canonical_h {tip.toNat}")
  let blk1Hash ←
    if tip = 0#64 then do
      check (snapshot.blocks = []) (.err "snapshot trust validation: tip=0 but blocks non-empty")
      check (digest C snapshot.state = anchStRoot C cfg)
        (.err "snapshot state mismatch: empty chain must match genesis state")
      pure 0#256
    else do
      let firstH ← trustShape C man snapshot
      let want ← trustTailProdIdx cfg snapshot.state tip firstH
      trustBlocks C J cfg s firstH want 0 none snapshot.blocks
      preflightBlk1 C J cfg s snapshot
  let snapshot ← trustAnchor C J cfgJson cfg s opts allowLegacyEnv snapshot blk1Hash
  validateSnapshotStateAccounts C snapshot
  .ok snapshot

/-- Loads a decoded summary with the blocks of the epoch files: all of them when asked to verify or
when the manifest is ahead of the summary, the tail otherwise. -/
def loadSnapshot (opts : SnapshotLoadOpts) (allowLegacyEnv : Bool) (snapshot : SnapshotData) :
    Except SnapFault SnapshotData :=
  match snapshot.blocksStored with
  | .inline => validateSnapshot C cfg snapshot
  | .epochs =>
      let lag := s.manifest.any fun man =>
        decide (0#64 < man.canonicalH ∧ man.canonicalH ≠ snapshot.checkpointHeight)
      if opts.verifyChain || lag then do
        let blocks ← (loadBlocksFromEpochs J s).mapError .err
        validateSnapshot C cfg { snapshot with blocks := blocks }
      else do
        let blocks ← loadTailBlocks J s (BitVec.ofNat 64 tailBlockCap)
        validateSnapshotTrusted C J cfgJson cfg s opts allowLegacyEnv
          { snapshot with blocks := blocks }

/-! ## Writing a summary -/

def snapBlk1 (ch : Chain) (tip : U64) : Except String Bytes32 :=
  if tip = 0#64 then .ok 0#256
  else
    match ch.blocks.find? fun b => decide (b.hdr.height = 1#64) with
    | some blk => .ok (hdrHash C blk.hdr)
    | none => do
        let found ← loadBlockAtHeight J s 1#64
        let blk ← orFail found "snapshot persist: missing genesis anchor block1 (pruned)"
        .ok (hdrHash C blk.hdr)

/-- The summary of a chain, to be written next to its epoch files. -/
def saveCheckpointSummary (ch : Chain) (roaming : SnapshotRoamingWire)
    (crossShard : CrossShardLedger) : Except String SnapshotData := do
  let h := ch.tipH
  let blk1Hash ← snapBlk1 C J s ch h
  let sk ← orFail ch.valSks.head?
    "snapshot persist: missing validator signing key for genesis_anchor"
  .ok
    { version := snapshotVersion
      genesisAccounts := snapshotGenesisAccounts ch.cfg
      genesisAnchor := some (mkAnch C cfgJson ch.cfg blk1Hash 0#32 sk)
      blocks := []
      state := ch.st
      roaming := roaming
      crossShard := crossShard
      blocksStored := .epochs
      checkpointHeight := h }

end Load

end Pwm
