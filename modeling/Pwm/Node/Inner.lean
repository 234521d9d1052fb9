import Pwm.Node.CrossShard

/-!
# The node

The state of a node under its lock: the chain, the transaction pool, the
roaming intents and the cross-shard facts. A block of another node is applied
by running all its transactions again.
-/

namespace Pwm

open BitVec Attempt

/-- Bounded FIFO pool. -/
structure Mpool where
  cap : Nat
  q : List SignedTx := []
  deriving DecidableEq

namespace Mpool

def push (pool : Mpool) (tx : SignedTx) : Except String Mpool :=
  if pool.cap ≤ pool.q.length then .error "pool full"
  else .ok { pool with q := pool.q ++ [tx] }

/-- Up to `max` transactions, and the pool without them. -/
def take (pool : Mpool) (max : Nat) : List SignedTx × Mpool :=
  (pool.q.take max, { pool with q := pool.q.drop max })

/-- Put transactions back at the front, in block order. -/
def prependBlock (pool : Mpool) (txs : List SignedTx) : Mpool :=
  { pool with q := txs ++ pool.q }

end Mpool

structure Inner where
  chain : Chain
  pool : Mpool := { cap := 4096 }
  roamingPool : RoamingPool := {}
  crossShard : CrossShardLedger := {}
  deriving DecidableEq

namespace Inner

def recordCrossShardTx (C : Crypto) (inn : Inner) (tx : SignedTx) (height : U64) : Inner :=
  match tx.body with
  | .exportTx _ _ _ _ =>
      let intentId := (tx.exportId C).bind fun id =>
        (inn.roamingPool.getByExportId id).map RoamingIntent.intentId
      { inn with crossShard := inn.crossShard.recordExport C tx height intentId }
  | .importTx _ _ exportId =>
      let provenance := tx.importProvenance.or (inn.chain.st.exportedRegistry[exportId]?)
      { inn with crossShard := inn.crossShard.recordImport C tx height provenance }
  | _ => inn

/-- Take over facts of a trusted peer; counts those that changed something. -/
def mergeCrossShardFacts (inn : Inner) (facts : List CrossShardFact) : Inner × Nat :=
  facts.foldl (fun (inn, changed) fact =>
    let (crossShard, new) := inn.crossShard.insertPeerFact fact
    let roamingPool :=
      if fact.status = .imported then inn.roamingPool.markImportByExport fact.exportId
      else inn.roamingPool
    ({ inn with crossShard := crossShard, roamingPool := roamingPool },
      if new then changed + 1 else changed)) (inn, 0)

@[simp] theorem recordCrossShardTx_chain (C : Crypto) (inn : Inner) (tx : SignedTx)
    (height : U64) : (inn.recordCrossShardTx C tx height).chain = inn.chain := by
  unfold recordCrossShardTx
  cases tx.body <;> rfl

theorem foldl_recordCrossShardTx_chain (C : Crypto) (height : U64) (txs : List SignedTx)
    (inn : Inner) :
    (txs.foldl (fun inn tx => inn.recordCrossShardTx C tx height) inn).chain = inn.chain := by
  induction txs generalizing inn with
  | nil => rfl
  | cons tx rest ih => rw [List.foldl_cons, ih, recordCrossShardTx_chain]

/-- Facts of peers do not reach the chain. -/
theorem mergeCrossShardFacts_chain (inn : Inner) (facts : List CrossShardFact) :
    (inn.mergeCrossShardFacts facts).1.chain = inn.chain := by
  have hfold : ∀ (facts : List CrossShardFact) (p : Inner × Nat),
      (facts.foldl (fun (inn, changed) fact =>
        let (crossShard, new) := inn.crossShard.insertPeerFact fact
        let roamingPool :=
          if fact.status = .imported then inn.roamingPool.markImportByExport fact.exportId
          else inn.roamingPool
        ({ inn with crossShard := crossShard, roamingPool := roamingPool },
          if new then changed + 1 else changed)) p).1.chain = p.1.chain := by
    intro facts
    induction facts with
    | nil => exact fun _ => rfl
    | cons fact rest ih => exact fun p => ih _
  exact hfold facts (inn, 0)

end Inner

/-! ## Blocks of other nodes -/

/-- Why a block is not applied. -/
inductive SyncFault
  | err (msg : String)
  | panic
  deriving DecidableEq

/-- The outcome of the transactions of a block. -/
def syncOutcome (r : EStateM.Result Fault State Unit) : Except SyncFault State :=
  match r with
  | .ok _ st => .ok st
  | .error (.err e) _ => .error (.err ("tx_invalid:" ++ e.text))
  | .error .panic _ => .error .panic

/-- The outcome of a step that returns no error. -/
def syncTotal (r : EStateM.Result Fault State Unit) : Except SyncFault State :=
  match r with
  | .ok _ st => .ok st
  | .error _ _ => .error .panic

def applyBlk (C : Crypto) (inn : Inner) (blk : Block) : Except SyncFault Inner := do
  let ch := inn.chain
  let nextH := ch.tipH.saturatingAdd 1#64
  check (blk.hdr.height = nextH)
    (.err ("height_mismatch want=" ++ toString nextH.toNat ++ " got=" ++
      toString blk.hdr.height.toNat))
  check (blk.hdr.prevHash = ch.tipHash C) (.err "prev_hash_mismatch")
  let st := rollEpochIfNeeded ch.cfg ch.st nextH
  let wantIdx ← (pickProdIdx nextH st.activeValidatorIndices).mapError SyncFault.err
  check (blk.hdr.prodIdx = wantIdx)
    (.err ("prod_idx_mismatch want=" ++ toString wantIdx.toNat ++ " got=" ++
      toString blk.hdr.prodIdx.toNat))
  let prod ← orFail (ch.cfg.vals.set[blk.hdr.prodIdx.toNat]?) (.err "prod_idx_oor")
  check (blk.hdr.verifySig C prod.pubkey) (.err "bad_sig")
  check (txsRoot C blk.txs = blk.hdr.txRoot) (.err "tx_root_mismatch")
  let st := st.refundExpLocks nextH
  let st ← syncOutcome
    ((blk.txs.forM fun tx => applyTxWithCtx C ch.cfg tx blk.hdr.height blk.hdr.ts) st)
  let st := st.refundExpLocks nextH
  let st ← syncTotal (drainConservationAtHeight ch.cfg nextH st)
  let prodAcct ← orFail (ch.cfg.prodAcct blk.hdr.prodIdx) .panic
  check (st.accounts[prodAcct]?).isSome (.err "prod_acct_missing")
  let st := rewardBlock ch.cfg st prodAcct nextH
  check (digest C st = blk.hdr.stateRoot) (.err "state_root_mismatch")
  let inn := { inn with chain := ch.append blk st }
  .ok (blk.txs.foldl (fun inn tx => inn.recordCrossShardTx C tx blk.hdr.height) inn)

end Pwm
