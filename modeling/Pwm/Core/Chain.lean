import Pwm.Core.Apply
import Pwm.Core.Block

/-!
# Sealing blocks

The chain of one node: its configuration, the tail of its blocks and the
ledger after the last of them. A seal works on a copy of the ledger and
replaces the chain only when the whole block was applied.
-/

namespace Pwm

open BitVec Attempt

/-- Seal-time transaction source. -/
inductive SealEntry
  | raw (tx : SignedTx)
  | preValidated (tx : SignedTx) (atHeight : U64)
  deriving DecidableEq

def SealEntry.tx : SealEntry → SignedTx
  | .raw tx => tx
  | .preValidated tx _ => tx

/-- Cap on retained in-memory block bodies. -/
def tailBlockCap : Nat := 1000

/-- Synthetic previous hash for the first real block. -/
def prevGen (C : Crypto) : Bytes32 :=
  C.blake3 (strBytes "PWMv0/GENESIS")

/-- Seal-time source for block headers. -/
inductive SealTimeMode
  | wallClock
  | deterministicHeight
  deriving DecidableEq

def detSealTsBase : U64 := 1700000000#64

/-! ## Epochs and producers -/

def recomputeActiveIdxs (cfg : GenCfg) (st : State) : List U16 :=
  cfg.vals.set.zipIdx.filterMap fun (row, idx) =>
    match st.accounts[row.acct]? with
    | none => none
    | some acc =>
        if cfg.minValidatorStake ≤ acc.stakedPwmRaw then some (BitVec.ofNat 16 idx) else none

def pickProdIdx (height : U64) (activeIdxs : List U16) : Except String U32 :=
  match activeIdxs[height.toNat % activeIdxs.length]? with
  | none => .error "no active validators for current epoch"
  | some idx => .ok (idx.setWidth 32)

def isEpochBoundary (height : U64) (cfg : GenCfg) : Bool :=
  decide (0#64 < cfg.epochLengthBlocks ∧ height % cfg.epochLengthBlocks = 0#64)

def rollEpochIfNeeded (cfg : GenCfg) (st : State) (height : U64) : State :=
  if isEpochBoundary height cfg then
    { st with
      epochCounter := st.epochCounter.saturatingAdd 1#64
      activeValidatorIndices := recomputeActiveIdxs cfg st }
  else st

/-! ## The chain -/

structure Chain where
  cfg : GenCfg
  /-- Same order as `cfg.vals.set`. -/
  valSks : List SigningKey
  /-- At most `tailBlockCap` most recent blocks; the height `canonicalH` is authoritative. -/
  blocks : List Block
  canonicalH : U64
  st : State
  sealTimeMode : SealTimeMode
  deriving DecidableEq

/-- Why a seal ended without a block. An abort hands the transactions back. -/
inductive SealFault
  | abort (msg : String) (txs : List SignedTx)
  | panic
  deriving DecidableEq

/-- The bytes of an id in brackets, as two hexadecimal digits each. -/
def debugHex (id : Bytes32) : String :=
  let byteText (b : U8) : String :=
    String.ofList [Nat.digitChar (b.toNat / 16), Nat.digitChar (b.toNat % 16)]
  "[" ++ ", ".intercalate ((id.beBytes 32).map byteText) ++ "]"

namespace Chain

/-- The chain at genesis; none when one of the boot assertions fails. -/
def boot (cfg : GenCfg) (valSks : List SigningKey) : Option Chain :=
  let st0 := cfg.state0
  let st := { st0 with activeValidatorIndices := recomputeActiveIdxs cfg st0 }
  if cfg.vals.set.length = valSks.length ∧ cfg.vals.set ≠ [] ∧
      cfg.accounts = cfg.funding.accounts ∧
      cfg.vals.set.all fun v => (st.accounts[v.acct]?).isSome then
    some
      { cfg := cfg, valSks := valSks, blocks := [], canonicalH := 0#64, st := st,
        sealTimeMode := .wallClock }
  else none

def tipH (ch : Chain) : U64 := ch.canonicalH

def tipHash (C : Crypto) (ch : Chain) : Bytes32 :=
  match ch.blocks.getLast? with
  | some b => hdrHash C b.hdr
  | none => prevGen C

def setCanonH (ch : Chain) (height : U64) : Chain :=
  { ch with canonicalH := height }

/-- Append a block and cut the tail down to its cap. -/
def pushBlock (ch : Chain) (blk : Block) : Chain :=
  let blocks := ch.blocks ++ [blk]
  { ch with blocks := blocks.drop (blocks.length - tailBlockCap) }

/-- The chain with one more block and the ledger after it. -/
def append (ch : Chain) (blk : Block) (st : State) : Chain :=
  ({ ch with st := st }.pushBlock blk).setCanonH blk.hdr.height

/-- The height and the time of the next block; the clock is read in the wall-clock mode only. -/
def nextApplyCtx (now : U64) (ch : Chain) : Except SealFault (U64 × U64) :=
  match ch.tipH.checkedAdd 1#64 with
  | none => .error .panic
  | some height =>
      match ch.sealTimeMode with
      | .wallClock => .ok (height, now)
      | .deterministicHeight => .ok (height, detSealTsBase.saturatingAdd height)

section Append

variable (ch : Chain) (blk : Block) (st : State)

@[simp] theorem append_cfg : (ch.append blk st).cfg = ch.cfg := by
  simp only [append, pushBlock, setCanonH]

@[simp] theorem append_valSks : (ch.append blk st).valSks = ch.valSks := by
  simp only [append, pushBlock, setCanonH]

@[simp] theorem append_st : (ch.append blk st).st = st := rfl
@[simp] theorem append_tipH : (ch.append blk st).tipH = blk.hdr.height := rfl

theorem append_blocks : (ch.append blk st).blocks =
    (ch.blocks ++ [blk]).drop ((ch.blocks ++ [blk]).length - tailBlockCap) := by
  simp only [append, pushBlock, setCanonH]

end Append

/-- The tail with a block more, cut to its cap again. -/
theorem append_tail {ch : Chain} {bs : List Block}
    (hblocks : ch.blocks = bs.drop (bs.length - tailBlockCap)) (blk : Block) (st : State) :
    (ch.append blk st).blocks = (bs ++ [blk]).drop ((bs ++ [blk]).length - tailBlockCap) := by
  have hle : bs.length - tailBlockCap ≤ bs.length := Nat.sub_le _ _
  have hcut : bs.length - tailBlockCap +
      ((bs.drop (bs.length - tailBlockCap) ++ [blk]).length - tailBlockCap) =
        (bs ++ [blk]).length - tailBlockCap := by
    simp only [List.length_append, List.length_drop, List.length_singleton]
    omega
  rw [append_blocks, hblocks, ← hcut, ← List.drop_drop, List.drop_append_of_le_length hle]

/-- The appended block is the last one. -/
theorem append_getLast? (ch : Chain) (blk : Block) (st : State) :
    (ch.append blk st).blocks.getLast? = some blk := by
  have hpos : (ch.blocks ++ [blk]).length - tailBlockCap < (ch.blocks ++ [blk]).length := by
    rw [List.length_append, List.length_singleton, tailBlockCap]
    omega
  simp only [append, pushBlock, setCanonH, List.getLast?_drop]
  rw [if_neg (by omega), List.getLast?_append, List.getLast?_singleton, Option.some_or]

end Chain

/-- Pay the producer of a block at a height. -/
def rewardBlock (cfg : GenCfg) (st : State) (prodAcct : AccountId) (height : U64) : State :=
  if cfg.isLegacyPolicy then st.rewardProducer prodAcct cfg.blockReward
  else
    st.rewardProducerV2 prodAcct (computeBlockReward cfg height) cfg.pwmStakeMin 1000000#128

section Seal

variable (C : Crypto) (now : U64) (ch : Chain)

/-- One entry of a seal: an entry validated at the tip of this chain skips the signature and the
policies. -/
def applyEntry (height ts : U64) (entry : SealEntry) : Ledger Unit :=
  match entry with
  | .raw tx => applyTxWithCtx C ch.cfg tx height ts
  | .preValidated tx atHeight =>
      if atHeight = ch.tipH then applyPrecheckedTx C ch.cfg tx height ts
      else applyTxWithCtx C ch.cfg tx height ts

/-- The outcome of a ledger computation inside a seal. -/
def sealOutcome {α : Type} (txs : List SignedTx) (r : EStateM.Result Fault State α) :
    Except SealFault State :=
  match r with
  | .ok _ st => .ok st
  | .error (.err e) _ => .error (.abort ("tx: " ++ e.text) txs)
  | .error .panic _ => .error .panic

/-- Seals one block from raw and prevalidated transactions. -/
def sealEntries (entries : List SealEntry) : Except SealFault Chain := do
  let txs := entries.map SealEntry.tx
  let (height, ts) ← ch.nextApplyCtx now
  let prev := ch.tipHash C
  let st := rollEpochIfNeeded ch.cfg ch.st height
  let prodIdx ← (pickProdIdx height st.activeValidatorIndices).mapError fun msg => .abort msg txs
  let st := st.refundExpLocks height
  let st ← sealOutcome txs ((entries.forM fun entry => applyEntry C ch height ts entry) st)
  let st := st.refundExpLocks height
  let st ← sealOutcome txs (drainConservationAtHeight ch.cfg height st)
  let prodAcct ← orFail (ch.cfg.prodAcct prodIdx) .panic
  check (st.accounts[prodAcct]?).isSome
    (.abort ("reward invariant violated: producer account " ++ debugHex prodAcct ++
      " missing from funding.accounts") txs)
  let st := rewardBlock ch.cfg st prodAcct height
  let hdr : BlockHdr :=
    { height := height, prevHash := prev, ts := ts, prodIdx := prodIdx, txRoot := txsRoot C txs,
      stateRoot := digest C st, sig := 0#512 }
  let sk ← orFail (ch.valSks[prodIdx.toNat]?) .panic
  let blk : Block := ⟨hdr.signWith C sk, txs⟩
  .ok (ch.append blk st)

/-- Seals one block from raw transactions. -/
def Chain.seal (txs : List SignedTx) : Except SealFault Chain :=
  sealEntries C now ch (txs.map SealEntry.raw)

end Seal

end Pwm
