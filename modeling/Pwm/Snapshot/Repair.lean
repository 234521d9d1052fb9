import Pwm.Snapshot.Validate

/-!
# The offline repair

The repair runs the blocks of the epoch files again from genesis and stops at
the first one that cannot be reproduced.
-/

namespace Pwm

open BitVec Attempt

structure ReplayRes where
  lastGoodH : U64
  lastGoodHash : String
  state : State
  deriving DecidableEq

/-- How the repair leaves a block that it does not reproduce: the replay ends there, in the state
it had reached, or fails as a whole. -/
inductive ReplayStop
  | broke (st : State)
  | fault (f : SnapFault)

section Replay

variable (C : Crypto) (cfg : GenCfg)

/-- Pay the producer as the repair does. -/
def repairReward (st : State) (prodAcct : AccountId) (ts : U64) : State :=
  if cfg.isLegacyPolicy then st.rewardProducer prodAcct cfg.blockReward
  else st.rewardProducerV2 prodAcct cfg.blockReward cfg.pwmStakeMin (cfg.seasonPpm ts)

/-- The outcome of the transactions of a block; those before a bad one have taken effect. -/
def replayTxs (r : EStateM.Result Fault State Unit) : Except ReplayStop State :=
  match r with
  | .ok _ st => .ok st
  | .error (.err _) st => .error (.broke st)
  | .error .panic _ => .error (.fault .panic)

/-- One block of the replay. -/
def replayBlock (i : Nat) (prev : Bytes32) (st : State) (blk : Block) :
    Except ReplayStop State := do
  let h : U64 := BitVec.ofNat 64 (i + 1)
  check (blk.hdr.height = h ∧ blk.hdr.prevHash = prev) (.broke st)
  check (blk.hdr.txRoot = txsRoot C blk.txs) (.broke st)
  let st := rollEpochIfNeeded cfg st h
  let wantProdIdx ← (pickProdIdx h st.activeValidatorIndices).mapError fun e => .fault (.err e)
  check (blk.hdr.prodIdx = wantProdIdx) (.broke st)
  let prod ← orFail (cfg.vals.set[blk.hdr.prodIdx.toNat]?) (.broke st)
  check (blk.hdr.verifySig C prod.pubkey) (.broke st)
  let st := st.refundExpLocks h
  let st ← replayTxs
    ((blk.txs.forM fun tx => applyTxWithCtx C cfg tx blk.hdr.height blk.hdr.ts) st)
  let st := st.refundExpLocks h
  let st ← (replayTotal (drainConservationAtHeight cfg h st)).mapError .fault
  let prodAcct ← orFail (cfg.prodAcct blk.hdr.prodIdx) (.fault .panic)
  let st := repairReward cfg st prodAcct blk.hdr.ts
  check (blk.hdr.stateRoot = digest C st) (.broke st)
  .ok st

/-- The blocks from the one with this place on, up to a height. -/
def replayBlocks (limit : U64) : Nat → Bytes32 → ReplayRes → List Block →
    Except SnapFault ReplayRes
  | _, _, res, [] => .ok res
  | i, prev, res, blk :: rest =>
      let h : U64 := BitVec.ofNat 64 (i + 1)
      if limit < h then .ok res
      else
        match replayBlock C cfg i prev res.state blk with
        | .ok st =>
            replayBlocks limit (i + 1) (hdrHash C blk.hdr) ⟨h, hexEncode (hdrHash C blk.hdr), st⟩
              rest
        | .error (.broke st) => .ok { res with state := st }
        | .error (.fault f) => .error f

def replayTo (blocks : List Block) (targetH : Option U64) : Except SnapFault ReplayRes := do
  check (cfg.vals.set ≠ []) (.err "repair replay: genesis config has zero validators")
  let res ← replayBlocks C cfg (targetH.getD (allOnes 64)) 0 (prevGen C)
    ⟨0#64, "", replayStart cfg⟩ blocks
  match targetH with
  | some h =>
      check (h ≤ res.lastGoodH)
        (.err ("repair replay failed at target " ++ toString h.toNat ++ "; reproducible only to " ++
          toString res.lastGoodH.toNat))
  | none => .ok ()
  .ok res

end Replay

end Pwm
