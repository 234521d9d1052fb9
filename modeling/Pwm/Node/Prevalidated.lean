import Pwm.Node.ApiCommit
import Pwm.Node.SealLoss
import Pwm.Node.Skips

/-!
# Tags of validated transactions

A worker checks a transaction on what the seal loop published last and tags it
with the height that it read first. The snapshot, the hot rows and the height
are published one after the other, after a seal of the loop only. Other commits
move the tip without them, and a rollback may bring back a height that had been
left: a tag is as good as the height is unique.
-/

namespace Pwm

open BitVec Attempt

/-! ## The node and its worker -/

/-- A transaction in the validated queue, with what its check read; the height there is its tag. -/
structure ValidatedTx where
  tx : SignedTx
  ctx : WorkerCtx

def ValidatedTx.validatedAtHeight (v : ValidatedTx) : U64 := v.ctx.tipHeight

/-- A check that has read the height, and maybe the hot rows and the snapshot. -/
structure WorkerCheck where
  tx : SignedTx
  snapshotHeight : U64
  hotIndex : Option HotMap := none
  snapshot : Option State := none

/-- What the loop stores next while it holds the lock. -/
inductive Publishing
  | snapshot
  | hotIndex
  | tipHeight
  deriving DecidableEq

structure TagNode where
  inner : Inner
  ingress : List SignedTx := []
  validated : List ValidatedTx := []
  evictedHashes : List Bytes32 := []
  evictedTip : U64 := 0#64
  published : WorkerCtx
  publishing : Option Publishing := none
  checks : List WorkerCheck := []
  /-- Backups that a task may still restore. -/
  baks : List CommitBak := []

namespace TagNode

/-- What a seal of the loop works on. -/
def loop (n : TagNode) : SealLoop where
  chain := n.inner.chain
  pool := n.inner.pool
  ingress := n.ingress
  validated := n.validated.map fun v => (v.tx, v.validatedAtHeight)
  evictedHashes := n.evictedHashes
  evictedTip := n.evictedTip

/-- What a seal of the loop drains from the validated queue. -/
def drained (n : TagNode) (validatedFree : Bool) : List ValidatedTx :=
  if validatedFree then n.validated.take blockCap else []

/-- After a block of its own the loop goes on to publish. -/
def afterLoop (n : TagNode) (validatedFree : Bool) (loop : SealLoop) : TagNode :=
  { n with
    inner := { n.inner with
      chain := loop.chain
      pool := loop.pool
      roamingPool := n.inner.roamingPool.expireByHeight n.inner.chain.tipH }
    ingress := loop.ingress
    validated := if validatedFree then n.validated.drop blockCap else n.validated
    evictedHashes := loop.evictedHashes
    evictedTip := loop.evictedTip
    publishing := if loop.chain.tipH = n.inner.chain.tipH then none else some .snapshot }

end TagNode

inductive TagAct
  | drained (batch : List ValidatedTx) (ch : Chain)
  | applied (tip : U64)
  | restored (bak : CommitBak) (published : WorkerCtx)
  | other

/-- A step of the node. The worker needs no lock; what changes the chain waits until the loop has
published. -/
inductive TagStep (C : Crypto) : TagNode → TagAct → TagNode → Prop
  | started {n : TagNode} {tx : SignedTx} :
      TagStep C n .other { n with checks := n.checks ++ [⟨tx, n.published.tipHeight, none, none⟩] }
  | readHot {n : TagNode} {pre post : List WorkerCheck} {c : WorkerCheck}
      (hchecks : n.checks = pre ++ c :: post) (hsnapshot : c.snapshot = none) :
      TagStep C n .other
        { n with checks := pre ++ { c with hotIndex := some n.published.hotIndex } :: post }
  | readSnapshot {n : TagNode} {pre post : List WorkerCheck} {c : WorkerCheck}
      (hchecks : n.checks = pre ++ c :: post) (hhot : c.hotIndex ≠ none) :
      TagStep C n .other
        { n with checks := pre ++ { c with snapshot := some n.published.snapshot } :: post }
  | validated {n : TagNode} {pre post : List WorkerCheck} {c : WorkerCheck} {hotIndex : HotMap}
      {snapshot : State} {now : Except String U64} (hchecks : n.checks = pre ++ c :: post)
      (hhot : c.hotIndex = some hotIndex) (hsnapshot : c.snapshot = some snapshot)
      (hok : precheckClient C ⟨snapshot, hotIndex, c.snapshotHeight, n.published.cfg⟩ c.tx now =
        .ok (.preValidated c.tx c.snapshotHeight)) :
      TagStep C n .other
        { n with
          checks := pre ++ post
          validated := n.validated ++
            [⟨c.tx, ⟨snapshot, hotIndex, c.snapshotHeight, n.published.cfg⟩⟩] }
  | rejected {n : TagNode} {pre post : List WorkerCheck} {c : WorkerCheck}
      (hchecks : n.checks = pre ++ c :: post) :
      TagStep C n .other { n with checks := pre ++ post }
  | looped {n : TagNode} {now later : U64} {ingressFree validatedFree : Bool} {loop : SealLoop}
      (hfree : n.publishing = none)
      (hrun : n.loop.sealOnce C now later ingressFree validatedFree = .ok loop) :
      TagStep C n (.drained (n.drained validatedFree) n.inner.chain)
        (n.afterLoop validatedFree loop)
  | snapshotStored {n : TagNode} (hphase : n.publishing = some .snapshot) :
      TagStep C n .other
        { n with
          published := { n.published with snapshot := n.inner.chain.st }
          publishing := some .hotIndex }
  | hotIndexStored {n : TagNode} (hphase : n.publishing = some .hotIndex) :
      TagStep C n .other
        { n with
          published := { n.published with hotIndex := buildMap n.inner.chain.st }
          publishing := some .tipHeight }
  | tipHeightStored {n : TagNode} (hphase : n.publishing = some .tipHeight) :
      TagStep C n .other
        { n with
          published := { n.published with tipHeight := n.inner.chain.tipH }
          publishing := none }
  | direct {n : TagNode} {app : ApiApp} {tx : SignedTx} {nowH : U64} {res : Except ApiFault Unit}
      {inn : Inner} (hfree : n.publishing = none) (hrun : v1Tx C app tx n.inner nowH = (res, inn)) :
      TagStep C n .other { n with inner := inn }
  | created {n : TagNode} {app : ApiApp} {tx : SignedTx} {ttlBlocks : Option U64}
      {res : Except ApiFault (Bytes32 × CreateRoamingIntentOut)} {inn : Inner}
      (hfree : n.publishing = none) (hrun : createAndSave C app tx n.inner ttlBlocks = (res, inn)) :
      TagStep C n .other { n with inner := inn }
  | manual {n : TagNode} {now : U64} {loop : SealLoop} (hfree : n.publishing = none)
      (hrun : n.loop.stepSealCommit C now = .ok loop) :
      TagStep C n .other { n with inner := { n.inner with chain := loop.chain, pool := loop.pool } }
  | skipped {n : TagNode} {h : U64} {ch : Chain} (hfree : n.publishing = none)
      (hskip : n.inner.chain.skipMissedH h = (true, ch)) :
      TagStep C n .other { n with inner := { n.inner with chain := ch } }
  | applied {n : TagNode} {blk : Block} {inn : Inner} (hfree : n.publishing = none)
      (hok : applyBlk C n.inner blk = .ok inn) :
      TagStep C n (.applied n.inner.chain.tipH) { n with inner := inn }
  | backedUp {n : TagNode} (hfree : n.publishing = none) :
      TagStep C n .other { n with baks := takeBak n.inner :: n.baks }
  | restored {n : TagNode} {bak : CommitBak} (hfree : n.publishing = none) (hbak : bak ∈ n.baks) :
      TagStep C n (.restored bak n.published) { n with inner := rollbackCommit n.inner bak }
  | elsewhere {n : TagNode} {pool : Mpool} {roamingPool : RoamingPool}
      {crossShard : CrossShardLedger} :
      TagStep C n .other
        { n with inner := { n.inner with
            pool := pool
            roamingPool := roamingPool
            crossShard := crossShard } }

/-- A transaction that is drained with the tip as its tag was checked on the ledger and the
settings of the tip. -/
def TagsTruthful (C : Crypto) (acts : List TagAct) : Prop :=
  ∀ batch ch, .drained batch ch ∈ acts → ∀ v ∈ batch, v.validatedAtHeight = ch.tipH →
    v.ctx = ch.workerCtx ∧
      ∃ now, precheckClient C ch.workerCtx v.tx now = .ok (.preValidated v.tx ch.tipH)

/-- No rollback below the published height or to another ledger at it, and no block of a peer on
the last height that there is. -/
def TagAct.Careful : TagAct → Prop
  | .applied tip => tip.toNat + 1 < 2 ^ 64
  | .restored bak published =>
      published.tipHeight.toNat < bak.canonicalH.toNat ∨
        published.tipHeight = bak.canonicalH ∧ published.snapshot = bak.st
  | .drained _ _ | .other => True

/-! ## What a commit does to the tip -/

/-- The chain is as it was, or its tip is higher. -/
def Chain.Advances (ch ch' : Chain) : Prop :=
  ch' = ch ∨ ch'.cfg = ch.cfg ∧ ch.tipH.toNat < ch'.tipH.toNat

section Commits

variable {C : Crypto} {app : ApiApp} {tx : SignedTx} {g g' : Inner} {nowH now later : U64}
  {ch ch' : Chain} {entries : List SealEntry} {res : Except ApiFault Unit}

theorem sealEntries_advances (hok : sealEntries C now ch entries = .ok ch') : ch.Advances ch' := by
  have hnext := sealEntries_tipH hok
  obtain ⟨blk, st, -, -, -, rfl⟩ := sealEntries_append hok
  exact .inr ⟨Chain.append_cfg _ _ _, by omega⟩

theorem sealOne_advances (hrun : sealOne C app tx g = (res, g')) :
    g.chain.Advances g'.chain := by
  unfold sealOne at hrun
  cases hseal : sealEntriesMut C app.clock [.raw tx] g.chain with
  | ok u ch =>
      rw [hseal] at hrun
      obtain ⟨-, rfl⟩ := Prod.mk.inj hrun
      obtain ⟨now, -, hok⟩ := sealEntriesMut_ok_iff.mp hseal
      exact sealEntries_advances hok
  | error fault ch =>
      have hchain := sealEntriesMut_keeps hseal
      rw [hseal] at hrun
      cases fault <;> · obtain ⟨-, rfl⟩ := Prod.mk.inj hrun; exact .inl hchain

/-- A commit that is taken back to its own backup leaves the chain. -/
theorem rollbackCommit_advances (h : SameSetup g g') :
    g.chain.Advances (rollbackCommit g' (takeBak g)).chain :=
  .inl (congrArg Inner.chain (rollbackCommit_takeBak h))

theorem sealAndSave_advances (hrun : sealAndSave C app tx g = (res, g')) :
    g.chain.Advances g'.chain := by
  unfold sealAndSave at hrun
  cases hshape : validateTxShape C tx with
  | error e =>
      rw [hshape] at hrun
      obtain ⟨-, rfl⟩ := Prod.mk.inj hrun
      exact .inl rfl
  | ok u =>
      rw [hshape] at hrun
      cases hone : sealOne C app tx g with
      | mk result g₁ =>
          have hsetup := sealOne_setup hone
          have hadvances := sealOne_advances hone
          rw [hone] at hrun
          cases result with
          | error e =>
              cases e with
              | sealFailed msg =>
                  obtain ⟨-, rfl⟩ := Prod.mk.inj hrun
                  exact rollbackCommit_advances hsetup
              | _ =>
                  obtain ⟨-, rfl⟩ := Prod.mk.inj hrun
                  exact hadvances
          | ok _ =>
              dsimp only at hrun
              have hrecord := hsetup.trans (@recordSealed_setup C tx g₁ g₁.chain.tipH)
              split at hrun
              · obtain ⟨-, rfl⟩ := Prod.mk.inj hrun
                exact rollbackCommit_advances
                  ⟨hrecord.cfg, hrecord.valSks, hrecord.sealTimeMode, hrecord.pool⟩
              · obtain ⟨-, rfl⟩ := Prod.mk.inj hrun
                rw [← recordSealed_chain (C := C) (g := g₁) g₁.chain.tipH] at hadvances
                exact hadvances

theorem v1Tx_advances (hrun : v1Tx C app tx g nowH = (res, g')) :
    g.chain.Advances g'.chain := by
  have hconsume : (consumeForSeal C app tx g nowH).2.chain = g.chain := by
    unfold consumeForSeal
    split
    · split
      · rfl
      · dsimp only
        split <;> rfl
    · rfl
  unfold v1Tx at hrun
  cases hready : consumeForSeal C app tx g nowH with
  | mk result g₁ =>
      rw [hready] at hrun hconsume
      cases result with
      | error e =>
          obtain ⟨-, rfl⟩ := Prod.mk.inj hrun
          exact .inl hconsume
      | ok _ => exact hconsume ▸ sealAndSave_advances hrun

/-- The seal of an intent's export, and the node that a rollback to the backup would find. -/
theorem sealIntent_advances {bak : CommitBak} {pool : RoamingPool} {intentId : Bytes32}
    (hbak : bak = takeBak g)
    (hrun : sealIntent C app tx { g with roamingPool := pool } bak intentId = (res, g')) :
    g.chain.Advances g'.chain ∧ SameSetup g g' := by
  have hpool : SameSetup g { g with roamingPool := pool } := ⟨rfl, rfl, rfl, rfl⟩
  unfold sealIntent at hrun
  cases hone : sealOne C app tx { g with roamingPool := pool } with
  | mk result g₁ =>
      have hsetup := hpool.trans (sealOne_setup hone)
      have hadvances := sealOne_advances hone
      rw [hone] at hrun
      cases result with
      | error e =>
          cases e with
          | sealFailed msg =>
              obtain ⟨-, rfl⟩ := Prod.mk.inj hrun
              rw [hbak]
              refine ⟨rollbackCommit_advances hsetup, ?_⟩
              rw [rollbackCommit_takeBak hsetup]
              exact SameSetup.refl g
          | _ =>
              obtain ⟨-, rfl⟩ := Prod.mk.inj hrun
              exact ⟨hadvances, hsetup⟩
      | ok _ =>
          have hrecord := recordCrossShardTx_setup (C := C) g₁ tx g₁.chain.tipH
          obtain ⟨-, rfl⟩ := Prod.mk.inj hrun
          rw [← Inner.recordCrossShardTx_chain C g₁ tx g₁.chain.tipH] at hadvances
          have hall := hsetup.trans hrecord
          exact ⟨hadvances, hall.cfg, hall.valSks, hall.sealTimeMode, hall.pool⟩

theorem createAndSave_advances {ttlBlocks : Option U64}
    {out : Except ApiFault (Bytes32 × CreateRoamingIntentOut)}
    (hrun : createAndSave C app tx g ttlBlocks = (out, g')) : g.chain.Advances g'.chain := by
  unfold createAndSave at hrun
  dsimp only at hrun
  split at hrun
  · obtain ⟨-, rfl⟩ := Prod.mk.inj hrun
    exact .inl rfl
  · rename_i pool intentId duplicate hregister
    generalize hsealed : (if duplicate = true then
      ((.ok (), { g with roamingPool := pool }) : Except ApiFault Unit × Inner)
      else sealIntent C app tx { g with roamingPool := pool } (takeBak g) intentId) = sealed at hrun
    obtain ⟨result, g₁⟩ := sealed
    have hboth : g.chain.Advances g₁.chain ∧ SameSetup g g₁ := by
      split at hsealed
      · obtain ⟨-, rfl⟩ := Prod.mk.inj hsealed
        exact ⟨.inl rfl, rfl, rfl, rfl, rfl⟩
      · exact sealIntent_advances rfl hsealed
    cases result with
    | error e =>
        obtain ⟨-, rfl⟩ := Prod.mk.inj hrun
        exact hboth.1
    | ok _ =>
        dsimp only at hrun
        split at hrun
        · obtain ⟨-, rfl⟩ := Prod.mk.inj hrun
          exact hboth.1
        · split at hrun
          · obtain ⟨-, rfl⟩ := Prod.mk.inj hrun
            exact rollbackCommit_advances hboth.2
          · obtain ⟨-, rfl⟩ := Prod.mk.inj hrun
            exact hboth.1

theorem stepSealCommit_advances {loop loop' : SealLoop}
    (hrun : loop.stepSealCommit C now = .ok loop') : loop.chain.Advances loop'.chain := by
  unfold SealLoop.stepSealCommit at hrun
  simp only [Mpool.take] at hrun
  cases hseal : Chain.seal C now loop.chain (loop.pool.q.take blockCap) with
  | ok ch' =>
      rw [hseal] at hrun
      rw [← Except.ok.inj hrun]
      exact sealEntries_advances hseal
  | error fault =>
      rw [hseal] at hrun
      cases fault with
      | panic => cases hrun
      | abort msg txs =>
          rw [← Except.ok.inj hrun]
          exact .inl rfl

theorem sealOnce_advances {loop loop' : SealLoop} {ingressFree validatedFree : Bool}
    (hrun : loop.sealOnce C now later ingressFree validatedFree = .ok loop') :
    loop.chain.Advances loop'.chain := by
  unfold SealLoop.sealOnce at hrun
  cases hseal : sealEntries C now loop.chain (loop.entries C ingressFree validatedFree) with
  | ok ch' =>
      simp only [hseal] at hrun
      rw [← Except.ok.inj hrun]
      exact sealEntries_advances hseal
  | error fault =>
      simp only [hseal] at hrun
      cases fault with
      | panic => cases hrun
      | abort msg txs =>
          obtain ⟨⟨replay, evicted⟩, -, hrun⟩ := except_bind_ok_iff.mp hrun
          rw [← Except.ok.inj hrun]
          exact .inl rfl

theorem skipMissedH_advances {h : U64} (hskip : ch.skipMissedH h = (true, ch')) :
    ch.Advances ch' := by
  have htip := skipMissedH_tipH hskip
  obtain ⟨rfl, rfl⟩ := skipMissedH_ok hskip
  by_cases hlast : ch.tipH.toNat + 1 < 2 ^ 64
  · exact .inr ⟨rfl, by omega⟩
  · refine .inl ?_
    have hbound := ch.tipH.isLt
    have hsame : ch.tipH.saturatingAdd 1#64 = ch.canonicalH :=
      BitVec.eq_of_toNat_eq (by
        change (ch.setCanonH (ch.tipH.saturatingAdd 1#64)).tipH.toNat = ch.tipH.toNat
        omega)
    rw [hsame]
    rfl

theorem applyBlk_advances {blk : Block} (hok : applyBlk C g blk = .ok g')
    (hroom : g.chain.tipH.toNat + 1 < 2 ^ 64) : g.chain.Advances g'.chain := by
  obtain ⟨st, hreplays, hchain⟩ := applyBlk_chain hok
  refine .inr ⟨(applyBlk_setup hok).cfg, ?_⟩
  rw [hchain, Chain.append_tipH, hreplays.height, toNat_saturatingAdd_of_fits hroom]
  exact Nat.lt_succ_self _

end Commits

/-! ## What is published beside the chain -/

/-- What the loop has stored of the new tip. -/
def Publishing.Stored (published : WorkerCtx) (ch : Chain) : Publishing → Prop
  | .snapshot => True
  | .hotIndex => published.snapshot = ch.st
  | .tipHeight => published.snapshot = ch.st ∧ published.hotIndex = buildMap ch.st

/-- While the lock is free, what was read at the published height is what is published. -/
structure WorkerCheck.Fits (n : TagNode) (c : WorkerCheck) : Prop where
  le : c.snapshotHeight.toNat ≤ n.published.tipHeight.toNat
  hotIndex : n.publishing = none → c.snapshotHeight = n.published.tipHeight →
    ∀ hotIndex, c.hotIndex = some hotIndex → hotIndex = n.published.hotIndex
  snapshot : n.publishing = none → c.snapshotHeight = n.published.tipHeight →
    ∀ snapshot, c.snapshot = some snapshot → snapshot = n.published.snapshot

structure ValidatedTx.Fits (C : Crypto) (n : TagNode) (v : ValidatedTx) : Prop where
  le : v.ctx.tipHeight.toNat ≤ n.published.tipHeight.toNat
  ctx : n.publishing = none → v.ctx.tipHeight = n.published.tipHeight → v.ctx = n.published
  checked : ∃ now, precheckClient C v.ctx v.tx now = .ok (.preValidated v.tx v.ctx.tipHeight)

/-- The published height is below the tip, or what is published is the tip. -/
structure TagsFit (C : Crypto) (n : TagNode) : Prop where
  cfg : n.published.cfg = n.inner.chain.cfg
  index : n.publishing = none → n.published.hotIndex = buildMap n.published.snapshot
  settled : n.publishing = none → n.published.tipHeight.toNat < n.inner.chain.tipH.toNat ∨
    n.published.tipHeight = n.inner.chain.tipH ∧ n.published.snapshot = n.inner.chain.st
  storing : ∀ phase, n.publishing = some phase →
    n.published.tipHeight.toNat < n.inner.chain.tipH.toNat ∧
      phase.Stored n.published n.inner.chain
  checks : ∀ c ∈ n.checks, c.Fits n
  validated : ∀ v ∈ n.validated, v.Fits C n

section Fits

variable {C : Crypto} {n n' : TagNode} {act : TagAct} {acts : List TagAct}

/-- A free lock and a published tip: what is published is the chain's. -/
theorem TagsFit.published_tip (h : TagsFit C n) (hfree : n.publishing = none)
    (htip : n.published.tipHeight = n.inner.chain.tipH) :
    n.published = n.inner.chain.workerCtx := by
  have hsnapshot : n.published.snapshot = n.inner.chain.st := by
    rcases h.settled hfree with hlt | ⟨-, hsnapshot⟩
    · rw [htip] at hlt
      omega
    · exact hsnapshot
  have hindex := h.index hfree
  rw [hsnapshot] at hindex
  calc n.published
      = ⟨n.published.snapshot, n.published.hotIndex, n.published.tipHeight, n.published.cfg⟩ := rfl
    _ = n.inner.chain.workerCtx := by rw [hsnapshot, hindex, htip, h.cfg]; rfl

/-- What is drained with the tip as its tag was checked on the tip. -/
theorem TagsFit.tag_tip (h : TagsFit C n) (hfree : n.publishing = none) {v : ValidatedTx}
    (hv : v ∈ n.validated) (htag : v.validatedAtHeight = n.inner.chain.tipH) :
    v.ctx = n.inner.chain.workerCtx := by
  have hle := (h.validated v hv).le
  have htop : n.published.tipHeight.toNat ≤ n.inner.chain.tipH.toNat := by
    rcases h.settled hfree with hlt | ⟨heq, -⟩
    · omega
    · rw [heq]
  have htag' : v.ctx.tipHeight = n.inner.chain.tipH := htag
  have hpublished : n.published.tipHeight = n.inner.chain.tipH := by
    apply BitVec.eq_of_toNat_eq
    rw [htag'] at hle
    omega
  calc v.ctx = n.published := (h.validated v hv).ctx hfree (htag'.trans hpublished.symm)
    _ = n.inner.chain.workerCtx := h.published_tip hfree hpublished

/-- Commits that move the tip on, or leave the chain. -/
theorem TagsFit.commit (h : TagsFit C n) (hfree : n.publishing = none) {inn : Inner}
    (hadv : n.inner.chain.Advances inn.chain) : TagsFit C { n with inner := inn } := by
  refine ⟨?_, h.index, fun _ => ?_, ?_, ?_, ?_⟩
  · rcases hadv with hsame | ⟨hcfg, -⟩
    · exact h.cfg.trans (congrArg Chain.cfg hsame).symm
    · exact h.cfg.trans hcfg.symm
  · rcases hadv with hsame | ⟨-, hlt⟩
    · change _ < inn.chain.tipH.toNat ∨ _ = inn.chain.tipH ∧ _ = inn.chain.st
      rw [hsame]
      exact h.settled hfree
    · refine .inl (lt_of_le_of_lt ?_ hlt)
      rcases h.settled hfree with hbelow | ⟨heq, -⟩
      · exact hbelow.le
      · exact (congrArg BitVec.toNat heq).le
  · intro phase hphase
    exact absurd (hfree.symm.trans hphase) (Option.some_ne_none phase).symm
  · exact fun c hc => ⟨(h.checks c hc).le, (h.checks c hc).hotIndex, (h.checks c hc).snapshot⟩
  · exact fun v hv => ⟨(h.validated v hv).le, (h.validated v hv).ctx, (h.validated v hv).checked⟩

/-- The chain and what is published stay, the checks and the validated queue change. -/
theorem TagsFit.change (h : TagsFit C n) (hchain : n'.inner.chain = n.inner.chain)
    (hpublished : n'.published = n.published) (hphase : n'.publishing = n.publishing)
    (hchecks : ∀ c ∈ n'.checks, c.Fits n) (hvalidated : ∀ v ∈ n'.validated, v.Fits C n) :
    TagsFit C n' := by
  refine ⟨?_, ?_, ?_, ?_, fun c hc => ?_, fun v hv => ?_⟩
  · rw [hpublished, hchain]
    exact h.cfg
  · rw [hpublished, hphase]
    exact h.index
  · rw [hpublished, hphase, hchain]
    exact h.settled
  · rw [hpublished, hphase, hchain]
    exact h.storing
  · obtain ⟨hle, hhot, hsnapshot⟩ := hchecks c hc
    refine ⟨?_, ?_, ?_⟩ <;> rw [hpublished]
    · exact hle
    · exact hphase ▸ hhot
    · exact hphase ▸ hsnapshot
  · obtain ⟨hle, hctx, hchecked⟩ := hvalidated v hv
    refine ⟨?_, ?_, hchecked⟩ <;> rw [hpublished]
    · exact hle
    · exact hphase ▸ hctx

theorem forall_mem_replace {P : WorkerCheck → Prop} {pre post : List WorkerCheck}
    {c c' : WorkerCheck} (hall : ∀ d ∈ pre ++ c :: post, P d) (hnew : P c') :
    ∀ d ∈ pre ++ c' :: post, P d := by
  intro d hd
  rcases List.mem_append.mp hd with hpre | hpost
  · exact hall d (List.mem_append_left _ hpre)
  · rcases List.mem_cons.mp hpost with rfl | hpost
    · exact hnew
    · exact hall d (List.mem_append_right _ (List.mem_cons_of_mem _ hpost))

/-- A validated transaction takes over what its check has read. -/
theorem WorkerCheck.Fits.validated {c : WorkerCheck} (h : c.Fits n) {hotIndex : HotMap}
    {snapshot : State} {now : Except String U64} (hhot : c.hotIndex = some hotIndex)
    (hsnapshot : c.snapshot = some snapshot)
    (hok : precheckClient C ⟨snapshot, hotIndex, c.snapshotHeight, n.published.cfg⟩ c.tx now =
      .ok (.preValidated c.tx c.snapshotHeight)) :
    ValidatedTx.Fits C n ⟨c.tx, ⟨snapshot, hotIndex, c.snapshotHeight, n.published.cfg⟩⟩ := by
  refine ⟨h.le, fun hfree htag => ?_, now, hok⟩
  have htag' : c.snapshotHeight = n.published.tipHeight := htag
  rw [h.hotIndex hfree htag' _ hhot, h.snapshot hfree htag' _ hsnapshot, htag']

/-- The seal of the loop: the tip is as it was, or the loop is about to publish a higher one. -/
theorem TagsFit.afterLoop (h : TagsFit C n) (hfree : n.publishing = none) {loop : SealLoop}
    (validatedFree : Bool) (hadv : n.inner.chain.Advances loop.chain) :
    TagsFit C (n.afterLoop validatedFree loop) := by
  have hvalidated : ∀ v ∈ (n.afterLoop validatedFree loop).validated, v ∈ n.validated := by
    intro v hv
    change v ∈ if validatedFree then n.validated.drop blockCap else n.validated at hv
    split at hv
    · exact List.mem_of_mem_drop hv
    · exact hv
  have hchecks : ∀ c ∈ n.checks, c.Fits (n.afterLoop validatedFree loop) := fun c hc =>
    ⟨(h.checks c hc).le, fun _ => (h.checks c hc).hotIndex hfree,
      fun _ => (h.checks c hc).snapshot hfree⟩
  have hall : ∀ v ∈ (n.afterLoop validatedFree loop).validated,
      v.Fits C (n.afterLoop validatedFree loop) := by
    intro v hv
    have hfits := h.validated v (hvalidated v hv)
    exact ⟨hfits.le, fun _ => hfits.ctx hfree, hfits.checked⟩
  have hcommit : TagsFit C { n with inner := (n.afterLoop validatedFree loop).inner } :=
    h.commit hfree hadv
  by_cases htip : loop.chain.tipH = n.inner.chain.tipH
  · have hnone : (n.afterLoop validatedFree loop).publishing = none := if_pos htip
    refine ⟨hcommit.cfg, fun _ => hcommit.index hfree, fun _ => hcommit.settled hfree, ?_, hchecks,
      hall⟩
    intro phase hphase
    exact absurd (hnone.symm.trans hphase) (Option.some_ne_none phase).symm
  · have hsome : (n.afterLoop validatedFree loop).publishing = some .snapshot := if_neg htip
    refine ⟨hcommit.cfg, fun hnone => ?_, fun hnone => ?_, ?_, hchecks, hall⟩
    · exact absurd (hsome.symm.trans hnone) (Option.some_ne_none _)
    · exact absurd (hsome.symm.trans hnone) (Option.some_ne_none _)
    · intro phase hphase
      obtain rfl := Option.some.inj (hsome.symm.trans hphase)
      refine ⟨?_, trivial⟩
      rcases hadv with hsame | ⟨-, hlt⟩
      · exact absurd (congrArg Chain.tipH hsame) htip
      · refine lt_of_le_of_lt ?_ hlt
        rcases h.settled hfree with hbelow | ⟨heq, -⟩
        · exact hbelow.le
        · exact (congrArg BitVec.toNat heq).le

/-- Storing a part leaves the height that the checks are compared with. -/
theorem TagsFit.storePart (h : TagsFit C n) {phase next : Publishing}
    (hphase : n.publishing = some phase) {published : WorkerCtx}
    (hheight : published.tipHeight = n.published.tipHeight) (hcfg : published.cfg = n.published.cfg)
    (hstored : next.Stored published n.inner.chain) :
    TagsFit C { n with published := published, publishing := some next } := by
  refine ⟨hcfg.trans h.cfg, fun hnone => ?_, fun hnone => ?_, ?_, ?_, ?_⟩
  · exact absurd hnone (Option.some_ne_none next)
  · exact absurd hnone (Option.some_ne_none next)
  · intro phase' hphase'
    obtain rfl := Option.some.inj hphase'
    exact ⟨hheight ▸ (h.storing phase hphase).1, hstored⟩
  · exact fun c hc => ⟨hheight ▸ (h.checks c hc).le, fun hnone => absurd hnone
      (Option.some_ne_none next), fun hnone => absurd hnone (Option.some_ne_none next)⟩
  · exact fun v hv => ⟨hheight ▸ (h.validated v hv).le, fun hnone => absurd hnone
      (Option.some_ne_none next), (h.validated v hv).checked⟩

/-- Storing the height leaves every earlier tag behind. -/
theorem TagsFit.storeHeight (h : TagsFit C n) (hphase : n.publishing = some .tipHeight) :
    TagsFit C { n with
      published := { n.published with tipHeight := n.inner.chain.tipH }
      publishing := none } := by
  obtain ⟨hlt, hsnapshot, hindex⟩ := h.storing _ hphase
  refine ⟨h.cfg, fun _ => ?_, fun _ => .inr ⟨rfl, hsnapshot⟩, fun phase hnone => ?_, ?_, ?_⟩
  · change n.published.hotIndex = buildMap n.published.snapshot
    rw [hindex, hsnapshot]
  · exact absurd hnone (Option.some_ne_none phase).symm
  · intro c hc
    have hbelow : c.snapshotHeight.toNat < n.inner.chain.tipH.toNat :=
      lt_of_le_of_lt (h.checks c hc).le hlt
    have hne : c.snapshotHeight ≠ n.inner.chain.tipH := fun heq => by
      rw [heq] at hbelow
      omega
    exact ⟨hbelow.le, fun _ heq => absurd heq hne, fun _ heq => absurd heq hne⟩
  · intro v hv
    have hbelow : v.ctx.tipHeight.toNat < n.inner.chain.tipH.toNat :=
      lt_of_le_of_lt (h.validated v hv).le hlt
    have hne : v.ctx.tipHeight ≠ n.inner.chain.tipH := fun heq => by
      rw [heq] at hbelow
      omega
    exact ⟨hbelow.le, fun _ heq => absurd heq hne, (h.validated v hv).checked⟩

/-- A careful rollback comes back to what is published, or above it. -/
theorem TagsFit.restore (h : TagsFit C n) (hfree : n.publishing = none) {bak : CommitBak}
    (hcareful : TagAct.Careful (.restored bak n.published)) :
    TagsFit C { n with inner := rollbackCommit n.inner bak } := by
  refine ⟨h.cfg, h.index, fun _ => hcareful, fun phase hphase => ?_, ?_, ?_⟩
  · exact absurd (hfree.symm.trans hphase) (Option.some_ne_none phase).symm
  · exact fun c hc => ⟨(h.checks c hc).le, (h.checks c hc).hotIndex, (h.checks c hc).snapshot⟩
  · exact fun v hv => ⟨(h.validated v hv).le, (h.validated v hv).ctx, (h.validated v hv).checked⟩

theorem tagsFit_step (h : TagsFit C n) (hstep : TagStep C n act n') (hcareful : act.Careful) :
    TagsFit C n' := by
  cases hstep with
  | started =>
      refine h.change rfl rfl rfl (fun c hc => ?_) h.validated
      rcases List.mem_append.mp hc with hold | hnew
      · exact h.checks c hold
      · obtain rfl := List.mem_singleton.mp hnew
        exact ⟨le_rfl, fun _ _ _ hnone => absurd hnone.symm (Option.some_ne_none _),
          fun _ _ _ hnone => absurd hnone.symm (Option.some_ne_none _)⟩
  | @readHot pre post c hchecks hsnapshot =>
      have hall : ∀ d ∈ pre ++ c :: post, d.Fits n := hchecks ▸ h.checks
      have hc := hall c (List.mem_append_right _ List.mem_cons_self)
      exact h.change rfl rfl rfl (forall_mem_replace hall
        ⟨hc.le, fun _ _ _ hsome => (Option.some.inj hsome).symm, hc.snapshot⟩) h.validated
  | @readSnapshot pre post c hchecks hhot =>
      have hall : ∀ d ∈ pre ++ c :: post, d.Fits n := hchecks ▸ h.checks
      have hc := hall c (List.mem_append_right _ List.mem_cons_self)
      exact h.change rfl rfl rfl (forall_mem_replace hall
        ⟨hc.le, hc.hotIndex, fun _ _ _ hsome => (Option.some.inj hsome).symm⟩) h.validated
  | @validated pre post c hotIndex snapshot now hchecks hhot hsnapshot hok =>
      have hall : ∀ d ∈ pre ++ c :: post, d.Fits n := hchecks ▸ h.checks
      have hc := hall c (List.mem_append_right _ List.mem_cons_self)
      refine h.change rfl rfl rfl (fun d hd => ?_) fun v hv => ?_
      · exact hall d (((List.sublist_cons_self c post).append_left pre).subset hd)
      · rcases List.mem_append.mp hv with hold | hnew
        · exact h.validated v hold
        · obtain rfl := List.mem_singleton.mp hnew
          exact hc.validated hhot hsnapshot hok
  | @rejected pre post c hchecks =>
      have hall : ∀ d ∈ pre ++ c :: post, d.Fits n := hchecks ▸ h.checks
      refine h.change rfl rfl rfl (fun d hd => ?_) h.validated
      exact hall d (((List.sublist_cons_self c post).append_left pre).subset hd)
  | looped hfree hrun => exact h.afterLoop hfree _ (sealOnce_advances hrun)
  | snapshotStored hphase => exact h.storePart hphase rfl rfl rfl
  | hotIndexStored hphase => exact h.storePart hphase rfl rfl ⟨(h.storing _ hphase).2, rfl⟩
  | tipHeightStored hphase => exact h.storeHeight hphase
  | direct hfree hrun => exact h.commit hfree (v1Tx_advances hrun)
  | created hfree hrun => exact h.commit hfree (createAndSave_advances hrun)
  | manual hfree hrun => exact h.commit hfree (stepSealCommit_advances hrun)
  | skipped hfree hskip => exact h.commit hfree (skipMissedH_advances hskip)
  | applied hfree hok => exact h.commit hfree (applyBlk_advances hok hcareful)
  | backedUp => exact h.change rfl rfl rfl h.checks h.validated
  | restored hfree hbak => exact h.restore hfree hcareful
  | elsewhere => exact h.change rfl rfl rfl h.checks h.validated

/-- The node as it comes up: what is published is the chain's. -/
structure TagNode.Started (n : TagNode) : Prop where
  publishing : n.publishing = none
  published : n.published = n.inner.chain.workerCtx
  checks : n.checks = []
  validated : n.validated = []

theorem TagNode.Started.tagsFit (h : n.Started) : TagsFit C n where
  cfg := by
    rw [h.published]
    rfl
  index := fun _ => by
    rw [h.published]
    rfl
  settled := fun _ => by
    rw [h.published]
    exact .inr ⟨rfl, rfl⟩
  storing := fun phase hphase =>
    absurd (h.publishing.symm.trans hphase) (Option.some_ne_none phase).symm
  checks := by
    rw [h.checks]
    exact List.forall_mem_nil _
  validated := by
    rw [h.validated]
    exact List.forall_mem_nil _

/-- What a step drains with the tip as its tag was checked on the tip. -/
theorem tagsTruthful_step (h : TagsFit C n) (hstep : TagStep C n act n') :
    TagsTruthful C [act] := by
  intro batch ch hdrained v hv htag
  obtain rfl := List.mem_singleton.mp hdrained
  generalize hact : TagAct.drained batch ch = act at hstep
  cases hstep with
  | @looped now later ingressFree validatedFree loop hfree hrun =>
      obtain ⟨rfl, rfl⟩ := TagAct.drained.inj hact
      have hmem : v ∈ n.validated := by
        unfold TagNode.drained at hv
        split at hv
        · exact List.mem_of_mem_take hv
        · cases hv
      have hctx := h.tag_tip hfree hmem htag
      obtain ⟨now, hok⟩ := (h.validated v hmem).checked
      rw [hctx] at hok
      exact ⟨hctx, now, hok⟩
  | _ => cases hact

/-- Prevalidation tags are truthful in every run without a rollback below what is published. -/
theorem tags_truthful {start : TagNode} (hstart : start.Started)
    (hrun : Run (TagStep C) start acts n) (hcareful : ∀ a ∈ acts, a.Careful) :
    TagsTruthful C acts := by
  have hinv : (∀ a ∈ acts, a.Careful) → TagsFit C n ∧ TagsTruthful C acts := by
    refine hrun.history_invariant
      (I := fun acts n => (∀ a ∈ acts, a.Careful) → TagsFit C n ∧ TagsTruthful C acts) ?_ ?_
    · intro acts s act s' hprev hstep hall
      obtain ⟨hfit, htruthful⟩ := hprev fun a ha => hall a (List.mem_append_left _ ha)
      have hact := hall act (List.mem_append_right acts (List.mem_singleton_self act))
      refine ⟨tagsFit_step hfit hstep hact, fun batch ch hdrained => ?_⟩
      rcases List.mem_append.mp hdrained with hold | hnew
      · exact htruthful batch ch hold
      · exact tagsTruthful_step hfit hstep batch ch hnew
    · refine fun _ => ⟨hstart.tagsFit, fun batch ch hdrained => ?_⟩
      cases hdrained
  exact (hinv hcareful).2

/-- Giving up one height after the other. -/
theorem run_skips (hfree : n.publishing = none) (k : Nat)
    (hroom : n.inner.chain.tipH.toNat + k < 2 ^ 64) :
    Run (TagStep C) n (List.replicate k .other)
      { n with inner := { n.inner with
          chain := n.inner.chain.setCanonH
            (BitVec.ofNat 64 (n.inner.chain.tipH.toNat + k)) } } := by
  induction k with
  | zero =>
      have hsame : BitVec.ofNat 64 (n.inner.chain.tipH.toNat + 0) = n.inner.chain.canonicalH := by
        rw [Nat.add_zero, BitVec.ofNat_toNat, BitVec.setWidth_eq]
        rfl
      rw [hsame]
      exact Run.nil n
  | succ k ih =>
      have hnext : (BitVec.ofNat 64 (n.inner.chain.tipH.toNat + k)).saturatingAdd 1#64 =
          BitVec.ofNat 64 (n.inner.chain.tipH.toNat + (k + 1)) := by
        apply BitVec.eq_of_toNat_eq
        have hk : (BitVec.ofNat 64 (n.inner.chain.tipH.toNat + k)).toNat =
            n.inner.chain.tipH.toNat + k := by
          rw [BitVec.toNat_ofNat]
          exact Nat.mod_eq_of_lt (by omega)
        rw [toNat_saturatingAdd_of_fits (by rw [hk]; exact hroom), hk]
        change n.inner.chain.tipH.toNat + (k + 1) = (BitVec.ofNat 64 _).toNat
        rw [BitVec.toNat_ofNat, Nat.mod_eq_of_lt hroom]
      have hskip : (n.inner.chain.setCanonH
            (BitVec.ofNat 64 (n.inner.chain.tipH.toNat + k))).skipMissedH
              (BitVec.ofNat 64 (n.inner.chain.tipH.toNat + (k + 1))) =
          (true, n.inner.chain.setCanonH (BitVec.ofNat 64 (n.inner.chain.tipH.toNat + (k + 1)))) :=
        if_neg (not_not.mpr hnext)
      rw [List.replicate_succ']
      exact (ih (by omega)).snoc (TagStep.skipped hfree hskip)

/-- The tip is published. -/
def TagNode.publishTip (n : TagNode) : TagNode :=
  { n with
    published := ⟨n.inner.chain.st, buildMap n.inner.chain.st, n.inner.chain.tipH, n.published.cfg⟩
    publishing := none }

theorem run_publish (hphase : n.publishing = some .snapshot) :
    Run (TagStep C) n [.other, .other, .other] n.publishTip :=
  (((Run.nil n).snoc (.snapshotStored hphase)).snoc (.hotIndexStored rfl)).snoc
    (.tipHeightStored rfl)

/-- A worker has read all that a check needs. -/
def TagNode.readAll (n : TagNode) (tx : SignedTx) : TagNode :=
  { n with checks := [⟨tx, n.published.tipHeight, some n.published.hotIndex,
      some n.published.snapshot⟩] }

theorem run_check (tx : SignedTx) (hchecks : n.checks = []) :
    Run (TagStep C) n [.other, .other, .other] (n.readAll tx) := by
  have hstarted : TagStep C n .other
      { n with checks := [⟨tx, n.published.tipHeight, none, none⟩] } := by
    have hstep := @TagStep.started C n tx
    rw [hchecks] at hstep
    exact hstep
  have hhot := TagStep.readHot (C := C)
    (n := { n with checks := [⟨tx, n.published.tipHeight, none, none⟩] })
    (List.nil_append _).symm rfl
  have hsnapshot := TagStep.readSnapshot (C := C)
    (n := { n with checks := [⟨tx, n.published.tipHeight, some n.published.hotIndex, none⟩] })
    (List.nil_append _).symm (Option.some_ne_none _)
  exact (((Run.nil n).snoc hstarted).snoc hhot).snoc hsnapshot

end Fits

/-! ## A height that is reached twice

The loop seals an empty block of height 100 and publishes it, and a worker
checks a payment on it. Saving the snapshot of that height fails, the block is
taken back, and the loop seals another one of the same height, in which the
recipient comes to refuse payments. The tag of the payment is the tip. -/

namespace HeightTwice

open PolicyRace

def unsigned (height : U64) (prevHash txRoot stateRoot : Bytes32) : BlockHdr where
  height := height
  prevHash := prevHash
  ts := now
  prodIdx := 0#32
  txRoot := txRoot
  stateRoot := stateRoot
  sig := 0#512

def emptyTxRoot : Bytes32 :=
  0xf48ef0568e656db56ca009e0ed80604d3f38cbe30b28a48f750d1e5139ef44f5#256

/-- The headers of the empty block, of the one with the policy and of the one with the payment. -/
def emptyHdr : BlockHdr :=
  unsigned 100#64 genesisHash emptyTxRoot
    0x73c296770392ed202a6656cc8b2ead67494ea13fda91e4c7830cad1b7913ebeb#256
def denyHdr : BlockHdr :=
  unsigned 100#64 genesisHash denyHash
    0x15315fc09bb4265425687f563cd527fdc921be675ef4f85b7037796152aef310#256
def payHdr : BlockHdr :=
  unsigned 101#64 0x188963324338e4fcb2664b428f2edd00777ddc314622b78a5a17c7dcbea7555c#256 payHash
    0x41ea9f348611508eb70f187e535c67de3cd9b8308cdc7d121266cf70d4e63fb3#256

def emptyPreimage : Bytes32 :=
  0xa7cf7c72ff632f24d3cf1035e5e95f75342d5da88304f9d7c015699d1fc07211#256
def denyPreimage : Bytes32 :=
  0xa3c571b1f71772ba08318c1fbe3692a3308446c74841d03067774101ca46e1a4#256
def payPreimage : Bytes32 :=
  0x5dbdfd5920aaae6664d8788df9aaf5da8e0e4dc17ff9a98458a6144f39978a08#256
def denySig : Bytes64 :=
  0x50096c2f39b51cb35c6097ba1c976d39921c4b0b2f408cc4f6295e93d5393da90615d544c65b7918e8b961c2a8b68006c8446fc56dc1540997fd0505fef6bf08#512

/-- The chain after 99 skipped heights. -/
def tip : Chain := PolicyRace.chain.setCanonH 99#64

def sealedBy (C : Crypto) (ch : Chain) (entries : List SealEntry) : Chain :=
  match sealEntries C now ch entries with
  | .ok ch' => ch'
  | .error _ => ch

def payTagged : SealEntry := .preValidated payTx 100#64

/-- The scheme without the hashes of ledgers and blocks. -/
def stateless : Crypto :=
  .ofTables PolicyRace.txHashes
    [⟨devNetSk, devNetRow.pubkey, [(payTx.signingMessage, payTx.signature)]⟩,
      ⟨SelfDrain.rescuedSk, recipientRow.pubkey, [(denyTx.signingMessage, denyTx.signature)]⟩]

def crypto : Crypto :=
  let denied := sealedBy stateless tip [.raw denyTx]
  .ofTables
    (PolicyRace.txHashes ++
      [(strBytes "PWMv0/EMPTYTX", emptyTxRoot),
        ((sealedBy stateless tip []).st.bytes, emptyHdr.stateRoot),
        (denied.st.bytes, denyHdr.stateRoot),
        ((sealedBy stateless denied [payTagged]).st.bytes, payHdr.stateRoot),
        (emptyHdr.signBytes, emptyPreimage), (denyHdr.signBytes, denyPreimage),
        (payHdr.signBytes, payPreimage), ({ denyHdr with sig := denySig }.bytes, payHdr.prevHash)])
    [⟨devNetSk, devNetRow.pubkey,
        [(payTx.signingMessage, payTx.signature),
          (emptyPreimage.beBytes 32, 0x5cf98b5c9770adab8f3e55b3e222d1a7cdce4a085cace389f67c13df7ec51518f04745bfb0b1b4efada0511be86d5ac4033ebd6a2b39ae34a549c97622c90504#512),
          (denyPreimage.beBytes 32, denySig),
          (payPreimage.beBytes 32, 0xced8f78ad957740307b92f2b4297cb35c9fd1317eede53a9abdc22e203138b320bceb5af6e17859ff97ba4e3631ff6fa5bc3017307003e95a9c44dd540308b0d#512)]⟩,
      ⟨SelfDrain.rescuedSk, recipientRow.pubkey, [(denyTx.signingMessage, denyTx.signature)]⟩]

def emptied : Chain := sealedBy crypto tip []
def denied : Chain := sealedBy crypto tip [.raw denyTx]
def paid : Chain := sealedBy crypto denied [payTagged]

/-! The states of the run, one after the other. -/

def start : TagNode :=
  { inner := { chain := PolicyRace.chain }, published := PolicyRace.chain.workerCtx }

/-- After the skipped heights. -/
def skipped : TagNode := { start with inner := { start.inner with chain := tip } }

def backedUp : TagNode := { skipped with baks := [takeBak skipped.inner] }

def emptyLoop : SealLoop := { backedUp.loop with chain := emptied, evictedTip := 100#64 }

/-- The empty block is published, and the worker has read all that its check needs. -/
def read : TagNode := (backedUp.afterLoop true emptyLoop).publishTip.readAll payTx

/-- The empty block is taken back. -/
def restored : TagNode := { read with inner := rollbackCommit read.inner (takeBak skipped.inner) }

/-- The other transaction is in the pool. -/
def pooled : TagNode :=
  { restored with inner := { restored.inner with pool := { cap := 4096, q := [denyTx] } } }

def denyLoop : SealLoop :=
  { pooled.loop with pool := { cap := 4096 }, chain := denied, evictedTip := 100#64 }

/-- The other block of the height is published. -/
def republished : TagNode := (pooled.afterLoop true denyLoop).publishTip

def payment : ValidatedTx :=
  ⟨payTx, ⟨read.published.snapshot, read.published.hotIndex, read.published.tipHeight,
    republished.published.cfg⟩⟩

def tagged : TagNode :=
  { republished with checks := [], validated := republished.validated ++ [payment] }

def payLoop : SealLoop :=
  { tagged.loop with validated := [], chain := paid, evictedTip := 101#64 }

/-- Up to the rollback, and from there. -/
def actsBefore : List TagAct :=
  List.replicate 99 TagAct.other ++
    [.other, .drained (backedUp.drained true) backedUp.inner.chain, .other, .other, .other, .other,
      .other, .other]

def actsAfter : List TagAct :=
  [.restored (takeBak skipped.inner) read.published, .other,
    .drained (pooled.drained true) pooled.inner.chain, .other, .other, .other, .other,
    .drained (tagged.drained true) tagged.inner.chain]

theorem seal_of_isOk {C : Crypto} {ch : Chain} {entries : List SealEntry}
    (h : (sealEntries C now ch entries).isOk = true) :
    sealEntries C now ch entries = .ok (sealedBy C ch entries) := by
  unfold sealedBy
  cases hseal : sealEntries C now ch entries with
  | ok ch' => rfl
  | error e =>
      rw [hseal] at h
      cases h

theorem sealOnce_of_isOk (loop : SealLoop) {ch : Chain} {entries : List SealEntry}
    (hchain : loop.chain = ch) (hentries : loop.entries crypto true true = entries)
    (h : (sealEntries crypto now ch entries).isOk = true) :
    loop.sealOnce crypto now now true true =
      .ok { (loop.draw true true).2 with
        chain := sealedBy crypto ch entries
        evictedHashes := []
        evictedTip := (sealedBy crypto ch entries).tipH } := by
  subst hchain hentries
  exact SealLoop.sealOnce_of_ok (seal_of_isOk h) now

theorem sealed_empty : backedUp.loop.sealOnce crypto now now true true = .ok emptyLoop := by
  have htip : (sealedBy crypto tip []).tipH = 100#64 := by decide
  have hchain : backedUp.loop.chain = tip := rfl
  have hentries : backedUp.loop.entries crypto true true = [] := rfl
  rw [sealOnce_of_isOk backedUp.loop hchain hentries (by decide), htip]
  rfl

theorem sealed_deny : pooled.loop.sealOnce crypto now now true true = .ok denyLoop := by
  have hentries : pooled.loop.entries crypto true true = [.raw denyTx] := by decide +kernel
  have htip : (sealedBy crypto tip [.raw denyTx]).tipH = 100#64 := by decide +kernel
  have hchain : pooled.loop.chain = tip := rfl
  rw [sealOnce_of_isOk pooled.loop hchain hentries (by decide +kernel), htip]
  rfl

theorem sealed_pay : tagged.loop.sealOnce crypto now now true true = .ok payLoop := by
  have hentries : tagged.loop.entries crypto true true = [payTagged] := by decide +kernel
  have htip : (sealedBy crypto denied [payTagged]).tipH = 101#64 := by decide +kernel
  have hchain : tagged.loop.chain = denied := by
    simp only [tagged, republished, TagNode.loop, TagNode.publishTip, TagNode.afterLoop, denyLoop]
  rw [sealOnce_of_isOk tagged.loop hchain hentries (by decide +kernel), htip]
  rfl

theorem run_before : Run (TagStep crypto) start actsBefore read := by
  have hskips : Run (TagStep crypto) start (List.replicate 99 .other) skipped :=
    run_skips rfl 99 (by decide)
  have hlooped := TagStep.looped (n := backedUp) rfl sealed_empty
  have hphase : (backedUp.afterLoop true emptyLoop).publishing = some .snapshot := by
    decide
  have hread := ((((Run.nil skipped).snoc (.backedUp rfl)).snoc hlooped).append
    (run_publish hphase)).append (run_check payTx rfl)
  exact hskips.append hread

theorem run_after : Run (TagStep crypto) read actsAfter (tagged.afterLoop true payLoop) := by
  have hrestored : TagStep crypto read (.restored (takeBak skipped.inner) read.published)
      restored := TagStep.restored rfl (List.mem_singleton_self _)
  have hpooled : TagStep crypto restored .other pooled := TagStep.elsewhere
  have hlooped := TagStep.looped (n := pooled) rfl sealed_deny
  have hphase : (pooled.afterLoop true denyLoop).publishing = some .snapshot := by
    decide +kernel
  have hok : precheckClient crypto ⟨read.published.snapshot, read.published.hotIndex,
      read.published.tipHeight, republished.published.cfg⟩ payTx (.ok now) =
        .ok (.preValidated payTx read.published.tipHeight) := by
    decide +kernel
  have hchecks : republished.checks = [] ++ [⟨payTx, read.published.tipHeight,
      some read.published.hotIndex, some read.published.snapshot⟩] := rfl
  have htagged := TagStep.validated hchecks rfl rfl hok
  have hpaid := TagStep.looped (n := tagged) rfl sealed_pay
  exact ((((((Run.nil read).snoc hrestored).snoc hpooled).snoc hlooped).append
    (run_publish hphase)).snoc htagged).snoc hpaid

end HeightTwice

/-- The payment is drained with the tip as its tag and sealed, though the policies of the tip
forbid it: it was checked on another ledger of the same height. -/
theorem heightTwice_misled :
    HeightTwice.start.Started ∧
      Run (TagStep HeightTwice.crypto) HeightTwice.start
        (HeightTwice.actsBefore ++ HeightTwice.actsAfter)
        (HeightTwice.tagged.afterLoop true HeightTwice.payLoop) ∧
      ¬ TagsTruthful HeightTwice.crypto (HeightTwice.actsBefore ++ HeightTwice.actsAfter) ∧
      HeightTwice.denied.st.evaluatePolicy HeightTwice.crypto PolicyRace.payTx
        HeightTwice.denied.tipH ≠ .allow ∧
      (HeightTwice.paid.blocks.getLast?).map Block.txs = some [PolicyRace.payTx] := by
  refine ⟨⟨rfl, rfl, rfl, rfl⟩, HeightTwice.run_before.append HeightTwice.run_after, ?_,
    by decide +kernel, by decide +kernel⟩
  intro htruthful
  have hdrained : TagAct.drained (HeightTwice.tagged.drained true)
      HeightTwice.tagged.inner.chain ∈ HeightTwice.actsBefore ++ HeightTwice.actsAfter :=
    List.mem_append_right _ (List.mem_of_getLast? rfl)
  have hmem : HeightTwice.payment ∈ HeightTwice.tagged.drained true :=
    List.mem_singleton_self _
  obtain ⟨hctx, -⟩ := htruthful _ _ hdrained HeightTwice.payment hmem (by decide +kernel)
  exact absurd (congrArg WorkerCtx.snapshot hctx) (by decide +kernel)

namespace HeightOnce

open PolicyRace

def read : TagNode := HeightTwice.start.readAll payTx

def payment : ValidatedTx :=
  ⟨payTx, ⟨read.published.snapshot, read.published.hotIndex, read.published.tipHeight,
    read.published.cfg⟩⟩

def tagged : TagNode := { read with checks := [], validated := read.validated ++ [payment] }

def payLoop : SealLoop :=
  { tagged.loop with
    validated := []
    chain := sealedWith [.preValidated payTx 0#64]
    evictedTip := 1#64 }

def acts : List TagAct :=
  [.other, .other, .other] ++ [.other] ++ [.drained (tagged.drained true) tagged.inner.chain]

theorem run_acts : Run (TagStep crypto) HeightTwice.start acts (tagged.afterLoop true payLoop) := by
  have hok : precheckClient crypto ⟨read.published.snapshot, read.published.hotIndex,
      read.published.tipHeight, read.published.cfg⟩ payTx (.ok now) =
        .ok (.preValidated payTx read.published.tipHeight) := by
    decide +kernel
  have hchecks : read.checks = [] ++ [⟨payTx, read.published.tipHeight,
      some read.published.hotIndex, some read.published.snapshot⟩] := rfl
  have htagged := TagStep.validated hchecks rfl rfl hok
  have hentries : tagged.loop.entries crypto true true = [.preValidated payTx 0#64] := by
    decide +kernel
  have htip : (sealedWith [.preValidated payTx 0#64]).tipH = 1#64 := by decide
  have hseal : tagged.loop.sealOnce crypto now now true true = .ok payLoop := by
    have hsealed : sealEntries crypto now tagged.loop.chain (tagged.loop.entries crypto true true) =
        .ok (sealedWith [.preValidated payTx 0#64]) := by
      rw [hentries]
      exact seal_of_isOk (by decide)
    rw [SealLoop.sealOnce_of_ok hsealed, htip]
    rfl
  have hpaid := TagStep.looped (n := tagged) rfl hseal
  exact ((run_check payTx rfl).snoc htagged).snoc hpaid

theorem acts_careful : ∀ a ∈ acts, a.Careful := by
  intro a ha
  simp only [acts, List.cons_append, List.nil_append, List.mem_cons, List.not_mem_nil,
    or_false] at ha
  rcases ha with rfl | rfl | rfl | rfl | rfl <;> trivial

end HeightOnce

/-- Without the rollback: the payment is drained with the tip as its tag, and was checked on it. -/
theorem tags_truthful_heightOnce :
    TagsTruthful PolicyRace.crypto HeightOnce.acts ∧
      HeightOnce.payment.validatedAtHeight = HeightOnce.tagged.inner.chain.tipH ∧
      HeightOnce.payment.ctx = HeightOnce.tagged.inner.chain.workerCtx := by
  have htruthful : TagsTruthful PolicyRace.crypto HeightOnce.acts :=
    tags_truthful ⟨rfl, rfl, rfl, rfl⟩ HeightOnce.run_acts HeightOnce.acts_careful
  have htag : HeightOnce.payment.validatedAtHeight = HeightOnce.tagged.inner.chain.tipH := by
    decide
  have hdrained : TagAct.drained (HeightOnce.tagged.drained true) HeightOnce.tagged.inner.chain ∈
      HeightOnce.acts := List.mem_append_right _ (List.mem_singleton_self _)
  have hmem : HeightOnce.payment ∈ HeightOnce.tagged.drained true := List.mem_singleton_self _
  exact ⟨htruthful, htag, (htruthful _ _ hdrained _ hmem htag).1⟩

end Pwm
