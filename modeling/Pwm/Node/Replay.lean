import Pwm.Core.ApplySpec
import Pwm.Core.Crypto
import Pwm.Ledger.Epochs
import Pwm.Ledger.Nonce
import Pwm.Node.Inner
import Pwm.Node.Worker

/-!
# Sealed blocks replay

A replica runs every transaction of a block with its policies, a proposer runs
the ones a worker validated at the tip without them. When the policies decide
at the turn of such an entry as they did at the tip, the two runs agree and
the replica ends in the proposer's chain.
-/

namespace Pwm

open BitVec Attempt

/-! ## What seals and replays say -/

/-- The ledger as the transactions of the next block find it. -/
def Chain.beforeTxs (ch : Chain) (height : U64) : State :=
  (rollEpochIfNeeded ch.cfg ch.st height).refundExpLocks height

@[simp] theorem beforeTxs_epoch (ch : Chain) (height : U64) :
    (ch.beforeTxs height).epoch = (rollEpochIfNeeded ch.cfg ch.st height).epoch :=
  refundExpLocks_epoch _ _

@[simp] theorem beforeTxs_activeIdxs (ch : Chain) (height : U64) :
    (ch.beforeTxs height).activeValidatorIndices =
      (rollEpochIfNeeded ch.cfg ch.st height).activeValidatorIndices :=
  congrArg Prod.snd (beforeTxs_epoch ch height)

/-- The end of a block: timeouts, drain and reward after its transactions. -/
def BlockEnds (cfg : GenCfg) (height : U64) (prodIdx : U32) (st st' : State) : Prop :=
  ∃ drained prodAcct,
    drainConservationAtHeight cfg height (st.refundExpLocks height) = .ok () drained ∧
    cfg.prodAcct prodIdx = some prodAcct ∧ (drained.accounts[prodAcct]?).isSome ∧
    st' = rewardBlock cfg drained prodAcct height

theorem BlockEnds.epoch {cfg : GenCfg} {height : U64} {prodIdx : U32} {st st' : State}
    (h : BlockEnds cfg height prodIdx st st') : st'.epoch = st.epoch := by
  obtain ⟨drained, prodAcct, hdrain, _, _, rfl⟩ := h
  rw [rewardBlock_epoch, drainConservationAtHeight_epoch hdrain, refundExpLocks_epoch]

section Seal

variable {C : Crypto} {now : U64} {ch ch' : Chain} {entries : List SealEntry}

/-- The block that a seal appends. -/
def sealedBlock (C : Crypto) (ch : Chain) (height ts : U64) (prodIdx : U32) (sk : SigningKey)
    (txs : List SignedTx) (st : State) : Block :=
  ⟨BlockHdr.signWith C sk
    { height := height, prevHash := ch.tipHash C, ts := ts, prodIdx := prodIdx,
      txRoot := txsRoot C txs, stateRoot := digest C st, sig := 0#512 }, txs⟩

theorem sealOutcome_ok {α : Type} {txs : List SignedTx} {r : EStateM.Result Fault State α}
    {st : State} (hok : sealOutcome txs r = .ok st) : ∃ a, r = .ok a st := by
  cases r with
  | ok a s => exact ⟨a, by rw [Except.ok.inj hok]⟩
  | error f s => cases f <;> cases hok

theorem sealEntries_ok (hok : sealEntries C now ch entries = .ok ch') :
    ∃ height ts prodIdx sk st st',
      ch.nextApplyCtx now = .ok (height, ts) ∧
      pickProdIdx height (ch.beforeTxs height).activeValidatorIndices = .ok prodIdx ∧
      (entries.forM fun entry => applyEntry C ch height ts entry) (ch.beforeTxs height) =
        .ok () st ∧
      BlockEnds ch.cfg height prodIdx st st' ∧ ch.valSks[prodIdx.toNat]? = some sk ∧
      ch' = ch.append (sealedBlock C ch height ts prodIdx sk (entries.map SealEntry.tx) st') st' := by
  simp only [sealEntries, except_bind_ok_iff, orFail_ok_iff, check_ok_iff, mapError_ok_iff] at hok
  obtain ⟨⟨height, ts⟩, hctx, prodIdx, hpick, st, hrun, drained, hdrain, prodAcct, hacct, _,
    hrow, sk, hsk, hend⟩ := hok
  obtain ⟨_, hrun⟩ := sealOutcome_ok hrun
  obtain ⟨_, hdrain⟩ := sealOutcome_ok hdrain
  refine ⟨height, ts, prodIdx, sk, st, _, hctx, ?_, hrun, ⟨drained, prodAcct, hdrain, hacct, hrow,
    rfl⟩, hsk, (Except.ok.inj hend).symm⟩
  rw [beforeTxs_activeIdxs]
  exact hpick

end Seal

section Sync

variable {C : Crypto} {inn inn' : Inner} {blk : Block}

theorem syncOutcome_ok_iff {r : EStateM.Result Fault State Unit} {st : State} :
    syncOutcome r = .ok st ↔ r = .ok () st := by
  cases r with
  | ok a s => simp [syncOutcome]
  | error f s => cases f <;> simp [syncOutcome]

theorem syncTotal_ok_iff {r : EStateM.Result Fault State Unit} {st : State} :
    syncTotal r = .ok st ↔ r = .ok () st := by
  cases r <;> simp [syncTotal]

/-- The block runs on the chain and leads to the ledger. -/
structure Replays (C : Crypto) (ch : Chain) (blk : Block) (st' : State) : Prop where
  height : blk.hdr.height = ch.tipH.saturatingAdd 1#64
  prevHash : blk.hdr.prevHash = ch.tipHash C
  prodIdx : pickProdIdx blk.hdr.height (ch.beforeTxs blk.hdr.height).activeValidatorIndices =
    .ok blk.hdr.prodIdx
  sig : ∃ row, ch.cfg.vals.set[blk.hdr.prodIdx.toNat]? = some row ∧
    blk.hdr.verifySig C row.pubkey = true
  txRoot : txsRoot C blk.txs = blk.hdr.txRoot
  run : ∃ st, (blk.txs.forM fun tx => applyTxWithCtx C ch.cfg tx blk.hdr.height blk.hdr.ts)
      (ch.beforeTxs blk.hdr.height) = .ok () st ∧
    BlockEnds ch.cfg blk.hdr.height blk.hdr.prodIdx st st'
  stateRoot : digest C st' = blk.hdr.stateRoot

/-- A node accepts the blocks that run on its chain, and appends them. -/
theorem applyBlk_ok_iff : applyBlk C inn blk = .ok inn' ↔
    ∃ st', Replays C inn.chain blk st' ∧
      inn' = blk.txs.foldl (fun inn tx => inn.recordCrossShardTx C tx blk.hdr.height)
        { inn with chain := inn.chain.append blk st' } := by
  simp only [applyBlk, except_bind_ok_iff, orFail_ok_iff, check_ok_iff, mapError_ok_iff,
    syncOutcome_ok_iff, syncTotal_ok_iff]
  constructor
  · rintro ⟨_, hheight, _, hprev, idx, hpick, _, hidx, row, hrow, _, hsig, _, hroot, st, hrun,
      drained, hdrain, prodAcct, hacct, _, hsome, _, hdigest, hend⟩
    refine ⟨_, ⟨hheight, hprev, ?_, ⟨row, hrow, hsig⟩, hroot, ⟨st, ?_, drained, prodAcct, ?_, hacct,
      hsome, rfl⟩, ?_⟩, (Except.ok.inj hend).symm⟩
    · rw [beforeTxs_activeIdxs, hheight, hidx]
      exact hpick
    · rw [Chain.beforeTxs, hheight]
      rw [hheight] at hrun
      exact hrun
    · rw [hheight]
      exact hdrain
    · rw [hheight]
      exact hdigest
  · rintro ⟨st', ⟨hheight, hprev, hpick, ⟨row, hrow, hsig⟩, hroot, ⟨st, hrun, drained, prodAcct,
      hdrain, hacct, hsome, rfl⟩, hdigest⟩, rfl⟩
    rw [beforeTxs_activeIdxs, hheight] at hpick
    rw [Chain.beforeTxs, hheight] at hrun
    rw [hheight] at hdrain hdigest
    refine ⟨(), hheight, (), hprev, _, hpick, (), rfl, row, hrow, (), hsig, (), hroot, st, ?_,
      drained, hdrain, prodAcct, hacct, (), hsome, (), hdigest, ?_⟩
    · rw [hheight]
      exact hrun
    · rw [hheight]

theorem applyBlk_chain (hok : applyBlk C inn blk = .ok inn') :
    ∃ st', Replays C inn.chain blk st' ∧ inn'.chain = inn.chain.append blk st' := by
  obtain ⟨st', hreplays, rfl⟩ := applyBlk_ok_iff.mp hok
  exact ⟨st', hreplays, Inner.foldl_recordCrossShardTx_chain C _ _ _⟩

theorem applyBlk_of_replays {st' : State} (h : Replays C inn.chain blk st') :
    ∃ inn', applyBlk C inn blk = .ok inn' ∧ inn'.chain = inn.chain.append blk st' :=
  ⟨_, applyBlk_ok_iff.mpr ⟨st', h, rfl⟩, Inner.foldl_recordCrossShardTx_chain C _ _ _⟩

end Sync

/-! ## Entries that skipped the policies -/

section Skip

variable {C : Crypto} {genCfg : GenCfg} {tx : SignedTx} {h now : U64} {s s' : State}

/-- The policies let the transaction go where its body says. -/
def PolicyPasses (C : Crypto) (st : State) (tx : SignedTx) (height : U64) : Prop :=
  st.evaluatePolicy C tx height = .allow ∨
    ∃ toId amount fee, tx.body = .transfer toId amount fee ∧
      st.evaluatePolicy C tx height = .redirect toId

instance (C : Crypto) (st : State) (tx : SignedTx) (height : U64) :
    Decidable (PolicyPasses C st tx height) :=
  match hbody : tx.body with
  | .transfer toId amount fee =>
      decidable_of_iff (st.evaluatePolicy C tx height = .allow ∨
        st.evaluatePolicy C tx height = .redirect toId) (by
          simp only [PolicyPasses, hbody, TxBody.transfer.injEq]
          exact or_congr Iff.rfl ⟨fun h => ⟨toId, amount, fee, ⟨rfl, rfl, rfl⟩, h⟩,
            fun ⟨_, _, _, ⟨rfl, _, _⟩, h⟩ => h⟩)
  | .init _ _ | .stake _ | .unstake _ | .burnMark _ _ | .claimIPv4Batch _ _ _
  | .exportTx _ _ _ _ | .importTx _ _ _ | .policy _ _ _ =>
      decidable_of_iff (st.evaluatePolicy C tx height = .allow) (by simp [PolicyPasses, hbody])

theorem policyGate_of_passes {st : State} (hpass : PolicyPasses C st tx h) :
    ∃ redirTo, policyGate C st tx h false = .ok redirTo ∧
      ∀ id acc, applyBody C genCfg tx h id acc redirTo = applyBody C genCfg tx h id acc none := by
  rcases hpass with hallow | ⟨toId, amount, fee, hbody, hredirect⟩
  · exact ⟨none, by simp [policyGate, hallow], fun _ _ => rfl⟩
  · refine ⟨some toId, by simp [policyGate, hredirect], fun id acc => ?_⟩
    simp only [applyBody, hbody, applyTransfer, Option.getD_some, Option.getD_none]

theorem txPrologue_of_skip {p : Account × Option AccountId} {redirTo : Option AccountId}
    (hskip : txPrologue C tx h true s = .ok p s')
    (hgate : policyGate C s tx h false = .ok redirTo) :
    txPrologue C tx h false s = .ok (p.1, redirTo) s' := by
  simp only [txPrologue, bind_ok_iff, get_ok_iff, orThrow_ok_iff, require_ok_iff,
    liftExcept_ok_iff, pure_ok_iff] at hskip ⊢
  obtain ⟨_, _, ⟨rfl, rfl⟩, acc, _, ⟨hacc, rfl⟩, _, _, ⟨hkey, rfl⟩, _, _, ⟨hnonce, rfl⟩, _, _,
    ⟨_, rfl⟩, _, _, ⟨hconflict, rfl⟩, rfl, rfl⟩ := hskip
  exact ⟨_, _, ⟨rfl, rfl⟩, acc, _, ⟨hacc, rfl⟩, (), _, ⟨hkey, rfl⟩, (), _, ⟨hnonce, rfl⟩, redirTo,
    _, ⟨hgate, rfl⟩, (), _, ⟨hconflict, rfl⟩, rfl, rfl⟩

/-- A transaction that took effect without its policies does the same with them. -/
theorem applyTxWithCtx_of_prechecked (hshape : validateTxShape C tx = .ok ())
    (hpass : PolicyPasses C (initStub C tx s) tx h)
    (hok : applyPrecheckedTx C genCfg tx h now s = .ok () s') :
    applyTxWithCtx C genCfg tx h now s = .ok () s' := by
  obtain ⟨redirTo, hgate, hsame⟩ : ∃ redirTo, policyGate C (initStub C tx s) tx h false = .ok redirTo ∧
      ∀ id acc, applyBody C genCfg tx h id acc redirTo = applyBody C genCfg tx h id acc none :=
    policyGate_of_passes hpass
  simp only [applyTxWithCtx, applyPrecheckedTx, applyTxImpl, bind_ok_iff, liftExcept_ok_iff,
    modify_ok_iff] at hok ⊢
  obtain ⟨_, _, ⟨_, rfl⟩, _, _, rfl, ⟨row, skipped⟩, s₁, hprologue, hbody⟩ := hok
  refine ⟨(), s, ⟨hshape, rfl⟩, ⟨⟩, _, rfl, (row, redirTo), s₁, txPrologue_of_skip hprologue hgate, ?_⟩
  have hnone : skipped = none := by
    obtain ⟨_, acc, _, _, _, hgate, _⟩ := txPrologue_ok hprologue
    exact (Except.ok.inj hgate).symm
  subst hnone
  rw [hsame]
  exact hbody

end Skip

section Replay

variable {C : Crypto} {now : U64} {ch ch' : Chain}

/-- At its turn, an entry that skips the policies passes them. -/
def EntryPasses (C : Crypto) (ch : Chain) (height : U64) (st : State) : SealEntry → Prop
  | .raw _ => True
  | .preValidated tx atHeight =>
      atHeight = ch.tipH → PolicyPasses C (initStub C tx st) tx height

/-- Every entry passes at its turn, in the ledger that the entries before it leave. -/
def EntriesPass (C : Crypto) (ch : Chain) (height ts : U64) : List SealEntry → State → Prop
  | [], _ => True
  | entry :: rest, st => EntryPasses C ch height st entry ∧
      ∀ st', applyEntry C ch height ts entry st = .ok () st' →
        EntriesPass C ch height ts rest st'

/-- The entries of the next seal of this chain pass the policies at their turns. -/
def SealPasses (C : Crypto) (now : U64) (ch : Chain) (entries : List SealEntry) : Prop :=
  ∀ height ts, ch.nextApplyCtx now = .ok (height, ts) →
    EntriesPass C ch height ts entries (ch.beforeTxs height)

/-- A worker passed the entry on at the tip of this chain, when it is marked with that height. -/
def Validated (C : Crypto) (ch : Chain) : SealEntry → Prop
  | .raw _ => True
  | .preValidated tx atHeight => atHeight = ch.tipH →
      ∃ clock, precheckClient C ch.workerCtx tx clock = .ok (.preValidated tx atHeight)

/-- The keys of the chain are the ones in its validator rows. -/
def KeysMatch (C : Crypto) (ch : Chain) : Prop :=
  ∀ (i : Nat) (sk : SigningKey), ch.valSks[i]? = some sk →
    ∃ row : VRow, ch.cfg.vals.set[i]? = some row ∧ row.pubkey = C.verifyingKey sk

theorem applyTxWithCtx_of_entry {height ts : U64} {entry : SealEntry} {st st' : State}
    (hvalid : Validated C ch entry) (hpass : EntryPasses C ch height st entry)
    (hok : applyEntry C ch height ts entry st = .ok () st') :
    applyTxWithCtx C ch.cfg entry.tx height ts st = .ok () st' := by
  cases entry with
  | raw tx => exact hok
  | preValidated tx atHeight =>
      rw [applyEntry] at hok
      split at hok
      · rename_i htip
        obtain ⟨clock, hcheck⟩ := hvalid htip
        exact applyTxWithCtx_of_prechecked (precheckClient_ok C _ tx hcheck).1 (hpass htip) hok
      · exact hok

theorem forM_replays {height ts : U64} {entries : List SealEntry} {st st' : State}
    (hvalid : ∀ entry ∈ entries, Validated C ch entry)
    (hpass : EntriesPass C ch height ts entries st)
    (hok : (entries.forM fun entry => applyEntry C ch height ts entry) st = .ok () st') :
    ((entries.map SealEntry.tx).forM fun tx => applyTxWithCtx C ch.cfg tx height ts) st =
      .ok () st' := by
  induction entries generalizing st with
  | nil => exact hok
  | cons entry rest ih =>
      obtain ⟨_, st₁, hentry, hrest⟩ := bind_ok_iff.mp hok
      obtain ⟨hfirst, hlater⟩ := hpass
      refine bind_ok_iff.mpr ⟨(), st₁, ?_, ?_⟩
      · exact applyTxWithCtx_of_entry (hvalid entry List.mem_cons_self) hfirst hentry
      · exact ih (fun e he => hvalid e (List.mem_cons_of_mem _ he)) (hlater st₁ hentry) hrest

theorem nextApplyCtx_height {height ts : U64} (hctx : ch.nextApplyCtx now = .ok (height, ts)) :
    ch.tipH.checkedAdd 1#64 = some height := by
  unfold Chain.nextApplyCtx at hctx
  cases hnext : ch.tipH.checkedAdd 1#64 with
  | none => simp [hnext] at hctx
  | some next =>
      simp only [hnext] at hctx
      split at hctx <;> simp only [Except.ok.injEq, Prod.mk.injEq] at hctx <;> rw [hctx.1]

theorem saturatingAdd_of_checked {x y z : U64} (h : x.checkedAdd y = some z) :
    x.saturatingAdd y = z := by
  have hsum := checkedAdd_eq_some_iff.mp h
  have hlt := z.isLt
  apply BitVec.eq_of_toNat_eq
  rw [toNat_saturatingAdd_of_fits (by omega), hsum]

/-- A sealed block runs on the chain that it was sealed on. -/
theorem sealed_replays {entries : List SealEntry} (hkeys : KeysMatch C ch)
    (hsigns : ∀ sk ∈ ch.valSks, C.SignsVerify sk)
    (hvalid : ∀ entry ∈ entries, Validated C ch entry) (hpass : SealPasses C now ch entries)
    (hseal : sealEntries C now ch entries = .ok ch') :
    ∃ blk st', Replays C ch blk st' ∧ ch' = ch.append blk st' := by
  obtain ⟨height, ts, prodIdx, sk, st, st', hctx, hpick, hrun, hends, hsk, rfl⟩ :=
    sealEntries_ok hseal
  obtain ⟨row, hrow, hpk⟩ := hkeys _ _ hsk
  have hheight := saturatingAdd_of_checked (nextApplyCtx_height hctx)
  refine ⟨_, st', ⟨hheight.symm, rfl, hpick, ⟨row, hrow, ?_⟩, rfl, ⟨st, ?_, hends⟩, rfl⟩, rfl⟩
  · rw [hpk]
    exact BlockHdr.verifySig_signWith C _ (hsigns sk (List.mem_of_getElem? hsk))
  · exact forM_replays hvalid (hpass height ts hctx) hrun

/-- A replica with the proposer's chain accepts the sealed block and ends in the proposer's
chain. -/
theorem sealed_block_replays {entries : List SealEntry} {inn : Inner} (hinn : inn.chain = ch)
    (hkeys : KeysMatch C ch) (hsigns : ∀ sk ∈ ch.valSks, C.SignsVerify sk)
    (hvalid : ∀ entry ∈ entries, Validated C ch entry) (hpass : SealPasses C now ch entries)
    (hseal : sealEntries C now ch entries = .ok ch') :
    ∃ blk inn', ch'.blocks.getLast? = some blk ∧ applyBlk C inn blk = .ok inn' ∧
      inn'.chain = ch' := by
  subst hinn
  obtain ⟨blk, st', hreplays, rfl⟩ := sealed_replays hkeys hsigns hvalid hpass hseal
  obtain ⟨inn', happly, hchain⟩ := applyBlk_of_replays hreplays
  exact ⟨blk, inn', Chain.append_getLast? _ _ _, happly, hchain⟩

/-- A replica with the proposer's chain takes the empty block that was sealed on it. -/
theorem applyBlk_of_sealed_empty {inn : Inner} {hdr : BlockHdr} {st : State}
    (hkeys : KeysMatch C inn.chain) (hsigns : ∀ sk ∈ inn.chain.valSks, C.SignsVerify sk)
    (hseal : sealEntries C now inn.chain [] = .ok (inn.chain.append ⟨hdr, []⟩ st)) :
    applyBlk C inn ⟨hdr, []⟩ = .ok { inn with chain := inn.chain.append ⟨hdr, []⟩ st } := by
  have hpass : SealPasses C now inn.chain [] := fun _ _ _ => trivial
  obtain ⟨blk, st', hreplays, hsame⟩ :=
    sealed_replays hkeys hsigns (List.forall_mem_nil _) hpass hseal
  have hlast := congrArg (fun ch => ch.blocks.getLast?) hsame
  simp only [Chain.append_getLast?, Option.some.injEq] at hlast
  have hst := congrArg Chain.st hsame
  rw [Chain.append_st, Chain.append_st] at hst
  subst hlast hst
  exact applyBlk_ok_iff.mpr ⟨st, hreplays, rfl⟩

end Replay

/-! ## A policy set before the transfer it denies

Both transactions pass the worker at the tip. In one block, the recipient's
policy comes into force before the transfer to it is applied. -/

namespace PolicyRace

def recipientRow : GRow where
  acct := SelfDrain.rescuedId
  pubkey := SelfDrain.rescuedPk
  derIdx := 0#32
  bal := 1000000#128

/-- The devnet with the recipient funded as well. -/
def net : GenCfg :=
  { devNet with funding := ⟨[devNetRow, recipientRow]⟩, accounts := [devNetRow, recipientRow] }

def chain : Chain where
  cfg := net
  valSks := [devNetSk]
  blocks := []
  canonicalH := 0#64
  st := { net.state0 with activeValidatorIndices := recomputeActiveIdxs net net.state0 }
  sealTimeMode := .wallClock

def denyTx : SignedTx where
  domainCode := 0x324f#16
  signerPk := recipientRow.pubkey
  derivationIndex := 0#32
  nonce := 0#64
  body := .policy recipientRow.acct (.setPolicy .defaultBehavior .immediately) 1#128
  signature := 0x9cf42f0930b1528c600c00835cb745791077458a5ab0996064c4d369e63088a885b5af5a42d00e18b3739d213f6fe2fb7189271900a706ef885488b6258e6105#512

def payTx : SignedTx := SelfDrain.transferTx

def denyFirst : List SealEntry := [.preValidated denyTx 0#64, .preValidated payTx 0#64]
def payFirst : List SealEntry := [.preValidated payTx 0#64, .preValidated denyTx 0#64]

def now : U64 := 1700000001#64

def genesisHash : Bytes32 :=
  0x52002052195e96fc6379a04df75794d0333458e98180236bb24957745b944366#256
def denyHash : Bytes32 :=
  0x5c76733c06949dfd1887dbf0851f25c569bb1a9abf6c2c4954543128849fb7b0#256
def payHash : Bytes32 :=
  0xb4e5188431e6f57bf4d4395020be274b49de7113f8facee5b7d184bbefc8234e#256
def denyFirstRoot : Bytes32 :=
  0x7fbe638d496d5477d643e29ae298ee9a326c0e750c0a265fa2385c8c5c4113b5#256
def payFirstRoot : Bytes32 :=
  0xccc2bd54b4a3cee7c3fa649f3c17c6e250965da8f1cc41a7ead9e51bc19067a4#256
def stateRoot : Bytes32 :=
  0xf1359312b4952754acf1b0e81ad9de98e67e5365de9bcbdc04870c262d111bd8#256

/-- The hashes of ids and transactions. -/
def txHashes : List (List U8 × Bytes32) :=
  [(devNetRow.pubkey.beBytes 32 ++ (0#32).leBytes 4, devNetRow.acct),
    (recipientRow.pubkey.beBytes 32 ++ (0#32).leBytes 4, recipientRow.acct),
    (strBytes "PWMv0/GENESIS", genesisHash), (denyTx.signingMessage, denyHash),
    (payTx.signingMessage, payHash),
    (strBytes "PWMv0/TXNODE" ++ denyHash.beBytes 32 ++ payHash.beBytes 32, denyFirstRoot),
    (strBytes "PWMv0/TXNODE" ++ payHash.beBytes 32 ++ denyHash.beBytes 32, payFirstRoot)]

/-- The ledger after the block, which both orders lead to. -/
def afterBlock : State :=
  let keys : List Crypto.KnownKey := [⟨devNetSk, devNetRow.pubkey, []⟩]
  match sealEntries (.ofTables txHashes keys) now chain denyFirst with
  | .ok ch => ch.st
  | .error _ => {}

def header (txRoot : Bytes32) : BlockHdr :=
  { height := 1#64, prevHash := genesisHash, ts := now, prodIdx := 0#32, txRoot := txRoot,
    stateRoot := stateRoot, sig := 0#512 }

def denyFirstPreimage : Bytes32 :=
  0x827a22c0a5f6fff9aadd7ee0720d461a88ed6e13ffd6cbe7e17e40c8a89dfbae#256
def payFirstPreimage : Bytes32 :=
  0xce10f298fbc6d928c40a48ad32db4a6fbc5018649513c0b2163056f6706210a5#256

def crypto : Crypto :=
  .ofTables
    (txHashes ++ [(afterBlock.bytes, stateRoot), ((header denyFirstRoot).signBytes,
      denyFirstPreimage), ((header payFirstRoot).signBytes, payFirstPreimage)])
    [⟨devNetSk, devNetRow.pubkey,
        [(payTx.signingMessage, payTx.signature),
          (denyFirstPreimage.beBytes 32, 0xb1f4c1e59108f0db9ae12a132fc87f3672d69d9edea8af232489ad48fd413f5ec6fd6c9ce5f095b4513e5e00b61be03a24fca9b4e717abd0f24c5318ca437700#512),
          (payFirstPreimage.beBytes 32, 0x4dedacf1aec8cd41ae8fbcca490c8e37cce0cb2160bcda89761c7758d2b945060690c1e16b1189683208d0af7e18cda57de7d82d27979739763ae1b617ca6f01#512)]⟩,
      ⟨SelfDrain.rescuedSk, recipientRow.pubkey, [(denyTx.signingMessage, denyTx.signature)]⟩]

/-- The chain after a seal of these entries. -/
def sealedWith (entries : List SealEntry) : Chain :=
  match sealEntries crypto now chain entries with
  | .ok ch => ch
  | .error _ => chain

theorem keysMatch : KeysMatch crypto chain := by
  intro i sk hsk
  cases i with
  | zero =>
      obtain rfl := Option.some.inj hsk
      exact ⟨_, rfl, by decide⟩
  | succ i => cases hsk

theorem signsVerify : ∀ sk ∈ chain.valSks, crypto.SignsVerify sk := by
  intro sk hsk
  obtain rfl := List.mem_singleton.mp hsk
  exact Crypto.ofTables_signsVerify _ _ ⟨_, List.mem_cons_self, rfl⟩

theorem validated_pay : Validated crypto chain (.preValidated payTx 0#64) :=
  fun _ => ⟨.ok now, by decide +kernel⟩

theorem validated_deny : Validated crypto chain (.preValidated denyTx 0#64) :=
  fun _ => ⟨.ok now, by decide +kernel⟩

/-- The block of the policy that comes before the transfer it denies. -/
theorem seal_denyFirst : sealEntries crypto now chain denyFirst =
    .ok (chain.append ⟨BlockHdr.signWith crypto devNetSk (header denyFirstRoot), [denyTx, payTx]⟩
      afterBlock) := by
  unfold sealEntries digest crypto State.bytes Account.bytes
  -- bytes put together from the end are faster to compute
  simp -zeta only [List.append_assoc]
  decide +kernel

/-- That a seal goes through says nothing of the hashes of what it makes. -/
theorem seal_of_isOk {entries : List SealEntry}
    (h : (sealEntries crypto now chain entries).isOk = true) :
    sealEntries crypto now chain entries = .ok (sealedWith entries) := by
  unfold sealedWith
  cases hseal : sealEntries crypto now chain entries with
  | ok ch => rfl
  | error e =>
      rw [hseal] at h
      cases h

end PolicyRace

/-- A block sealed from validated entries that the replica refuses. -/
theorem policyRace_not_accepted :
    Chain.boot PolicyRace.net [devNetSk] = some PolicyRace.chain ∧
      KeysMatch PolicyRace.crypto PolicyRace.chain ∧
      (∀ sk ∈ PolicyRace.chain.valSks, PolicyRace.crypto.SignsVerify sk) ∧
      (∀ entry ∈ PolicyRace.denyFirst, Validated PolicyRace.crypto PolicyRace.chain entry) ∧
      ∃ ch' blk, sealEntries PolicyRace.crypto PolicyRace.now PolicyRace.chain
          PolicyRace.denyFirst = .ok ch' ∧
        ch'.blocks.getLast? = some blk ∧
        applyBlk PolicyRace.crypto { chain := PolicyRace.chain } blk =
          .error (.err "tx_invalid:policy denied") := by
  refine ⟨by decide, PolicyRace.keysMatch, PolicyRace.signsVerify, ?_, _, _,
    PolicyRace.seal_denyFirst, Chain.append_getLast? _ _ _, ?_⟩
  · intro entry hentry
    rcases List.mem_cons.mp hentry with rfl | hentry
    · exact PolicyRace.validated_deny
    · obtain rfl := List.mem_singleton.mp hentry
      exact PolicyRace.validated_pay
  · decide +kernel

/-- The same entries in the other order. -/
theorem sealed_block_replays_payFirst :
    ∃ blk inn', (PolicyRace.sealedWith PolicyRace.payFirst).blocks.getLast? = some blk ∧
      applyBlk PolicyRace.crypto { chain := PolicyRace.chain } blk = .ok inn' ∧
      inn'.chain = PolicyRace.sealedWith PolicyRace.payFirst := by
  refine @sealed_block_replays PolicyRace.crypto PolicyRace.now PolicyRace.chain
    (PolicyRace.sealedWith PolicyRace.payFirst) PolicyRace.payFirst { chain := PolicyRace.chain }
    rfl PolicyRace.keysMatch PolicyRace.signsVerify ?_ ?_ ?_
  · intro entry hentry
    rcases List.mem_cons.mp hentry with rfl | hentry
    · exact PolicyRace.validated_pay
    · obtain rfl := List.mem_singleton.mp hentry
      exact PolicyRace.validated_deny
  · intro height ts hctx
    obtain ⟨rfl, rfl⟩ : 1#64 = height ∧ PolicyRace.now = ts := by
      simpa [Chain.nextApplyCtx, PolicyRace.chain, Chain.tipH, checkedAdd] using hctx
    refine ⟨fun _ => by decide, fun st₁ h₁ => ⟨fun _ => ?_, fun _ _ => trivial⟩⟩
    have hst : endState (applyEntry PolicyRace.crypto PolicyRace.chain 1#64 PolicyRace.now
        (.preValidated PolicyRace.payTx 0#64) (PolicyRace.chain.beforeTxs 1#64)) = st₁ := by
      rw [h₁]
      rfl
    rw [← hst]
    decide
  · exact PolicyRace.seal_of_isOk (by decide)

end Pwm
