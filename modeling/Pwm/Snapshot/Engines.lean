import Pwm.Ledger.OwnIds
import Pwm.Lib.CheckedLog
import Pwm.Node.Liveness
import Pwm.Snapshot.Repair

/-!
# The replay engines

The sealer, the validator of snapshots and the offline repair each write the
block transition out for themselves. They run the same steps in the same order
and differ in how the producer is paid, in what they do without an active
validator, and in what the validator asks of an empty block list.
-/

namespace Pwm

open BitVec Attempt CheckedLog

/-! ## The block transition with the pay left open -/

/-- What a block does to the hash of the block before it and the ledger, when its producer is paid
in this way. -/
structure BlockReaches (C : Crypto) (cfg : GenCfg) (pay : State → AccountId → BlockHdr → State)
    (i : Nat) (p : Bytes32 × State) (blk : Block) (p' : Bytes32 × State) : Prop where
  height : blk.hdr.height = BitVec.ofNat 64 (i + 1)
  prevHash : blk.hdr.prevHash = p.1
  txRoot : blk.hdr.txRoot = txsRoot C blk.txs
  prodIdx : pickProdIdx blk.hdr.height
    (rollEpochIfNeeded cfg p.2 blk.hdr.height).activeValidatorIndices = .ok blk.hdr.prodIdx
  sig : ∃ row, cfg.vals.set[blk.hdr.prodIdx.toNat]? = some row ∧
    blk.hdr.verifySig C row.pubkey = true
  ends : ∃ st drained prodAcct,
    (blk.txs.forM fun tx => applyTxWithCtx C cfg tx blk.hdr.height blk.hdr.ts)
        ((rollEpochIfNeeded cfg p.2 blk.hdr.height).refundExpLocks blk.hdr.height) = .ok () st ∧
      drainConservationAtHeight cfg blk.hdr.height (st.refundExpLocks blk.hdr.height) =
        .ok () drained ∧
      cfg.prodAcct blk.hdr.prodIdx = some prodAcct ∧ p'.2 = pay drained prodAcct blk.hdr
  stateRoot : blk.hdr.stateRoot = digest C p'.2
  next : p'.1 = hdrHash C blk.hdr

/-- The pay of the sealer and of the validator. -/
def sealerPay (cfg : GenCfg) (st : State) (prodAcct : AccountId) (hdr : BlockHdr) : State :=
  rewardBlock cfg st prodAcct hdr.height

/-- The pay of the repair. -/
def repairPay (cfg : GenCfg) (st : State) (prodAcct : AccountId) (hdr : BlockHdr) : State :=
  repairReward cfg st prodAcct hdr.ts

/-- Where both engines start. -/
def replayOrigin (C : Crypto) (cfg : GenCfg) : Bytes32 × State :=
  (prevGen C, replayStart cfg)

section Blocks

variable {C : Crypto} {cfg : GenCfg} {snapshot : SnapshotData} {i : Nat} {prev : Bytes32}
  {st st' : State} {blk : Block} {pay : State → AccountId → BlockHdr → State}

theorem blockReaches_functional : Functional (BlockReaches C cfg pay) := by
  intro i p blk p₁ p₂ h₁ h₂
  obtain ⟨st, drained, prodAcct, hrun, hdrain, hacct, hend⟩ := h₁.ends
  obtain ⟨st', drained', prodAcct', hrun', hdrain', hacct', hend'⟩ := h₂.ends
  rw [hrun] at hrun'
  obtain ⟨-, rfl⟩ := EStateM.Result.ok.inj hrun'
  rw [hdrain] at hdrain'
  obtain ⟨-, rfl⟩ := EStateM.Result.ok.inj hdrain'
  rw [hacct] at hacct'
  obtain rfl := Option.some.inj hacct'
  exact Prod.ext (h₁.next.trans h₂.next.symm) (hend.trans hend'.symm)

theorem validateTxs_ok_iff {hdr : BlockHdr} {txs : List SignedTx} (k : Nat) :
    validateTxs C cfg i hdr k txs st = .ok st' ↔
      (txs.forM fun tx => applyTxWithCtx C cfg tx hdr.height hdr.ts) st = .ok () st' := by
  induction txs generalizing k st with
  | nil => simp [validateTxs, pure_ok_iff]
  | cons tx rest ih =>
      have hforM : ((tx :: rest).forM fun tx => applyTxWithCtx C cfg tx hdr.height hdr.ts) st =
          .ok () st' ↔ ∃ u s₁, applyTxWithCtx C cfg tx hdr.height hdr.ts st = .ok u s₁ ∧
            (rest.forM fun tx => applyTxWithCtx C cfg tx hdr.height hdr.ts) s₁ = .ok () st' :=
        bind_ok_iff
      rw [hforM, validateTxs]
      cases happly : applyTxWithCtx C cfg tx hdr.height hdr.ts st with
      | ok u s₁ => simp [ih]
      | error f s₁ => cases f <;> simp

theorem replayTotal_ok_iff {r : EStateM.Result Fault State Unit} :
    replayTotal r = .ok st ↔ r = .ok () st := by
  cases r <;> simp [replayTotal]

theorem replayTxs_ok_iff {r : EStateM.Result Fault State Unit} :
    replayTxs r = .ok st ↔ r = .ok () st := by
  cases r with
  | ok a s => simp [replayTxs]
  | error f s => cases f <;> simp [replayTxs]

theorem validateBlock_ok_iff :
    validateBlock C cfg snapshot i prev st blk = .ok st' ↔
      BlockReaches C cfg (sealerPay cfg) i (prev, st) blk (hdrHash C blk.hdr, st') := by
  simp only [validateBlock, except_bind_ok_iff, orFail_ok_iff, check_ok_iff, mapError_ok_iff,
    validateTxs_ok_iff, replayTotal_ok_iff]
  constructor
  · rintro ⟨_, hheight, _, hprev, _, hroot, idx, hpick, _, hidx, row, hrow, _, hsig, s₁, hrun,
      drained, hdrain, prodAcct, hacct, _, hdigest, hend⟩
    obtain rfl := Except.ok.inj hend
    rw [← hheight] at hpick hrun hdrain hdigest
    refine ⟨hheight, hprev, hroot, hidx ▸ hpick, ⟨row, hrow, hsig⟩, ⟨s₁, drained, prodAcct, hrun,
      hdrain, hacct, ?_⟩, hdigest, rfl⟩
    rw [sealerPay, hheight]
  · rintro ⟨hheight, hprev, hroot, hpick, ⟨row, hrow, hsig⟩, ⟨s₁, drained, prodAcct, hrun, hdrain,
      hacct, hend⟩, hdigest, -⟩
    obtain rfl : st' = _ := hend
    rw [← hheight]
    exact ⟨(), rfl, (), hprev, (), hroot, _, hpick, (), rfl, row, hrow, (), hsig, s₁, hrun, drained,
      hdrain, prodAcct, hacct, (), hdigest, rfl⟩

theorem replayBlock_ok_iff :
    replayBlock C cfg i prev st blk = .ok st' ↔
      BlockReaches C cfg (repairPay cfg) i (prev, st) blk (hdrHash C blk.hdr, st') := by
  simp only [replayBlock, except_bind_ok_iff, orFail_ok_iff, check_ok_iff, mapError_ok_iff,
    replayTxs_ok_iff, replayTotal_ok_iff]
  constructor
  · rintro ⟨_, ⟨hheight, hprev⟩, _, hroot, idx, hpick, _, hidx, row, hrow, _, hsig, s₁, hrun,
      drained, hdrain, prodAcct, hacct, _, hdigest, hend⟩
    obtain rfl := Except.ok.inj hend
    rw [← hheight] at hpick hrun hdrain
    exact ⟨hheight, hprev, hroot, hidx ▸ hpick, ⟨row, hrow, hsig⟩, ⟨s₁, drained, prodAcct, hrun,
      hdrain, hacct, rfl⟩, hdigest, rfl⟩
  · rintro ⟨hheight, hprev, hroot, hpick, ⟨row, hrow, hsig⟩, ⟨s₁, drained, prodAcct, hrun, hdrain,
      hacct, hend⟩, hdigest, -⟩
    obtain rfl : st' = _ := hend
    rw [← hheight]
    exact ⟨(), ⟨rfl, hprev⟩, (), hroot, _, hpick, (), rfl, row, hrow, (), hsig, s₁, hrun, drained,
      hdrain, prodAcct, hacct, (), hdigest, rfl⟩

end Blocks

/-! ## Lists of blocks -/

section Lists

variable {C : Crypto} {cfg : GenCfg} {snapshot : SnapshotData} {i : Nat} {prev : Bytes32}
  {st st' : State} {blks : List Block}

theorem validateBlocks_ok_iff :
    validateBlocks C cfg snapshot i prev st blks = .ok st' ↔
      ∃ last, Chained (BlockReaches C cfg (sealerPay cfg)) i (prev, st) blks (last, st') := by
  induction blks generalizing i prev st with
  | nil =>
      constructor
      · intro h
        obtain rfl := Except.ok.inj h
        exact ⟨prev, .nil _ _⟩
      · rintro ⟨_, h⟩
        cases h
        rfl
  | cons blk rest ih =>
      rw [validateBlocks, except_bind_ok_iff]
      constructor
      · rintro ⟨s₁, hblk, hrest⟩
        obtain ⟨last, hlast⟩ := ih.mp hrest
        exact ⟨last, .cons (validateBlock_ok_iff.mp hblk) hlast⟩
      · rintro ⟨last, h⟩
        cases h with
        | cons first rest =>
            rename_i p
            obtain ⟨h₁, s₁⟩ := p
            obtain rfl : h₁ = _ := first.next
            exact ⟨s₁, validateBlock_ok_iff.mpr first, ih.mpr ⟨last, rest⟩⟩

/-- No block that is reached makes the repair fail as a whole. -/
def Unfailing (C : Crypto) (cfg : GenCfg) (i : Nat) (p : Bytes32 × State) (blks : List Block) :
    Prop :=
  ∀ k p₁ blk, Chained (BlockReaches C cfg (repairPay cfg)) i p (blks.take k) p₁ →
    blks[k]? = some blk → ∀ f, replayBlock C cfg (i + k) p₁.1 p₁.2 blk ≠ .error (.fault f)

theorem Unfailing.tail {p p₁ : Bytes32 × State} {blk : Block}
    (h : Unfailing C cfg i p (blk :: blks))
    (first : BlockReaches C cfg (repairPay cfg) i p blk p₁) : Unfailing C cfg (i + 1) p₁ blks := by
  intro k p₂ b hchain hb f
  have hk := h (k + 1) p₂ b (.cons first hchain) hb f
  rwa [Nat.add_comm k, ← Nat.add_assoc] at hk

/-- The repair runs as many blocks as it can, and keeps the height of the last one. -/
theorem replayBlocks_longest {res : ReplayRes} (hfit : i + blks.length < 2 ^ 64)
    (hfail : Unfailing C cfg i (prev, res.state) blks) :
    ∃ n p res', replayBlocks C cfg (allOnes 64) i prev res blks = .ok res' ∧
      Longest (BlockReaches C cfg (repairPay cfg)) i (prev, res.state) blks n p ∧
      (n = 0 → res'.lastGoodH = res.lastGoodH ∧ res'.lastGoodHash = res.lastGoodHash) ∧
      (0 < n → res'.lastGoodH.toNat = i + n ∧ res'.lastGoodHash = hexEncode p.1) ∧
      (n = blks.length → res'.state = p.2) := by
  induction blks generalizing i prev res with
  | nil =>
      refine ⟨0, (prev, res.state), res, rfl, ⟨Nat.le_refl _, .nil _ _, ?_⟩, fun _ => ⟨rfl, rfl⟩,
        fun h => absurd h (Nat.lt_irrefl 0), fun _ => rfl⟩
      intro a s'' ha
      cases ha
  | cons blk rest ih =>
      rw [List.length_cons] at hfit
      have hlimit : ¬ allOnes 64 < BitVec.ofNat 64 (i + 1) := by
        rw [BitVec.lt_def, BitVec.toNat_allOnes, BitVec.toNat_ofNat]
        omega
      rw [replayBlocks]
      simp only [if_neg hlimit]
      cases hblk : replayBlock C cfg i prev res.state blk with
      | ok s₁ =>
          have first := replayBlock_ok_iff.mp hblk
          have hi : (BitVec.ofNat 64 (i + 1)).toNat = i + 1 := by
            rw [BitVec.toNat_ofNat]
            omega
          obtain ⟨n, p, res', hres, hlong, hzero, hpos, hstate⟩ := @ih (i + 1) (hdrHash C blk.hdr)
            ⟨BitVec.ofNat 64 (i + 1), hexEncode (hdrHash C blk.hdr), s₁⟩ (by omega)
            (hfail.tail first)
          refine ⟨n + 1, p, res', hres, hlong.cons first, fun h => absurd h (Nat.succ_ne_zero n),
            fun _ => ?_, fun hn => hstate (by simpa using hn)⟩
          rcases Nat.eq_zero_or_pos n with rfl | hn
          · have hp := hlong.chained
            rw [List.take_zero] at hp
            cases hp
            rw [(hzero rfl).1, (hzero rfl).2]
            exact ⟨hi, rfl⟩
          · obtain ⟨hheight, hhash⟩ := hpos hn
            exact ⟨by omega, hhash⟩
      | error stop =>
          cases stop with
          | fault f => exact absurd hblk (hfail 0 _ blk (.nil _ _) rfl f)
          | broke s₁ =>
              refine ⟨0, (prev, res.state), { res with state := s₁ }, rfl,
                ⟨Nat.zero_le _, .nil _ _, ?_⟩, fun _ => ⟨rfl, rfl⟩,
                fun h => absurd h (Nat.lt_irrefl 0), fun h => absurd h (Nat.succ_ne_zero _).symm⟩
              intro a p' ha hstep
              obtain rfl : blk = a := Option.some.inj ha
              obtain ⟨h₁, s₂⟩ := p'
              obtain rfl : h₁ = _ := hstep.next
              rw [Nat.add_zero] at hstep
              rw [replayBlock_ok_iff.mpr hstep] at hblk
              cases hblk

end Lists

/-! ## What a block leaves of the ledger -/

section Reaches

variable {C : Crypto} {cfg : GenCfg} {i : Nat} {p p' : Bytes32 × State} {blk : Block}
  {blks : List Block}

theorem forM_applyTxWithCtx_run {height ts : U64} {txs : List SignedTx} {s s' : State} {u : PUnit}
    (hok : (txs.forM fun tx => applyTxWithCtx C cfg tx height ts) s = .ok u s') :
    ∃ ls, Run (LedgerStep C cfg) s ls s' := by
  induction txs generalizing s with
  | nil =>
      obtain ⟨_, rfl⟩ := pure_ok_iff.mp hok
      exact ⟨_, .nil s⟩
  | cons tx rest ih =>
      obtain ⟨_, s₁, hfirst, hrest⟩ := bind_ok_iff.mp hok
      obtain ⟨ls, hls⟩ := ih hrest
      exact ⟨_, (Run.single (.applied hfirst)).append hls⟩

/-- A block is a run of the ledger. -/
theorem BlockReaches.run (h : BlockReaches C cfg (sealerPay cfg) i p blk p') :
    ∃ ls, Run (LedgerStep C cfg) p.2 ls p'.2 := by
  obtain ⟨st, drained, prodAcct, hrun, hdrain, _, hend⟩ := h.ends
  have hroll : LedgerStep C cfg p.2 .epoch (rollEpochIfNeeded cfg p.2 blk.hdr.height) :=
    .epoch p.2 _
  have hstart := (Run.single hroll).snoc (.refunded _ blk.hdr.height)
  obtain ⟨ls, hls⟩ := forM_applyTxWithCtx_run hrun
  have hrefund : LedgerStep C cfg st _ (st.refundExpLocks blk.hdr.height) := .refunded st _
  have hdrained := (Run.single hrefund).snoc (.drained hdrain)
  rw [hend]
  exact ⟨_, ((hstart.append hls).append hdrained).snoc (.rewarded drained prodAcct blk.hdr.height)⟩

theorem BlockReaches.activeIdxs (h : BlockReaches C cfg (sealerPay cfg) i p blk p') :
    p'.2.activeValidatorIndices =
      (rollEpochIfNeeded cfg p.2 blk.hdr.height).activeValidatorIndices := by
  obtain ⟨st, drained, prodAcct, hrun, hdrain, _, hend⟩ := h.ends
  have hepoch : p'.2.epoch = (rollEpochIfNeeded cfg p.2 blk.hdr.height).epoch := by
    rw [hend, sealerPay, rewardBlock_epoch, drainConservationAtHeight_epoch hdrain,
      refundExpLocks_epoch, forM_applyTxWithCtx_epoch hrun, refundExpLocks_epoch]
  exact congrArg Prod.snd hepoch

theorem chained_ownIds (hown : p.2.OwnIds C)
    (hchain : Chained (BlockReaches C cfg (sealerPay cfg)) i p blks p') : p'.2.OwnIds C := by
  induction hchain with
  | nil => exact hown
  | cons first _ ih =>
      obtain ⟨ls, hls⟩ := first.run
      exact ih (run_ownIds hown hls)

/-- The validators have rows, and some validator is active. -/
structure Staffed (cfg : GenCfg) (st : State) : Prop where
  rows : ∀ v ∈ cfg.vals.set, (st.accounts[v.acct]?).isSome
  active : st.activeValidatorIndices ≠ []

theorem Staffed.roll {st : State} (h : Staffed cfg st) (hmin : cfg.minValidatorStake = 0#128)
    (hset : cfg.vals.set ≠ []) (height : U64) :
    (rollEpochIfNeeded cfg st height).activeValidatorIndices ≠ [] := by
  unfold rollEpochIfNeeded
  split
  · exact recomputeActiveIdxs_ne_nil hmin hset h.rows
  · exact h.active

theorem chained_staffed (hmin : cfg.minValidatorStake = 0#128) (hset : cfg.vals.set ≠ [])
    (hstaffed : Staffed cfg p.2)
    (hchain : Chained (BlockReaches C cfg (sealerPay cfg)) i p blks p') : Staffed cfg p'.2 := by
  induction hchain with
  | nil => exact hstaffed
  | cons first _ ih =>
      obtain ⟨ls, hls⟩ := first.run
      refine ih ⟨fun v hv => run_isSome hls (hstaffed.rows v hv), ?_⟩
      rw [first.activeIdxs]
      exact hstaffed.roll hmin hset _

end Reaches

/-! ## The validator -/

section Validator

variable {C : Crypto} {cfg : GenCfg} {snapshot : SnapshotData}

theorem validateSnapshotStateAccounts_ok_iff :
    validateSnapshotStateAccounts C snapshot = .ok () ↔ snapshot.state.OwnIds C := by
  have hfind : (snapshot.state.accounts.toList.find? fun p => p.2.initialized &&
      decide (accountIdFromParts C p.2.signingPubkey p.2.derivationIndex ≠ p.1)) = none ↔
        snapshot.state.OwnIds C := by
    rw [List.find?_eq_none]
    constructor
    · intro hall id a ha hinit
      have hmem := Std.ExtTreeMap.mem_toList_iff_getElem?_eq_some.mpr ha
      have hp := hall _ hmem
      simpa [hinit] using hp
    · rintro hown ⟨id, a⟩ hmem
      have ha := Std.ExtTreeMap.mem_toList_iff_getElem?_eq_some.mp hmem
      have hrow := hown id a ha
      rw [OwnKey] at hrow
      simpa using hrow
  rw [← hfind, validateSnapshotStateAccounts]
  split
  · rename_i hsome
    rw [hsome]
    exact ⟨(nomatch ·), (nomatch ·)⟩
  · rename_i hnone
    rw [hnone]
    exact iff_of_true rfl rfl

/-- The version and the genesis rows of the snapshot are those of the configuration. -/
structure GoodEnvelope (cfg : GenCfg) (snapshot : SnapshotData) : Prop where
  version : snapshot.version = snapshotVersion
  genesisAccounts : snapshot.genesisAccounts = snapshotGenesisAccounts cfg

theorem validateEnvelope_ok (hset : cfg.vals.set ≠ []) (henv : GoodEnvelope cfg snapshot)
    (hfit : snapshot.blocks.length < 2 ^ 64) : validateEnvelope cfg snapshot = .ok () := by
  have hmatch : ((snapshot.genesisAccounts.zip (snapshotGenesisAccounts cfg)).findIdx? fun p =>
      decide (p.1 ≠ p.2)) = none := by
    rw [henv.genesisAccounts, List.findIdx?_eq_none_iff]
    intro p hmem
    obtain ⟨k, hk, rfl⟩ := List.mem_iff_getElem.mp hmem
    rw [List.getElem_zip]
    exact decide_eq_false (not_not.mpr rfl)
  have hlen : snapshot.blocks.length ≤ (allOnes 64).toNat := by
    rw [BitVec.toNat_allOnes]
    omega
  simp only [validateEnvelope, except_bind_ok_iff, check_ok_iff]
  exact ⟨(), hset, (), henv.version, (), hlen, (), by rw [henv.genesisAccounts], by rw [hmatch]⟩

theorem validateTip_ok {blks : List Block} {last : Block} {p p' : Bytes32 × State}
    (hblocks : snapshot.blocks = blks ++ [last])
    (hstep : BlockReaches C cfg (sealerPay cfg) blks.length p last p')
    (hstate : snapshot.state = p'.2) : validateTip C cfg snapshot p'.2 = .ok () := by
  have hlast : snapshot.blocks.getLast? = some last := by
    rw [hblocks, List.getLast?_concat]
  have hlen : snapshot.blocks.length = blks.length + 1 := by
    rw [hblocks, List.length_append, List.length_singleton]
  unfold validateTip
  rw [hlast]
  simp only [except_bind_ok_iff, check_ok_iff]
  refine ⟨(), ?_, (), ?_, ?_⟩
  · rw [hlen]
    exact hstep.height
  · rw [hstate]
    exact hstep.stateRoot
  · rw [hstate]

/-- A list with a block is accepted when its blocks run; its state is the one they lead to. -/
theorem validateSnapshot_of_chained {p : Bytes32 × State} (hset : cfg.vals.set ≠ [])
    (henv : GoodEnvelope cfg snapshot) (hown : cfg.state0.OwnIds C)
    (hfit : snapshot.blocks.length < 2 ^ 64) (hne : snapshot.blocks ≠ [])
    (hstate : snapshot.blocksStored = .inline → snapshot.state = p.2)
    (hchain : Chained (BlockReaches C cfg (sealerPay cfg)) 0 (replayOrigin C cfg) snapshot.blocks
      p) :
    validateSnapshot C cfg snapshot = .ok { snapshot with state := p.2 } := by
  have hstart : (replayOrigin C cfg).2.OwnIds C := hown
  have haccounts := validateSnapshotStateAccounts_ok_iff.mpr
    (show ({ snapshot with state := p.2 } : SnapshotData).state.OwnIds C from
      chained_ownIds hstart hchain)
  obtain ⟨blks, blk, hsplit⟩ : ∃ blks blk, snapshot.blocks = blks ++ [blk] :=
    ⟨_, _, (List.dropLast_concat_getLast hne).symm⟩
  have hlast := hchain
  rw [hsplit] at hlast
  obtain ⟨p₁, -, hstep⟩ := hlast.last
  rw [Nat.zero_add] at hstep
  have htip : validateTip C cfg { snapshot with state := p.2 } p.2 = .ok () :=
    validateTip_ok hsplit hstep rfl
  have hblocks : ∀ snap : SnapshotData, validateBlocks C cfg snap 0 (prevGen C) (replayStart cfg)
      snapshot.blocks = .ok p.2 := fun snap => validateBlocks_ok_iff.mpr ⟨p.1, hchain⟩
  simp only [validateSnapshot, except_bind_ok_iff]
  refine ⟨(), validateEnvelope_ok hset henv hfit, p.2, ?_⟩
  cases hstored : snapshot.blocksStored with
  | epochs =>
      exact ⟨hblocks _, (), by simpa only [hstored] using haccounts, (),
        by simpa only [hstored] using htip, rfl⟩
  | inline =>
      have hsame : snapshot = { snapshot with state := p.2 } := by rw [← hstate hstored]
      simp only [hstored]
      exact ⟨hblocks _, (), (congrArg (validateSnapshotStateAccounts C) hsame).trans haccounts, (),
        (congrArg (validateTip C cfg · p.2) hsame).trans htip, by rw [← hstate hstored, ← hstored]⟩

/-- What is accepted has blocks that run. -/
theorem chained_of_validateSnapshot {snapshot' : SnapshotData}
    (hok : validateSnapshot C cfg snapshot = .ok snapshot') :
    ∃ p, Chained (BlockReaches C cfg (sealerPay cfg)) 0 (replayOrigin C cfg) snapshot.blocks p := by
  simp only [validateSnapshot, except_bind_ok_iff] at hok
  obtain ⟨_, _, st, hblocks, -⟩ := hok
  obtain ⟨last, hchain⟩ := validateBlocks_ok_iff.mp hblocks
  refine ⟨(last, st), ?_⟩
  cases hstored : snapshot.blocksStored with
  | epochs =>
      rw [hstored] at hchain
      exact hchain
  | inline =>
      rw [hstored] at hchain
      exact hchain

end Validator

/-! ## The pay of the two engines -/

/-- Under a later policy, a producer with the stake gets the same from the block reward at the
season's rate as from the emission of the height. -/
def PaidAlike (cfg : GenCfg) (hdr : BlockHdr) (st : State) (prodAcct : AccountId) : Prop :=
  cfg.isLegacyPolicy = true ∨ ∀ acc, st.accounts[prodAcct]? = some acc →
    cfg.pwmStakeMin ≤ acc.stakedPwmRaw →
    acc.balancePwm.saturatingAdd (cfg.blockReward.saturatingMul (cfg.seasonPpm hdr.ts) / ppmDenom) =
      acc.balancePwm.saturatingAdd
        ((computeBlockReward cfg hdr.height).saturatingMul 1000000#128 / ppmDenom)

section Pay

variable {C : Crypto} {cfg : GenCfg} {i : Nat} {p : Bytes32 × State} {blks : List Block}

/-- Two updates of a row agree exactly when they agree on the row there is. -/
theorem modify_eq_modify_iff {m : AccountMap} {id : AccountId} {f g : Account → Account} :
    m.modify id f = m.modify id g ↔ ∀ a, m[id]? = some a → f a = g a := by
  constructor
  · intro h a ha
    have hrow := congrArg (·[id]?) h
    simpa [Std.ExtTreeMap.getElem?_modify_self, ha] using hrow
  · intro h
    apply Std.ExtTreeMap.ext_getElem?
    intro j
    rw [Std.ExtTreeMap.getElem?_modify, Std.ExtTreeMap.getElem?_modify]
    split
    · cases hrow : m[id]? with
      | none => rfl
      | some a => rw [Option.map_some, Option.map_some, h a hrow]
    · rfl

theorem repairPay_eq_iff {hdr : BlockHdr} {st : State} {prodAcct : AccountId} :
    repairPay cfg st prodAcct hdr = sealerPay cfg st prodAcct hdr ↔
      PaidAlike cfg hdr st prodAcct := by
  unfold repairPay sealerPay repairReward rewardBlock PaidAlike
  by_cases hlegacy : cfg.isLegacyPolicy = true
  · simp [hlegacy]
  · simp only [hlegacy, Bool.false_eq_true, if_false, false_or, State.rewardProducerV2,
      State.mk.injEq, and_true, modify_eq_modify_iff]
    refine forall_congr' fun acc => forall_congr' fun hacc => ?_
    by_cases hstake : acc.stakedPwmRaw < cfg.pwmStakeMin
    · have hnot : ¬ cfg.pwmStakeMin ≤ acc.stakedPwmRaw := BitVec.not_le.mpr hstake
      simp [hstake, hnot]
    · have hle : cfg.pwmStakeMin ≤ acc.stakedPwmRaw := BitVec.not_lt.mp hstake
      simp [hstake, hle]

/-- The ledger that the producer of a block is paid on. -/
def PaysOn (C : Crypto) (cfg : GenCfg) (blk : Block) (st drained : State) : Prop :=
  ∃ s₁, (blk.txs.forM fun tx => applyTxWithCtx C cfg tx blk.hdr.height blk.hdr.ts)
      ((rollEpochIfNeeded cfg st blk.hdr.height).refundExpLocks blk.hdr.height) = .ok () s₁ ∧
    drainConservationAtHeight cfg blk.hdr.height (s₁.refundExpLocks blk.hdr.height) =
      .ok () drained

/-- At every block that is reached both engines pay the producer alike. -/
def PaysAlike (C : Crypto) (cfg : GenCfg) (i : Nat) (p : Bytes32 × State) (blks : List Block) :
    Prop :=
  ∀ k p₁ blk, Chained (BlockReaches C cfg (sealerPay cfg)) i p (blks.take k) p₁ →
    blks[k]? = some blk → ∀ drained prodAcct, PaysOn C cfg blk p₁.2 drained →
      cfg.prodAcct blk.hdr.prodIdx = some prodAcct → PaidAlike cfg blk.hdr drained prodAcct

theorem BlockReaches.of_pay {pay pay' : State → AccountId → BlockHdr → State} {blk : Block}
    {p' : Bytes32 × State} (h : BlockReaches C cfg pay i p blk p')
    (hpay : ∀ drained prodAcct, PaysOn C cfg blk p.2 drained →
      cfg.prodAcct blk.hdr.prodIdx = some prodAcct →
      pay drained prodAcct blk.hdr = pay' drained prodAcct blk.hdr) :
    BlockReaches C cfg pay' i p blk p' := by
  obtain ⟨st, drained, prodAcct, hrun, hdrain, hacct, hend⟩ := h.ends
  refine ⟨h.height, h.prevHash, h.txRoot, h.prodIdx, h.sig, ⟨st, drained, prodAcct, hrun, hdrain,
    hacct, ?_⟩, h.stateRoot, h.next⟩
  rw [hend, hpay drained prodAcct ⟨st, hrun, hdrain⟩ hacct]

/-- Where the pay is alike the repair runs a block as the sealer does. -/
theorem PaysAlike.agree (h : PaysAlike C cfg i p blks) :
    AgreeAlong (BlockReaches C cfg (sealerPay cfg)) (BlockReaches C cfg (repairPay cfg)) i p
      blks := by
  intro k p₁ blk hchain hblk p₂
  have hpay : ∀ drained prodAcct, PaysOn C cfg blk p₁.2 drained →
      cfg.prodAcct blk.hdr.prodIdx = some prodAcct →
      repairPay cfg drained prodAcct blk.hdr = sealerPay cfg drained prodAcct blk.hdr :=
    fun drained prodAcct hon hacct =>
      repairPay_eq_iff.mpr (h k p₁ blk hchain hblk drained prodAcct hon hacct)
  constructor
  · exact fun hstep => hstep.of_pay fun drained prodAcct hon hacct =>
      (hpay drained prodAcct hon hacct).symm
  · exact fun hstep => hstep.of_pay hpay

end Pay

/-! ## When the repair fails as a whole -/

section Faults

variable {C : Crypto} {cfg : GenCfg} {i : Nat} {prev : Bytes32} {st : State} {blk : Block}

/-- The transactions and the drain of a block do not panic. -/
def PanicFree (C : Crypto) (cfg : GenCfg) (st : State) (blk : Block) : Prop :=
  (∀ s', (blk.txs.forM fun tx => applyTxWithCtx C cfg tx blk.hdr.height blk.hdr.ts)
      ((rollEpochIfNeeded cfg st blk.hdr.height).refundExpLocks blk.hdr.height) ≠
        .error .panic s') ∧
    ∀ s₁ s', (blk.txs.forM fun tx => applyTxWithCtx C cfg tx blk.hdr.height blk.hdr.ts)
        ((rollEpochIfNeeded cfg st blk.hdr.height).refundExpLocks blk.hdr.height) = .ok () s₁ →
      drainConservationAtHeight cfg blk.hdr.height (s₁.refundExpLocks blk.hdr.height) ≠
        .error .panic s'

theorem prodAcct_isSome (hset : cfg.vals.set ≠ []) (prodIdx : U32) :
    ∃ prodAcct, cfg.prodAcct prodIdx = some prodAcct := by
  have hlt : prodIdx.toNat % cfg.vals.set.length < cfg.vals.set.length :=
    Nat.mod_lt _ (List.length_pos_iff.mpr hset)
  unfold GenCfg.prodAcct
  cases cfg.rew with
  | toProducerAccount =>
      rw [List.getElem?_eq_getElem hlt]
      exact ⟨_, rfl⟩

/-- With an active validator and without a panic a block is run or ends the replay. -/
theorem replayBlock_ne_fault (hset : cfg.vals.set ≠ [])
    (hactive : (rollEpochIfNeeded cfg st (BitVec.ofNat 64 (i + 1))).activeValidatorIndices ≠ [])
    (hfree : PanicFree C cfg st blk) (f : SnapFault) :
    replayBlock C cfg i prev st blk ≠ .error (.fault f) := by
  intro hfault
  simp only [replayBlock, except_bind_error_iff, orFail_error_iff, check_error_iff,
    check_ok_iff, orFail_ok_iff, mapError_error_iff, mapError_ok_iff, reduceCtorEq, and_false,
    false_or, exists_false, or_false] at hfault
  obtain ⟨_, ⟨hheight, -⟩, _, -, hcase⟩ := hfault
  rw [← hheight] at hactive hcase
  obtain ⟨d, hpick, -⟩ | ⟨_, -, _, -, row, -, _, -, hcase⟩ := hcase
  · obtain ⟨idx, -, hok⟩ := pickProdIdx_of_active blk.hdr.height hactive
    rw [hok] at hpick
    cases hpick
  obtain htxs | ⟨s₁, htxs, hcase⟩ := hcase
  · cases hrun : (blk.txs.forM fun tx => applyTxWithCtx C cfg tx blk.hdr.height blk.hdr.ts)
        ((rollEpochIfNeeded cfg st blk.hdr.height).refundExpLocks blk.hdr.height) with
    | ok _ s₁ =>
        rw [hrun] at htxs
        cases htxs
    | error e s' =>
        rw [hrun] at htxs
        cases e with
        | err e => cases htxs
        | panic => exact hfree.1 s' hrun
  rw [replayTxs_ok_iff] at htxs
  obtain ⟨d, hdrain, -⟩ | ⟨_, -, hnone, -⟩ := hcase
  · cases hrun : drainConservationAtHeight cfg blk.hdr.height
        (s₁.refundExpLocks blk.hdr.height) with
    | ok _ drained =>
        rw [hrun] at hdrain
        cases hdrain
    | error e s' =>
        cases e with
        | err e => exact neverFails_drain _ _ s' hrun ⟨e, rfl⟩
        | panic => exact hfree.2 s₁ s' htxs hrun
  · obtain ⟨prodAcct, hsome⟩ := prodAcct_isSome hset blk.hdr.prodIdx
    rw [hnone] at hsome
    cases hsome

end Faults

end Pwm
