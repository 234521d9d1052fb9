import Pwm.Lib.Run
import Pwm.Node.Admission

/-!
# The active validators

The list of active indices is computed from the stakes at genesis and again at
every epoch boundary, with each place of the validator set cut down to 16 bits.
While there are no more validators than that, the list is strictly increasing
and points into the set, on the chains of proposers and replicas alike, and the
producers of their blocks are taken from it.
-/

namespace Pwm

/-! ## Well-formed lists -/

/-- Strictly increasing indices of validators. -/
structure ActiveSet (cfg : GenCfg) (activeIdxs : List U16) : Prop where
  increasing : activeIdxs.Pairwise (· < ·)
  inSet : ∀ idx ∈ activeIdxs, idx.toNat < cfg.vals.set.length

section Recompute

variable {cfg : GenCfg} {s : State}

/-- An index comes from the place of its validator. -/
theorem recomputed_idx {row : VRow} {i : Nat} {idx : U16}
    (h : (match s.accounts[row.acct]? with
      | none => none
      | some acc =>
          if cfg.minValidatorStake ≤ acc.stakedPwmRaw then some (BitVec.ofNat 16 i) else none) =
        some idx) : idx = BitVec.ofNat 16 i := by
  cases hrow : s.accounts[row.acct]? with
  | none => simp [hrow] at h
  | some acc =>
      simp only [hrow, Option.ite_none_right_eq_some, Option.some.injEq] at h
      exact h.2.symm

theorem recomputeActiveIdxs_increasing (hsize : cfg.vals.set.length ≤ 2 ^ 16) (s : State) :
    (recomputeActiveIdxs cfg s).Pairwise (· < ·) := by
  have hplaces : cfg.vals.set.zipIdx.Pairwise fun p q => p.2 < q.2 := by
    rw [← List.pairwise_map, List.zipIdx_map_snd]
    exact List.pairwise_lt_range' 1
  rw [recomputeActiveIdxs, List.pairwise_filterMap]
  refine hplaces.imp_of_mem ?_
  rintro ⟨row, i⟩ ⟨row', j⟩ hi hj hlt a ha b hb
  obtain rfl := recomputed_idx ha
  obtain rfl := recomputed_idx hb
  -- both places fit into 16 bits, so the cut changes neither of them
  have hi' : i < 2 ^ 16 := (List.mem_zipIdx' hi).1.trans_le hsize
  have hj' : j < 2 ^ 16 := (List.mem_zipIdx' hj).1.trans_le hsize
  rw [BitVec.lt_def, BitVec.toNat_ofNat, BitVec.toNat_ofNat, Nat.mod_eq_of_lt hi',
    Nat.mod_eq_of_lt hj']
  exact hlt

theorem recomputeActiveIdxs_activeSet (hsize : cfg.vals.set.length ≤ 2 ^ 16) (s : State) :
    ActiveSet cfg (recomputeActiveIdxs cfg s) :=
  ⟨recomputeActiveIdxs_increasing hsize s, fun _ hidx => (mem_recomputeActiveIdxs hidx).1⟩

/-- The roll at a height leaves the set as it is, or computes it again. -/
theorem ActiveSet.roll (hsize : cfg.vals.set.length ≤ 2 ^ 16)
    (h : ActiveSet cfg s.activeValidatorIndices) (height : U64) :
    ActiveSet cfg (rollEpochIfNeeded cfg s height).activeValidatorIndices := by
  unfold rollEpochIfNeeded
  split
  · exact recomputeActiveIdxs_activeSet hsize s
  · exact h

theorem pickProdIdx_mem {height : U64} {activeIdxs : List U16} {prodIdx : U32}
    (h : pickProdIdx height activeIdxs = .ok prodIdx) :
    ∃ idx ∈ activeIdxs, prodIdx = idx.setWidth 32 := by
  unfold pickProdIdx at h
  cases hidx : activeIdxs[height.toNat % activeIdxs.length]? with
  | none => simp [hidx] at h
  | some idx =>
      simp only [hidx, Except.ok.injEq] at h
      exact ⟨idx, List.mem_of_getElem? hidx, h.symm⟩

end Recompute

/-! ## Blocks of proposers and replicas -/

/-- A chain takes up a block: one that its node seals, or one that it applies as a replica. -/
inductive BlockStep (C : Crypto) : Chain → Block → Chain → Prop
  | sealed {now : U64} {ch ch' : Chain} {entries : List SealEntry} {blk : Block}
      (hok : sealEntries C now ch entries = .ok ch') (hblk : ch'.blocks.getLast? = some blk) :
      BlockStep C ch blk ch'
  | applied {inn inn' : Inner} {blk : Block} (hok : applyBlk C inn blk = .ok inn') :
      BlockStep C inn.chain blk inn'.chain

/-- What a block does to the active set: it may change at an epoch boundary only, and has the
producer of the block. -/
structure Rotates (ch : Chain) (blk : Block) (ch' : Chain) : Prop where
  cfg : ch'.cfg = ch.cfg
  height : ch'.tipH = blk.hdr.height
  boundary : ch'.st.activeValidatorIndices ≠ ch.st.activeValidatorIndices →
    isEpochBoundary blk.hdr.height ch.cfg
  producer : ∃ idx ∈ ch'.st.activeValidatorIndices, blk.hdr.prodIdx = idx.setWidth 32

section Steps

variable {C : Crypto} {ch ch' ch₀ : Chain} {blk : Block} {cfg : GenCfg} {valSks : List SigningKey}
  {blks : List Block}

/-- A block leads to the active set of the roll at its height, and its producer is picked there. -/
theorem blockStep_spec (hstep : BlockStep C ch blk ch') :
    ch'.cfg = ch.cfg ∧ ch'.tipH = blk.hdr.height ∧
      ch'.st.activeValidatorIndices =
        (rollEpochIfNeeded ch.cfg ch.st blk.hdr.height).activeValidatorIndices ∧
      pickProdIdx blk.hdr.height ch'.st.activeValidatorIndices = .ok blk.hdr.prodIdx := by
  cases hstep with
  | sealed hok hblk =>
      obtain ⟨height, ts, prodIdx, sk, st, st', hctx, hpick, hrun, hends, hsk, rfl⟩ :=
        sealEntries_ok hok
      obtain rfl := Option.some.inj ((Chain.append_getLast? _ _ _).symm.trans hblk)
      have hepoch : st'.epoch = (ch.beforeTxs height).epoch := by
        rw [hends.epoch, forM_applyEntry_epoch hrun]
      have hactive : st'.activeValidatorIndices = (ch.beforeTxs height).activeValidatorIndices :=
        congrArg Prod.snd hepoch
      refine ⟨Chain.append_cfg _ _ _, rfl, ?_, ?_⟩
      · exact hactive.trans (beforeTxs_activeIdxs ch height)
      · rw [Chain.append_st, hactive]
        exact hpick
  | applied hok =>
      obtain ⟨st', hreplays, hchain⟩ := applyBlk_chain hok
      have hactive : st'.activeValidatorIndices =
          (rollEpochIfNeeded _ _ blk.hdr.height).activeValidatorIndices :=
        congrArg Prod.snd hreplays.epoch
      rw [hchain]
      refine ⟨Chain.append_cfg _ _ _, rfl, hactive, ?_⟩
      rw [Chain.append_st, hactive, ← beforeTxs_activeIdxs]
      exact hreplays.prodIdx

theorem BlockStep.rotates (hstep : BlockStep C ch blk ch') : Rotates ch blk ch' := by
  obtain ⟨hcfg, htip, hactive, hpick⟩ := blockStep_spec hstep
  refine ⟨hcfg, htip, fun hne => ?_, pickProdIdx_mem hpick⟩
  by_contra hinside
  rw [rollEpochIfNeeded, if_neg hinside] at hactive
  exact hne hactive

theorem BlockStep.activeSet (hsize : ch.cfg.vals.set.length ≤ 2 ^ 16)
    (h : ActiveSet ch.cfg ch.st.activeValidatorIndices) (hstep : BlockStep C ch blk ch') :
    ActiveSet ch'.cfg ch'.st.activeValidatorIndices := by
  obtain ⟨hcfg, -, hactive, -⟩ := blockStep_spec hstep
  rw [hcfg, hactive]
  exact h.roll hsize blk.hdr.height

theorem boot_activeSet (hsize : cfg.vals.set.length ≤ 2 ^ 16)
    (hboot : Chain.boot cfg valSks = some ch₀) :
    ch₀.cfg = cfg ∧ ActiveSet cfg ch₀.st.activeValidatorIndices := by
  simp only [Chain.boot, Option.ite_none_right_eq_some, Option.some.injEq] at hboot
  obtain ⟨-, rfl⟩ := hboot
  exact ⟨rfl, recomputeActiveIdxs_activeSet hsize _⟩

theorem run_activeSet (hsize : cfg.vals.set.length ≤ 2 ^ 16)
    (hboot : Chain.boot cfg valSks = some ch₀) (hrun : Run (BlockStep C) ch₀ blks ch) :
    ch.cfg = cfg ∧ ActiveSet cfg ch.st.activeValidatorIndices := by
  refine hrun.invariant (I := fun ch => ch.cfg = cfg ∧ ActiveSet cfg ch.st.activeValidatorIndices)
    ?_ (boot_activeSet hsize hboot)
  rintro ch blk ch' ⟨rfl, hactive⟩ hstep
  obtain ⟨hcfg, -⟩ := blockStep_spec hstep
  refine ⟨hcfg, ?_⟩
  have hactive' := hstep.activeSet hsize hactive
  rwa [hcfg] at hactive'

/-- On every chain of sealed and applied blocks the active indices are strictly increasing and point
into the validator set; the next block changes them at an epoch boundary only and has its producer
among them. -/
theorem validatorSet_wellFormed (hsize : cfg.vals.set.length ≤ 65536)
    (hboot : Chain.boot cfg valSks = some ch₀) (hrun : Run (BlockStep C) ch₀ blks ch) :
    ch.cfg = cfg ∧ ActiveSet cfg ch.st.activeValidatorIndices ∧
      ∀ blk ch', BlockStep C ch blk ch' → Rotates ch blk ch' := by
  obtain ⟨hcfg, hactive⟩ := run_activeSet hsize hboot hrun
  exact ⟨hcfg, hactive, fun _ _ hstep => hstep.rotates⟩

end Steps

/-- One block after genesis. -/
theorem validatorSet_afterExport :
    (RefundDue.sealed RefundDue.start [RefundDue.exportTx]).cfg = RefundDue.net ∧
      ActiveSet RefundDue.net (RefundDue.sealed RefundDue.start
        [RefundDue.exportTx]).st.activeValidatorIndices ∧
      ∀ blk ch', BlockStep RefundDue.crypto
        (RefundDue.sealed RefundDue.start [RefundDue.exportTx]) blk ch' →
          Rotates (RefundDue.sealed RefundDue.start [RefundDue.exportTx]) blk ch' := by
  have hboot : Chain.boot RefundDue.net [devNetSk] = some RefundDue.start := by decide
  have hsealed : Chain.seal RefundDue.crypto PolicyRace.now RefundDue.start [RefundDue.exportTx] =
      .ok (RefundDue.sealed RefundDue.start [RefundDue.exportTx]) := by
    decide +kernel
  obtain ⟨blk, hblk⟩ : ∃ blk, (RefundDue.sealed RefundDue.start
      [RefundDue.exportTx]).blocks.getLast? = some blk :=
    Option.isSome_iff_exists.mp (by decide +kernel)
  exact validatorSet_wellFormed (by decide) hboot (Run.single (.sealed hsealed hblk))

end Pwm
