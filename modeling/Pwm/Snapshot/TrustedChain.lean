import Pwm.Snapshot.StoredChain
import Pwm.Snapshot.TrustedLoad

/-!
# Chains that load as trusted

Genesis stakes nothing, so on a chain that seals every validator is active in
every epoch and the tip's active set names the producer of every block. What a
run of seals leaves for the trusted load: links, producers and signatures of
all its blocks.
-/

namespace Pwm

open BitVec Attempt

/-! ## Everyone is active -/

/-- The indices of all validators. -/
def allIdxs (cfg : GenCfg) : List U16 :=
  (List.range cfg.vals.set.length).map (BitVec.ofNat 16)

section Everyone

variable {cfg : GenCfg} {st : State} {ch : Chain}

/-- Without a minimum stake the validators with rows are active, whatever they stake. -/
theorem recomputeActiveIdxs_all (hmin : cfg.minValidatorStake = 0#128)
    (hrows : ∀ v ∈ cfg.vals.set, (st.accounts[v.acct]?).isSome) :
    recomputeActiveIdxs cfg st = allIdxs cfg := by
  calc recomputeActiveIdxs cfg st
      = cfg.vals.set.zipIdx.filterMap (some ∘ fun p : VRow × Nat => BitVec.ofNat 16 p.2) := by
        refine List.filterMap_congr ?_
        rintro ⟨v, i⟩ hmem
        have hv : v ∈ cfg.vals.set := (List.mem_zipIdx' hmem).2 ▸ List.getElem_mem _
        obtain ⟨acc, hacc⟩ := Option.isSome_iff_exists.mp (hrows v hv)
        have hle : cfg.minValidatorStake ≤ acc.stakedPwmRaw := by
          rw [hmin]
          exact Nat.zero_le _
        simp only [hacc, if_pos hle, Function.comp_apply]
    _ = (cfg.vals.set.zipIdx.map Prod.snd).map (BitVec.ofNat 16) := by
        rw [List.filterMap_eq_map, List.map_map]
        rfl
    _ = allIdxs cfg := by rw [List.zipIdx_map_snd, allIdxs, List.range_eq_range']

/-- The chain can go on and everyone is active. -/
structure AllActive (ch : Chain) : Prop where
  ready : SealReady ch
  active : ch.st.activeValidatorIndices = allIdxs ch.cfg

theorem AllActive.roll (h : AllActive ch) (height : U64) :
    (rollEpochIfNeeded ch.cfg ch.st height).activeValidatorIndices = allIdxs ch.cfg := by
  unfold rollEpochIfNeeded
  split
  · exact recomputeActiveIdxs_all h.ready.noMinimum h.ready.rows
  · exact h.active

end Everyone

/-! ## What a run of seals leaves -/

/-- A seal: the clock, its entries and the block. -/
structure SealAct where
  now : U64
  entries : List SealEntry
  blk : Block

def SealActStep (C : Crypto) (ch : Chain) (act : SealAct) (ch' : Chain) : Prop :=
  sealEntries C act.now ch act.entries = .ok ch' ∧ ch'.blocks.getLast? = some act.blk

/-- The hash that the block at a place goes on from. -/
def prevHashAt (C : Crypto) (bs : List Block) : Nat → Bytes32
  | 0 => prevGen C
  | i + 1 => (bs[i]?).elim 0#256 fun b => hdrHash C b.hdr

/-- A block at its place in a sealed chain. -/
structure SealedAt (C : Crypto) (cfg : GenCfg) (bs : List Block) (i : Nat) (blk : Block) : Prop where
  height : blk.hdr.height.toNat = i + 1
  prevHash : blk.hdr.prevHash = prevHashAt C bs i
  txRoot : blk.hdr.txRoot = txsRoot C blk.txs
  prodIdx : pickProdIdx blk.hdr.height (allIdxs cfg) = .ok blk.hdr.prodIdx
  sig : ∃ row, cfg.vals.set[blk.hdr.prodIdx.toNat]? = some row ∧
    blk.hdr.verifySig C row.pubkey = true

/-- The blocks that led to this chain. -/
structure HonestChain (C : Crypto) (cfg : GenCfg) (valSks : List SigningKey) (bs : List Block)
    (ch : Chain) : Prop where
  cfg_eq : ch.cfg = cfg
  valSks_eq : ch.valSks = valSks
  tipH_eq : ch.tipH.toNat = bs.length
  tipHash_eq : ch.tipHash C = prevHashAt C bs bs.length
  blocks_eq : ch.blocks = bs.drop (bs.length - tailBlockCap)
  allActive : bs ≠ [] → AllActive ch
  linked : ∀ i blk, bs[i]? = some blk → SealedAt C cfg bs i blk
  root : ∀ blk, bs.getLast? = some blk → blk.hdr.stateRoot = digest C ch.st

section Runs

variable {C : Crypto} {cfg : GenCfg} {valSks : List SigningKey} {ch₀ ch ch' : Chain}
  {bs : List Block} {act : SealAct} {acts : List SealAct}

theorem prevHashAt_append (bs cs : List Block) {i : Nat} (hi : i ≤ bs.length) :
    prevHashAt C (bs ++ cs) i = prevHashAt C bs i := by
  cases i with
  | zero => rfl
  | succ i => rw [prevHashAt, prevHashAt, List.getElem?_append_left hi]

theorem prevHashAt_concat (bs : List Block) (b : Block) :
    prevHashAt C (bs ++ [b]) (bs ++ [b]).length = hdrHash C b.hdr := by
  rw [List.length_append, List.length_singleton, prevHashAt, List.getElem?_concat_length,
    Option.elim_some]

theorem SealedAt.append {i : Nat} {blk : Block} (h : SealedAt C cfg bs i blk) (hi : i ≤ bs.length)
    (cs : List Block) : SealedAt C cfg (bs ++ cs) i blk where
  height := h.height
  prevHash := by rw [prevHashAt_append bs cs hi, h.prevHash]
  txRoot := h.txRoot
  prodIdx := h.prodIdx
  sig := h.sig

theorem HonestChain.step (h : HonestChain C cfg valSks bs ch) (hactive : AllActive ch)
    (hkeys : KeysMatch C ch) (hsigns : ∀ sk ∈ valSks, C.SignsVerify sk)
    (hstep : SealActStep C ch act ch') : HonestChain C cfg valSks (bs ++ [act.blk]) ch' := by
  obtain ⟨hok, hlast⟩ := hstep
  have htip := sealEntries_tipH hok
  obtain ⟨height, ts, prodIdx, sk, st, st', hctx, hpick, hrun, hends, hsk, rfl⟩ := sealEntries_ok hok
  obtain ⟨row, hrow, hpk⟩ := hkeys _ _ hsk
  rw [Chain.append_getLast?] at hlast
  obtain hblk := Option.some.inj hlast
  have hheight : height.toNat = bs.length + 1 := by
    rw [Chain.append_tipH] at htip
    exact htip.trans (congrArg (· + 1) h.tipH_eq)
  rw [beforeTxs_activeIdxs, hactive.roll, h.cfg_eq] at hpick
  have hsealed : SealedAt C cfg (bs ++ [act.blk]) bs.length act.blk := by
    rw [← hblk]
    refine ⟨hheight, ?_, rfl, hpick, row, h.cfg_eq ▸ hrow, ?_⟩
    · rw [prevHashAt_append bs _ (Nat.le_refl _), ← h.tipHash_eq]
      rfl
    · rw [hpk]
      exact BlockHdr.verifySig_signWith C _ (hsigns sk (h.valSks_eq ▸ List.mem_of_getElem? hsk))
  refine ⟨?_, ?_, ?_, ?_, ?_, fun _ => ⟨hactive.ready.step hok, ?_⟩, ?_, ?_⟩
  · rw [Chain.append_cfg, h.cfg_eq]
  · rw [Chain.append_valSks, h.valSks_eq]
  · rw [htip, h.tipH_eq, List.length_append, List.length_singleton]
  · rw [prevHashAt_concat, ← hblk]
    simp only [Chain.tipHash, Chain.append_getLast?]
  · rw [← hblk]
    exact Chain.append_tail h.blocks_eq _ _
  · have hepoch : st'.epoch = (rollEpochIfNeeded ch.cfg ch.st height).epoch := by
      rw [hends.epoch, forM_applyEntry_epoch hrun, beforeTxs_epoch]
    rw [Chain.append_st, Chain.append_cfg, ← hactive.roll height]
    exact congrArg Prod.snd hepoch
  · intro i blk hi
    by_cases hlt : i < bs.length
    · rw [List.getElem?_append_left hlt] at hi
      exact (h.linked i blk hi).append hlt.le _
    · rw [List.getElem?_append_right (by omega), List.getElem?_singleton] at hi
      split at hi
      next hzero =>
        obtain rfl : i = bs.length := by omega
        obtain rfl := Option.some.inj hi
        exact hsealed
      · cases hi
  · intro blk hi
    rw [List.getLast?_concat] at hi
    obtain rfl := Option.some.inj hi
    rw [← hblk]
    rfl

end Runs

/-! ## The expected producers -/

section Producers

variable {cfg : GenCfg} {st : State} {tipH tailFirstH : U64}

theorem mem_heightsUpTo {a b h : U64} (hmem : h ∈ heightsUpTo a b) :
    a.toNat ≤ h.toNat ∧ h.toNat ≤ b.toNat := by
  obtain ⟨n, hn, rfl⟩ := List.mem_map.mp hmem
  rw [List.mem_range'_1] at hn
  have hb := b.isLt
  rw [toNat_ofNat_of_lt (by omega)]
  omega

theorem tailEpochBndH_bounds {bndH : U64} (h : tailEpochBndH cfg tailFirstH tipH = some bndH) :
    tailFirstH.toNat ≤ bndH.toNat ∧ bndH.toNat ≤ tipH.toNat := by
  unfold tailEpochBndH at h
  simp only [Option.ite_none_left_eq_some, Option.ite_none_right_eq_some, Option.some.injEq] at h
  obtain ⟨_, hle, rfl⟩ := h
  refine ⟨?_, BitVec.le_def.mp hle⟩
  split
  · exact Nat.le_refl _
  · exact le_saturatingAdd _ _

/-- Every producer that is put down is the one picked from the active set. -/
theorem setProducers_ok (hactive : st.activeValidatorIndices ≠ []) {outside : U64 → SnapFault}
    {hs : List U64} {want : List (Option U32)}
    (hin : ∀ h ∈ hs, tailFirstH.toNat ≤ h.toNat ∧ h.toNat - tailFirstH.toNat < want.length) :
    ∃ want', setProducers st tailFirstH outside hs want = .ok want' ∧
      want'.length = want.length ∧
      ∀ i idx, want'[i]? = some (some idx) → want[i]? = some (some idx) ∨
        ∃ h : U64, h.toNat = tailFirstH.toNat + i ∧
          pickProdIdx h st.activeValidatorIndices = .ok idx := by
  induction hs generalizing want with
  | nil => exact ⟨want, rfl, rfl, fun i idx h => .inl h⟩
  | cons h rest ih =>
      obtain ⟨hle, hlt⟩ := hin h List.mem_cons_self
      obtain ⟨idx, _, hpick⟩ := pickProdIdx_of_active h hactive
      have hpos : (h.saturatingSub tailFirstH).toNat = h.toNat - tailFirstH.toNat :=
        toNat_saturatingSub _ _
      obtain ⟨want', hset, hlen, hwant⟩ :=
        @ih (want.set (h.toNat - tailFirstH.toNat) (some (idx.setWidth 32))) fun h' hmem => by
          rw [List.length_set]
          exact hin h' (List.mem_cons_of_mem h hmem)
      refine ⟨want', ?_, hlen.trans List.length_set, fun i idx' hi => ?_⟩
      · rw [setProducers]
        simp only [hpick, hpos, Except.mapError, check, if_pos hlt, bind, Except.bind]
        exact hset
      · rcases hwant i idx' hi with hset' | hpicked
        · rw [List.getElem?_set] at hset'
          split at hset'
          next hsame =>
            obtain rfl := Option.some.inj (Option.some.inj hset')
            exact .inr ⟨h, by omega, hpick⟩
          · exact .inl hset'
        · exact .inr hpicked

theorem trustTailProdIdx_ok (hactive : st.activeValidatorIndices ≠ [])
    (hle : tailFirstH.toNat ≤ tipH.toNat) :
    ∃ want, trustTailProdIdx cfg st tipH tailFirstH = .ok want ∧
      want.length = tipH.toNat - tailFirstH.toNat + 1 ∧
      ∀ i idx, want[i]? = some (some idx) → ∃ h : U64, h.toNat = tailFirstH.toNat + i ∧
        pickProdIdx h st.activeValidatorIndices = .ok idx := by
  obtain ⟨behind, hbehind⟩ : ∃ behind, tipH.checkedSub tailFirstH = some behind :=
    ⟨_, if_pos (BitVec.le_def.mpr hle)⟩
  have hlen : behind.toNat = tipH.toNat - tailFirstH.toNat := (checkedSub_eq_some_iff.mp hbehind).2
  have hset : ∀ (outside : U64 → SnapFault) (fromH : U64), tailFirstH.toNat ≤ fromH.toNat →
      ∃ want, setProducers st tailFirstH outside (heightsUpTo fromH tipH)
          (List.replicate (behind.toNat + 1) none) = .ok want ∧
        want.length = tipH.toNat - tailFirstH.toNat + 1 ∧
        ∀ i idx, want[i]? = some (some idx) → ∃ h : U64, h.toNat = tailFirstH.toNat + i ∧
          pickProdIdx h st.activeValidatorIndices = .ok idx := by
    intro outside fromH hfrom
    obtain ⟨want, hok, hlen', hwant⟩ := @setProducers_ok st tailFirstH hactive outside
      (heightsUpTo fromH tipH) (List.replicate (behind.toNat + 1) none) fun h hmem => by
        have hbounds := mem_heightsUpTo hmem
        rw [List.length_replicate]
        omega
    refine ⟨want, hok, ?_, fun i idx hi => ?_⟩
    · rw [hlen', List.length_replicate, hlen]
    · rcases hwant i idx hi with hnone | hpicked
      · have hmem := List.mem_of_getElem? hnone
        exact absurd (List.eq_of_mem_replicate hmem) (Option.some_ne_none idx)
      · exact hpicked
  simp only [trustTailProdIdx, hbehind, orFail, bind, Except.bind]
  cases hbnd : tailEpochBndH cfg tailFirstH tipH with
  | none => exact hset _ tailFirstH (Nat.le_refl _)
  | some bndH => exact hset _ bndH (tailEpochBndH_bounds hbnd).1

end Producers

/-! ## The checks of the tail -/

section Tail

variable {C : Crypto} {J : BlockJson} {cfg : GenCfg} {s : EpochStore} {bs : List Block}

/-- A sealed chain with its blocks in the epoch files. -/
structure LinkedStore (C : Crypto) (J : BlockJson) (cfg : GenCfg) (s : EpochStore)
    (bs : List Block) : Prop where
  stores : Stores C J s bs
  writes : ∀ b ∈ bs, J.Writes b
  linked : ∀ i blk, bs[i]? = some blk → SealedAt C cfg bs i blk

theorem LinkedStore.consecutive (h : LinkedStore C J cfg s bs) : ConsecutiveHeights bs :=
  fun i b hi => (h.linked i b hi).height

/-- The hash that the tail goes on from. -/
theorem LinkedStore.tailParent (h : LinkedStore C J cfg s bs) {k : Nat} (hk : k < bs.length)
    {firstH : U64} (hfirst : firstH.toNat = k + 1) :
    Pwm.tailParent C J s firstH = .ok (prevHashAt C bs k) := by
  rw [Pwm.tailParent]
  cases k with
  | zero =>
      have hone : firstH = 1#64 := BitVec.eq_of_toNat_eq hfirst
      rw [if_pos hone]
      rfl
  | succ k =>
      have hone : (1#64).toNat = 1 := rfl
      have hne : firstH ≠ 1#64 := by
        rintro rfl
        omega
      have hprev : (firstH - 1#64).toNat = k + 1 := by
        rw [BitVec.toNat_sub_of_le, hfirst, hone, Nat.add_sub_cancel]
        rw [BitVec.le_def, hfirst, hone]
        omega
      have hload := @Stores.height C J s bs h.stores h.writes h.consecutive (firstH - 1#64)
        (by omega) (by omega)
      have hsome : bs[k]? = some bs[k] := List.getElem?_eq_getElem (by omega)
      rw [hprev, Nat.add_sub_cancel, hsome] at hload
      rw [if_neg hne]
      simp only [hload, prevHashAt, hsome, orFail, Except.mapError, bind, Except.bind,
        Option.elim_some]

/-- The blocks from a place on pass when the producers expected of them are the due ones. -/
theorem LinkedStore.trustBlocks (h : LinkedStore C J cfg s bs) {firstH : U64} {k : Nat}
    (hfirst : firstH.toNat = k + 1) {want : List (Option U32)}
    (hlen : want.length = bs.length - k)
    (hwant : ∀ i idx, want[i]? = some (some idx) → ∃ h : U64, h.toNat = firstH.toNat + i ∧
      pickProdIdx h (allIdxs cfg) = .ok idx)
    {i : Nat} {prev : Option Block} (hprev : prev = if i = 0 then none else bs[k + i - 1]?) :
    Pwm.trustBlocks C J cfg s firstH want i prev (bs.drop (k + i)) = .ok () := by
  have hn := h.consecutive.length_lt
  generalize hrest : bs.drop (k + i) = rest
  induction rest generalizing i prev with
  | nil => rfl
  | cons blk rest ih =>
      have hblk : bs[k + i]? = some blk := by
        have hhead := congrArg (fun l => l[0]?) hrest
        simpa [List.getElem?_drop] using hhead
      have hlt := (List.getElem?_eq_some_iff.mp hblk).1
      have hsealed := h.linked _ _ hblk
      have hheight : blk.hdr.height = firstH + BitVec.ofNat 64 i := by
        refine BitVec.eq_of_toNat_eq ?_
        rw [hsealed.height, BitVec.toNat_add, toNat_ofNat_of_lt (by omega)]
        omega
      have hlink : trustLink C J s i (firstH + BitVec.ofNat 64 i) prev blk = .ok () := by
        cases i with
        | zero =>
            rw [if_pos rfl] at hprev
            have hzero : firstH + BitVec.ofNat 64 0 = firstH := BitVec.add_zero firstH
            have hparent : blk.hdr.prevHash = prevHashAt C bs k := hsealed.prevHash
            rw [hprev, trustLink, hzero]
            simp only [h.tailParent hlt hfirst, check, bind, Except.bind]
            exact if_pos hparent
        | succ i =>
            have hsome : bs[k + i]? = some bs[k + i] := List.getElem?_eq_getElem (by omega)
            have hparent := hsealed.prevHash
            rw [if_neg (Nat.succ_ne_zero i), ← Nat.add_assoc, Nat.add_sub_cancel, hsome] at hprev
            rw [← Nat.add_assoc, prevHashAt, hsome, Option.elim_some] at hparent
            rw [hprev, trustLink, check_ok_iff]
            exact hparent
      obtain ⟨wantIdx, hidx⟩ : ∃ wantIdx, want[i]? = some wantIdx :=
        ⟨_, List.getElem?_eq_getElem (by omega)⟩
      have hprod : ∀ idx, wantIdx = some idx → blk.hdr.prodIdx = idx := by
        rintro idx rfl
        obtain ⟨height, hheight', hpick⟩ := hwant i idx hidx
        obtain rfl : blk.hdr.height = height := by
          refine BitVec.eq_of_toNat_eq ?_
          rw [hheight', hsealed.height]
          omega
        exact Except.ok.inj (hsealed.prodIdx.symm.trans hpick)
      obtain ⟨row, hrow, hsig⟩ := hsealed.sig
      have hblock : trustBlock C J cfg s firstH want i prev blk = .ok () := by
        simp only [trustBlock, except_bind_ok_iff, orFail_ok_iff, check_ok_iff]
        refine ⟨(), hheight, (), hlink, (), hsealed.txRoot, wantIdx, hidx, ?_⟩
        cases wantIdx with
        | none =>
            simp only [except_bind_ok_iff, orFail_ok_iff, check_ok_iff]
            exact ⟨(), trivial, row, hrow, hsig⟩
        | some idx =>
            simp only [except_bind_ok_iff, orFail_ok_iff, check_ok_iff]
            exact ⟨(), hprod idx rfl, row, hrow, hsig⟩
      rw [Pwm.trustBlocks]
      simp only [hblock, bind, Except.bind]
      refine ih ?_ ?_
      · rw [if_neg (Nat.succ_ne_zero i), ← Nat.add_assoc, Nat.add_sub_cancel, hblk]
      · rw [← Nat.add_assoc, ← List.drop_drop, hrest]
        rfl

/-- The shape of the tail is the one of the manifest. -/
theorem LinkedStore.trustShape (h : LinkedStore C J cfg s bs) (hbs : bs ≠ [])
    {snapshot : SnapshotData} (hblocks : snapshot.blocks = bs.drop (bs.length - tailBlockCap))
    (hroot : ∀ blk, bs.getLast? = some blk → blk.hdr.stateRoot = digest C snapshot.state) :
    ∃ firstH : U64, Pwm.trustShape C (manifestFor C bs) snapshot = .ok firstH ∧
      firstH.toNat = bs.length - tailBlockCap + 1 := by
  have hn := h.consecutive.length_lt
  have hpos := List.length_pos_of_ne_nil hbs
  have hcap : (BitVec.ofNat 64 tailBlockCap).toNat = tailBlockCap := rfl
  have hcapPos : 0 < tailBlockCap := by decide
  have htip : (manifestFor C bs).canonicalH.toNat = bs.length := toNat_ofNat_of_lt hn
  obtain ⟨last, hlast⟩ : ∃ last, bs.getLast? = some last :=
    ⟨_, List.getLast?_eq_some_getLast hbs⟩
  have hlen : snapshot.blocks.length = min bs.length tailBlockCap := by
    rw [hblocks, List.length_drop]
    omega
  have hlast' : snapshot.blocks.getLast? = some last := by
    rw [hblocks, List.getLast?_drop, if_neg (by omega), hlast]
  have hheight : last.hdr.height = (manifestFor C bs).canonicalH := by
    refine BitVec.eq_of_toNat_eq ?_
    rw [List.getLast?_eq_getElem?] at hlast
    rw [(h.linked _ _ hlast).height, htip]
    omega
  obtain ⟨startH, hstartH⟩ : ∃ startH, startH =
      (((manifestFor C bs).canonicalH.saturatingSub (BitVec.ofNat 64 tailBlockCap)).saturatingAdd
        1#64).umax 1#64 := ⟨_, rfl⟩
  have hstart : startH.toNat = bs.length - tailBlockCap + 1 := by
    have hone : (1#64).toNat = 1 := rfl
    rw [hstartH, toNat_umax, toNat_saturatingAdd_of_fits, toNat_saturatingSub, htip, hone, hcap]
    · omega
    · rw [toNat_saturatingSub, htip, hone, hcap]
      omega
  obtain ⟨behind, hbehind⟩ : ∃ behind, (manifestFor C bs).canonicalH.checkedSub startH =
      some behind := by
    refine ⟨_, if_pos ?_⟩
    rw [BitVec.le_def, hstart, htip]
    omega
  have hbehind' := (checkedSub_eq_some_iff.mp hbehind).2
  obtain ⟨before, hbefore⟩ : ∃ before, (manifestFor C bs).canonicalH.checkedSub
      (BitVec.ofNat 64 snapshot.blocks.length) = some before := by
    refine ⟨_, if_pos ?_⟩
    rw [BitVec.le_def, toNat_ofNat_of_lt (by omega), htip]
    omega
  have hbefore' := (checkedSub_eq_some_iff.mp hbefore).2
  rw [toNat_ofNat_of_lt (by omega), htip] at hbefore'
  have hfirst : before + 1#64 = startH := by
    refine BitVec.eq_of_toNat_eq ?_
    have hone : (1#64).toNat = 1 := rfl
    rw [toNat_add_of_fits, hbefore', hstart, hone]
    · omega
    · rw [hbefore', hone]
      omega
  have hhash : (manifestFor C bs).tipHash = hexEncode (hdrHash C last.hdr) := by
    rw [manifestFor, mkManifest, hlast, Option.map_some, Option.getD_some]
  refine ⟨startH, ?_, hstart⟩
  simp only [Pwm.trustShape, except_bind_ok_iff, orFail_ok_iff, check_ok_iff]
  exact ⟨(), by omega, last, hlast', (), hheight, behind, hstartH ▸ hbehind, (), by omega, before,
    hbefore, (), hstartH ▸ hfirst, (), hhash, (), hroot last hlast, by rw [hfirst]⟩

/-- The first block is found in the tail or in the epoch files. -/
theorem LinkedStore.findHeightOne (h : LinkedStore C J cfg s bs) (k : Nat) {blk : Block}
    (hblk : bs[0]? = some blk) :
    ((bs.drop k).find? fun b => decide (b.hdr.height = 1#64)) = some blk ∨
      ((bs.drop k).find? fun b => decide (b.hdr.height = 1#64)) = none ∧
        loadBlockAtHeight J s 1#64 = .ok (some blk) := by
  have hlt := (List.getElem?_eq_some_iff.mp hblk).1
  cases k with
  | zero =>
      left
      have hone : blk.hdr.height = 1#64 := BitVec.eq_of_toNat_eq (h.linked 0 blk hblk).height
      obtain ⟨b, rest, rfl⟩ := List.exists_cons_of_ne_nil (List.ne_nil_of_length_pos hlt)
      obtain rfl : b = blk := Option.some.inj hblk
      rw [List.drop_zero, List.find?_cons, decide_eq_true hone]
  | succ k =>
      right
      constructor
      · refine List.find?_eq_none.mpr fun b hb => ?_
        obtain ⟨i, hi⟩ := List.mem_iff_getElem?.mp hb
        rw [List.getElem?_drop] at hi
        have hheight := (h.linked _ _ hi).height
        intro hone
        rw [of_decide_eq_true hone] at hheight
        have hnat : (1#64).toNat = 1 := rfl
        omega
      · rw [← hblk]
        exact @Stores.height C J s bs h.stores h.writes h.consecutive 1#64 Nat.one_pos hlt

theorem LinkedStore.findBlk1 (h : LinkedStore C J cfg s bs) {k : Nat} {blk : Block}
    (hblk : bs[0]? = some blk) {snapshot : SnapshotData} (hblocks : snapshot.blocks = bs.drop k) :
    Pwm.findBlk1 J s snapshot = .ok (some blk) := by
  rw [Pwm.findBlk1, hblocks]
  rcases h.findHeightOne k hblk with hfound | ⟨hnone, hload⟩
  · rw [hfound]
  · rw [hnone]
    exact hload

theorem LinkedStore.snapBlk1 (h : LinkedStore C J cfg s bs) {k : Nat} {blk : Block}
    (hblk : bs[0]? = some blk) {ch : Chain} (hblocks : ch.blocks = bs.drop k) {tip : U64}
    (htip : tip ≠ 0#64) : Pwm.snapBlk1 C J s ch tip = .ok (hdrHash C blk.hdr) := by
  rw [Pwm.snapBlk1, if_neg htip, hblocks]
  rcases h.findHeightOne k hblk with hfound | ⟨hnone, hload⟩
  · rw [hfound]
  · rw [hnone]
    simp only [hload, orFail, bind, Except.bind]

end Tail

/-! ## The first block and the anchor -/

section Preflight

variable {C : Crypto} {J : BlockJson} {cfgJson : GenCfg → List U8} {cfg : GenCfg} {s : EpochStore}
  {blk : Block} {snapshot : SnapshotData}

end Preflight

/-! ## The load of an honest store -/

section Honest

variable {C : Crypto} {J : BlockJson} {cfgJson : GenCfg → List U8} {cfg : GenCfg}
  {valSks : List SigningKey} {s : EpochStore} {ch₀ ch : Chain} {bs : List Block}
  {acts : List SealAct} {opts : SnapshotLoadOpts} {allowLegacyEnv : Bool}

/-- The first height of the tail. -/
def tailFirst (bs : List Block) : U64 :=
  BitVec.ofNat 64 (bs.length - tailBlockCap + 1)

/-- The producers expected of the tail are picked from all validators. -/
theorem HonestChain.expected (h : HonestChain C cfg valSks bs ch) (hbs : bs ≠ []) :
    ∃ want : List (Option U32), trustTailProdIdx cfg ch.st ch.tipH (tailFirst bs) = .ok want ∧
      want.length = ch.blocks.length ∧
      ∀ (i : Nat) (idx : U32), want[i]? = some (some idx) → ∃ height : U64,
        height.toNat = (tailFirst bs).toNat + i ∧ pickProdIdx height (allIdxs cfg) = .ok idx := by
  have hactive := h.allActive hbs
  have hpos := List.length_pos_of_ne_nil hbs
  have hcapPos : 0 < tailBlockCap := by decide
  have hbound := ch.tipH.isLt
  have htip := h.tipH_eq
  have hfirst : (tailFirst bs).toNat = bs.length - tailBlockCap + 1 := toNat_ofNat_of_lt (by omega)
  obtain ⟨want, hwant, hlen, hpick⟩ := @trustTailProdIdx_ok cfg ch.st ch.tipH (tailFirst bs)
    hactive.ready.active (by omega)
  refine ⟨want, hwant, ?_, ?_⟩
  · rw [h.blocks_eq, List.length_drop, hlen, htip, hfirst]
    omega
  · rw [hactive.active, h.cfg_eq] at hpick
    exact hpick

/-- The summary that an honest node writes. -/
def honestSummary (C : Crypto) (cfgJson : GenCfg → List U8) (ch : Chain)
    (roaming : SnapshotRoamingWire) (crossShard : CrossShardLedger) (blk : Block)
    (sk : SigningKey) : SnapshotData where
  version := snapshotVersion
  genesisAccounts := snapshotGenesisAccounts ch.cfg
  genesisAnchor := some (mkAnch C cfgJson ch.cfg (hdrHash C blk.hdr) 0#32 sk)
  blocks := []
  state := ch.st
  roaming := roaming
  crossShard := crossShard
  blocksStored := .epochs
  checkpointHeight := ch.tipH

theorem HonestChain.tipH_ne (h : HonestChain C cfg valSks bs ch) (hbs : bs ≠ []) :
    ch.tipH ≠ 0#64 := by
  have hpos := List.length_pos_of_ne_nil hbs
  intro hzero
  have htip := h.tipH_eq
  rw [hzero] at htip
  exact absurd htip (by simpa using hpos.ne)

theorem HonestChain.save (h : HonestChain C cfg valSks bs ch) (hs : LinkedStore C J cfg s bs)
    {blk : Block} (hblk : bs[0]? = some blk) {sk : SigningKey} (hsk : ch.valSks[0]? = some sk)
    (roaming : SnapshotRoamingWire) (crossShard : CrossShardLedger) :
    saveCheckpointSummary C J cfgJson s ch roaming crossShard =
      .ok (honestSummary C cfgJson ch roaming crossShard blk sk) := by
  have hbs : bs ≠ [] := by
    rintro rfl
    cases hblk
  simp only [saveCheckpointSummary, hs.snapBlk1 hblk h.blocks_eq (h.tipH_ne hbs),
    List.head?_eq_getElem?, hsk, orFail, bind, Except.bind]
  rfl

end Honest

/-! ## The first block of a store

The empty block of the devnet, and the block of the policy that comes before
the transfer it denies. -/

namespace DenyFirst

set_option maxRecDepth 8192

open PolicyRace

def blk : Block :=
  ⟨BlockHdr.signWith crypto devNetSk (header denyFirstRoot), [denyTx, payTx]⟩

/-- The JSON text of the block, without its outer braces. -/
def inner : List Char :=
  ["\"hdr\":\x7b\"height\":1,\"prev_hash\":\"",
    "52002052195e96fc6379a04df75794d0",
    "333458e98180236bb24957745b944366",
    "\",\"ts\":1700000001,\"prod_idx\":0,\"tx_root\":\"",
    "7fbe638d496d5477d643e29ae298ee9a",
    "326c0e750c0a265fa2385c8c5c4113b5",
    "\",\"state_root\":\"",
    "f1359312b4952754acf1b0e81ad9de98",
    "e67e5365de9bcbdc04870c262d111bd8",
    "\",\"sig\":\"",
    "b1f4c1e59108f0db9ae12a132fc87f36",
    "72d69d9edea8af232489ad48fd413f5e",
    "c6fd6c9ce5f095b4513e5e00b61be03a",
    "24fca9b4e717abd0f24c5318ca437700",
    "\"\x7d,\"txs\":[\x7b\"domain_code\":12879,\"signer_pk\":\"",
    "1a4f8c1fe80e871be0fcccada6595f9a",
    "900d30299a1abcdf4556833805872561",
    "\",\"derivation_index\":0,\"nonce\":0,\"body\":\x7b\"policy\":\x7b\"target_accou",
    "nt\":\"",
    "324f041ab4f0c2699073236011659e94",
    "abd14d94324a7f66d53c5ae21bf22bbd",
    "\",\"action\":\x7b\"set_policy\":\x7b\"policy\":\"default_behavior\",\"activatio",
    "n\":\"immediately\"\x7d\x7d,\"fee\":\"1\"\x7d\x7d,\"signature\":\"",
    "9cf42f0930b1528c600c00835cb74579",
    "1077458a5ab0996064c4d369e63088a8",
    "85b5af5a42d00e18b3739d213f6fe2fb",
    "7189271900a706ef885488b6258e6105",
    "\"\x7d,\x7b\"domain_code\":12988,\"signer_pk\":\"",
    "664d58a29528769c8b2c89f115177a91",
    "32014da920bcd0ef80393e8142849529",
    "\",\"derivation_index\":0,\"nonce\":0,\"body\":\x7b\"transfer\":\x7b\"to\":\"",
    "324f041ab4f0c2699073236011659e94",
    "abd14d94324a7f66d53c5ae21bf22bbd",
    "\",\"amount\":\"10\",\"fee\":\"1\"\x7d\x7d,\"signature\":\"",
    "43f16a52c22c108e5bdc489352855694",
    "5f9bf6c9d4bac88744df9f2debddcf99",
    "f91729b2c0849b3c3def2d2683e56cfd",
    "9850e9998e80ad2e04490f00233f620d",
    "\"\x7d]"].flatMap String.toList

def text : String := String.ofList ('\x7b' :: inner ++ ['\x7d'])

def json : BlockJson where
  toText := fun _ => text
  ofText := fun t => if t = text then .ok blk else .error "expected value at line 1 column 1"

theorem single_text : newline ∉ strBytes text := by
  unfold text inner
  rw [strBytes_object]
  decide

theorem writes : ∀ b ∈ [blk], json.Writes b := by
  intro b hb
  obtain rfl := List.mem_singleton.mp hb
  refine ⟨?_, ⟨inner, String.toList_ofList⟩, single_text⟩
  simp only [json, if_pos]

/-- The text of the error. -/
def denied : SnapFault :=
  .err "snapshot trust validation: block1 tx[1] replay failed: policy denied"

end DenyFirst

end Pwm
