import Pwm.Snapshot.Engines

/-!
# Where the engines agree

The blocks that a chain sealed are a chain of the validator, and where the pay
is alike a chain of the repair as well. On any list of blocks the repair then
gets as far as the validator accepts.
-/

namespace Pwm

open BitVec Attempt CheckedLog

/-! ## Chains of sealed blocks -/

/-- A seal of raw transactions, by the block that it appends. -/
def RawSeal (C : Crypto) (ch : Chain) (blk : Block) (ch' : Chain) : Prop :=
  ∃ now, ch.seal C now blk.txs = .ok ch' ∧ ch'.blocks.getLast? = some blk

section Sealed

variable {C : Crypto} {ch ch' : Chain} {blk : Block} {bs : List Block} {now : U64}

theorem entriesPass_raw {height ts : U64} {txs : List SignedTx} (st : State) :
    EntriesPass C ch height ts (txs.map SealEntry.raw) st := by
  induction txs generalizing st with
  | nil => trivial
  | cons tx rest ih => exact ⟨trivial, fun st' _ => ih st'⟩

theorem rawSeal_replays (hkeys : KeysMatch C ch) (hsigns : ∀ sk ∈ ch.valSks, C.SignsVerify sk)
    (h : RawSeal C ch blk ch') :
    ∃ st', Replays C ch blk st' ∧ ch' = ch.append blk st' := by
  obtain ⟨now, hseal, hlast⟩ := h
  have hvalid : ∀ entry ∈ blk.txs.map SealEntry.raw, Validated C ch entry := by
    intro entry hentry
    obtain ⟨tx, _, rfl⟩ := List.mem_map.mp hentry
    trivial
  obtain ⟨blk', st', hreplays, rfl⟩ :=
    sealed_replays hkeys hsigns hvalid (fun _ _ _ => entriesPass_raw _) hseal
  rw [Chain.append_getLast?] at hlast
  obtain rfl := Option.some.inj hlast
  exact ⟨st', hreplays, rfl⟩

theorem rawSeal_tipH (h : RawSeal C ch blk ch') : ch'.tipH.toNat = ch.tipH.toNat + 1 := by
  obtain ⟨now, hseal, _⟩ := h
  exact sealEntries_tipH hseal

/-- The block that replays is the next one of the validator. -/
theorem Replays.reaches {st' : State} (h : Replays C ch blk st')
    (htip : blk.hdr.height.toNat = ch.tipH.toNat + 1) :
    BlockReaches C ch.cfg (sealerPay ch.cfg) ch.tipH.toNat (ch.tipHash C, ch.st) blk
      ((ch.append blk st').tipHash C, st') := by
  have hheight : blk.hdr.height = BitVec.ofNat 64 (ch.tipH.toNat + 1) := by
    rw [← htip, BitVec.ofNat_toNat, BitVec.setWidth_eq]
  obtain ⟨st, hrun, drained, prodAcct, hdrain, hacct, _, hend⟩ := h.run
  refine ⟨hheight, h.prevHash, h.txRoot.symm, ?_, h.sig, ⟨st, drained, prodAcct, hrun, hdrain, hacct,
    hend⟩, h.stateRoot.symm, ?_⟩
  · rw [← beforeTxs_activeIdxs]
    exact h.prodIdx
  · simp only [Chain.tipHash, Chain.append_getLast?]

/-- The blocks sealed so far lead from genesis to the chain. -/
structure SealedBy (C : Crypto) (cfg : GenCfg) (valSks : List SigningKey) (bs : List Block)
    (ch : Chain) : Prop where
  cfg_eq : ch.cfg = cfg
  valSks_eq : ch.valSks = valSks
  tipH_eq : ch.tipH.toNat = bs.length
  chained : Chained (BlockReaches C cfg (sealerPay cfg)) 0 (replayOrigin C cfg) bs
    (ch.tipHash C, ch.st)

end Sealed

section Runs

variable {C : Crypto} {cfg : GenCfg} {valSks : List SigningKey} {ch₀ ch : Chain}
  {bs : List Block}

theorem boot_sealedBy (hboot : Chain.boot cfg valSks = some ch₀) :
    SealedBy C cfg valSks [] ch₀ := by
  simp only [Chain.boot, Option.ite_none_right_eq_some, Option.some.injEq] at hboot
  obtain ⟨-, rfl⟩ := hboot
  exact ⟨rfl, rfl, rfl, .nil _ _⟩

theorem SealedBy.step {blk : Block} {ch' : Chain} (h : SealedBy C cfg valSks bs ch)
    (hkeys : KeysMatch C ch) (hsigns : ∀ sk ∈ valSks, C.SignsVerify sk)
    (hstep : RawSeal C ch blk ch') : SealedBy C cfg valSks (bs ++ [blk]) ch' := by
  have htip := rawSeal_tipH hstep
  obtain ⟨st', hreplays, rfl⟩ := rawSeal_replays hkeys (h.valSks_eq ▸ hsigns) hstep
  have hreaches := hreplays.reaches htip
  rw [h.cfg_eq, h.tipH_eq] at hreaches
  refine ⟨?_, ?_, ?_, h.chained.snoc ?_⟩
  · rw [Chain.append_cfg, h.cfg_eq]
  · rw [Chain.append_valSks, h.valSks_eq]
  · rw [htip, h.tipH_eq, List.length_append, List.length_singleton]
  · rwa [Nat.zero_add]

theorem KeysMatch.of_eq {ch' : Chain} (h : KeysMatch C ch) (hcfg : ch'.cfg = ch.cfg)
    (hsks : ch'.valSks = ch.valSks) : KeysMatch C ch' := by
  unfold KeysMatch
  rw [hcfg, hsks]
  exact h

theorem run_sealedBy (hboot : Chain.boot cfg valSks = some ch₀) (hkeys : KeysMatch C ch₀)
    (hsigns : ∀ sk ∈ valSks, C.SignsVerify sk) (hrun : Run (RawSeal C) ch₀ bs ch) :
    SealedBy C cfg valSks bs ch := by
  have hstart : SealedBy C cfg valSks [] ch₀ := boot_sealedBy hboot
  refine hrun.history_invariant (I := SealedBy C cfg valSks) ?_ hstart
  intro ls s l s' hs hstep
  exact hs.step (hkeys.of_eq (hs.cfg_eq.trans hstart.cfg_eq.symm)
    (hs.valSks_eq.trans hstart.valSks_eq.symm)) hsigns hstep

/-- A chain of the validator stays within the heights when its blocks are numbered by them. -/
theorem SealedBy.fits (h : SealedBy C cfg valSks bs ch) : bs.length < 2 ^ 64 :=
  h.tipH_eq ▸ ch.tipH.isLt

end Runs

/-! ## The repair on any list of blocks -/

section Replay

variable {C : Crypto} {cfg : GenCfg} {bs : List Block} {i : Nat} {p : Bytes32 × State}

/-- No block that is reached panics. -/
def PanicFreeAlong (C : Crypto) (cfg : GenCfg) (i : Nat) (p : Bytes32 × State)
    (blks : List Block) : Prop :=
  ∀ k p₁ blk, Chained (BlockReaches C cfg (sealerPay cfg)) i p (blks.take k) p₁ →
    blks[k]? = some blk → PanicFree C cfg p₁.2 blk

theorem unfailing_of_staffed (hmin : cfg.minValidatorStake = 0#128) (hset : cfg.vals.set ≠ [])
    (hstaffed : Staffed cfg p.2) (hpay : PaysAlike C cfg i p bs)
    (hfree : PanicFreeAlong C cfg i p bs) : Unfailing C cfg i p bs := by
  intro k p₁ blk hchain hblk f
  have hsealer := (hpay.agree.take k).chained.mpr hchain
  have hactive := (chained_staffed hmin hset hstaffed hsealer).roll hmin hset
    (BitVec.ofNat 64 (i + k + 1))
  exact replayBlock_ne_fault hset hactive (hfree k p₁ blk hsealer hblk) f

theorem unfailing_of_chained {p' : Bytes32 × State}
    (hchain : Chained (BlockReaches C cfg (repairPay cfg)) i p bs p') :
    Unfailing C cfg i p bs := by
  intro k p₁ blk hfirst hblk f hfault
  obtain ⟨p₂, p₃, hfirst', hstep⟩ := hchain.step_at hblk
  obtain rfl := hfirst'.functional blockReaches_functional hfirst
  obtain ⟨h₁, s₁⟩ := p₃
  obtain rfl : h₁ = _ := hstep.next
  rw [replayBlock_ok_iff.mpr hstep] at hfault
  cases hfault

/-- The repair runs the blocks that the validator runs. -/
theorem replayTo_longest (hset : cfg.vals.set ≠ []) (hfit : bs.length < 2 ^ 64)
    (hpay : PaysAlike C cfg 0 (replayOrigin C cfg) bs)
    (hfail : Unfailing C cfg 0 (replayOrigin C cfg) bs) :
    ∃ n p res, replayTo C cfg bs none = .ok res ∧
      Longest (BlockReaches C cfg (sealerPay cfg)) 0 (replayOrigin C cfg) bs n p ∧
      res.lastGoodH.toNat = n ∧ (0 < n → res.lastGoodHash = hexEncode p.1) ∧
      (n = bs.length → res.state = p.2) := by
  obtain ⟨n, p, res, hres, hlong, hzero, hpos, hstate⟩ :=
    @replayBlocks_longest C cfg 0 (prevGen C) bs ⟨0#64, "", replayStart cfg⟩ (by omega) hfail
  refine ⟨n, p, res, ?_, hpay.agree.longest hlong, ?_, fun hn => (hpos hn).2, hstate⟩
  · simp only [replayTo, except_bind_ok_iff, check_ok_iff]
    exact ⟨(), hset, res, hres, (), trivial, rfl⟩
  · rcases Nat.eq_zero_or_pos n with rfl | hn
    · rw [(hzero rfl).1]
      rfl
    · rw [(hpos hn).1, Nat.zero_add]

/-- Of a list of blocks that run the repair keeps the tip. -/
theorem replayTo_of_chained {p : Bytes32 × State} (hset : cfg.vals.set ≠ [])
    (hfit : bs.length < 2 ^ 64) (hne : bs ≠ [])
    (hpay : PaysAlike C cfg 0 (replayOrigin C cfg) bs)
    (hchain : Chained (BlockReaches C cfg (sealerPay cfg)) 0 (replayOrigin C cfg) bs p) :
    ∃ res, replayTo C cfg bs none = .ok res ∧ res.lastGoodH.toNat = bs.length ∧
      res.lastGoodHash = hexEncode p.1 ∧ res.state = p.2 := by
  obtain ⟨n, p', res, hres, hlong, hheight, hhash, hstate⟩ := replayTo_longest hset hfit hpay
    (unfailing_of_chained (hpay.agree.chained.mp hchain))
  have hall : n = bs.length := by
    refine Nat.le_antisymm hlong.le ((hlong.isGreatest blockReaches_functional).2 ?_)
    exact ⟨Nat.le_refl _, p, by rwa [List.take_length]⟩
  have hpos : 0 < n := hall ▸ List.length_pos_iff.mpr hne
  have hsame := hlong.chained
  rw [hall, List.take_length] at hsame
  obtain rfl := hsame.functional blockReaches_functional hchain
  exact ⟨res, hres, hheight.trans hall, hhash hpos, hstate hall⟩

end Replay

/-! ## The three engines -/

section Engines

variable {C : Crypto} {cfg : GenCfg} {valSks : List SigningKey} {ch₀ : Chain}

theorem boot_st (hboot : Chain.boot cfg valSks = some ch₀) : ch₀.st = replayStart cfg := by
  simp only [Chain.boot, Option.ite_none_right_eq_some, Option.some.injEq] at hboot
  rw [← hboot.2, replayStart]

/-- What is accepted of the front of a list is as much as runs. -/
theorem validateSnapshot_take_iff {bs : List Block} {snapshot : SnapshotData} {n k : Nat}
    {p : Bytes32 × State} (hset : cfg.vals.set ≠ []) (hown : cfg.state0.OwnIds C)
    (henv : GoodEnvelope cfg snapshot) (hstored : snapshot.blocksStored = .epochs)
    (hfit : bs.length < 2 ^ 64)
    (hlong : Longest (BlockReaches C cfg (sealerPay cfg)) 0 (replayOrigin C cfg) bs n p)
    (hk : 0 < k) (hle : k ≤ bs.length) :
    (∃ snap', validateSnapshot C cfg { snapshot with blocks := bs.take k } = .ok snap') ↔
      k ≤ n := by
  constructor
  · rintro ⟨snap', hok⟩
    obtain ⟨p', hchain⟩ := chained_of_validateSnapshot hok
    exact (hlong.isGreatest blockReaches_functional).2 ⟨hle, p', hchain⟩
  · intro hkn
    have hchain := hlong.chained
    rw [← List.take_append_drop k (bs.take n), List.take_take, Nat.min_eq_left hkn] at hchain
    obtain ⟨p', hfirst, -⟩ := hchain.split
    have hlen : (bs.take k).length = k := List.length_take_of_le hle
    refine ⟨_, validateSnapshot_of_chained (p := p') hset
      ⟨henv.version, henv.genesisAccounts⟩ hown ?_ ?_ ?_ hfirst⟩
    · exact (hlen.trans_le hle).trans_lt hfit
    · exact List.ne_nil_of_length_pos (hk.trans_eq hlen.symm)
    · exact fun hinline => nomatch hstored.symm.trans hinline

/-- Blocks sealed from raw transactions, at least one of them, are accepted by the validator and
lead it to the state of the sealer; the repair ends there as well when it pays the producers alike.
Of any blocks on which the pay is alike the repair gets as far as the validator accepts. -/
theorem engines_agree (hboot : Chain.boot cfg valSks = some ch₀) (hkeys : KeysMatch C ch₀)
    (hsigns : ∀ sk ∈ valSks, C.SignsVerify sk) (hown : cfg.state0.OwnIds C) :
    (∀ bs ch snapshot, Run (RawSeal C) ch₀ bs ch → bs ≠ [] → GoodEnvelope cfg snapshot →
      snapshot.blocks = bs → (snapshot.blocksStored = .inline → snapshot.state = ch.st) →
        validateSnapshot C cfg snapshot = .ok { snapshot with state := ch.st } ∧
        (PaysAlike C cfg 0 (replayOrigin C cfg) bs →
          replayTo C cfg bs none = .ok ⟨ch.tipH, hexEncode (ch.tipHash C), ch.st⟩)) ∧
    ∀ bs snapshot, ch₀.st.activeValidatorIndices ≠ [] → GoodEnvelope cfg snapshot →
      snapshot.blocksStored = .epochs → bs.length < 2 ^ 64 →
      PaysAlike C cfg 0 (replayOrigin C cfg) bs →
      PanicFreeAlong C cfg 0 (replayOrigin C cfg) bs →
        ∃ res, replayTo C cfg bs none = .ok res ∧ res.lastGoodH.toNat ≤ bs.length ∧
          ∀ n, 0 < n → n ≤ bs.length →
            ((∃ snap', validateSnapshot C cfg { snapshot with blocks := bs.take n } = .ok snap') ↔
              n ≤ res.lastGoodH.toNat) := by
  have hset : cfg.vals.set ≠ [] := by
    simp only [Chain.boot, Option.ite_none_right_eq_some] at hboot
    exact hboot.1.2.1
  constructor
  · rintro bs ch snapshot hrun hne henv rfl hstate
    have hsealed := run_sealedBy hboot hkeys hsigns hrun
    have hfit : snapshot.blocks.length < 2 ^ 64 := hsealed.fits
    refine ⟨validateSnapshot_of_chained hset henv hown hfit hne hstate hsealed.chained,
      fun hpay => ?_⟩
    obtain ⟨⟨h, hash, st⟩, hres, hheight, rfl, rfl⟩ :=
      replayTo_of_chained hset hfit hne hpay hsealed.chained
    obtain rfl : h = ch.tipH := BitVec.eq_of_toNat_eq (hheight.trans hsealed.tipH_eq.symm)
    exact hres
  · intro bs snapshot hactive henv hstored hfit hpay hfree
    have hready := boot_sealReady hboot hactive
    obtain rfl : ch₀.cfg = cfg := (boot_sealedBy (C := C) hboot).cfg_eq
    have hstart : ch₀.st = (replayOrigin C ch₀.cfg).2 := boot_st hboot
    have hstaffed : Staffed ch₀.cfg (replayOrigin C ch₀.cfg).2 :=
      hstart ▸ ⟨hready.rows, hready.active⟩
    obtain ⟨n, p, res, hres, hlong, rfl, -, -⟩ := replayTo_longest hset hfit hpay
      (unfailing_of_staffed hready.noMinimum hset hstaffed hpay hfree)
    exact ⟨res, hres, hlong.le, fun k hk hle =>
      validateSnapshot_take_iff hset hown henv hstored hfit hlong hk hle⟩

end Engines

/-! ## One empty block

Sealed on the devnet, and on a later policy with half of the emission as the
season's rate. There the sealer pays half of the emission and the repair the
whole block reward. -/

namespace HalfSeason

/-- The devnet under a later policy with a season of one half. -/
def net : GenCfg :=
  { devNet with policyVer := 2#32, pwmStakeMin := 0#128, seasonCoeffPpm := 500000#64 }

def chain (cfg : GenCfg) : Chain where
  cfg := cfg
  valSks := [devNetSk]
  blocks := []
  canonicalH := 0#64
  st := replayStart cfg
  sealTimeMode := .wallClock

def now : U64 := 1700000001#64

def emptyRoot : Bytes32 :=
  0xf48ef0568e656db56ca009e0ed80604d3f38cbe30b28a48f750d1e5139ef44f5#256

/-- The ledger after the block. -/
def after (cfg : GenCfg) : State := rewardBlock cfg (replayStart cfg) devNetRow.acct 1#64

def header (stateRoot : Bytes32) (sig : Bytes64) : BlockHdr :=
  { height := 1#64, prevHash := PolicyRace.genesisHash, ts := now, prodIdx := 0#32,
    txRoot := emptyRoot, stateRoot := stateRoot, sig := sig }

def devNetRoot : Bytes32 :=
  0x1f45b8b8211fb7b0ac71e3dd2750608effb4632fb368be87037abe5caca99a2a#256
def netRoot : Bytes32 :=
  0x472bea224e04130e5881e5189637b5baf21e3df0c28fe077d3ea989438a7b12c#256
def devNetPreimage : Bytes32 :=
  0xbd67e3c1b55f8410b2e4481eac87244997eddb203e7e1c5707308a7bf2bca67a#256
def netPreimage : Bytes32 :=
  0x6a51bbd4b7a4c9100bce350a8146cb4b8e849b885e2ba45268638e5f4b2b1446#256
def devNetSig : Bytes64 :=
  0x72f3c35eed18bb4b84fb811b83426b1d2ca3c4dfe805d57d38722cfa263b4ab78444981faca281fd71d50e02c1e1708f1a50ae90895e65821a22ddeb1132b300#512
def netSig : Bytes64 :=
  0x0e9eb3d58bb437e05b0d2977e87de07a815cf4cc67b86ad9df5f27b75647c2ae20eb18215702a55dd237b19f83f7ea0424a6ce2cd4b53f72d52147b1c6b97303#512
def devNetHash : Bytes32 :=
  0x3a1315a269b018aecbb8856b622b20228a5dd8aa78a2586c545565923915d8e8#256
def netHash : Bytes32 :=
  0xde84ed32006dff2bf02bc7023ec3df9d0bf8105071dbf4837777dda4ef428674#256

def devNetBlock : Block := ⟨header devNetRoot devNetSig, []⟩
def netBlock : Block := ⟨header netRoot netSig, []⟩

def crypto : Crypto :=
  .ofTables
    [(devNetRow.pubkey.beBytes 32 ++ (0#32).leBytes 4, devNetRow.acct),
      (strBytes "PWMv0/GENESIS", PolicyRace.genesisHash), (strBytes "PWMv0/EMPTYTX", emptyRoot),
      (devNet.state0.bytes,
        0x8afca201a424b6e796d3e7d059f6f41e3fc335395793f598f9f57ad8b1a3baf1#256),
      ((replayStart devNet).bytes,
        0x11b2d0ad9b26b4e9e706f7974dac821b90cc5e6e9c8a1a72eda1a62227d53880#256),
      ((after devNet).bytes, devNetRoot), ((after net).bytes, netRoot),
      ((header devNetRoot 0#512).signBytes, devNetPreimage),
      ((header netRoot 0#512).signBytes, netPreimage),
      (devNetBlock.hdr.bytes, devNetHash), (netBlock.hdr.bytes, netHash)]
    [⟨devNetSk, devNetRow.pubkey,
      [(devNetPreimage.beBytes 32, devNetSig), (netPreimage.beBytes 32, netSig)]⟩]

def snapshot (cfg : GenCfg) (blocks : List Block) : SnapshotData where
  version := snapshotVersion
  genesisAccounts := snapshotGenesisAccounts cfg
  blocks := blocks
  state := {}
  blocksStored := .epochs
  checkpointHeight := BitVec.ofNat 64 blocks.length

theorem keysMatch (cfg : GenCfg) (hvals : cfg.vals = devNet.vals) :
    KeysMatch crypto (chain cfg) := by
  intro i sk hsk
  cases i with
  | zero =>
      obtain rfl := Option.some.inj hsk
      exact ⟨_, congrArg (fun vals : ValCfg => vals.set[0]?) hvals, rfl⟩
  | succ i => cases hsk

theorem signsVerify : ∀ sk ∈ [devNetSk], crypto.SignsVerify sk := by
  intro sk hsk
  obtain rfl := List.mem_singleton.mp hsk
  exact Crypto.ofTables_signsVerify _ _ ⟨_, List.mem_cons_self, rfl⟩

theorem ownIds : devNet.state0.OwnIds crypto :=
  (@validateSnapshotStateAccounts_ok_iff crypto
    { snapshot devNet [] with state := devNet.state0 }).mp (by decide)

/-- The chain with the block. -/
def sealedWith (cfg : GenCfg) (blk : Block) : Chain := (chain cfg).append blk (after cfg)

theorem seal_devNet :
    sealEntries crypto now (chain devNet) [] = .ok (sealedWith devNet devNetBlock) := by
  unfold sealEntries digest crypto State.bytes Account.bytes
  -- bytes put together from the end are faster to compute
  simp -zeta only [List.append_assoc]
  decide +kernel

theorem seal_net : sealEntries crypto now (chain net) [] = .ok (sealedWith net netBlock) := by
  unfold sealEntries digest crypto State.bytes Account.bytes
  simp -zeta only [List.append_assoc]
  decide +kernel

theorem rawSeal_devNet :
    Run (RawSeal crypto) (chain devNet) [devNetBlock] (sealedWith devNet devNetBlock) :=
  .single ⟨now, seal_devNet, Chain.append_getLast? _ _ _⟩

theorem rawSeal_net : Run (RawSeal crypto) (chain net) [netBlock] (sealedWith net netBlock) :=
  .single ⟨now, seal_net, Chain.append_getLast? _ _ _⟩

theorem sealedBy_devNet :
    SealedBy crypto devNet [devNetSk] [devNetBlock] (sealedWith devNet devNetBlock) :=
  run_sealedBy (by decide) (keysMatch devNet rfl) signsVerify rawSeal_devNet

theorem sealedBy_net : SealedBy crypto net [devNetSk] [netBlock] (sealedWith net netBlock) :=
  run_sealedBy (by decide) (keysMatch net rfl) signsVerify rawSeal_net

theorem tipHash_devNet : (sealedWith devNet devNetBlock).tipHash crypto = devNetHash := by
  decide +kernel

/-- The validator accepts the block of the later policy. -/
theorem validated_net : validateSnapshot crypto net (snapshot net [netBlock]) =
    .ok { snapshot net [netBlock] with state := (sealedWith net netBlock).st } :=
  have henv : GoodEnvelope net (snapshot net [netBlock]) := ⟨rfl, rfl⟩
  validateSnapshot_of_chained (by decide) henv ownIds (by decide) (by decide)
    (fun h => nomatch h) sealedBy_net.chained

/-- The repair finds another state root for it. -/
theorem replay_net : replayTo crypto net [netBlock] none =
    .ok ⟨0#64, "", repairReward net (replayStart net) devNetRow.acct now⟩ := by
  decide +kernel

theorem paysAlike : PaysAlike crypto devNet 0 (replayOrigin crypto devNet) [devNetBlock] :=
  fun _ _ _ _ _ _ _ _ _ => .inl rfl

theorem panicFree : PanicFreeAlong crypto devNet 0 (replayOrigin crypto devNet) [devNetBlock] := by
  intro k p₁ blk hchain hblk
  have hk : k = 0 := by
    have hlt := (List.getElem?_eq_some_iff.mp hblk).1
    rw [List.length_singleton] at hlt
    omega
  subst hk
  obtain rfl : devNetBlock = blk := Option.some.inj hblk
  rw [List.take_zero] at hchain
  cases hchain
  constructor
  · exact fun s' h => nomatch h
  · intro s₁ s' hrun hpanic
    obtain ⟨-, rfl⟩ := EStateM.Result.ok.inj hrun
    cases hpanic

end HalfSeason

open HalfSeason in
/-- One empty block of the devnet. -/
theorem engines_agree_oneBlock :
    (validateSnapshot crypto devNet (snapshot devNet [devNetBlock]) =
        .ok { snapshot devNet [devNetBlock] with state := (sealedWith devNet devNetBlock).st } ∧
      replayTo crypto devNet [devNetBlock] none =
        .ok ⟨1#64, hexEncode devNetHash, (sealedWith devNet devNetBlock).st⟩) ∧
    ∃ res, replayTo crypto devNet [devNetBlock] none = .ok res ∧ res.lastGoodH.toNat ≤ 1 ∧
      ((∃ snap', validateSnapshot crypto devNet (snapshot devNet [devNetBlock]) = .ok snap') ↔
        1 ≤ res.lastGoodH.toNat) := by
  have hboot : Chain.boot devNet [devNetSk] = some (chain devNet) := by decide
  obtain ⟨hsealed, hany⟩ := engines_agree hboot (keysMatch devNet rfl) signsVerify ownIds
  obtain ⟨hvalid, hreplay⟩ := hsealed [devNetBlock] _ (snapshot devNet [devNetBlock]) rawSeal_devNet
    (by decide) ⟨rfl, rfl⟩ rfl (fun h => nomatch h)
  obtain ⟨res, hres, hle, hiff⟩ := hany [devNetBlock] (snapshot devNet [devNetBlock])
    (by decide) ⟨rfl, rfl⟩ rfl (by decide) paysAlike panicFree
  refine ⟨⟨hvalid, ?_⟩, res, hres, hle, ?_⟩
  · rw [← tipHash_devNet]
    exact hreplay paysAlike
  · exact hiff 1 (by decide) (by decide)

open HalfSeason in
/-- The repair does not reproduce the empty block of the later policy, and the validator does not
accept the devnet before its first block. -/
theorem engines_disagree :
    (Chain.boot net [devNetSk] = some (chain net) ∧ KeysMatch crypto (chain net) ∧
      (∀ sk ∈ [devNetSk], crypto.SignsVerify sk) ∧
      Run (RawSeal crypto) (chain net) [netBlock] (sealedWith net netBlock) ∧
      validateSnapshot crypto net (snapshot net [netBlock]) =
        .ok { snapshot net [netBlock] with state := (sealedWith net netBlock).st } ∧
      (∃ res, replayTo crypto net [netBlock] none = .ok res ∧ res.lastGoodH = 0#64 ∧
        (sealedWith net netBlock).tipH = 1#64)) ∧
    Chain.boot devNet [devNetSk] = some (chain devNet) ∧
      Run (RawSeal crypto) (chain devNet) [] (chain devNet) ∧
      validateSnapshot crypto devNet { snapshot devNet [] with state := (chain devNet).st } =
        .error (.err "snapshot state mismatch: empty block history must match genesis state") := by
  refine ⟨⟨by decide, keysMatch net rfl, signsVerify, rawSeal_net, validated_net, _, replay_net,
    rfl, by decide⟩, by decide, .nil _, ?_⟩
  decide +kernel

end Pwm
