import Pwm.Node.Skips
import Pwm.Snapshot.EnginesAgree
import Pwm.Snapshot.EpochReaders

/-!
# Storing a sealed chain

A proposer seals blocks and skips heights, the store takes blocks without a gap
and finds its last height in a window at the end of a file. Which chains of a
proposer can be stored.
-/

namespace Pwm

open BitVec Attempt LineFile

/-! ## Seals and skips -/

inductive SealSkip
  | sealed (blk : Block)
  | skipped (h : U64)

namespace SealSkip

def block : SealSkip → Option Block
  | .sealed blk => some blk
  | .skipped _ => none

def IsSkip : SealSkip → Prop
  | .sealed _ => False
  | .skipped _ => True

end SealSkip

/-- The blocks of a run, in their order. -/
def sealedBlocks (ls : List SealSkip) : List Block :=
  ls.filterMap SealSkip.block

/-- A successful seal, or a skip of the next height. -/
inductive SealSkipStep (C : Crypto) : Chain → SealSkip → Chain → Prop
  | sealed {ch ch' : Chain} {now : U64} {entries : List SealEntry} {blk : Block}
      (hok : sealEntries C now ch entries = .ok ch') (hlast : ch'.blocks.getLast? = some blk) :
      SealSkipStep C ch (.sealed blk) ch'
  | skipped {ch ch' : Chain} {h : U64} (hskip : ch.skipMissedH h = (true, ch')) :
      SealSkipStep C ch (.skipped h) ch'

/-- No block comes after a skip. -/
def SkipsLast (ls : List SealSkip) : Prop :=
  ls.Pairwise fun l l' => l.IsSkip → l'.block = none

/-- The sealed blocks have the heights of their places among seals and skips. -/
def PlacedFrom (i : Nat) (ls : List SealSkip) : Prop :=
  ∀ k blk, ls[k]? = some (.sealed blk) → blk.hdr.height.toNat = i + k + 1

theorem placedFrom_nil (i : Nat) : PlacedFrom i [] := by
  intro k blk hk
  rw [List.getElem?_nil] at hk
  cases hk

theorem heightsFrom_nil (i : Nat) : HeightsFrom i [] := by
  intro k blk hk
  rw [List.getElem?_nil] at hk
  cases hk

section Runs

variable {C : Crypto} {cfg : GenCfg} {valSks : List SigningKey} {ch₀ ch ch' : Chain}
  {l : SealSkip} {ls : List SealSkip} {i : Nat}

/-- A seal is at the next height, and a skip goes there, short of the last height of all. -/
theorem SealSkipStep.tipH (h : SealSkipStep C ch l ch') :
    ch'.tipH.toNat = min (ch.tipH.toNat + 1) (2 ^ 64 - 1) ∧
      ∀ blk, l = .sealed blk → blk.hdr.height.toNat = ch.tipH.toNat + 1 := by
  cases h with
  | sealed hok hlast =>
      have htip := sealEntries_tipH hok
      have hbound := ch'.tipH.isLt
      refine ⟨by omega, ?_⟩
      rintro blk' ⟨⟩
      obtain ⟨height, ts, prodIdx, sk, st, st', hctx, _, _, _, _, rfl⟩ := sealEntries_ok hok
      rw [Chain.append_getLast?] at hlast
      rw [← Option.some.inj hlast, ← htip]
      rfl
  | skipped hskip =>
      refine ⟨skipMissedH_tipH hskip, fun blk h => ?_⟩
      cases h

theorem run_placed (hrun : Run (SealSkipStep C) ch₀ ls ch) (htip : ch₀.tipH = 0#64) :
    ch.tipH.toNat = min ls.length (2 ^ 64 - 1) ∧ PlacedFrom 0 ls := by
  have hstart : ch₀.tipH.toNat = min ([] : List SealSkip).length (2 ^ 64 - 1) ∧
      PlacedFrom 0 [] := by
    rw [htip]
    exact ⟨rfl, placedFrom_nil 0⟩
  refine hrun.history_invariant (I := fun ls ch => ch.tipH.toNat = min ls.length (2 ^ 64 - 1) ∧
    PlacedFrom 0 ls) ?_ hstart
  rintro ls ch l ch' ⟨hlen, hplaced⟩ hstep
  obtain ⟨htip, hheight⟩ := hstep.tipH
  refine ⟨?_, ?_⟩
  · rw [htip, hlen, List.length_append, List.length_singleton]
    omega
  · intro k blk hk
    by_cases hlt : k < ls.length
    · rw [List.getElem?_append_left hlt] at hk
      exact hplaced k blk hk
    · rw [List.getElem?_append_right (by omega), List.getElem?_singleton] at hk
      split at hk
      next hzero =>
        have hblk := hheight blk (Option.some.inj hk)
        have hbound := blk.hdr.height.isLt
        omega
      · cases hk

theorem PlacedFrom.tail (h : PlacedFrom i (l :: ls)) : PlacedFrom (i + 1) ls := by
  intro k blk hk
  rw [h (k + 1) blk hk]
  omega

theorem sealedBlocks_eq_nil_iff : sealedBlocks ls = [] ↔ ∀ l ∈ ls, l.block = none :=
  List.filterMap_eq_nil_iff

/-- The first block of a run has a height past the place it starts from. -/
theorem PlacedFrom.lt_height (h : PlacedFrom i ls) {blk : Block}
    (hblk : blk ∈ sealedBlocks ls) : i < blk.hdr.height.toNat := by
  obtain ⟨l, hl, hblock⟩ := List.mem_filterMap.mp hblk
  obtain ⟨k, hk⟩ := List.mem_iff_getElem?.mp hl
  cases l with
  | sealed blk' =>
      obtain rfl := Option.some.inj hblock
      rw [h k blk' hk]
      omega
  | skipped _ => cases hblock

/-- The blocks follow on one another exactly when none comes after a skip. -/
theorem heightsFrom_sealedBlocks_iff (h : PlacedFrom i ls) :
    HeightsFrom i (sealedBlocks ls) ↔ SkipsLast ls := by
  induction ls generalizing i with
  | nil => exact iff_of_true (heightsFrom_nil i) .nil
  | cons l rest ih =>
      rw [SkipsLast, List.pairwise_cons, ← SkipsLast, ← ih h.tail]
      cases l with
      | sealed blk =>
          have hblocks : sealedBlocks (.sealed blk :: rest) = blk :: sealedBlocks rest := rfl
          rw [hblocks]
          constructor
          · exact fun hheights => ⟨fun _ _ hskip => hskip.elim, hheights.tail⟩
          · rintro ⟨-, hrest⟩ k b hk
            cases k with
            | zero =>
                obtain rfl := Option.some.inj hk
                exact h 0 blk rfl
            | succ k =>
                rw [hrest k b hk]
                omega
      | skipped height =>
          have hblocks : sealedBlocks (.skipped height :: rest) = sealedBlocks rest := rfl
          rw [hblocks]
          constructor
          · intro hheights
            have hnil : sealedBlocks rest = [] := by
              by_contra hne
              obtain ⟨blk, bs, hcons⟩ := List.exists_cons_of_ne_nil hne
              have hfirst := hheights 0 blk (by rw [hcons]; rfl)
              have hlt := h.tail.lt_height (hcons ▸ List.mem_cons_self)
              omega
            refine ⟨fun l hl _ => sealedBlocks_eq_nil_iff.mp hnil l hl, ?_⟩
            rw [hnil]
            exact heightsFrom_nil (i + 1)
          · rintro ⟨hnone, -⟩
            rw [sealedBlocks_eq_nil_iff.mpr fun l hl => hnone l hl trivial]
            exact heightsFrom_nil i

end Runs

/-! ## Appending and loading -/

section Stored

variable {C : Crypto} {J : BlockJson} {s : EpochStore} {bs : List Block} {b : Block}

theorem ConsecutiveHeights.of_heightsFrom (h : HeightsFrom 0 bs) : ConsecutiveHeights bs := by
  intro i b hi
  rw [h i b hi, Nat.zero_add]

/-- Every append that succeeded has read the line before. -/
theorem run_readable (hrun : Run (AppendStep C J) EpochStore.empty bs s)
    (hw : ∀ b ∈ bs, J.Writes b) (hc : ConsecutiveHeights bs) :
    ∀ m < bs.length, NextReadable J (bs.take m) := by
  have hstart : (∀ b ∈ ([] : List Block), J.Writes b) → ConsecutiveHeights [] →
      Stores C J EpochStore.empty [] ∧
        ∀ m < ([] : List Block).length, NextReadable J (([] : List Block).take m) :=
    fun _ _ => ⟨stores_empty, fun m hm => absurd hm (Nat.not_lt_zero m)⟩
  refine (hrun.history_invariant (I := fun bs s => (∀ b ∈ bs, J.Writes b) →
    ConsecutiveHeights bs → Stores C J s bs ∧ ∀ m < bs.length, NextReadable J (bs.take m)) ?_
    hstart hw hc).2
  intro bs s b s' ih hstep hw hc
  have hw' : ∀ c ∈ bs, J.Writes c := fun c hmem => hw c (List.mem_append_left _ hmem)
  obtain ⟨hs, hread⟩ := ih hw' hc.of_append
  obtain ⟨hlast, hs'⟩ := hstep.stores hs hw' hc
  refine ⟨hs', fun m hm => ?_⟩
  rw [List.length_append, List.length_singleton] at hm
  rw [List.take_append_of_le_length (by omega)]
  by_cases hall : m = bs.length
  · rw [hall, List.take_length]
    exact hlast
  · exact hread m (by omega)

/-- Blocks without a gap are appended when every line before is read. -/
theorem run_of_readable (hw : ∀ b ∈ bs, J.Writes b) (hc : ConsecutiveHeights bs)
    (hread : ∀ m < bs.length, NextReadable J (bs.take m)) :
    ∃ s, Run (AppendStep C J) EpochStore.empty bs s := by
  induction bs using List.reverseRecOn with
  | nil => exact ⟨_, .nil _⟩
  | append_singleton bs b ih =>
      have hw' : ∀ c ∈ bs, J.Writes c := fun c hmem => hw c (List.mem_append_left _ hmem)
      have hlen : (bs ++ [b]).length = bs.length + 1 := by
        rw [List.length_append, List.length_singleton]
      obtain ⟨s, hrun⟩ := ih hw' hc.of_append fun m hm => by
        have h := hread m (by omega)
        rwa [List.take_append_of_le_length hm.le] at h
      have hlast := hread bs.length (by omega)
      rw [List.take_left] at hlast
      have hstep := appendStep_of_readable (run_stores hrun hw' hc.of_append) hw' hc hlast
      exact ⟨_, hrun.snoc hstep⟩

theorem consecutive_of_load (hload : loadBlocksFromEpochs J s = .ok bs) :
    ConsecutiveHeights bs := by
  obtain ⟨hheights, hman⟩ := load_facts hload
  have hlen : bs.length < 2 ^ 64 := by
    obtain ⟨-, rfl⟩ | ⟨man, -, hlen, -⟩ := hman
    · decide
    · rw [hlen]
      exact man.canonicalH.isLt
  intro i b hi
  have hlt := (List.getElem?_eq_some_iff.mp hi).1
  rw [height_of_checkHeights hheights hi, BitVec.toNat_add, toNat_ofNat_of_lt (by omega)]
  simp only [BitVec.toNat_ofNat]
  omega

end Stored

section Chains

variable {C : Crypto} {J : BlockJson} {cfg : GenCfg} {valSks : List SigningKey} {ch₀ ch : Chain}
  {ls : List SealSkip}

/-- The blocks of a run of seals and skips are all appended to an empty store and loaded from it
exactly when no block comes after a skip and every append can read the line before. -/
theorem sealed_chain_stored_iff (hboot : Chain.boot cfg valSks = some ch₀)
    (hrun : Run (SealSkipStep C) ch₀ ls ch) (hw : ∀ b ∈ sealedBlocks ls, J.Writes b) :
    (∃ s, Run (AppendStep C J) EpochStore.empty (sealedBlocks ls) s ∧
        loadBlocksFromEpochs J s = .ok (sealedBlocks ls)) ↔
      SkipsLast ls ∧
        ∀ m < (sealedBlocks ls).length, NextReadable J ((sealedBlocks ls).take m) := by
  have htip : ch₀.tipH = 0#64 := BitVec.eq_of_toNat_eq (boot_sealedBy (C := C) hboot).tipH_eq
  have hplaced := (run_placed hrun htip).2
  constructor
  · rintro ⟨s, happended, hload⟩
    have hc := consecutive_of_load hload
    exact ⟨(heightsFrom_sealedBlocks_iff hplaced).mp hc.heightsFrom,
      run_readable happended hw hc⟩
  · rintro ⟨hskips, hread⟩
    have hc := ConsecutiveHeights.of_heightsFrom ((heightsFrom_sealedBlocks_iff hplaced).mpr hskips)
    obtain ⟨s, happended⟩ := run_of_readable hw hc hread
    exact ⟨s, happended, (run_stores happended hw hc).load hw hc⟩

end Chains

/-! ## A skip before the first block

The devnet gives up its first height and seals an empty block at the second
one. -/

namespace SkipFirst

set_option maxRecDepth 8192

open HalfSeason

/-- The JSON text of the first block of the devnet, without its outer braces. -/
def inner : List Char :=
  ["\"hdr\":\x7b\"height\":1,\"prev_hash\":\"",
    "52002052195e96fc6379a04df75794d0",
    "333458e98180236bb24957745b944366",
    "\",\"ts\":1700000001,\"prod_idx\":0,\"tx_root\":\"",
    "f48ef0568e656db56ca009e0ed80604d",
    "3f38cbe30b28a48f750d1e5139ef44f5",
    "\",\"state_root\":\"",
    "1f45b8b8211fb7b0ac71e3dd2750608e",
    "ffb4632fb368be87037abe5caca99a2a",
    "\",\"sig\":\"",
    "72f3c35eed18bb4b84fb811b83426b1d",
    "2ca3c4dfe805d57d38722cfa263b4ab7",
    "8444981faca281fd71d50e02c1e1708f",
    "1a50ae90895e65821a22ddeb1132b300",
    "\"\x7d,\"txs\":[]"].flatMap String.toList

def text : String := String.ofList ('\x7b' :: inner ++ ['\x7d'])

def json : BlockJson where
  toText := fun _ => text
  ofText := fun t => if t = text then .ok devNetBlock else .error "expected value at line 1 column 1"

theorem single_text : newline ∉ strBytes text := by
  unfold text inner
  rw [strBytes_object]
  decide

theorem writes : ∀ b ∈ [devNetBlock], json.Writes b := by
  intro b hb
  obtain rfl := List.mem_singleton.mp hb
  refine ⟨?_, ⟨inner, String.toList_ofList⟩, single_text⟩
  simp only [json, if_pos]

/-- Two heights, of which the second is given up. -/
theorem skipLast_run : Run (SealSkipStep crypto) (chain devNet)
    [.sealed devNetBlock, .skipped 2#64] ((sealedWith devNet devNetBlock).setCanonH 2#64) := by
  have hsealed : SealSkipStep crypto (chain devNet) (.sealed devNetBlock)
      (sealedWith devNet devNetBlock) :=
    @SealSkipStep.sealed crypto _ _ now [] _ seal_devNet (Chain.append_getLast? _ _ _)
  exact (Run.single hsealed).snoc (.skipped (by decide +kernel))

def second : Block :=
  ⟨{ height := 2#64, prevHash := PolicyRace.genesisHash, ts := 1700000002#64, prodIdx := 0#32,
     txRoot := emptyRoot, stateRoot := devNetRoot,
     sig := 0x0a97b631bfd9b8cd7446b5b18553734c529e66d2fa42feda5ae891d4074261a609994981814b289d18a522f878fd83bb50d9c09256fa6ef8c364fb3a2ec62d0c#512 }, []⟩

def preimage : Bytes32 :=
  0xa4c1a270ac60013498d2aaf392b6e2ef9a7a1fe688bc423522b515dfa3d9e244#256

def skipCrypto : Crypto :=
  .ofTables
    [(devNetRow.pubkey.beBytes 32 ++ (0#32).leBytes 4, devNetRow.acct),
      (strBytes "PWMv0/GENESIS", PolicyRace.genesisHash), (strBytes "PWMv0/EMPTYTX", emptyRoot),
      ((after devNet).bytes, devNetRoot), ({ second.hdr with sig := 0#512 }.signBytes, preimage),
      (second.hdr.bytes, 0xd733e715368d2464df6bda8f4f90336a13d92706b0f0535a46bf45e303afc3cf#256)]
    [⟨devNetSk, devNetRow.pubkey, [(preimage.beBytes 32, second.hdr.sig)]⟩]

theorem skipFirst_run : Run (SealSkipStep skipCrypto) (chain devNet)
    [.skipped 1#64, .sealed second]
    (((chain devNet).setCanonH 1#64).append second (after devNet)) := by
  have hskipped : SealSkipStep skipCrypto (chain devNet) (.skipped 1#64)
      ((chain devNet).setCanonH 1#64) := .skipped (by decide)
  exact (Run.single hskipped).snoc
    (@SealSkipStep.sealed skipCrypto _ _ 1700000002#64 [] _ (by decide +kernel)
      (Chain.append_getLast? _ _ _))

end SkipFirst

open HalfSeason SkipFirst in
/-- A block and a skip after it. -/
theorem sealed_chain_stored_skipLast :
    Chain.boot devNet [devNetSk] = some (chain devNet) ∧
      ∃ s, Run (AppendStep crypto json) EpochStore.empty [devNetBlock] s ∧
        loadBlocksFromEpochs json s = .ok [devNetBlock] := by
  have hboot : Chain.boot devNet [devNetSk] = some (chain devNet) := by decide
  refine ⟨hboot, (sealed_chain_stored_iff hboot skipLast_run writes).mpr ⟨?_, fun m hm => ?_⟩⟩
  · simp [SkipsLast, SealSkip.IsSkip]
  · obtain rfl : m = 0 := Nat.lt_one_iff.mp hm
    exact nextReadable_nil json

open HalfSeason SkipFirst in
/-- A block after a skip is not appended to the empty store, whatever its text. -/
theorem skipFirst_not_stored :
    Chain.boot devNet [devNetSk] = some (chain devNet) ∧
      Run (SealSkipStep skipCrypto) (chain devNet) [.skipped 1#64, .sealed second]
        (((chain devNet).setCanonH 1#64).append second (after devNet)) ∧
      ∀ J, appendBlockForEpoch skipCrypto J EpochStore.empty second [] =
        .error "epoch append gap: first height in file must be 1, got 2" [] := by
  refine ⟨by decide, skipFirst_run, fun J => ?_⟩
  rfl

end Pwm
