import Pwm.Lib.Run
import Pwm.Node.Replay

/-!
# Skipped heights

A proposer may give up a height whose primary missed it: the canonical height
moves on and no block is made. A replica sees blocks only. As long as nothing
is sealed after a skip the replica follows, block by block and epoch by epoch;
the first block after a skip is refused.
-/

namespace Pwm

open BitVec Attempt

/-- Give up the next height; false when it is not the next height any more. -/
def Chain.skipMissedH (ch : Chain) (h : U64) : Bool × Chain :=
  if ch.tipH.saturatingAdd 1#64 ≠ h then (false, ch) else (true, ch.setCanonH h)

/-- The epoch boundaries above one height and up to another. -/
def boundaryCount (cfg : GenCfg) (a b : U64) : Nat :=
  (List.range' (a.toNat + 1) (b.toNat - a.toNat)).countP fun h =>
    isEpochBoundary (BitVec.ofNat 64 h) cfg

theorem boundaryCount_self (cfg : GenCfg) (a : U64) : boundaryCount cfg a a = 0 := by
  simp [boundaryCount]

theorem boundaryCount_succ (cfg : GenCfg) {a b c : U64} (hle : a.toNat ≤ b.toNat)
    (hc : c.toNat = b.toNat + 1) :
    boundaryCount cfg a c =
      boundaryCount cfg a b + if isEpochBoundary c cfg then 1 else 0 := by
  have hlen : c.toNat - a.toNat = (b.toNat - a.toNat) + 1 := by omega
  have hlast : a.toNat + 1 + (b.toNat - a.toNat) = c.toNat := by omega
  have hword : BitVec.ofNat 64 c.toNat = c := by simp
  rw [boundaryCount, boundaryCount, hlen, List.range'_1_concat, List.countP_append, hlast,
    List.countP_singleton, hword]

section Epoch

variable {C : Crypto} {ch : Chain} {blk : Block} {st' : State}

/-- A block leads to the epoch that the roll at its height leads to. -/
theorem Replays.epoch (h : Replays C ch blk st') :
    st'.epoch = (rollEpochIfNeeded ch.cfg ch.st blk.hdr.height).epoch := by
  obtain ⟨st, hrun, hends⟩ := h.run
  rw [hends.epoch, forM_applyTxWithCtx_epoch hrun, beforeTxs_epoch]

end Epoch

/-! ## A proposer and its replica -/

/-- A proposer, and a replica that is given every sealed block. -/
structure Rotation where
  proposer : Chain
  replica : Except SyncFault Inner

/-- What a step of the proposer did; a seal shows the chains around it and the replica after it. -/
inductive RotLabel
  | sealed (pre : Chain) (now : U64) (entries : List SealEntry) (post : Chain)
      (rep : Except SyncFault Inner)
  | skipped (h : U64)

inductive RotStep (C : Crypto) : Rotation → RotLabel → Rotation → Prop
  | sealed {s : Rotation} {now : U64} {entries : List SealEntry} {ch' : Chain} {blk : Block}
      (hvalid : ∀ entry ∈ entries, Validated C s.proposer entry)
      (hseal : sealEntries C now s.proposer entries = .ok ch')
      (hblk : ch'.blocks.getLast? = some blk) {rep' : Except SyncFault Inner}
      (hrep : (s.replica.bind fun inn => applyBlk C inn blk) = rep') :
      RotStep C s (.sealed s.proposer now entries ch' rep') ⟨ch', rep'⟩
  | skipped {s : Rotation} {h : U64} {ch' : Chain}
      (hskip : s.proposer.skipMissedH h = (true, ch')) :
      RotStep C s (.skipped h) ⟨ch', s.replica⟩

namespace RotLabel

def IsSeal : RotLabel → Prop
  | .sealed _ _ _ _ _ => True
  | .skipped _ => False

def IsSkip : RotLabel → Prop
  | .sealed _ _ _ _ _ => False
  | .skipped _ => True

/-- The entries of a seal pass the policies at their turns. -/
def PoliciesPass (C : Crypto) : RotLabel → Prop
  | .sealed pre now entries _ _ => SealPasses C now pre entries
  | .skipped _ => True

/-- The replica has the block and the proposer's epoch, which has advanced at every boundary. -/
def Followed (start : Chain) : RotLabel → Prop
  | .sealed pre _ _ post rep =>
      (∃ inn, rep = .ok inn ∧ inn.chain.st.epoch = post.st.epoch) ∧
      post.st.epochCounter.toNat =
        min (start.st.epochCounter.toNat + boundaryCount start.cfg start.tipH post.tipH)
          (2 ^ 64 - 1) ∧
      (isEpochBoundary post.tipH start.cfg →
        post.st.activeValidatorIndices = recomputeActiveIdxs start.cfg pre.st)
  | .skipped _ => True

end RotLabel

/-- No block is sealed after a skip. -/
def NoSealAfterSkip (ls : List RotLabel) : Prop :=
  ls.Pairwise fun l l' => l.IsSkip → ¬ l'.IsSeal

theorem noSealAfterSkip_snoc {ls : List RotLabel} {l : RotLabel} :
    NoSealAfterSkip (ls ++ [l]) ↔
      NoSealAfterSkip ls ∧ ∀ l' ∈ ls, l'.IsSkip → ¬ l.IsSeal := by
  simp [NoSealAfterSkip, List.pairwise_append]

/-! ## While nothing was skipped -/

section InStep

variable {C : Crypto} {start : Chain} {s s' : Rotation}

/-- The replica has the proposer's chain, and the epoch counter has gone up at each boundary. -/
structure InStep (start : Chain) (s : Rotation) : Prop where
  replica : ∃ inn, s.replica = .ok inn ∧ inn.chain = s.proposer
  cfg : s.proposer.cfg = start.cfg
  valSks : s.proposer.valSks = start.valSks
  le : start.tipH.toNat ≤ s.proposer.tipH.toNat
  counter : s.proposer.st.epochCounter.toNat =
    min (start.st.epochCounter.toNat + boundaryCount start.cfg start.tipH s.proposer.tipH)
      (2 ^ 64 - 1)

theorem inStep_start {inn : Inner} (hinn : inn.chain = start) : InStep start ⟨start, .ok inn⟩ where
  replica := ⟨inn, rfl, hinn⟩
  cfg := rfl
  valSks := rfl
  le := Nat.le_refl _
  counter := by
    have hlt := start.st.epochCounter.isLt
    rw [boundaryCount_self, Nat.add_zero, Nat.min_eq_left (by omega)]

theorem Replays.counter {ch : Chain} {blk : Block} {st' : State} (h : Replays C ch blk st') :
    st'.epochCounter.toNat =
      min (ch.st.epochCounter.toNat + if isEpochBoundary blk.hdr.height ch.cfg then 1 else 0)
        (2 ^ 64 - 1) := by
  have hepoch := h.epoch
  have hlt := ch.st.epochCounter.isLt
  rw [rollEpochIfNeeded_epoch] at hepoch
  split at hepoch
  · have hcounter : st'.epochCounter = ch.st.epochCounter.saturatingAdd 1#64 :=
      congrArg Prod.fst hepoch
    rw [hcounter, if_pos ‹_›]
    exact toNat_saturatingAdd _ _
  · have hcounter : st'.epochCounter = ch.st.epochCounter := congrArg Prod.fst hepoch
    rw [hcounter, if_neg ‹_›, Nat.add_zero, Nat.min_eq_left (by omega)]

theorem Replays.activeIdxs {ch : Chain} {blk : Block} {st' : State} (h : Replays C ch blk st')
    (hboundary : isEpochBoundary blk.hdr.height ch.cfg) :
    st'.activeValidatorIndices = recomputeActiveIdxs ch.cfg ch.st := by
  have hepoch := h.epoch
  rw [rollEpochIfNeeded_epoch, if_pos hboundary] at hepoch
  exact congrArg Prod.snd hepoch

/-- A seal of a proposer in step is followed, and leaves it in step. -/
theorem InStep.sealed {now : U64} {entries : List SealEntry} {ch' : Chain} {blk : Block}
    (hin : InStep start s) (hkeys : KeysMatch C start)
    (hsigns : ∀ sk ∈ start.valSks, C.SignsVerify sk)
    (hvalid : ∀ entry ∈ entries, Validated C s.proposer entry)
    (hpass : SealPasses C now s.proposer entries)
    (hseal : sealEntries C now s.proposer entries = .ok ch')
    (hblk : ch'.blocks.getLast? = some blk) :
    InStep start ⟨ch', s.replica.bind fun inn => applyBlk C inn blk⟩ ∧
      (RotLabel.sealed s.proposer now entries ch'
        (s.replica.bind fun inn => applyBlk C inn blk)).Followed start := by
  obtain ⟨inn, hrep, hinn⟩ := hin.replica
  have hkeys' : KeysMatch C s.proposer := by
    intro i sk hsk
    rw [hin.cfg]
    rw [hin.valSks] at hsk
    exact hkeys i sk hsk
  have hsigns' : ∀ sk ∈ s.proposer.valSks, C.SignsVerify sk := by
    rw [hin.valSks]
    exact hsigns
  obtain ⟨height, ts, _, _, _, _, hctx, _⟩ := sealEntries_ok hseal
  obtain ⟨blk', st', hreplays, rfl⟩ := sealed_replays hkeys' hsigns' hvalid hpass hseal
  obtain rfl : blk' = blk := Option.some.inj ((Chain.append_getLast? _ _ _).symm.trans hblk)
  have hnext := nextApplyCtx_height hctx
  have hheight : blk'.hdr.height.toNat = s.proposer.tipH.toNat + 1 := by
    rw [hreplays.height, saturatingAdd_of_checked hnext]
    exact checkedAdd_eq_some_iff.mp hnext
  have hcount := boundaryCount_succ start.cfg hin.le hheight
  have hcounter : st'.epochCounter.toNat =
      min (start.st.epochCounter.toNat + boundaryCount start.cfg start.tipH blk'.hdr.height)
        (2 ^ 64 - 1) := by
    rw [hreplays.counter, hin.counter, hcount, hin.cfg]
    split <;> omega
  have hfollow := hreplays
  rw [← hinn] at hfollow
  obtain ⟨inn', happly, hchain⟩ := applyBlk_of_replays hfollow
  rw [hinn] at hchain
  have hrep' : (s.replica.bind fun inn => applyBlk C inn blk') = .ok inn' := by
    rw [hrep]
    exact happly
  constructor
  · refine ⟨⟨inn', hrep', hchain⟩, ?_, ?_, ?_, ?_⟩
    · rw [Chain.append_cfg, hin.cfg]
    · rw [Chain.append_valSks, hin.valSks]
    · have hle := hin.le
      rw [Chain.append_tipH]
      omega
    · rw [Chain.append_st, Chain.append_tipH, hcounter]
  · refine ⟨⟨inn', hrep', by rw [hchain]⟩, ?_, fun hboundary => ?_⟩
    · rw [Chain.append_st, Chain.append_tipH, hcounter]
    · rw [Chain.append_tipH, ← hin.cfg] at hboundary
      rw [Chain.append_st, ← hin.cfg]
      exact hreplays.activeIdxs hboundary

end InStep

/-! ## After a skip -/

section Behind

variable {C : Crypto} {start : Chain} {s s' : Rotation} {l : RotLabel} {ls : List RotLabel}

/-- The replica is not at a height above the proposer's. -/
def Trails (s : Rotation) : Prop :=
  ∀ inn, s.replica = .ok inn → inn.chain.tipH.toNat ≤ s.proposer.tipH.toNat

/-- The replica is below the proposer's height, or there is no height above it. -/
def Behind (s : Rotation) : Prop :=
  ∀ inn, s.replica = .ok inn → inn.chain.tipH.toNat < s.proposer.tipH.toNat ∨
    s.proposer.tipH.toNat + 1 = 2 ^ 64

/-- A replica that is not ahead accepts a sealed block at the proposer's height only. -/
theorem sealed_accepted {now : U64} {ch ch' : Chain} {entries : List SealEntry} {blk : Block}
    {inn inn' : Inner} (hle : inn.chain.tipH.toNat ≤ ch.tipH.toNat)
    (hseal : sealEntries C now ch entries = .ok ch') (hblk : ch'.blocks.getLast? = some blk)
    (hok : applyBlk C inn blk = .ok inn') :
    inn.chain.tipH.toNat = ch.tipH.toNat ∧ ch.tipH.toNat + 1 < 2 ^ 64 ∧
      inn'.chain.tipH = ch'.tipH := by
  obtain ⟨height, ts, prodIdx, sk, st, st', hctx, _, _, _, _, rfl⟩ := sealEntries_ok hseal
  obtain rfl := Option.some.inj ((Chain.append_getLast? _ _ _).symm.trans hblk)
  obtain ⟨st'', hreplays, hchain⟩ := applyBlk_chain hok
  have hheight : height = inn.chain.tipH.saturatingAdd 1#64 := hreplays.height
  have hnext : height.toNat = ch.tipH.toNat + 1 :=
    checkedAdd_eq_some_iff.mp (nextApplyCtx_height hctx)
  have hlt := height.isLt
  have hsat : height.toNat = inn.chain.tipH.toNat + 1 := by
    rw [hheight]
    exact toNat_saturatingAdd_of_fits (by change inn.chain.tipH.toNat + 1 < 2 ^ 64; omega)
  refine ⟨by omega, by omega, ?_⟩
  rw [hchain, Chain.append_tipH, Chain.append_tipH]

theorem skipMissedH_ok {ch ch' : Chain} {h : U64} (hskip : ch.skipMissedH h = (true, ch')) :
    h = ch.tipH.saturatingAdd 1#64 ∧ ch' = ch.setCanonH h := by
  unfold Chain.skipMissedH at hskip
  by_cases hnext : ch.tipH.saturatingAdd 1#64 ≠ h
  · rw [if_pos hnext] at hskip
    cases congrArg Prod.fst hskip
  · rw [if_neg hnext] at hskip
    exact ⟨(not_not.mp hnext).symm, (congrArg Prod.snd hskip).symm⟩

theorem skipMissedH_tipH {ch ch' : Chain} {h : U64} (hskip : ch.skipMissedH h = (true, ch')) :
    ch'.tipH.toNat = min (ch.tipH.toNat + 1) (2 ^ 64 - 1) := by
  obtain ⟨rfl, rfl⟩ := skipMissedH_ok hskip
  exact toNat_saturatingAdd ch.tipH 1#64

theorem accepted_of_bind {rep : Except SyncFault Inner} {blk : Block} {inn' : Inner}
    (h : (rep.bind fun inn => applyBlk C inn blk) = .ok inn') :
    ∃ inn, rep = .ok inn ∧ applyBlk C inn blk = .ok inn' :=
  except_bind_ok_iff.mp h

theorem step_trails (h : Trails s) (hstep : RotStep C s l s') : Trails s' := by
  intro inn' hrep
  cases hstep with
  | sealed hvalid hseal hblk happly =>
      obtain ⟨inn, hinn, hok⟩ := accepted_of_bind (happly.trans hrep)
      obtain ⟨_, _, htip⟩ := sealed_accepted (h inn hinn) hseal hblk hok
      rw [htip]
  | skipped hskip =>
      have htip := skipMissedH_tipH hskip
      have hle := h inn' hrep
      have hlt := s.proposer.tipH.isLt
      simp only
      omega

/-- A replica behind the proposer refuses every later block. -/
theorem Behind.refuses {now : U64} {entries : List SealEntry} {ch' : Chain} {blk : Block}
    (htrails : Trails s) (h : Behind s) (hseal : sealEntries C now s.proposer entries = .ok ch')
    (hblk : ch'.blocks.getLast? = some blk) (inn' : Inner) :
    (s.replica.bind fun inn => applyBlk C inn blk) ≠ .ok inn' := by
  intro hrep
  obtain ⟨inn, hinn, hok⟩ := accepted_of_bind hrep
  obtain ⟨htip, hroom, _⟩ := sealed_accepted (htrails inn hinn) hseal hblk hok
  rcases h inn hinn with hbelow | htop
  · omega
  · omega

/-- A skip puts the replica behind, and nothing brings it back. -/
theorem step_behind (htrails : Trails s) (hbehind : l.IsSkip ∨ Behind s)
    (hstep : RotStep C s l s') : Behind s' := by
  intro inn' hrep
  cases hstep with
  | sealed hvalid hseal hblk happly =>
      rcases hbehind with hskip | hbehind
      · exact hskip.elim
      · exact absurd (happly.trans hrep) (hbehind.refuses htrails hseal hblk inn')
  | skipped hskip =>
      have htip := skipMissedH_tipH hskip
      have hle := htrails inn' hrep
      have hlt := s.proposer.tipH.isLt
      simp only
      omega

theorem run_behind {s₀ : Rotation} (hrun : Run (RotStep C) s₀ ls s) (h₀ : Trails s₀) :
    Trails s ∧ ∀ l ∈ ls, l.IsSkip → Behind s := by
  induction hrun with
  | nil => exact ⟨h₀, by simp⟩
  | @snoc s s' ls l _ hstep ih =>
      obtain ⟨htrails, hbehind⟩ := ih
      refine ⟨step_trails htrails hstep, fun l' hl' hskip => ?_⟩
      rcases List.mem_append.mp hl' with hl' | hl'
      · exact step_behind htrails (.inr (hbehind l' hl' hskip)) hstep
      · obtain rfl := List.mem_singleton.mp hl'
        exact step_behind htrails (.inl hskip) hstep

theorem Behind.not_followed (htrails : Trails s) (h : Behind s) (hstep : RotStep C s l s')
    (hl : l.IsSeal) : ¬ l.Followed start := by
  cases hstep with
  | sealed hvalid hseal hblk happly =>
      rintro ⟨⟨inn', hrep, _⟩, _⟩
      exact h.refuses htrails hseal hblk inn' (happly.trans hrep)
  | skipped hskip => exact hl.elim

end Behind

/-! ## Runs -/

section Runs

variable {C : Crypto} {start : Chain} {inn : Inner} {ls : List RotLabel} {s : Rotation}

theorem followed_of_noSealAfterSkip (hinn : inn.chain = start) (hkeys : KeysMatch C start)
    (hsigns : ∀ sk ∈ start.valSks, C.SignsVerify sk)
    (hrun : Run (RotStep C) ⟨start, .ok inn⟩ ls s) (hpass : ∀ l ∈ ls, l.PoliciesPass C)
    (hskips : NoSealAfterSkip ls) :
    (∀ l ∈ ls, l.Followed start) ∧ ((∀ l ∈ ls, ¬ l.IsSkip) → InStep start s) := by
  induction hrun with
  | nil => exact ⟨by simp, fun _ => inStep_start hinn⟩
  | @snoc s s' ls l _ hstep ih =>
      obtain ⟨hskips, hlast⟩ := noSealAfterSkip_snoc.mp hskips
      obtain ⟨hall, hin⟩ := ih (fun l' hl' => hpass l' (List.mem_append_left _ hl')) hskips
      have hlpass := hpass l (by simp)
      cases hstep with
      | sealed hvalid hseal hblk happly =>
          subst happly
          have hnone : ∀ l' ∈ ls, ¬ l'.IsSkip := fun l' hl' hskip => hlast l' hl' hskip trivial
          obtain ⟨hin', hfollowed⟩ :=
            (hin hnone).sealed hkeys hsigns hvalid hlpass hseal hblk
          refine ⟨fun l' hl' => ?_, fun _ => hin'⟩
          rcases List.mem_append.mp hl' with hl' | hl'
          · exact hall l' hl'
          · rw [List.mem_singleton.mp hl']
            exact hfollowed
      | skipped hskip =>
          refine ⟨fun l' hl' => ?_, fun hnone => ?_⟩
          · rcases List.mem_append.mp hl' with hl' | hl'
            · exact hall l' hl'
            · rw [List.mem_singleton.mp hl']
              trivial
          · exact absurd trivial (hnone (.skipped _) (List.mem_append_right _ List.mem_cons_self))

/-- A replica follows every sealed block of a run exactly when nothing is sealed after a skip. -/
theorem skips_followed_iff (hinn : inn.chain = start) (hkeys : KeysMatch C start)
    (hsigns : ∀ sk ∈ start.valSks, C.SignsVerify sk)
    (hrun : Run (RotStep C) ⟨start, .ok inn⟩ ls s) (hpass : ∀ l ∈ ls, l.PoliciesPass C) :
    (∀ l ∈ ls, l.Followed start) ↔ NoSealAfterSkip ls := by
  constructor
  · intro hall
    clear hpass
    induction hrun with
    | nil => exact List.Pairwise.nil
    | @snoc s s' ls l hrun hstep ih =>
        have hstart : Trails ⟨start, .ok inn⟩ := by
          intro inn' hrep
          rw [← Except.ok.inj hrep, hinn]
        obtain ⟨htrails, hbehind⟩ := run_behind hrun hstart
        refine noSealAfterSkip_snoc.mpr
          ⟨ih fun l' hl' => hall l' (List.mem_append_left _ hl'), fun l' hl' hskip hseal => ?_⟩
        exact (hbehind l' hl' hskip).not_followed htrails hstep hseal (hall l (by simp))
  · intro hskips
    exact (followed_of_noSealAfterSkip hinn hkeys hsigns hrun hpass hskips).1

end Runs

/-! ## A primary that misses its height

Two validators; the second is the primary of height 1, the first of height 2.
The first gives height 1 up and seals height 2 on the genesis chain. -/

namespace MissedPrimary

open PolicyRace (recipientRow genesisHash now)

def net : GenCfg :=
  { PolicyRace.net with
    vals := ⟨[⟨devNetRow.acct, devNetRow.pubkey, devNetRow.derIdx⟩,
      ⟨recipientRow.acct, recipientRow.pubkey, recipientRow.derIdx⟩]⟩ }

def valSks : List SigningKey := [devNetSk, SelfDrain.rescuedSk]

def chain : Chain where
  cfg := net
  valSks := valSks
  blocks := []
  canonicalH := 0#64
  st := { net.state0 with activeValidatorIndices := recomputeActiveIdxs net net.state0 }
  sealTimeMode := .wallClock

def afterSkip : Chain := chain.setCanonH 1#64

def emptyRoot : Bytes32 :=
  0xf48ef0568e656db56ca009e0ed80604d3f38cbe30b28a48f750d1e5139ef44f5#256
def primaryStateRoot : Bytes32 :=
  0xcbcb595659a129c5c95ff1a21d37fe3eddef540628d98066472821cbeb14fc95#256
def failoverStateRoot : Bytes32 :=
  0xdf7c9c3f03ba54131da66935e8909245c6c5ffe71237c0b39c6cc0f4cfab3d37#256

/-- The ledger after an empty block on the genesis chain, for this producer. -/
def rewarded (row : GRow) (height : U64) : State :=
  rewardBlock net chain.st row.acct height

/-- The block that the primary of height 1 would seal. -/
def primaryHdr : BlockHdr :=
  { height := 1#64, prevHash := genesisHash, ts := now, prodIdx := 1#32, txRoot := emptyRoot,
    stateRoot := primaryStateRoot, sig := 0x9a0328b70b65decec0d44f42fdf1672de080c809b020152ad2d18425165e53dcda7a260749969aeed2a84b800b73816b9b151601e532890b940d84237d2a5c05#512 }

/-- The block that the failover seals at height 2. -/
def failoverHdr : BlockHdr :=
  { height := 2#64, prevHash := genesisHash, ts := now, prodIdx := 0#32, txRoot := emptyRoot,
    stateRoot := failoverStateRoot, sig := 0x62a27e3741ae9cbed02d00b4566ac1b1fa9798563290471fe686a6df8e7ab2cab9a5fffee21eef956bec28e01646a9a14b289746a0ba71a782784a671fd1b400#512 }

def primaryPreimage : Bytes32 :=
  0x1e889728c9c6affb95bd4fabab93ffcf256d9750e0486136fed45a12a4789b74#256
def failoverPreimage : Bytes32 :=
  0x32be93dd6f1b7597deb66d556160d35bbe176b1c2eaeaddeff3b9715d5f81247#256

def hashes : List (List U8 × Bytes32) :=
  [(strBytes "PWMv0/GENESIS", genesisHash), (strBytes "PWMv0/EMPTYTX", emptyRoot),
    ((rewarded recipientRow 1#64).bytes, primaryStateRoot),
    ((rewarded devNetRow 2#64).bytes, failoverStateRoot),
    (primaryHdr.signBytes, primaryPreimage), (failoverHdr.signBytes, failoverPreimage)]

def keys : List Crypto.KnownKey :=
  [⟨devNetSk, devNetRow.pubkey, [(failoverPreimage.beBytes 32, failoverHdr.sig)]⟩,
    ⟨SelfDrain.rescuedSk, recipientRow.pubkey, [(primaryPreimage.beBytes 32, primaryHdr.sig)]⟩]

def crypto : Crypto := .ofTables hashes keys

/-- The chain after the late primary's block. -/
def afterPrimary : Chain := chain.append ⟨primaryHdr, []⟩ (rewarded recipientRow 1#64)

/-- The chain after the failover's block. -/
def afterFailover : Chain := afterSkip.append ⟨failoverHdr, []⟩ (rewarded devNetRow 2#64)

theorem keysMatch : KeysMatch crypto chain := by
  intro i sk hsk
  match i, hsk with
  | 0, hsk =>
      obtain rfl := Option.some.inj hsk
      exact ⟨_, rfl, by decide⟩
  | 1, hsk =>
      obtain rfl := Option.some.inj hsk
      exact ⟨_, rfl, by decide⟩

theorem signsVerify : ∀ sk ∈ chain.valSks, crypto.SignsVerify sk := by
  intro sk hsk
  refine Crypto.ofTables_signsVerify _ _ ?_
  rcases List.mem_cons.mp hsk with rfl | hsk
  · exact ⟨_, List.mem_cons_self, rfl⟩
  · obtain rfl := List.mem_singleton.mp hsk
    exact ⟨_, List.mem_cons_of_mem _ List.mem_cons_self, rfl⟩

theorem seal_primary : sealEntries crypto now chain [] = .ok afterPrimary := by
  unfold sealEntries digest crypto hashes State.bytes Account.bytes
  -- bytes put together from the end are faster to compute
  simp -zeta only [List.append_assoc]
  decide +kernel

theorem seal_failover : sealEntries crypto now afterSkip [] = .ok afterFailover := by
  unfold sealEntries digest crypto hashes State.bytes Account.bytes
  simp -zeta only [List.append_assoc]
  decide +kernel

theorem sealPasses_nil (ch : Chain) : SealPasses crypto now ch [] :=
  fun _ _ _ => trivial

/-- The replica after the primary's block. -/
def replicaAfter : Except SyncFault Inner :=
  applyBlk crypto { chain := chain } ⟨primaryHdr, []⟩

/-- The primary seals its height, and the next one is given up. -/
def primaryFirst : List RotLabel :=
  [.sealed chain now [] afterPrimary replicaAfter, .skipped 2#64]

/-- The height of the primary is given up, and the failover seals the next one. -/
def failoverFirst : List RotLabel :=
  [.skipped 1#64,
    .sealed afterSkip now [] afterFailover (.error (.err "height_mismatch want=1 got=2"))]

theorem last_primary : afterPrimary.blocks.getLast? = some ⟨primaryHdr, []⟩ :=
  Chain.append_getLast? _ _ _

theorem last_failover : afterFailover.blocks.getLast? = some ⟨failoverHdr, []⟩ :=
  Chain.append_getLast? _ _ _

theorem refused :
    applyBlk crypto { chain := chain } ⟨failoverHdr, []⟩ =
      .error (.err "height_mismatch want=1 got=2") := by
  decide

theorem ok_bind_applyBlk {C : Crypto} (inn : Inner) (blk : Block) :
    ((Except.ok inn : Except SyncFault Inner).bind fun inn => applyBlk C inn blk) =
      applyBlk C inn blk :=
  rfl

theorem run_primaryFirst :
    Run (RotStep crypto) ⟨chain, .ok { chain := chain }⟩ primaryFirst
      ⟨afterPrimary.setCanonH 2#64, replicaAfter⟩ := by
  have happly : ((Except.ok { chain := chain } : Except SyncFault Inner).bind fun inn =>
      applyBlk crypto inn ⟨primaryHdr, []⟩) = replicaAfter := by
    rw [ok_bind_applyBlk, replicaAfter]
  have hseal : RotStep crypto ⟨chain, .ok { chain := chain }⟩
      (.sealed chain now [] afterPrimary replicaAfter) ⟨afterPrimary, replicaAfter⟩ :=
    .sealed (by simp) seal_primary last_primary happly
  have hskip : afterPrimary.skipMissedH 2#64 = (true, afterPrimary.setCanonH 2#64) := by
    decide +kernel
  exact (Run.single hseal).snoc (.skipped hskip)

theorem run_failoverFirst :
    Run (RotStep crypto) ⟨chain, .ok { chain := chain }⟩ failoverFirst
      ⟨afterFailover, .error (.err "height_mismatch want=1 got=2")⟩ := by
  have hskip : RotStep crypto ⟨chain, .ok { chain := chain }⟩ (.skipped 1#64)
      ⟨afterSkip, .ok { chain := chain }⟩ :=
    .skipped (by decide)
  exact (Run.single hskip).snoc (.sealed (by simp) seal_failover last_failover refused)

end MissedPrimary

/-- The failover's block, sealed after the skip, is refused by the replica. -/
theorem skip_then_seal_refused :
    Chain.boot MissedPrimary.net MissedPrimary.valSks = some MissedPrimary.chain ∧
      KeysMatch MissedPrimary.crypto MissedPrimary.chain ∧
      (∀ sk ∈ MissedPrimary.chain.valSks, MissedPrimary.crypto.SignsVerify sk) ∧
      Run (RotStep MissedPrimary.crypto)
        ⟨MissedPrimary.chain, .ok { chain := MissedPrimary.chain }⟩ MissedPrimary.failoverFirst
        ⟨MissedPrimary.afterFailover, .error (.err "height_mismatch want=1 got=2")⟩ ∧
      (∀ l ∈ MissedPrimary.failoverFirst, l.PoliciesPass MissedPrimary.crypto) ∧
      ¬ ∀ l ∈ MissedPrimary.failoverFirst, l.Followed MissedPrimary.chain := by
  refine ⟨by decide, MissedPrimary.keysMatch, MissedPrimary.signsVerify,
    MissedPrimary.run_failoverFirst, ?_, ?_⟩
  · intro l hl
    rcases List.mem_cons.mp hl with rfl | hl
    · trivial
    · obtain rfl := List.mem_singleton.mp hl
      exact MissedPrimary.sealPasses_nil _
  · intro hall
    obtain ⟨⟨inn, hrep, _⟩, _⟩ := hall _ (List.mem_cons_of_mem _ List.mem_cons_self)
    cases hrep

/-- The primary's block is followed. -/
theorem skips_followed_primaryFirst :
    (∃ s, Run (RotStep MissedPrimary.crypto)
        ⟨MissedPrimary.chain, .ok { chain := MissedPrimary.chain }⟩ MissedPrimary.primaryFirst s) ∧
      ∀ l ∈ MissedPrimary.primaryFirst, l.Followed MissedPrimary.chain := by
  refine ⟨⟨_, MissedPrimary.run_primaryFirst⟩, ?_⟩
  refine (@skips_followed_iff MissedPrimary.crypto MissedPrimary.chain
    { chain := MissedPrimary.chain } MissedPrimary.primaryFirst _ rfl MissedPrimary.keysMatch
    MissedPrimary.signsVerify MissedPrimary.run_primaryFirst ?_).mpr ?_
  · intro l hl
    rcases List.mem_cons.mp hl with rfl | hl
    · exact MissedPrimary.sealPasses_nil _
    · obtain rfl := List.mem_singleton.mp hl
      trivial
  · exact List.pairwise_cons.mpr ⟨fun _ _ hskip => hskip.elim, List.pairwise_singleton _ _⟩

end Pwm
