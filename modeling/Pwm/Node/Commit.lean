import Pwm.Node.Cluster
import Pwm.Node.Skips

/-!
# Commits that are taken back

Before a commit the node keeps what the commit may change, and puts it back
when the commit fails. A batch of blocks is such a commit; it is also taken
back when the snapshot after it is not saved, and is reported as applied all
the same.
-/

namespace Pwm

open BitVec Attempt

structure CommitBak where
  blocks : List Block
  canonicalH : U64
  st : State
  roamingPool : RoamingPool
  crossShard : CrossShardLedger

def takeBak (g : Inner) : CommitBak where
  blocks := g.chain.blocks
  canonicalH := g.chain.tipH
  st := g.chain.st
  roamingPool := g.roamingPool
  crossShard := g.crossShard

def rollbackCommit (g : Inner) (bak : CommitBak) : Inner :=
  { g with
    chain := { g.chain.setCanonH bak.canonicalH with
      blocks := bak.blocks
      st := bak.st }
    roamingPool := bak.roamingPool
    crossShard := bak.crossShard }

/-- What a commit leaves as it is: configuration, keys, clock and transaction pool. -/
structure SameSetup (g g' : Inner) : Prop where
  cfg : g'.chain.cfg = g.chain.cfg
  valSks : g'.chain.valSks = g.chain.valSks
  sealTimeMode : g'.chain.sealTimeMode = g.chain.sealTimeMode
  pool : g'.pool = g.pool

theorem SameSetup.refl (g : Inner) : SameSetup g g := ⟨rfl, rfl, rfl, rfl⟩

theorem SameSetup.trans {g g' g'' : Inner} (h : SameSetup g g') (h' : SameSetup g' g'') :
    SameSetup g g'' where
  cfg := h'.cfg.trans h.cfg
  valSks := h'.valSks.trans h.valSks
  sealTimeMode := h'.sealTimeMode.trans h.sealTimeMode
  pool := h'.pool.trans h.pool

/-- The backup covers all that a commit changes. -/
theorem rollbackCommit_takeBak {g g' : Inner} (h : SameSetup g g') :
    rollbackCommit g' (takeBak g) = g := by
  obtain ⟨hcfg, hkeys, hmode, hpool⟩ := h
  simp only [rollbackCommit, takeBak, Chain.setCanonH, Chain.tipH, hcfg, hkeys, hmode, hpool]

/-! ## Blocks one after the other -/

/-- Applies blocks up to the first that fails; what was applied stays. -/
def applyBlks (C : Crypto) : Inner → List Block → Except SyncFault Unit × Inner
  | inn, [] => (.ok (), inn)
  | inn, blk :: rest =>
      match applyBlk C inn blk with
      | .ok inn => applyBlks C inn rest
      | .error e => (.error e, inn)

section Blocks

variable {C : Crypto} {inn inn' : Inner} {blk : Block} {blocks : List Block} {e : SyncFault}

theorem recordCrossShardTx_setup (inn : Inner) (tx : SignedTx) (height : U64) :
    SameSetup inn (inn.recordCrossShardTx C tx height) := by
  constructor
  · rw [Inner.recordCrossShardTx_chain]
  · rw [Inner.recordCrossShardTx_chain]
  · rw [Inner.recordCrossShardTx_chain]
  · unfold Inner.recordCrossShardTx
    cases tx.body <;> rfl

theorem foldl_recordCrossShardTx_setup (txs : List SignedTx) (height : U64) (inn : Inner) :
    SameSetup inn (txs.foldl (fun inn tx => inn.recordCrossShardTx C tx height) inn) := by
  induction txs generalizing inn with
  | nil => exact SameSetup.refl inn
  | cons tx rest ih => exact (recordCrossShardTx_setup inn tx height).trans (ih _)

theorem applyBlk_setup (hok : applyBlk C inn blk = .ok inn') : SameSetup inn inn' := by
  obtain ⟨st', -, rfl⟩ := applyBlk_ok_iff.mp hok
  have happend : SameSetup inn { inn with chain := inn.chain.append blk st' } := by
    constructor
    · exact Chain.append_cfg _ _ _
    · exact Chain.append_valSks _ _ _
    · simp only [Chain.append, Chain.pushBlock, Chain.setCanonH]
    · rfl
  exact happend.trans (foldl_recordCrossShardTx_setup blk.txs blk.hdr.height _)

theorem applyBlkBatch_setup (hok : applyBlkBatch C inn blocks = .ok inn') :
    SameSetup inn inn' := by
  induction blocks generalizing inn with
  | nil =>
      obtain rfl := Except.ok.inj hok
      exact SameSetup.refl inn
  | cons blk rest ih =>
      obtain ⟨inn₁, hblk, hrest⟩ := except_bind_ok_iff.mp hok
      exact (applyBlk_setup hblk).trans (ih hrest)

theorem applyBlkBatch_append (front rest : List Block) :
    applyBlkBatch C inn (front ++ rest) =
      (applyBlkBatch C inn front).bind fun inn => applyBlkBatch C inn rest :=
  List.foldlM_append

theorem applyBlks_ok_iff :
    applyBlks C inn blocks = (.ok (), inn') ↔ applyBlkBatch C inn blocks = .ok inn' := by
  induction blocks generalizing inn with
  | nil => simp [applyBlks, applyBlkBatch, pure, Except.pure]
  | cons blk rest ih =>
      rw [applyBlks, applyBlkBatch, List.foldlM_cons, except_bind_ok_iff]
      cases hblk : applyBlk C inn blk with
      | ok inn₁ => simp [ih, applyBlkBatch]
      | error e => simp

/-- A failing block leaves what the blocks before it led to. -/
theorem applyBlks_error_iff :
    applyBlks C inn blocks = (.error e, inn') ↔ ∃ front blk rest, blocks = front ++ blk :: rest ∧
      applyBlkBatch C inn front = .ok inn' ∧ applyBlk C inn' blk = .error e := by
  induction blocks generalizing inn with
  | nil => simp [applyBlks]
  | cons blk rest ih =>
      rw [applyBlks]
      cases hblk : applyBlk C inn blk with
      | ok inn₁ =>
          dsimp only
          rw [ih]
          constructor
          · rintro ⟨front, bad, rest', rfl, hfront, hbad⟩
            refine ⟨blk :: front, bad, rest', rfl, ?_, hbad⟩
            exact except_bind_ok_iff.mpr ⟨inn₁, hblk, hfront⟩
          · rintro ⟨front, bad, rest', hblocks, hfront, hbad⟩
            cases front with
            | nil =>
                obtain ⟨rfl, rfl⟩ := List.cons.inj hblocks
                obtain rfl := Except.ok.inj hfront
                exact nomatch hblk.symm.trans hbad
            | cons first front =>
                obtain ⟨rfl, rfl⟩ := List.cons.inj hblocks
                obtain ⟨inn₂, hfirst, hfront⟩ := except_bind_ok_iff.mp hfront
                obtain rfl := Except.ok.inj (hblk.symm.trans hfirst)
                exact ⟨front, bad, rest', rfl, hfront, hbad⟩
      | error e' =>
          constructor
          · intro h
            obtain ⟨he, rfl⟩ := Prod.mk.inj h
            obtain rfl := Except.error.inj he
            exact ⟨[], blk, rest, rfl, rfl, hblk⟩
          · rintro ⟨front, bad, rest', hblocks, hfront, hbad⟩
            cases front with
            | nil =>
                obtain ⟨rfl, rfl⟩ := List.cons.inj hblocks
                obtain rfl := Except.ok.inj hfront
                rw [Except.error.inj (hblk.symm.trans hbad)]
            | cons first front =>
                obtain ⟨rfl, rfl⟩ := List.cons.inj hblocks
                obtain ⟨inn₂, hfirst, -⟩ := except_bind_ok_iff.mp hfront
                exact nomatch hblk.symm.trans hfirst

/-- The tip goes up by the number of blocks, as long as there are heights. -/
theorem applyBlkBatch_tipH (hok : applyBlkBatch C inn blocks = .ok inn') :
    inn'.chain.tipH.toNat = min (inn.chain.tipH.toNat + blocks.length) (2 ^ 64 - 1) := by
  induction blocks generalizing inn with
  | nil =>
      obtain rfl := Except.ok.inj hok
      have hlt := inn.chain.tipH.isLt
      rw [List.length_nil, Nat.add_zero, Nat.min_eq_left (by omega)]
  | cons blk rest ih =>
      obtain ⟨inn₁, hblk, hrest⟩ := except_bind_ok_iff.mp hok
      obtain ⟨st', hreplays, hchain⟩ := applyBlk_chain hblk
      have htip : inn₁.chain.tipH.toNat = min (inn.chain.tipH.toNat + 1) (2 ^ 64 - 1) := by
        rw [hchain, Chain.append_tipH, hreplays.height, toNat_saturatingAdd]
        rfl
      rw [ih hrest, htip, List.length_cons]
      omega

/-- The last block is the tip. -/
theorem applyBlkBatch_last (hok : applyBlkBatch C inn (blocks ++ [blk]) = .ok inn') :
    inn'.chain.tipH = blk.hdr.height := by
  rw [applyBlkBatch_append] at hok
  obtain ⟨inn₁, -, hlast⟩ := except_bind_ok_iff.mp hok
  obtain ⟨inn₂, hblk, hend⟩ := except_bind_ok_iff.mp hlast
  obtain rfl := Except.ok.inj hend
  obtain ⟨st', -, hchain⟩ := applyBlk_chain hblk
  rw [hchain, Chain.append_tipH]

/-- The chain ends with the blocks, as far as it keeps them. -/
theorem applyBlkBatch_blocks (hok : applyBlkBatch C inn blocks = .ok inn') (hne : blocks ≠ []) :
    inn'.chain.blocks = (inn.chain.blocks ++ blocks).drop
      ((inn.chain.blocks ++ blocks).length - tailBlockCap) := by
  induction blocks using List.reverseRecOn generalizing inn' with
  | nil => exact absurd rfl hne
  | append_singleton front blk ih =>
      rw [applyBlkBatch_append] at hok
      obtain ⟨inn₁, hfront, hlast⟩ := except_bind_ok_iff.mp hok
      obtain ⟨inn₂, hblk, hend⟩ := except_bind_ok_iff.mp hlast
      obtain rfl := Except.ok.inj hend
      obtain ⟨st', -, hchain⟩ := applyBlk_chain hblk
      rw [hchain, ← List.append_assoc]
      cases hfirst : front with
      | nil =>
          rw [hfirst] at hfront
          obtain rfl := Except.ok.inj hfront
          rw [Chain.append_blocks, List.append_nil]
      | cons first rest =>
          exact Chain.append_tail (hfirst ▸ ih hfront (by rw [hfirst]; exact List.cons_ne_nil _ _)) _ _

end Blocks

/-! ## A batch with the snapshot after it -/

def autosnapshotBlockInterval : U64 := 100#64
def standbySyncFlushIv : U64 := 100#64

def autosnapHit (h : U64) : Bool :=
  decide (0#64 < h) && decide (h % autosnapshotBlockInterval = 0#64)

/-- Whether one of the heights from one to another has the property. -/
def anyHeight (lo hi : U64) (p : U64 → Bool) : Bool :=
  (List.range (hi.toNat + 1 - lo.toNat)).any fun i => p (lo + BitVec.ofNat 64 i)

/-- What a batch needs of its application; the backend saves a snapshot or fails. -/
structure SyncApp where
  standby : Bool
  autosnapshotBackend : Option (Inner → Except String Unit)

def SyncApp.needPersist (app : SyncApp) (tipBefore tipH : U64) : Bool :=
  let lo := tipBefore.saturatingAdd 1#64
  anyHeight lo tipH autosnapHit ||
    app.standby && anyHeight lo tipH fun h => decide (h = 1#64 ∨ h % standbySyncFlushIv = 0#64)

/-- A snapshot that is not saved takes the commit back. -/
def periodicSnapFinish (g : Inner) (bakOpt : Option CommitBak)
    (saveResult : Option (Except String Unit)) : Inner :=
  match saveResult, bakOpt with
  | some (.error _), some bak => rollbackCommit g bak
  | _, _ => g

/-- A batch of blocks: what is returned, and what the node holds then. -/
def SyncApp.applyBlkBatch (C : Crypto) (app : SyncApp) (inn : Inner) (blocks : List Block) :
    Except SyncFault Unit × Inner :=
  let bak := takeBak inn
  match applyBlks C inn blocks with
  | (.error (.err e), reached) => (.error (.err e), rollbackCommit reached bak)
  | (.error .panic, reached) => (.error .panic, reached)
  | (.ok (), reached) =>
      let saveResult := app.autosnapshotBackend.bind fun save =>
        if app.needPersist inn.chain.tipH reached.chain.tipH then some (save reached) else none
      (.ok (), periodicSnapFinish reached (saveResult.map fun _ => bak) saveResult)

section Batch

variable {C : Crypto} {app : SyncApp} {inn inn' : Inner} {blocks : List Block} {e : String}

theorem anyHeight_exists {lo hi : U64} {p : U64 → Bool} (h : anyHeight lo hi p = true) :
    ∃ height : U64, lo.toNat ≤ height.toNat ∧ height.toNat ≤ hi.toNat ∧ p height = true := by
  obtain ⟨i, hi', hp⟩ := List.any_eq_true.mp h
  rw [List.mem_range] at hi'
  have hlt := hi.isLt
  have hheight : (lo + BitVec.ofNat 64 i).toNat = lo.toNat + i := by
    rw [BitVec.toNat_add, BitVec.toNat_ofNat, Nat.mod_eq_of_lt (by omega : i < 2 ^ 64)]
    exact Nat.mod_eq_of_lt (by omega)
  exact ⟨_, by omega, by omega, hp⟩

/-- A snapshot is due only when the tip has gone up. -/
theorem needPersist_lt {tipBefore tipH : U64} (h : app.needPersist tipBefore tipH = true) :
    tipBefore.toNat < tipH.toNat := by
  have hsome : ∃ p : U64 → Bool, p (allOnes 64) = false ∧
      anyHeight (tipBefore.saturatingAdd 1#64) tipH p = true := by
    rcases Bool.or_eq_true_iff.mp h with hauto | hstandby
    · exact ⟨_, by decide, hauto⟩
    · exact ⟨_, by decide, (Bool.and_eq_true_iff.mp hstandby).2⟩
  obtain ⟨p, hlast, hany⟩ := hsome
  obtain ⟨height, hlo, hhi, hp⟩ := anyHeight_exists hany
  have hone : (1#64 : U64).toNat = 1 := rfl
  rw [toNat_saturatingAdd, hone] at hlo
  by_cases hmax : tipBefore.toNat = 2 ^ 64 - 1
  · -- no snapshot is due at the largest height
    have hheight : height = allOnes 64 := by
      apply BitVec.eq_of_toNat_eq
      rw [BitVec.toNat_allOnes]
      omega
    rw [hheight, hlast] at hp
    cases hp
  · have hlt := tipBefore.isLt
    omega

/-- The snapshot after the batch is due and is not saved. -/
def SaveFails (C : Crypto) (app : SyncApp) (inn : Inner) (blocks : List Block) : Prop :=
  ∃ reached save err, applyBlkBatch C inn blocks = .ok reached ∧
    app.needPersist inn.chain.tipH reached.chain.tipH = true ∧
    app.autosnapshotBackend = some save ∧ save reached = .error err

/-- A block panics after others have changed the node. -/
def PanicsLater (C : Crypto) (inn : Inner) (blocks : List Block) : Prop :=
  ∃ front blk rest reached, blocks = front ++ blk :: rest ∧
    applyBlkBatch C inn front = .ok reached ∧ reached ≠ inn ∧
    applyBlk C reached blk = .error .panic

/-- All blocks were applied in their order, and the chain ends with them. -/
structure AppliedAll (C : Crypto) (inn : Inner) (blocks : List Block) (inn' : Inner) : Prop where
  applied : applyBlkBatch C inn blocks = .ok inn'
  tip : ∀ blk, blocks.getLast? = some blk → inn'.chain.tipH = blk.hdr.height
  kept : blocks ≠ [] → inn'.chain.blocks = (inn.chain.blocks ++ blocks).drop
    ((inn.chain.blocks ++ blocks).length - tailBlockCap)

/-- What is returned is what the node holds: all blocks, or what it held before. -/
def AllOrNothing (C : Crypto) (app : SyncApp) (inn : Inner) (blocks : List Block) : Prop :=
  match app.applyBlkBatch C inn blocks with
  | (.ok (), inn') => AppliedAll C inn blocks inn'
  | (.error _, inn') => inn'.chain = inn.chain ∧ inn'.crossShard = inn.crossShard ∧
      inn'.roamingPool = inn.roamingPool

theorem applyBlkBatch_all (hok : applyBlkBatch C inn blocks = .ok inn') :
    AppliedAll C inn blocks inn' := by
  constructor
  · exact hok
  · intro blk hlast
    obtain ⟨front, rfl⟩ := List.getLast?_eq_some_iff.mp hlast
    exact applyBlkBatch_last hok
  · exact applyBlkBatch_blocks hok

/-- A batch whose snapshot is saved, or not due, keeps its blocks. -/
theorem applyBlkBatch_saved (hok : applyBlkBatch C inn blocks = .ok inn')
    (hsave : ¬ SaveFails C app inn blocks) : app.applyBlkBatch C inn blocks = (.ok (), inn') := by
  simp only [SyncApp.applyBlkBatch, applyBlks_ok_iff.mpr hok]
  cases hbackend : app.autosnapshotBackend with
  | none => rfl
  | some save =>
      rw [Option.bind_some]
      split
      · rename_i hdue
        cases hresult : save inn' with
        | ok u => rfl
        | error err => exact absurd ⟨inn', save, err, hok, hdue, hbackend, hresult⟩ hsave
      · rfl

/-- A batch whose snapshot is not saved is reported as applied and taken back. -/
theorem applyBlkBatch_unsaved (hsave : SaveFails C app inn blocks) :
    app.applyBlkBatch C inn blocks = (.ok (), inn) := by
  obtain ⟨reached, save, err, hok, hdue, hbackend, hresult⟩ := hsave
  simp only [SyncApp.applyBlkBatch, applyBlks_ok_iff.mpr hok, hbackend, Option.bind_some, hdue,
    if_true, hresult, Option.map_some, periodicSnapFinish,
    rollbackCommit_takeBak (applyBlkBatch_setup hok)]

/-- A batch with a block that is refused is taken back. -/
theorem applyBlkBatch_refused (herror : applyBlks C inn blocks = (.error (.err e), inn')) :
    app.applyBlkBatch C inn blocks = (.error (.err e), inn) := by
  obtain ⟨front, blk, rest, -, hok, -⟩ := applyBlks_error_iff.mp herror
  simp only [SyncApp.applyBlkBatch, herror, rollbackCommit_takeBak (applyBlkBatch_setup hok)]

theorem applyBlkBatch_panicked (herror : applyBlks C inn blocks = (.error .panic, inn')) :
    app.applyBlkBatch C inn blocks = (.error .panic, inn') := by
  simp only [SyncApp.applyBlkBatch, herror]

/-- Below the largest height every block changes the node. -/
theorem applyBlkBatch_ne (hok : applyBlkBatch C inn blocks = .ok inn') (hne : blocks ≠ [])
    (htip : inn.chain.tipH ≠ allOnes 64) : inn' ≠ inn := by
  rintro rfl
  have hheight := applyBlkBatch_tipH hok
  have hpos := List.length_pos_iff.mpr hne
  have hlt := inn'.chain.tipH.isLt
  have hbelow : inn'.chain.tipH.toNat ≠ 2 ^ 64 - 1 := by
    intro hmax
    apply htip
    apply BitVec.eq_of_toNat_eq
    rw [BitVec.toNat_allOnes, hmax]
  omega

/-- Below the largest height a panic after the first block leaves blocks behind. -/
theorem panicsLater_of_front {front rest : List Block} {blk : Block}
    (htip : inn.chain.tipH ≠ allOnes 64) (hne : front ≠ [])
    (hfront : applyBlkBatch C inn front = .ok inn')
    (hblk : applyBlk C inn' blk = .error .panic) :
    PanicsLater C inn (front ++ blk :: rest) :=
  ⟨front, blk, rest, inn', rfl, hfront, applyBlkBatch_ne hfront hne htip, hblk⟩

/-- A node that blocks have changed differs in its chain, its ledger or its roaming pool. -/
theorem applyBlkBatch_eq (hok : applyBlkBatch C inn blocks = .ok inn')
    (hchain : inn'.chain = inn.chain) (hledger : inn'.crossShard = inn.crossShard)
    (hroaming : inn'.roamingPool = inn.roamingPool) : inn' = inn := by
  have hpool := (applyBlkBatch_setup hok).pool
  cases inn
  cases inn'
  simp only at hchain hledger hroaming hpool
  subst hchain hledger hroaming hpool
  rfl

/-- A batch that is reported as it is left has saved its snapshot. -/
theorem not_saveFails (hall : AllOrNothing C app inn blocks) : ¬ SaveFails C app inn blocks := by
  intro hsave
  unfold AllOrNothing at hall
  rw [applyBlkBatch_unsaved hsave] at hall
  obtain ⟨reached, save, err, hok, hdue, -, -⟩ := hsave
  obtain rfl := Except.ok.inj (hok.symm.trans hall.applied)
  exact absurd (needPersist_lt hdue) (lt_irrefl _)

theorem not_panicsLater (hall : AllOrNothing C app inn blocks) : ¬ PanicsLater C inn blocks := by
  rintro ⟨front, blk, rest, reached, hblocks, hfront, hchanged, hblk⟩
  have herror := applyBlks_error_iff.mpr ⟨front, blk, rest, hblocks, hfront, hblk⟩
  unfold AllOrNothing at hall
  rw [applyBlkBatch_panicked herror] at hall
  obtain ⟨hchain, hledger, hroaming⟩ := hall
  exact hchanged (applyBlkBatch_eq hfront hchain hledger hroaming)

/-- A batch is all or nothing exactly if the snapshot after it is saved and no block panics after
others. -/
theorem batch_allOrNothing (C : Crypto) (app : SyncApp) (inn : Inner) (blocks : List Block) :
    AllOrNothing C app inn blocks ↔
      ¬ SaveFails C app inn blocks ∧ ¬ PanicsLater C inn blocks := by
  constructor
  · intro hall
    exact ⟨not_saveFails hall, not_panicsLater hall⟩
  · rintro ⟨hsave, hpanic⟩
    unfold AllOrNothing
    cases hrun : applyBlks C inn blocks with
    | mk result reached =>
        cases result with
        | ok u =>
            have hok := applyBlks_ok_iff.mp hrun
            rw [applyBlkBatch_saved hok hsave]
            exact applyBlkBatch_all hok
        | error e =>
            cases e with
            | err e =>
                rw [applyBlkBatch_refused hrun]
                exact ⟨rfl, rfl, rfl⟩
            | panic =>
                rw [applyBlkBatch_panicked hrun]
                obtain ⟨front, blk, rest, hblocks, hfront, hblk⟩ := applyBlks_error_iff.mp hrun
                have hunchanged : reached = inn := by
                  by_contra hchanged
                  exact hpanic ⟨front, blk, rest, reached, hblocks, hfront, hchanged, hblk⟩
                subst hunchanged
                exact ⟨rfl, rfl, rfl⟩

end Batch

/-! ## A snapshot that is not saved -/

namespace UnsavedBatch

/-- A standby whose disk is full. -/
def fullDisk : SyncApp := ⟨true, some fun _ => .error "No space left on device"⟩

/-- The standby before the first block. -/
def standby : Inner := { chain := MissedPrimary.chain }

/-- The block that the primary of height 1 sealed. -/
def sealed : Block := ⟨MissedPrimary.primaryHdr, []⟩

/-- The standby with the block. -/
def reached : Inner := { chain := MissedPrimary.afterPrimary }

theorem applied : applyBlkBatch MissedPrimary.crypto standby [sealed] = .ok reached := by
  have hblk : applyBlk MissedPrimary.crypto standby sealed = .ok reached :=
    applyBlk_of_sealed_empty MissedPrimary.keysMatch MissedPrimary.signsVerify
      MissedPrimary.seal_primary
  rw [applyBlkBatch, List.foldlM_cons, hblk]
  rfl

theorem saveFails : SaveFails MissedPrimary.crypto fullDisk standby [sealed] := by
  have hdue : fullDisk.needPersist 0#64 1#64 = true := by
    decide
  exact ⟨reached, _, _, applied, hdue, rfl, rfl⟩

end UnsavedBatch

/-- The first block is applied and its snapshot is not saved: the batch is reported as applied, and
the node holds nothing of it. -/
theorem unsaved_batch_lost :
    UnsavedBatch.fullDisk.applyBlkBatch MissedPrimary.crypto UnsavedBatch.standby
        [UnsavedBatch.sealed] = (.ok (), UnsavedBatch.standby) ∧
      ¬ AllOrNothing MissedPrimary.crypto UnsavedBatch.fullDisk UnsavedBatch.standby
        [UnsavedBatch.sealed] := by
  constructor
  · exact applyBlkBatch_unsaved UnsavedBatch.saveFails
  · apply mt not_saveFails
    exact not_not_intro UnsavedBatch.saveFails

end Pwm
