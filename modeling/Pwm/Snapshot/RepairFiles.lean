import Pwm.Lib.ByKey
import Pwm.Lib.Text
import Pwm.Snapshot.RoundTrip
import Pwm.Snapshot.StoredChain
import Pwm.Snapshot.TrustedLoad

/-!
# The files of a repair

A repair reads the epoch files that it finds, whatever the manifest says of
them, as far as their blocks go on one by one. It replays these blocks from
genesis and writes the directory anew up to the last one that it reproduces,
or up to a height that was asked for.
-/

namespace Pwm

open BitVec Attempt CheckedLog

/-! ## The data directory -/

/-- The text of a summary, and what is read from a text. -/
structure SummaryJson where
  toText : SnapshotData → String
  ofText : String → Except String SnapshotData

/-- A summary is written as an object of the current version and read as that. -/
def SummaryJson.Writes (S : SummaryJson) (snap : SnapshotData) : Prop :=
  S.ofText (S.toText snap) = dataFromV4 (dataToV4 snap)

/-- The files in the folder of the epochs in the order in which they are listed, the manifest and
the text of the summary. -/
structure DataDir where
  epochs : List (String × List U8)
  manifest : Option EpochManifest
  summary : Option String

def isEpochFile (name : String) : Bool :=
  "block_e".toList.isPrefixOf name.toList && ".jsonl".toList.isSuffixOf name.toList

/-- What the node sees of the directory. -/
def DataDir.store (dir : DataDir) : EpochStore :=
  ⟨fun name => if isEpochFile name then dir.epochs.lookup name else none, dir.manifest⟩

/-- The index in the name of an epoch file. -/
def epochFileIdx (name : String) : Except SnapFault U64 :=
  let idxTxt := Text.trimEndMatches ".jsonl".toList
    (Text.trimStartMatches "block_e".toList name.toList)
  (Digits.parseUnsigned 64 idxTxt).mapError fun e =>
    .err ("repair bad epoch file name " ++ name ++ ": " ++ e)

/-- The epoch files with their indices, as they are listed. -/
def epochFiles (dir : DataDir) : Except SnapFault (List (U64 × String × List U8)) :=
  (dir.epochs.filter fun f => isEpochFile f.1).mapM fun f => do
    let idx ← epochFileIdx f.1
    return ((epochRange idx).idx, f)

/-! ## Reading the blocks -/

/-- The blocks of lines as long as they go on from a height, and the height that comes next unless
a line ended the reading. -/
def repairLines (J : BlockJson) (fileName : String) :
    U64 → List (List U8 × Nat) → Except SnapFault (List Block × Option U64)
  | wantH, [] => .ok ([], some wantH)
  | wantH, p :: rest =>
      match utf8Text (stripCr p.1) with
      | none =>
          .error (.err s!"read {fileName} line {p.2}: stream did not contain valid UTF-8")
      | some text =>
          if text.toList.all isWhitespace then repairLines J fileName wantH rest
          else match J.ofText text with
            | .error _ => .ok ([], none)
            | .ok blk =>
                if blk.hdr.height ≠ wantH then .ok ([], none)
                else do
                  let (more, nextH) ← repairLines J fileName (wantH.saturatingAdd 1#64) rest
                  return (blk :: more, nextH)

def repairFilesFrom (J : BlockJson) :
    U64 → List (U64 × String × List U8) → Except SnapFault (List Block)
  | _, [] => .ok []
  | wantH, (_, name, bytes) :: rest => do
      let (blocks, nextH) ← repairLines J name wantH (LineFile.lines newline bytes).zipIdx
      match nextH with
      | none => return blocks
      | some wantH =>
          let more ← repairFilesFrom J wantH rest
          return blocks ++ more

def readEpochBlocks (J : BlockJson) (dir : DataDir) : Except SnapFault (List Block) := do
  let files ← epochFiles dir
  repairFilesFrom J 1#64 (files.mergeSort fun f g => decide (f.1 ≤ g.1))

/-! ## Writing the directory -/

structure RepairDisk where
  dir : DataDir
  backups : List DataDir := []

inductive RepairWrite
  | backup
  | removeFile (fileName : String)
  | putFile (fileName : String) (bytes : List U8)
  | putManifest (man : EpochManifest)
  | putSummary (text : String)

namespace RepairDisk

def apply (disk : RepairDisk) : RepairWrite → RepairDisk
  | .backup => { disk with backups := disk.backups ++ [disk.dir] }
  | .removeFile fileName =>
      let epochs := disk.dir.epochs.filter fun f => decide (f.1 ≠ fileName)
      { disk with dir := { disk.dir with epochs := epochs } }
  | .putFile fileName bytes =>
      let epochs := disk.dir.epochs.filter fun f => decide (f.1 ≠ fileName)
      { disk with dir := { disk.dir with epochs := epochs ++ [(fileName, bytes)] } }
  | .putManifest man => { disk with dir := { disk.dir with manifest := some man } }
  | .putSummary text => { disk with dir := { disk.dir with summary := some text } }

def applyAll (disk : RepairDisk) (writes : List RepairWrite) : RepairDisk :=
  writes.foldl apply disk

end RepairDisk

/-- Make a write of the repair. -/
def logRepair (w : RepairWrite) : EStateM SnapFault (List RepairWrite) Unit :=
  modify fun writes => writes ++ [w]

/-- The blocks up to a height, each with the index of its epoch. -/
def epochRows (blocks : List Block) (targetH : U64) : Except SnapFault (List (U64 × Block)) :=
  (blocks.takeWhile fun b => decide (b.hdr.height ≤ targetH)).mapM fun b => do
    let idx ← (epochIdx b.hdr.height).mapError .err
    return (idx, b)

/-- The lines of an epoch file, joined. -/
def epochBody (J : BlockJson) (blocks : List Block) : List U8 :=
  [newline].intercalate (blocks.map J.line) ++ [newline]

def rewriteEpochs (J : BlockJson) (dir : DataDir) (blocks : List Block) (targetH : U64) :
    EStateM SnapFault (List RepairWrite) Unit := do
  let files ← liftExcept id (epochFiles dir)
  files.forM fun f => logRepair (.removeFile f.2.1)
  let rows ← liftExcept id (epochRows blocks targetH)
  (ByKey.byKey BitVec.toNat rows).forM fun e =>
    logRepair (.putFile (epochFileName e.1) (epochBody J e.2))

/-- The row of the manifest for the blocks of an epoch. -/
def epochMeta (e : U64 × List Block) : EpochMeta :=
  ⟨e.1, (e.2.head?.map fun b => b.hdr.height).getD 0#64,
    (e.2.getLast?.map fun b => b.hdr.height).getD 0#64, epochFileName e.1⟩

def rewriteManifest (blocks : List Block) (targetH : U64) (tipHash : String) :
    EStateM SnapFault (List RepairWrite) Unit := do
  let rows ← liftExcept id (epochRows blocks targetH)
  let epochs := (ByKey.byKey BitVec.toNat rows).map epochMeta
  logRepair (.putManifest (mkManifest targetH tipHash epochs))

/-- The summary that a repair writes; it has no anchor. -/
def repairSummary (cfg : GenCfg) (state : State) (roaming : SnapshotRoamingWire)
    (crossShard : CrossShardLedger) (targetH : U64) : SnapshotData where
  version := snapshotVersion
  genesisAccounts := snapshotGenesisAccounts cfg
  genesisAnchor := none
  blocks := []
  state := state
  roaming := roaming
  crossShard := crossShard
  blocksStored := .epochs
  checkpointHeight := targetH

/-- What is kept of the old summary: the roaming and cross-shard parts, if it is of that height. -/
def loadAuxSummary (S : SummaryJson) (dir : DataDir) (targetH : U64) :
    SnapshotRoamingWire × CrossShardLedger × Bool :=
  match dir.summary.map S.ofText with
  | some (.ok snap) =>
      if snap.checkpointHeight = targetH then (snap.roaming, snap.crossShard, true)
      else ({}, {}, false)
  | _ => ({}, {}, false)

/-! ## The repair -/

structure SnapRepairOpts where
  targetH : Option U64
  backup : Bool
  dryRun : Bool

structure SnapRepairReport where
  lastGoodH : U64
  targetH : U64
  tipHash : String
  wroteFiles : Bool
  backedUp : Bool
  keptAuxSummary : Bool

section Repair

variable (C : Crypto) (J : BlockJson) (S : SummaryJson) (cfgJson : GenCfg → List U8) (cfg : GenCfg)

/-- Loads the summary of a directory with its blocks; without a summary but with a manifest, the
state of genesis stands for it. -/
def loadDirSnapshot (opts : SnapshotLoadOpts) (allowLegacyEnv : Bool) (dir : DataDir) :
    Except SnapFault (Option SnapshotData) :=
  match dir.summary, dir.manifest with
  | none, none => .ok none
  | some text, _ => do
      let snap ← (S.ofText text).mapError .err
      let snap ← loadSnapshot C J cfgJson cfg dir.store opts allowLegacyEnv snap
      return some snap
  | none, some _ => do
      let snap ← loadSnapshot C J cfgJson cfg dir.store opts allowLegacyEnv
        (repairSummary cfg cfg.state0 {} {} 0#64)
      return some snap

/-- The written directory is loaded in full and has to come to the target. -/
def repairPostCheck (dir : DataDir) (targetH : U64) : Except SnapFault Unit := do
  let loaded ← loadDirSnapshot C J S cfgJson cfg ⟨true, none, 0#32⟩ false dir
  let snap ← orFail loaded (.err "repair post-check failed: snapshot missing after write")
  check (snap.blocks.length = targetH.toNat)
    (.err s!"repair post-check failed: loaded tip {snap.blocks.length} != target {targetH.toNat}")

/-- The height to repair to: the one asked for, if the replay gets that far. -/
def repairTarget (opts : SnapRepairOpts) (lastGoodH : U64) : Except SnapFault U64 :=
  match opts.targetH with
  | some h => do
      check (h ≤ lastGoodH)
        (.err s!"repair target too high: requested {h.toNat}, last reproducible {lastGoodH.toNat}")
      .ok h
  | none => .ok lastGoodH

def rewriteDir (disk : RepairDisk) (opts : SnapRepairOpts) (all : List Block) (res : ReplayRes)
    (targetH : U64) : EStateM SnapFault (List RepairWrite) Unit := do
  let (roaming, crossShard, _) := loadAuxSummary S disk.dir targetH
  onlyIf (opts.backup = true) (logRepair .backup)
  rewriteEpochs J disk.dir all targetH
  rewriteManifest all targetH res.lastGoodHash
  logRepair (.putSummary (S.toText (repairSummary cfg res.state roaming crossShard targetH)))
  let writes ← get
  liftExcept id (repairPostCheck C J S cfgJson cfg (disk.applyAll writes).dir targetH)

/-- The repair, and the writes that it makes. -/
def repairJsonEpochs (disk : RepairDisk) (opts : SnapRepairOpts) :
    EStateM SnapFault (List RepairWrite) SnapRepairReport := do
  let all ← liftExcept id (readEpochBlocks J disk.dir)
  let replayAll ← liftExcept id (replayTo C cfg all none)
  let targetH ← liftExcept id (repairTarget opts replayAll.lastGoodH)
  let replayTarget ← liftExcept id (replayTo C cfg all (some targetH))
  require (replayTarget.lastGoodH = targetH)
    (.err s!"repair target {targetH.toNat} is not reproducible (replayed to {replayTarget.lastGoodH.toNat})")
  onlyIf (opts.dryRun = false) (rewriteDir C J S cfgJson cfg disk opts all replayTarget targetH)
  return {
    lastGoodH := replayAll.lastGoodH
    targetH := targetH
    tipHash := replayTarget.lastGoodHash
    wroteFiles := !opts.dryRun
    backedUp := !opts.dryRun && opts.backup
    keptAuxSummary := (loadAuxSummary S disk.dir targetH).2.2 }

end Repair

/-! ## Names -/

theorem epochFileName_toList (eidx : U64) : (epochFileName eidx).toList =
    "block_e".toList ++ (Nat.toDigits 10 eidx.toNat ++ ".jsonl".toList) := by
  rw [epochFileName, String.toList_append, String.toList_append, Nat.toString_eq_repr,
    Nat.toList_repr, List.append_assoc]

theorem isEpochFile_epochFileName (eidx : U64) : isEpochFile (epochFileName eidx) = true := by
  rw [isEpochFile, epochFileName_toList, Bool.and_eq_true]
  constructor
  · exact List.isPrefixOf_iff_prefix.mpr (List.prefix_append _ _)
  · rw [← List.append_assoc]
    exact List.isSuffixOf_iff_suffix.mpr (List.suffix_append _ _)

/-- The name of an epoch file tells its index. -/
theorem epochFileIdx_epochFileName (eidx : U64) :
    epochFileIdx (epochFileName eidx) = .ok eidx := by
  have hdigit : ∀ c, c.isDigit = false → c ∉ Nat.toDigits 10 eidx.toNat := by
    intro c hc hmem
    rw [Digits.isDigit_of_mem_decimal hmem] at hc
    cases hc
  have hfront : '_' ∉ Nat.toDigits 10 eidx.toNat ++ ".jsonl".toList := by
    rw [List.mem_append]
    rintro (hbad | hbad)
    · exact hdigit '_' (by decide) hbad
    · exact absurd hbad (by decide)
  have hback : 'l' ∉ Nat.toDigits 10 eidx.toNat := hdigit 'l' (by decide)
  rw [epochFileIdx, epochFileName_toList, Text.trimStartMatches_append (by decide) hfront,
    Text.trimEndMatches_append (by decide) hback, Digits.parseUnsigned_decimal]
  rfl

/-! ## Reading the blocks of a store -/

section Reading

variable {J : BlockJson} {bs : List Block} {wantH : U64}

theorem repairLines_blocks (fileName : String) (hw : ∀ b ∈ bs, J.Writes b)
    (hheights : ∀ k b, bs[k]? = some b → b.hdr.height.toNat = wantH.toNat + k) (i : Nat) :
    ∃ nextH, repairLines J fileName wantH ((bs.map J.line).zipIdx i) = .ok (bs, some nextH) ∧
      nextH.toNat = min (wantH.toNat + bs.length) (2 ^ 64 - 1) := by
  induction bs generalizing wantH i with
  | nil =>
      have hlt := wantH.isLt
      refine ⟨wantH, rfl, ?_⟩
      rw [List.length_nil, Nat.add_zero]
      omega
  | cons b bs ih =>
      have hb := hw b List.mem_cons_self
      have hheight : b.hdr.height = wantH := BitVec.eq_of_toNat_eq (hheights 0 b rfl)
      have hwant : ∀ k c, bs[k]? = some c →
          c.hdr.height.toNat = (wantH.saturatingAdd 1#64).toNat + k := by
        intro k c hk
        have hc := hheights (k + 1) c hk
        have hlt := c.hdr.height.isLt
        have hone : (1#64 : U64).toNat = 1 := rfl
        rw [toNat_saturatingAdd, hone, hc]
        omega
      obtain ⟨nextH, hrest, hnext⟩ :=
        ih (fun c hc => hw c (List.mem_cons_of_mem b hc)) hwant (i + 1)
      refine ⟨nextH, ?_, ?_⟩
      · rw [List.map_cons, List.zipIdx_cons, repairLines, hb.stripCr_line, BlockJson.line,
          utf8Text_strBytes]
        dsimp only
        rw [hb.not_blank, if_neg Bool.false_ne_true, hb.reads]
        dsimp only
        rw [if_neg (not_not.mpr hheight), hrest]
        rfl
      · have hone : (1#64 : U64).toNat = 1 := rfl
        rw [hnext, toNat_saturatingAdd, hone, List.length_cons]
        omega

/-- The files of some epochs in a row. -/
def epochTable (J : BlockJson) (bs : List Block) (es : List Nat) :
    List (U64 × String × List U8) :=
  es.map fun e => (BitVec.ofNat 64 e, epochFileName (BitVec.ofNat 64 e), blockFile J (epochBlocks bs e))

/-- The lines of the file of an epoch are those of its blocks. -/
theorem lines_epochFile (hw : ∀ b ∈ bs, J.Writes b) (e : Nat) :
    LineFile.lines newline (blockFile J (epochBlocks bs e)) = (epochBlocks bs e).map J.line := by
  refine LineFile.lines_ofLines fun l hl => ?_
  obtain ⟨b, hb, rfl⟩ := List.mem_map.mp hl
  exact (hw b (List.mem_of_mem_drop (List.mem_of_mem_take hb))).single

theorem repairFilesFrom_table (hw : ∀ b ∈ bs, J.Writes b) (hc : ConsecutiveHeights bs) {j n : Nat}
    (hends : j + n ≤ epochCount bs.length) (hwant : n ≠ 0 → wantH.toNat = 1000 * j + 1) :
    repairFilesFrom J wantH (epochTable J bs (List.range' j n)) =
      .ok ((bs.drop (1000 * j)).take (1000 * n)) := by
  induction n generalizing j wantH with
  | zero => simp [epochTable, repairFilesFrom]
  | succ n ih =>
      have hfrom := hwant (Nat.succ_ne_zero n)
      have hblocks : ∀ b ∈ epochBlocks bs j, J.Writes b := fun b hb =>
        hw b (List.mem_of_mem_drop (List.mem_of_mem_take hb))
      have hheights : ∀ k b, (epochBlocks bs j)[k]? = some b →
          b.hdr.height.toNat = wantH.toNat + k := by
        intro k b hk
        rw [epochBlocks, List.getElem?_take] at hk
        split at hk
        · rw [List.getElem?_drop] at hk
          rw [hc _ b hk, hfrom]
          omega
        · cases hk
      obtain ⟨nextH, hread, hnext⟩ :=
        repairLines_blocks (epochFileName (BitVec.ofNat 64 j)) hblocks hheights 0
      have hmore : n ≠ 0 → nextH.toNat = 1000 * (j + 1) + 1 := by
        intro hn
        have hfits := hc.length_lt
        have hlen : (epochBlocks bs j).length = 1000 := by
          rw [epochBlocks, List.length_take, List.length_drop]
          rw [epochCount] at hends
          omega
        rw [hnext, hlen, hfrom]
        rw [epochCount] at hends
        omega
      have hrest : repairFilesFrom J nextH (epochTable J bs (List.range' (j + 1) n)) =
          .ok ((bs.drop (1000 * (j + 1))).take (1000 * n)) := ih (by omega) hmore
      rw [epochTable, List.range'_succ, List.map_cons, repairFilesFrom, lines_epochFile hw,
        hread]
      change (do
        let more ← repairFilesFrom J nextH (epochTable J bs (List.range' (j + 1) n))
        return epochBlocks bs j ++ more) = _
      rw [hrest, epochBlocks, Nat.mul_succ 1000 n, Nat.add_comm (1000 * n), List.take_add,
        List.drop_drop, Nat.mul_succ 1000 j]
      rfl

/-- Lines that are read give blocks whose heights go on one by one. -/
theorem repairLines_heights {fileName : String} {ps : List (List U8 × Nat)} {nextH : Option U64}
    (hread : repairLines J fileName wantH ps = .ok (bs, nextH)) :
    (∀ k b, bs[k]? = some b → b.hdr.height.toNat = min (wantH.toNat + k) (2 ^ 64 - 1)) ∧
      ∀ next ∈ nextH, next.toNat = min (wantH.toNat + bs.length) (2 ^ 64 - 1) := by
  have hlt := wantH.isLt
  induction ps generalizing wantH bs nextH with
  | nil =>
      obtain ⟨rfl, rfl⟩ := Prod.mk.inj (Except.ok.inj hread)
      refine ⟨fun k b hk => by simp at hk, fun next hnext => ?_⟩
      obtain rfl := Option.some.inj hnext
      rw [List.length_nil]
      omega
  | cons p rest ih =>
      have hstop : ∀ r : Except SnapFault (List Block × Option U64),
          r = .ok ([], none) → r = .ok (bs, nextH) →
          (∀ k b, bs[k]? = some b → b.hdr.height.toNat = min (wantH.toNat + k) (2 ^ 64 - 1)) ∧
            ∀ next ∈ nextH, next.toNat = min (wantH.toNat + bs.length) (2 ^ 64 - 1) := by
        intro r hr hr'
        obtain ⟨rfl, rfl⟩ := Prod.mk.inj (Except.ok.inj (hr.symm.trans hr'))
        exact ⟨fun k b hk => by simp at hk, fun next hnext => by cases hnext⟩
      rw [repairLines] at hread
      split at hread
      · cases hread
      · split at hread
        · exact ih hread hlt
        · split at hread
          · exact hstop _ rfl hread
          · rename_i blk _
            split at hread
            · exact hstop _ rfl hread
            · rename_i hheight
              obtain ⟨⟨more, nextH'⟩, hrest, hread⟩ := except_bind_ok_iff.mp hread
              obtain ⟨rfl, rfl⟩ := Prod.mk.inj (Except.ok.inj hread)
              have hone : (1#64 : U64).toNat = 1 := rfl
              obtain ⟨hheights, hnext⟩ := ih hrest (wantH.saturatingAdd 1#64).isLt
              rw [toNat_saturatingAdd, hone] at hheights hnext
              constructor
              · intro k b hk
                cases k with
                | zero =>
                    obtain rfl := Option.some.inj hk
                    rw [not_not.mp hheight]
                    omega
                | succ k =>
                    rw [List.getElem?_cons_succ] at hk
                    rw [hheights k b hk]
                    omega
              · intro next hmem
                rw [hnext next hmem, List.length_cons]
                omega

theorem repairFilesFrom_heights {files : List (U64 × String × List U8)}
    (hread : repairFilesFrom J wantH files = .ok bs) :
    ∀ k b, bs[k]? = some b → b.hdr.height.toNat = min (wantH.toNat + k) (2 ^ 64 - 1) := by
  induction files generalizing wantH bs with
  | nil =>
      obtain rfl := Except.ok.inj hread
      intro k b hk
      simp at hk
  | cons f rest ih =>
      obtain ⟨eidx, name, bytes⟩ := f
      rw [repairFilesFrom] at hread
      obtain ⟨⟨blocks, nextH⟩, hlines, hread⟩ := except_bind_ok_iff.mp hread
      obtain ⟨hheights, hnext⟩ := repairLines_heights hlines
      cases nextH with
      | none =>
          obtain rfl := Except.ok.inj hread
          exact hheights
      | some next =>
          obtain ⟨more, hmore, hread⟩ := except_bind_ok_iff.mp hread
          obtain rfl := Except.ok.inj hread
          have hfrom := hnext next rfl
          intro k b hk
          by_cases hfirst : k < blocks.length
          · rw [List.getElem?_append_left hfirst] at hk
            exact hheights k b hk
          · rw [List.getElem?_append_right (Nat.le_of_not_lt hfirst)] at hk
            rw [ih hmore _ b hk, hfrom]
            omega

theorem readEpochBlocks_heights {dir : DataDir} (hread : readEpochBlocks J dir = .ok bs)
    (hfits : bs.length < 2 ^ 64) : ConsecutiveHeights bs := by
  obtain ⟨files, -, hread⟩ := except_bind_ok_iff.mp hread
  intro k b hk
  have hlt := (List.getElem?_eq_some_iff.mp hk).1
  have hone : (1#64 : U64).toNat = 1 := rfl
  rw [repairFilesFrom_heights hread k b hk, hone]
  omega

end Reading

/-! ## The directory of some blocks -/

section Directory

variable {C : Crypto} {J : BlockJson} {bs : List Block} {dir : DataDir}

/-- The directory has the files of these blocks as its epoch files. -/
def DataDir.Holds (J : BlockJson) (dir : DataDir) (bs : List Block) : Prop :=
  ∃ others, (∀ f ∈ others, isEpochFile f.1 = false) ∧
    dir.epochs = others ++ (epochTable J bs (List.range (epochCount bs.length))).map Prod.snd

theorem epochTable_sorted (hfits : bs.length < 2 ^ 64) (n : Nat) (hn : n ≤ epochCount bs.length) :
    (epochTable J bs (List.range n)).Pairwise fun f g => decide (f.1 ≤ g.1) = true := by
  rw [epochTable, List.pairwise_map]
  refine List.Pairwise.imp_of_mem ?_ List.pairwise_lt_range
  intro e e' he he' hlt
  rw [List.mem_range] at he he'
  rw [epochCount] at hn
  rw [decide_eq_true_eq, BitVec.le_def, toNat_ofNat_of_lt (by omega), toNat_ofNat_of_lt (by omega)]
  exact le_of_lt hlt

theorem epochFiles_holds (n : Nat) {others : List (String × List U8)}
    (hothers : ∀ f ∈ others, isEpochFile f.1 = false)
    (hepochs : dir.epochs = others ++ (epochTable J bs (List.range n)).map Prod.snd) :
    epochFiles dir = .ok (epochTable J bs (List.range n)) := by
  have hfiles : (dir.epochs.filter fun f => isEpochFile f.1) =
      (epochTable J bs (List.range n)).map Prod.snd := by
    rw [hepochs, List.filter_append, List.filter_eq_nil_iff.mpr, List.nil_append,
      List.filter_eq_self]
    · intro f hf
      obtain ⟨row, hrow, rfl⟩ := List.mem_map.mp hf
      obtain ⟨e, -, rfl⟩ := List.mem_map.mp hrow
      exact isEpochFile_epochFileName _
    · intro f hf
      rw [hothers f hf]
      exact Bool.false_ne_true
  rw [epochFiles, hfiles]
  refine mapM_map_ok ?_
  intro row hrow
  obtain ⟨e, -, rfl⟩ := List.mem_map.mp hrow
  dsimp only
  rw [epochFileIdx_epochFileName]
  rfl

/-- The files of the first epochs are read into their blocks. -/
theorem readEpochBlocks_front (hw : ∀ b ∈ bs, J.Writes b) (hc : ConsecutiveHeights bs) {n : Nat}
    (hn : n ≤ epochCount bs.length) {others : List (String × List U8)}
    (hothers : ∀ f ∈ others, isEpochFile f.1 = false)
    (hepochs : dir.epochs = others ++ (epochTable J bs (List.range n)).map Prod.snd) :
    readEpochBlocks J dir = .ok (bs.take (1000 * n)) := by
  have hfiles := epochFiles_holds n hothers hepochs
  have hread : repairFilesFrom J 1#64 (epochTable J bs (List.range' 0 n)) =
      .ok ((bs.drop (1000 * 0)).take (1000 * n)) :=
    repairFilesFrom_table hw hc (by omega) fun _ => rfl
  rw [readEpochBlocks, hfiles]
  change repairFilesFrom J 1#64 ((epochTable J bs (List.range n)).mergeSort _) = _
  rw [List.mergeSort_of_pairwise (epochTable_sorted hc.length_lt n hn), List.range_eq_range', hread]
  rfl

theorem DataDir.Holds.read (h : dir.Holds J bs) (hw : ∀ b ∈ bs, J.Writes b)
    (hc : ConsecutiveHeights bs) : readEpochBlocks J dir = .ok bs := by
  obtain ⟨others, hothers, hepochs⟩ := h
  rw [readEpochBlocks_front hw hc (Nat.le_refl _) hothers hepochs, List.take_of_length_le]
  rw [epochCount]
  omega

theorem lookup_append_of_not_mem {others table : List (String × List U8)} {name : String}
    (hnot : ∀ f ∈ others, f.1 ≠ name) : (others ++ table).lookup name = table.lookup name := by
  induction others with
  | nil => rfl
  | cons f rest ih =>
      have hne : (name == f.1) = false := by
        simpa using (hnot f List.mem_cons_self).symm
      obtain ⟨k, v⟩ := f
      rw [List.cons_append, List.lookup_cons, hne]
      exact ih fun g hg => hnot g (List.mem_cons_of_mem _ hg)

theorem lookup_epochTable (hfits : bs.length < 2 ^ 64) {n : Nat} (hn : n ≤ epochCount bs.length)
    (eidx : U64) :
    ((epochTable J bs (List.range n)).map Prod.snd).lookup (epochFileName eidx) =
      if eidx.toNat < n then some (blockFile J (epochBlocks bs eidx.toNat)) else none := by
  induction n with
  | zero => rfl
  | succ n ih =>
      have hlt : n < 2 ^ 64 := by
        rw [epochCount] at hn
        omega
      rw [epochTable, List.range_succ, List.map_append, List.map_append, List.lookup_append]
      change (((epochTable J bs (List.range n)).map Prod.snd).lookup _).or _ = _
      rw [ih (by omega)]
      by_cases hbelow : eidx.toNat < n
      · rw [if_pos hbelow, if_pos (by omega)]
        rfl
      · rw [if_neg hbelow, Option.none_or]
        by_cases hsame : eidx.toNat = n
        · subst hsame
          rw [if_pos (by omega)]
          simp [BitVec.ofNat_toNat]
        · have hne : epochFileName eidx ≠ epochFileName (BitVec.ofNat 64 n) := by
            intro hbad
            rw [epochFileName_injective hbad, toNat_ofNat_of_lt hlt] at hsame
            exact hsame rfl
          rw [if_neg (by omega)]
          simp [hne]

/-- The directory of some blocks is a store of them. -/
theorem DataDir.Holds.stores (h : dir.Holds J bs) (hne : bs ≠ [])
    (hfits : bs.length < 2 ^ 64) (hman : dir.manifest = some (manifestFor C bs)) :
    Stores C J dir.store bs := by
  obtain ⟨others, hothers, hepochs⟩ := h
  constructor
  · intro eidx
    have hnot : ∀ f ∈ others, f.1 ≠ epochFileName eidx := by
      rintro f hf hbad
      have hfile := hothers f hf
      rw [hbad, isEpochFile_epochFileName] at hfile
      cases hfile
    have hcount : eidx.toNat < epochCount bs.length ↔ 1000 * eidx.toNat < bs.length := by
      rw [epochCount]
      omega
    simp only [DataDir.store, isEpochFile_epochFileName, if_true]
    rw [hepochs, lookup_append_of_not_mem hnot, lookup_epochTable hfits (Nat.le_refl _)]
    simp only [hcount]
  · intro fileName bytes hfile
    simp only [DataDir.store] at hfile
    split at hfile
    · rename_i hepoch
      obtain ⟨front, back, hsplit, -⟩ := List.lookup_eq_some_iff.mp hfile
      have hmem : (fileName, bytes) ∈ dir.epochs := by
        rw [hsplit]
        exact List.mem_append_right _ List.mem_cons_self
      rw [hepochs, List.mem_append] at hmem
      rcases hmem with hother | htable
      · have hbad := hothers _ hother
        rw [hepoch] at hbad
        cases hbad
      · obtain ⟨row, hrow, hsame⟩ := List.mem_map.mp htable
        obtain ⟨e, -, rfl⟩ := List.mem_map.mp hrow
        exact ⟨_, (congrArg Prod.fst hsame).symm⟩
    · cases hfile
  · rw [if_neg hne]
    exact hman

end Directory

/-! ## The writes -/

section Writes

variable {C : Crypto} {J : BlockJson} {bs : List Block} {disk : RepairDisk}

theorem RepairDisk.applyAll_append (disk : RepairDisk) (ws vs : List RepairWrite) :
    disk.applyAll (ws ++ vs) = (disk.applyAll ws).applyAll vs :=
  List.foldl_append

theorem applyAll_removes (disk : RepairDisk) (names : List String) :
    disk.applyAll (names.map .removeFile) = { disk with
      dir := { disk.dir with epochs := disk.dir.epochs.filter fun f => decide (f.1 ∉ names) } } := by
  induction names generalizing disk with
  | nil =>
      have hall : (disk.dir.epochs.filter fun f => decide (f.1 ∉ ([] : List String))) =
          disk.dir.epochs := List.filter_eq_self.mpr fun f _ => by simp
      rw [hall]
      rfl
  | cons name rest ih =>
      have hboth : ∀ f : String × List U8, (decide (f.1 ∉ rest) && decide (f.1 ≠ name)) =
          decide (f.1 ∉ name :: rest) := by
        intro f
        rw [← Bool.decide_and, decide_eq_decide, List.mem_cons]
        tauto
      change (disk.apply (.removeFile name)).applyAll (rest.map .removeFile) = _
      rw [ih]
      simp only [RepairDisk.apply, List.filter_filter, hboth]

theorem applyAll_puts (disk : RepairDisk) (files : List (String × List U8))
    (hnew : ∀ f ∈ disk.dir.epochs, ∀ g ∈ files, f.1 ≠ g.1)
    (hdistinct : files.Pairwise fun f g => f.1 ≠ g.1) :
    disk.applyAll (files.map fun f => .putFile f.1 f.2) = { disk with
      dir := { disk.dir with epochs := disk.dir.epochs ++ files } } := by
  induction files generalizing disk with
  | nil =>
      rw [List.append_nil]
      rfl
  | cons f rest ih =>
      obtain ⟨hfirst, hrest⟩ := List.pairwise_cons.mp hdistinct
      have hkept : (disk.dir.epochs.filter fun g => decide (g.1 ≠ f.1)) = disk.dir.epochs :=
        List.filter_eq_self.mpr fun g hg => decide_eq_true (hnew g hg f List.mem_cons_self)
      have hput : disk.apply (.putFile f.1 f.2) = { disk with
          dir := { disk.dir with epochs := disk.dir.epochs ++ [f] } } := by
        simp only [RepairDisk.apply, hkept]
      change (disk.apply (.putFile f.1 f.2)).applyAll (rest.map fun f => .putFile f.1 f.2) = _
      rw [hput, ih]
      · rw [List.append_cons disk.dir.epochs f rest]
      · intro g hg g' hg'
        rcases List.mem_append.mp hg with hold | hlast
        · exact hnew g hold g' (List.mem_cons_of_mem f hg')
        · obtain rfl := List.mem_singleton.mp hlast
          exact hfirst g' hg'
      · exact hrest

theorem takeWhile_heights (hc : ConsecutiveHeights bs) (targetH : U64) :
    (bs.takeWhile fun b => decide (b.hdr.height ≤ targetH)) = bs.take targetH.toNat := by
  have hgeneral : ∀ (i : Nat) (cs : List Block),
      (∀ k b, cs[k]? = some b → b.hdr.height.toNat = i + k + 1) →
      (cs.takeWhile fun b => decide (b.hdr.height ≤ targetH)) = cs.take (targetH.toNat - i) := by
    intro i cs hcs
    induction cs generalizing i with
    | nil => simp
    | cons c rest ih =>
        have hheight := hcs 0 c rfl
        have hrest := ih (i + 1) fun k b hk => by
          have hb := hcs (k + 1) b hk
          omega
        by_cases hle : c.hdr.height ≤ targetH
        · rw [List.takeWhile_cons, if_pos (decide_eq_true hle), hrest]
          rw [BitVec.le_def] at hle
          obtain ⟨m, hm⟩ : ∃ m, targetH.toNat - i = m + 1 := ⟨targetH.toNat - i - 1, by omega⟩
          rw [hm, List.take_succ_cons]
          congr 2
          omega
        · rw [List.takeWhile_cons, if_neg (fun h => hle (of_decide_eq_true h))]
          rw [BitVec.le_def] at hle
          have hzero : targetH.toNat - i = 0 := by omega
          rw [hzero, List.take_zero]
  have h := hgeneral 0 bs fun k b hk => by
    rw [hc k b hk, Nat.zero_add]
  rwa [Nat.sub_zero] at h

/-- The index of the epoch of a block. -/
def epochOf (b : Block) : U64 :=
  (b.hdr.height - 1#64) / epochSpan

theorem epochOf_toNat {b : Block} {i : Nat} (hheight : b.hdr.height.toNat = i + 1) :
    (epochOf b).toNat = i / 1000 := by
  have hlt := b.hdr.height.isLt
  have hone : (1#64 : U64).toNat = 1 := rfl
  have hspan : epochSpan.toNat = 1000 := rfl
  rw [epochOf, BitVec.toNat_udiv, hspan, BitVec.toNat_sub_of_le, hheight, hone,
    Nat.add_sub_cancel]
  rw [BitVec.le_def, hone, hheight]
  exact Nat.le_add_left 1 i

theorem epochRows_eq (hc : ConsecutiveHeights bs) (targetH : U64) :
    epochRows bs targetH =
      .ok ((bs.take targetH.toNat).map fun b => (epochOf b, b)) := by
  have hrows : (bs.take targetH.toNat) =
      ((bs.take targetH.toNat).map fun b => (epochOf b, b)).map Prod.snd := by
    rw [List.map_map]
    exact (List.map_id _).symm
  rw [epochRows, takeWhile_heights hc]
  conv_lhs => rw [hrows]
  refine mapM_map_ok ?_
  intro row hrow
  obtain ⟨b, hb, rfl⟩ := List.mem_map.mp hrow
  obtain ⟨k, hk⟩ := List.mem_iff_getElem?.mp (List.mem_of_mem_take hb)
  have hne : b.hdr.height ≠ 0#64 := by
    intro hzero
    have hheight := hc k b hk
    rw [hzero] at hheight
    simp at hheight
  rw [epochIdx, if_neg hne]
  rfl

/-- Blocks without a gap are grouped into the epochs that they fill one after the other. -/
theorem byKey_epochs (hc : ConsecutiveHeights bs) :
    ByKey.byKey BitVec.toNat (bs.map fun b => (epochOf b, b)) =
      (List.range (epochCount bs.length)).map fun e => (BitVec.ofNat 64 e, epochBlocks bs e) := by
  have hfits := hc.length_lt
  have hkeys : ∀ e ∈ List.range (epochCount bs.length), e < 2 ^ 64 ∧ 1000 * e < bs.length := by
    intro e he
    rw [List.mem_range, epochCount] at he
    omega
  have hindex : ∀ {k : Nat} {b : Block}, bs[k]? = some b →
      epochOf b = BitVec.ofNat 64 (k / 1000) := by
    intro k b hk
    have hlt := (List.getElem?_eq_some_iff.mp hk).1
    apply BitVec.eq_of_toNat_eq
    rw [epochOf_toNat (hc k b hk), toNat_ofNat_of_lt (by omega)]
  have hgroups := @ByKey.byKey_eq U64 Block _ BitVec.toNat (bs.map fun b => (epochOf b, b))
    ((List.range (epochCount bs.length)).map (BitVec.ofNat 64))
    (fun _ _ => BitVec.eq_of_toNat_eq) ?_ ?_
  · rw [hgroups, List.map_map]
    refine List.map_congr_left fun e he => ?_
    obtain ⟨hlt, hbelow⟩ := hkeys e he
    have hsplit : bs = bs.take (1000 * e) ++ (epochBlocks bs e ++ bs.drop (1000 * e + 1000)) := by
      rw [epochBlocks, ← List.drop_drop, List.take_append_drop, List.take_append_drop]
    have hvalue : ∀ (P : Nat → Prop) (cs : List Block),
        (∀ b ∈ cs, ∃ k, bs[k]? = some b ∧ P (k / 1000)) →
        ∀ row ∈ cs.map (fun b => (epochOf b, b)),
          ∃ k, row.1 = BitVec.ofNat 64 k ∧ k < 2 ^ 64 ∧ P k := by
      intro P cs hcs row hrow
      obtain ⟨b, hb, rfl⟩ := List.mem_map.mp hrow
      obtain ⟨k, hk, hP⟩ := hcs b hb
      have hklt := (List.getElem?_eq_some_iff.mp hk).1
      exact ⟨k / 1000, hindex hk, by omega, hP⟩
    have hbefore : ∀ row ∈ (bs.take (1000 * e)).map (fun b => (epochOf b, b)),
        row.1 ≠ BitVec.ofNat 64 e := by
      intro row hrow hsame
      obtain ⟨k, hk, hklt, hP⟩ := hvalue (fun k => k < e) _ (fun b hb => by
        obtain ⟨k, hk⟩ := List.mem_iff_getElem?.mp hb
        rw [List.getElem?_take] at hk
        split at hk
        · exact ⟨k, hk, by omega⟩
        · cases hk) row hrow
      have hnat := congrArg BitVec.toNat (hk.symm.trans hsame)
      rw [toNat_ofNat_of_lt hklt, toNat_ofNat_of_lt hlt] at hnat
      omega
    have hinside : ∀ row ∈ (epochBlocks bs e).map (fun b => (epochOf b, b)),
        row.1 = BitVec.ofNat 64 e := by
      intro row hrow
      obtain ⟨k, hk, -, hP⟩ := hvalue (fun k => k = e) _ (fun b hb => by
        obtain ⟨k, hk⟩ := List.mem_iff_getElem?.mp hb
        rw [epochBlocks, List.getElem?_take] at hk
        split at hk
        · rw [List.getElem?_drop] at hk
          exact ⟨_, hk, by omega⟩
        · cases hk) row hrow
      rw [hk, hP]
    have hafter : ∀ row ∈ (bs.drop (1000 * e + 1000)).map (fun b => (epochOf b, b)),
        row.1 ≠ BitVec.ofNat 64 e := by
      intro row hrow hsame
      obtain ⟨k, hk, hklt, hP⟩ := hvalue (fun k => e < k) _ (fun b hb => by
        obtain ⟨k, hk⟩ := List.mem_iff_getElem?.mp hb
        rw [List.getElem?_drop] at hk
        exact ⟨_, hk, by omega⟩) row hrow
      have hnat := congrArg BitVec.toNat (hk.symm.trans hsame)
      rw [toNat_ofNat_of_lt hklt, toNat_ofNat_of_lt hlt] at hnat
      omega
    have hvalues : ByKey.valuesAt (BitVec.ofNat 64 e) (bs.map fun b => (epochOf b, b)) =
        epochBlocks bs e := by
      conv_lhs => rw [hsplit]
      rw [List.map_append, List.map_append, ByKey.valuesAt_append, ByKey.valuesAt_append,
        ByKey.valuesAt_of_none hbefore, ByKey.valuesAt_of_all hinside,
        ByKey.valuesAt_of_none hafter, List.nil_append, List.append_nil, List.map_map]
      exact List.map_id _
    exact congrArg (Prod.mk _) hvalues
  · rw [List.pairwise_map]
    refine List.Pairwise.imp_of_mem ?_ List.pairwise_lt_range
    intro e e' he he' hlt
    rw [toNat_ofNat_of_lt (hkeys e he).1, toNat_ofNat_of_lt (hkeys e' he').1]
    exact hlt
  · intro eidx
    rw [List.mem_map]
    constructor
    · rintro ⟨e, he, rfl⟩
      obtain ⟨-, hbelow⟩ := hkeys e he
      have hk : bs[1000 * e]? = some bs[1000 * e] := List.getElem?_eq_getElem hbelow
      refine ⟨bs[1000 * e], List.mem_map.mpr ⟨_, List.mem_of_getElem? hk, ?_⟩⟩
      rw [hindex hk, Nat.mul_div_cancel_left _ (by decide)]
    · rintro ⟨b, hb⟩
      obtain ⟨c, hmem, hsame⟩ := List.mem_map.mp hb
      obtain ⟨rfl, rfl⟩ := Prod.mk.inj hsame
      obtain ⟨k, hk⟩ := List.mem_iff_getElem?.mp hmem
      refine ⟨k / 1000, ?_, (hindex hk).symm⟩
      have hlt := (List.getElem?_eq_some_iff.mp hk).1
      rw [List.mem_range, epochCount]
      omega

theorem epochBody_eq {blocks : List Block} (hne : blocks ≠ []) :
    epochBody J blocks = blockFile J blocks := by
  have hlines : ∀ ls : List (List U8), ls ≠ [] →
      [newline].intercalate ls ++ [newline] = LineFile.ofLines newline ls := by
    intro ls hls
    induction ls with
    | nil => exact absurd rfl hls
    | cons l rest ih =>
        cases rest with
        | nil => simp [LineFile.ofLines]
        | cons l' rest =>
            have htail := ih (List.cons_ne_nil _ _)
            rw [LineFile.ofLines, List.flatMap_cons] at htail ⊢
            rw [List.flatMap_cons, ← htail]
            simp [List.intercalate_cons_cons]
  rw [epochBody, blockFile]
  apply hlines
  simpa using hne

theorem epochMeta_eq (hc : ConsecutiveHeights bs) {e : Nat} (hbelow : 1000 * e < bs.length) :
    epochMeta (BitVec.ofNat 64 e, epochBlocks bs e) = rowAt bs.length e := by
  have hfits := hc.length_lt
  have hheight : ∀ (k : Nat) (hk : k < bs.length),
      bs[k].hdr.height = BitVec.ofNat 64 (k + 1) := by
    intro k hk
    apply BitVec.eq_of_toNat_eq
    rw [hc k _ (List.getElem?_eq_getElem hk), toNat_ofNat_of_lt]
    have hlt := bs[k].hdr.height.isLt
    have hheight := hc k _ (List.getElem?_eq_getElem hk)
    omega
  have hhead : (epochBlocks bs e).head? = some bs[1000 * e] := by
    rw [List.head?_eq_getElem?, epochBlocks, List.getElem?_take, if_pos (by decide),
      List.getElem?_drop, Nat.add_zero, List.getElem?_eq_getElem hbelow]
  have hlen : (epochBlocks bs e).length = min 1000 (bs.length - 1000 * e) := by
    rw [epochBlocks, List.length_take, List.length_drop]
  have hend : min (1000 * (e + 1)) bs.length - 1 < bs.length := by
    omega
  have hlast : (epochBlocks bs e).getLast? = some bs[min (1000 * (e + 1)) bs.length - 1] := by
    have hplace : 1000 * e + (min 1000 (bs.length - 1000 * e) - 1) =
        min (1000 * (e + 1)) bs.length - 1 := by
      omega
    rw [List.getLast?_eq_getElem?, hlen, epochBlocks, List.getElem?_take, if_pos (by omega),
      List.getElem?_drop, hplace, List.getElem?_eq_getElem hend]
  have hcount : min (1000 * (e + 1)) bs.length - 1 + 1 = min (1000 * (e + 1)) bs.length := by
    omega
  simp only [epochMeta, rowAt, hhead, hlast, Option.map_some, Option.getD_some, hheight, hcount]

/-- The names of the epoch files are all found. -/
theorem epochFiles_names {dir : DataDir} {files : List (U64 × String × List U8)}
    (hfiles : epochFiles dir = .ok files) :
    files.map Prod.snd = dir.epochs.filter fun f => isEpochFile f.1 := by
  refine map_of_mapM (fun f row hrow => ?_) hfiles
  obtain ⟨idx, -, hrow⟩ := except_bind_ok_iff.mp hrow
  obtain rfl := Except.ok.inj hrow
  rfl

/-- The writes of a repair that keeps these blocks. -/
def keepWrites (J : BlockJson) (files : List (U64 × String × List U8)) (kept : List Block) :
    List RepairWrite :=
  (files.map fun f => .removeFile f.2.1) ++
    (epochTable J kept (List.range (epochCount kept.length))).map fun row =>
      .putFile row.2.1 row.2.2

theorem ConsecutiveHeights.front (hc : ConsecutiveHeights bs) (n : Nat) :
    ConsecutiveHeights (bs.take n) := by
  rw [← List.take_append_drop n bs] at hc
  exact hc.of_append

theorem rewriteEpochs_run (hc : ConsecutiveHeights bs) {dir : DataDir}
    {files : List (U64 × String × List U8)} (hfiles : epochFiles dir = .ok files) (targetH : U64)
    (ws : List RepairWrite) :
    rewriteEpochs J dir bs targetH ws =
      .ok () (ws ++ keepWrites J files (bs.take targetH.toNat)) := by
  have hkept := hc.front targetH.toNat
  have hputs : ((ByKey.byKey BitVec.toNat ((bs.take targetH.toNat).map fun b =>
      (epochOf b, b))).map fun e => RepairWrite.putFile (epochFileName e.1) (epochBody J e.2)) =
        (epochTable J (bs.take targetH.toNat) (List.range (epochCount
          (bs.take targetH.toNat).length))).map fun row => .putFile row.2.1 row.2.2 := by
    rw [byKey_epochs hkept, epochTable, List.map_map, List.map_map]
    refine List.map_congr_left fun e he => ?_
    have hne : epochBlocks (bs.take targetH.toNat) e ≠ [] := by
      rw [List.mem_range, epochCount] at he
      apply List.ne_nil_of_length_pos
      rw [epochBlocks, List.length_take, List.length_drop]
      omega
    simp only [Function.comp_apply, epochBody_eq hne]
  simp only [rewriteEpochs, bind_ok_iff, liftExcept_ok_iff]
  refine ⟨files, ws, ⟨hfiles, rfl⟩, ⟨⟩, ws ++ files.map fun f => .removeFile f.2.1, ?_, _, _,
    ⟨epochRows_eq hc targetH, rfl⟩, ?_⟩
  · exact forM_log (fun f : U64 × String × List U8 => RepairWrite.removeFile f.2.1) files ws
  · rw [keepWrites, ← hputs, ← List.append_assoc]
    exact forM_log (fun e : U64 × List Block =>
      RepairWrite.putFile (epochFileName e.1) (epochBody J e.2)) _ _

theorem rewriteManifest_run (hc : ConsecutiveHeights bs) (targetH : U64) (tipHash : String)
    (ws : List RepairWrite) :
    rewriteManifest bs targetH tipHash ws = .ok () (ws ++ [.putManifest (mkManifest targetH tipHash
      (rowsFor (bs.take targetH.toNat).length))]) := by
  have hkept := hc.front targetH.toNat
  have hmetas : (ByKey.byKey BitVec.toNat ((bs.take targetH.toNat).map fun b =>
      (epochOf b, b))).map epochMeta = rowsFor (bs.take targetH.toNat).length := by
    rw [byKey_epochs hkept, List.map_map, rowsFor]
    refine List.map_congr_left fun e he => epochMeta_eq hkept ?_
    rw [List.mem_range, epochCount] at he
    omega
  simp only [rewriteManifest, bind_ok_iff, liftExcept_ok_iff]
  refine ⟨_, ws, ⟨epochRows_eq hc targetH, rfl⟩, ?_⟩
  simp only [hmetas]
  rfl

/-- What the removals and the new files leave of a directory. -/
theorem applyAll_front {files : List (U64 × String × List U8)}
    (hfiles : epochFiles disk.dir = .ok files) {kept : List Block}
    (hfits : kept.length < 2 ^ 64) {n : Nat} (hn : n ≤ epochCount kept.length) :
    disk.applyAll ((files.map fun f => .removeFile f.2.1) ++
        (epochTable J kept (List.range n)).map fun row => .putFile row.2.1 row.2.2) = { disk with
      dir := { disk.dir with epochs := (disk.dir.epochs.filter fun f => ! isEpochFile f.1) ++
        (epochTable J kept (List.range n)).map Prod.snd } } := by
  have hnames := epochFiles_names hfiles
  have hothers : (disk.dir.epochs.filter fun f => decide (f.1 ∉ files.map fun f => f.2.1)) =
      disk.dir.epochs.filter fun f => ! isEpochFile f.1 := by
    refine List.filter_congr fun f hf => ?_
    have hmem : f.1 ∈ (files.map fun f => f.2.1) ↔ isEpochFile f.1 = true := by
      have hsame : (files.map fun f => f.2.1) = (files.map Prod.snd).map Prod.fst := by
        rw [List.map_map]
        rfl
      rw [hsame, hnames, List.mem_map]
      constructor
      · rintro ⟨g, hg, hgf⟩
        rw [← hgf]
        exact (List.mem_filter.mp hg).2
      · intro hepoch
        exact ⟨f, List.mem_filter.mpr ⟨hf, hepoch⟩, rfl⟩
    cases hepoch : isEpochFile f.1 with
    | true => exact decide_eq_false fun hnot => hnot (hmem.mpr hepoch)
    | false => exact decide_eq_true fun hin => by simp [hmem.mp hin] at hepoch
  have hremoves : (files.map fun f => RepairWrite.removeFile f.2.1) =
      (files.map fun f => f.2.1).map .removeFile := by
    rw [List.map_map]
    rfl
  have hputs : ((epochTable J kept (List.range n)).map fun row =>
      RepairWrite.putFile row.2.1 row.2.2) =
        ((epochTable J kept (List.range n)).map Prod.snd).map fun f =>
          .putFile f.1 f.2 := by
    rw [List.map_map]
    rfl
  rw [RepairDisk.applyAll_append, hremoves, applyAll_removes, hothers, hputs,
    applyAll_puts]
  · intro f hf g hg hsame
    obtain ⟨row, hrow, rfl⟩ := List.mem_map.mp hg
    obtain ⟨e, -, rfl⟩ := List.mem_map.mp hrow
    have hnot := (List.mem_filter.mp hf).2
    rw [hsame, isEpochFile_epochFileName] at hnot
    cases hnot
  · rw [List.pairwise_map, epochTable, List.pairwise_map]
    refine List.Pairwise.imp_of_mem ?_ List.pairwise_lt_range
    intro e e' he he' hlt hsame
    rw [List.mem_range] at he he'
    rw [epochCount] at hn
    have hindex := congrArg BitVec.toNat (epochFileName_injective hsame)
    rw [toNat_ofNat_of_lt (by omega), toNat_ofNat_of_lt (by omega)] at hindex
    omega

theorem applyAll_keepWrites {files : List (U64 × String × List U8)}
    (hfiles : epochFiles disk.dir = .ok files) {kept : List Block}
    (hfits : kept.length < 2 ^ 64) :
    disk.applyAll (keepWrites J files kept) = { disk with
      dir := { disk.dir with epochs := (disk.dir.epochs.filter fun f => ! isEpochFile f.1) ++
        (epochTable J kept (List.range (epochCount kept.length))).map Prod.snd } } :=
  applyAll_front hfiles hfits (Nat.le_refl _)

end Writes

/-! ## The replay up to a height -/

section Replays

variable {C : Crypto} {cfg : GenCfg} {bs : List Block} {i : Nat} {prev : Bytes32}

/-- What a replay keeps has run. -/
theorem replayBlocks_run {limit : U64} {res res' : ReplayRes} (hfits : i + bs.length < 2 ^ 64)
    (hok : replayBlocks C cfg limit i prev res bs = .ok res') :
    ∃ n p, n ≤ bs.length ∧
      Chained (BlockReaches C cfg (repairPay cfg)) i (prev, res.state) (bs.take n) p ∧
      (n = 0 → res'.lastGoodH = res.lastGoodH) ∧ (0 < n → res'.lastGoodH.toNat = i + n) := by
  induction bs generalizing i prev res with
  | nil =>
      obtain rfl := Except.ok.inj hok
      exact ⟨0, _, Nat.le_refl _, .nil _ _, fun _ => rfl, fun h => absurd h (lt_irrefl 0)⟩
  | cons blk rest ih =>
      rw [List.length_cons] at hfits
      rw [replayBlocks] at hok
      split at hok
      · obtain rfl := Except.ok.inj hok
        exact ⟨0, _, Nat.zero_le _, .nil _ _, fun _ => rfl, fun h => absurd h (lt_irrefl 0)⟩
      · split at hok
        · rename_i st hblk
          have first := replayBlock_ok_iff.mp hblk
          have hi : (BitVec.ofNat 64 (i + 1)).toNat = i + 1 := toNat_ofNat_of_lt (by omega)
          obtain ⟨n, p, hn, hchain, hzero, hpos⟩ := ih (by omega) hok
          refine ⟨n + 1, p, Nat.succ_le_succ hn, .cons first hchain,
            fun h => absurd h (Nat.succ_ne_zero n), fun _ => ?_⟩
          rcases Nat.eq_zero_or_pos n with hn | hn
          · rw [hzero hn, hi, hn]
          · rw [hpos hn]
            omega
        · obtain rfl := Except.ok.inj hok
          exact ⟨0, _, Nat.zero_le _, .nil _ _, fun _ => rfl, fun h => absurd h (lt_irrefl 0)⟩
        · cases hok

/-- The replay up to a height that is reached ends there. -/
theorem replayBlocks_upTo {limit : U64} {res : ReplayRes} {k : Nat} {p : Bytes32 × State}
    (hfits : i + bs.length < 2 ^ 64) (hk : k ≤ bs.length) (hpos : 0 < k)
    (hchain : Chained (BlockReaches C cfg (repairPay cfg)) i (prev, res.state)
      (bs.take k) p) (hlimit : limit.toNat = i + k) :
    replayBlocks C cfg limit i prev res bs = .ok ⟨limit, hexEncode p.1, p.2⟩ := by
  induction bs generalizing i prev res k with
  | nil =>
      rw [List.length_nil] at hk
      omega
  | cons blk rest ih =>
      obtain ⟨k, rfl⟩ := Nat.exists_eq_add_of_lt hpos
      rw [Nat.zero_add, List.length_cons] at hk
      rw [Nat.zero_add] at hchain hlimit
      rw [List.length_cons] at hfits
      rw [List.take_succ_cons] at hchain
      obtain ⟨st, hfirst, hrest⟩ : ∃ st, replayBlock C cfg i prev res.state blk = .ok st ∧
          Chained (BlockReaches C cfg (repairPay cfg)) (i + 1)
            (hdrHash C blk.hdr, st) (rest.take k) p := by
        cases hchain with
        | cons first hchain =>
            rename_i s₁
            obtain ⟨h₁, st⟩ := s₁
            obtain rfl : h₁ = _ := first.next
            exact ⟨st, replayBlock_ok_iff.mpr first, hchain⟩
      have hi : (BitVec.ofNat 64 (i + 1)).toNat = i + 1 := toNat_ofNat_of_lt (by omega)
      have hreached : ¬ limit < BitVec.ofNat 64 (i + 1) := by
        rw [BitVec.lt_def, hi]
        omega
      rw [replayBlocks, if_neg hreached, hfirst]
      dsimp only
      rcases Nat.eq_zero_or_pos k with rfl | hmore
      · have hend : limit = BitVec.ofNat 64 (i + 1) := by
          apply BitVec.eq_of_toNat_eq
          rw [hlimit, hi]
        rw [List.take_zero] at hrest
        cases hrest
        rw [← hend]
        cases rest with
        | nil => rfl
        | cons next rest =>
            have hover : limit < BitVec.ofNat 64 (i + 1 + 1) := by
              rw [List.length_cons] at hfits
              rw [BitVec.lt_def, hlimit, toNat_ofNat_of_lt (by omega)]
              omega
            rw [replayBlocks]
            exact if_pos hover
      · exact ih (by omega) (by omega) hmore hrest (by omega)

/-- A replay that reached a height is one up to that height. -/
theorem replayTo_upTo {res : ReplayRes} {targetH : U64} (hfits : bs.length < 2 ^ 64)
    (hreplay : replayTo C cfg bs none = .ok res) (hpos : 0 < targetH.toNat)
    (hle : targetH ≤ res.lastGoodH) :
    ∃ p, targetH.toNat ≤ bs.length ∧
      Chained (BlockReaches C cfg (repairPay cfg)) 0 (replayOrigin C cfg)
        (bs.take targetH.toNat) p ∧
      replayTo C cfg bs (some targetH) = .ok ⟨targetH, hexEncode p.1, p.2⟩ := by
  simp only [replayTo, except_bind_ok_iff, check_ok_iff] at hreplay
  obtain ⟨-, hset, res', hblocks, -, -, hsame⟩ := hreplay
  obtain rfl := Except.ok.inj hsame
  obtain ⟨n, p, hn, hchain, hzero, hheight⟩ := replayBlocks_run (by omega) hblocks
  have hnpos : 0 < n := by
    rcases Nat.eq_zero_or_pos n with h0 | hnpos
    · rw [BitVec.le_def, hzero h0] at hle
      simp at hle
      omega
    · exact hnpos
  have hreach : targetH.toNat ≤ n := by
    rw [BitVec.le_def, hheight hnpos] at hle
    omega
  rw [← List.take_append_drop targetH.toNat (bs.take n), List.take_take,
    Nat.min_eq_left hreach] at hchain
  obtain ⟨p₁, hfirst, -⟩ := hchain.split
  refine ⟨p₁, hreach.trans hn, hfirst, ?_⟩
  have hupTo := @replayBlocks_upTo C cfg bs 0 (prevGen C) targetH ⟨0#64, "", replayStart cfg⟩
    targetH.toNat p₁ (by omega) (hreach.trans hn) hpos hfirst (Nat.zero_add _).symm
  simp only [replayTo, except_bind_ok_iff, check_ok_iff]
  exact ⟨(), hset, _, hupTo, (), BitVec.le_refl _, rfl⟩

end Replays

/-! ## What a repair leaves -/

/-- The disk after a repair that made its writes. -/
def RepairDisk.after (disk : RepairDisk) :
    EStateM.Result SnapFault (List RepairWrite) SnapRepairReport → RepairDisk
  | .ok _ writes => disk.applyAll writes
  | .error _ writes => disk.applyAll writes

section Outcomes

variable {C : Crypto} {J : BlockJson} {S : SummaryJson} {cfgJson : GenCfg → List U8} {cfg : GenCfg}
  {bs : List Block} {dir : DataDir} {disk : RepairDisk} {opts : SnapRepairOpts} {targetH : U64}

/-- The manifest that a repair writes is the one of the blocks that it keeps. -/
theorem mkManifest_kept {pay : State → AccountId → BlockHdr → State} {kept : List Block}
    {p₀ p : Bytes32 × State} (hne : kept ≠ []) (hlen : kept.length = targetH.toNat)
    (hchain : Chained (BlockReaches C cfg pay) 0 p₀ kept p) :
    mkManifest targetH (hexEncode p.1) (rowsFor kept.length) = manifestFor C kept := by
  obtain ⟨front, last, rfl⟩ : ∃ front last, kept = front ++ [last] :=
    ⟨_, _, (List.dropLast_concat_getLast hne).symm⟩
  obtain ⟨p₁, -, hstep⟩ := hchain.last
  have hheight : targetH = BitVec.ofNat 64 (front ++ [last]).length := by
    rw [hlen, BitVec.ofNat_toNat, BitVec.setWidth_eq]
  rw [manifestFor, ← hheight, List.getLast?_concat, Option.map_some, Option.getD_some, hstep.next]

/-- Full verification of a repaired directory accepts it when the validator runs its blocks. -/
theorem loadDirSnapshot_repaired (hown : cfg.state0.OwnIds C)
    (hset : cfg.vals.set ≠ []) {kept : List Block} (hstores : Stores C J dir.store kept)
    (hw : ∀ b ∈ kept, J.Writes b) (hc : ConsecutiveHeights kept) (hne : kept ≠ [])
    {state : State} {roaming : SnapshotRoamingWire} {crossShard : CrossShardLedger}
    (hwrites : S.Writes (repairSummary cfg state roaming crossShard targetH))
    (hsummary : dir.summary = some (S.toText (repairSummary cfg state roaming crossShard targetH)))
    {lopts : SnapshotLoadOpts} (hverify : lopts.verifyChain = true) (allowLegacyEnv : Bool) :
    (∀ p, Chained (BlockReaches C cfg (sealerPay cfg)) 0 (replayOrigin C cfg) kept p →
      ∃ snap, loadDirSnapshot C J S cfgJson cfg lopts allowLegacyEnv dir = .ok (some snap) ∧
        snap.blocks = kept ∧ snap.state = p.2) ∧
      ∀ loaded, loadDirSnapshot C J S cfgJson cfg lopts allowLegacyEnv dir = .ok loaded →
        ∃ p, Chained (BlockReaches C cfg (sealerPay cfg)) 0 (replayOrigin C cfg) kept p := by
  obtain ⟨snap, hsnap⟩ : ∃ snap, snap =
      (repairSummary cfg state roaming crossShard targetH).throughWire := ⟨_, rfl⟩
  have hload : loadSnapshot C J cfgJson cfg dir.store lopts allowLegacyEnv snap =
      validateSnapshot C cfg { snap with blocks := kept } := by
    have hstored : snap.blocksStored = .epochs := by
      rw [hsnap]
      rfl
    rw [loadSnapshot, hstored]
    dsimp only
    rw [hverify, Bool.true_or, if_pos rfl, hstores.load hw hc]
    rfl
  have hdir : loadDirSnapshot C J S cfgJson cfg lopts allowLegacyEnv dir = (do
      let loaded ← validateSnapshot C cfg { snap with blocks := kept }
      return some loaded) := by
    have htext : S.ofText (S.toText (repairSummary cfg state roaming crossShard targetH)) =
        .ok snap := by
      rw [hwrites, dataFromV4_toV4, hsnap]
    rw [loadDirSnapshot, hsummary]
    dsimp only
    rw [htext, ← hload]
    rfl
  constructor
  · intro p hchain
    have hvalid := @validateSnapshot_of_chained C cfg { snap with blocks := kept } p hset
      ⟨by rw [hsnap]; rfl, by rw [hsnap]; rfl⟩ hown hc.length_lt hne
      (fun hinline => by rw [hsnap] at hinline; cases hinline) hchain
    rw [hdir, hvalid]
    exact ⟨_, rfl, rfl, rfl⟩
  · intro loaded hloaded
    rw [hdir] at hloaded
    obtain ⟨snap', hvalid, -⟩ := except_bind_ok_iff.mp hloaded
    exact chained_of_validateSnapshot hvalid

theorem trustAnchor_missing {s : EpochStore} {lopts : SnapshotLoadOpts}
    (hverify : lopts.verifyChain = false) (hanchor : lopts.anchorSk = none) {data : SnapshotData}
    (hnone : data.genesisAnchor = none) (blk1Hash : Bytes32) (anchored : SnapshotData) :
    trustAnchor C J cfgJson cfg s lopts false data blk1Hash ≠ .ok anchored := by
  intro htrust
  rw [trustAnchor, hnone] at htrust
  dsimp only at htrust
  rw [hanchor, hverify] at htrust
  cases htrust

/-- Without full verification a summary that has no anchor is refused. -/
theorem loadDirSnapshot_noAnchor {man : EpochManifest}
    (hman : dir.manifest = some man) (htip : man.canonicalH = targetH) {state : State}
    {roaming : SnapshotRoamingWire} {crossShard : CrossShardLedger}
    (hwrites : S.Writes (repairSummary cfg state roaming crossShard targetH))
    (hsummary : dir.summary = some (S.toText (repairSummary cfg state roaming crossShard targetH)))
    {lopts : SnapshotLoadOpts} (hverify : lopts.verifyChain = false)
    (hanchor : lopts.anchorSk = none) (loaded : Option SnapshotData) :
    loadDirSnapshot C J S cfgJson cfg lopts false dir ≠ .ok loaded := by
  intro hloaded
  obtain ⟨snap, hsnap⟩ : ∃ snap, snap =
      (repairSummary cfg state roaming crossShard targetH).throughWire := ⟨_, rfl⟩
  have htext : S.ofText (S.toText (repairSummary cfg state roaming crossShard targetH)) =
      .ok snap := by
    rw [hwrites, dataFromV4_toV4, hsnap]
  have hstored : snap.blocksStored = .epochs := by
    rw [hsnap]
    rfl
  have hheight : snap.checkpointHeight = targetH := by
    rw [hsnap]
    rfl
  have hlag : (dir.store.manifest.any fun man =>
      decide (0#64 < man.canonicalH ∧ man.canonicalH ≠ snap.checkpointHeight)) = false := by
    have hstore : dir.store.manifest = some man := hman
    rw [hstore, Option.any_some, htip, hheight]
    exact decide_eq_false fun hbad => hbad.2 rfl
  rw [loadDirSnapshot, hsummary] at hloaded
  dsimp only at hloaded
  rw [htext] at hloaded
  obtain ⟨_, hsame, hloaded⟩ := except_bind_ok_iff.mp hloaded
  obtain rfl := Except.ok.inj (mapError_ok_iff.mp hsame)
  obtain ⟨snap', hload, -⟩ := except_bind_ok_iff.mp hloaded
  rw [loadSnapshot, hstored] at hload
  dsimp only at hload
  rw [hverify, hlag, Bool.false_or, if_neg Bool.false_ne_true] at hload
  obtain ⟨blocks, -, htrusted⟩ := except_bind_ok_iff.mp hload
  have hnone : snap.genesisAnchor = none := by
    rw [hsnap]
    rfl
  rw [validateSnapshotTrusted] at htrusted
  obtain ⟨_, -, htrusted⟩ := except_bind_ok_iff.mp htrusted
  obtain ⟨_, -, htrusted⟩ := except_bind_ok_iff.mp htrusted
  obtain ⟨_, -, htrusted⟩ := except_bind_ok_iff.mp htrusted
  obtain ⟨_, -, htrusted⟩ := except_bind_ok_iff.mp htrusted
  obtain ⟨_, -, htrusted⟩ := except_bind_ok_iff.mp htrusted
  -- the anchor is asked for with blocks and without
  split at htrusted
  · simp only [except_bind_ok_iff] at htrusted
    obtain ⟨_, -, _, -, blk1Hash, -, anchored, htrust, -⟩ := htrusted
    exact trustAnchor_missing hverify hanchor (by exact hnone) blk1Hash anchored htrust
  · simp only [except_bind_ok_iff] at htrusted
    obtain ⟨_, -, _, -, _, -, blk1Hash, -, anchored, htrust, -⟩ := htrusted
    exact trustAnchor_missing hverify hanchor (by exact hnone) blk1Hash anchored htrust

/-- The writes of a repair in their order. -/
def repairWrites (J : BlockJson) (files : List (U64 × String × List U8)) (backup : Bool)
    (kept : List Block) (man : EpochManifest) (text : String) : List RepairWrite :=
  (if backup then [.backup] else []) ++
    (keepWrites J files kept ++ [.putManifest man, .putSummary text])

/-- The directory that a repair leaves. -/
def keptDir (J : BlockJson) (dir : DataDir) (kept : List Block) (man : EpochManifest)
    (text : String) : DataDir where
  epochs := (dir.epochs.filter fun f => ! isEpochFile f.1) ++
    (epochTable J kept (List.range (epochCount kept.length))).map Prod.snd
  manifest := some man
  summary := some text

theorem applyAll_repairWrites {files : List (U64 × String × List U8)}
    (hfiles : epochFiles disk.dir = .ok files) {kept : List Block} (hfits : kept.length < 2 ^ 64)
    (backup : Bool) (man : EpochManifest) (text : String) :
    disk.applyAll (repairWrites J files backup kept man text) =
      ⟨keptDir J disk.dir kept man text, disk.backups ++ if backup then [disk.dir] else []⟩ := by
  have hkeep : ∀ saved : RepairDisk, saved.dir = disk.dir →
      saved.applyAll (keepWrites J files kept ++ [.putManifest man, .putSummary text]) =
        ⟨keptDir J disk.dir kept man text, saved.backups⟩ := by
    intro saved hdir
    have hsaved : epochFiles saved.dir = .ok files := hdir.symm ▸ hfiles
    rw [RepairDisk.applyAll_append, applyAll_keepWrites hsaved hfits, hdir]
    rfl
  cases backup with
  | true => exact hkeep (disk.apply .backup) rfl
  | false =>
      rw [if_neg Bool.false_ne_true, List.append_nil]
      exact hkeep disk rfl

theorem logRepair_run (w : RepairWrite) (ws : List RepairWrite) :
    logRepair w ws = .ok () (ws ++ [w]) :=
  rfl

variable (C cfgJson) in
/-- The rewrite makes its writes and loads what it wrote. -/
theorem rewriteDir_run (hc : ConsecutiveHeights bs) {files : List (U64 × String × List U8)}
    (hfiles : epochFiles disk.dir = .ok files) {res : ReplayRes}
    {roaming : SnapshotRoamingWire} {crossShard : CrossShardLedger} {kept : Bool}
    (haux : loadAuxSummary S disk.dir targetH = (roaming, crossShard, kept))
    {ws : List RepairWrite} (hws : ws = repairWrites J files opts.backup (bs.take targetH.toNat)
      (mkManifest targetH res.lastGoodHash (rowsFor (bs.take targetH.toNat).length))
      (S.toText (repairSummary cfg res.state roaming crossShard targetH))) :
    rewriteDir C J S cfgJson cfg disk opts bs res targetH [] =
      match repairPostCheck C J S cfgJson cfg (disk.applyAll ws).dir targetH with
      | .ok () => .ok () ws
      | .error f => .error f ws := by
  obtain ⟨saved, hsaved⟩ : ∃ saved : List RepairWrite,
      saved = if opts.backup then [.backup] else [] := ⟨_, rfl⟩
  have hbackup : onlyIf (opts.backup = true) (logRepair .backup) [] = .ok () saved := by
    rw [hsaved, onlyIf]
    split <;> rfl
  have hepochs : rewriteEpochs J disk.dir bs targetH saved = _ :=
    rewriteEpochs_run hc hfiles targetH saved
  have hmanifest := rewriteManifest_run hc targetH res.lastGoodHash
    (saved ++ keepWrites J files (bs.take targetH.toNat))
  have hsummary : logRepair
      (.putSummary (S.toText (repairSummary cfg res.state roaming crossShard targetH)))
      (saved ++ keepWrites J files (bs.take targetH.toNat) ++ [.putManifest
        (mkManifest targetH res.lastGoodHash (rowsFor (bs.take targetH.toNat).length))]) =
        .ok () ws := by
    rw [hws, repairWrites, ← hsaved, logRepair_run, List.append_assoc, List.append_assoc]
    rfl
  have hget : (get : EStateM SnapFault (List RepairWrite) (List RepairWrite)) ws = .ok ws ws := rfl
  rw [rewriteDir, haux]
  dsimp only
  rw [bind_of_ok hbackup, bind_of_ok hepochs, bind_of_ok hmanifest, bind_of_ok hsummary,
    bind_of_ok hget]
  cases repairPostCheck C J S cfgJson cfg (disk.applyAll ws).dir targetH with
  | ok _ => rfl
  | error f => rfl

theorem repairPostCheck_ok_iff :
    repairPostCheck C J S cfgJson cfg dir targetH = .ok () ↔
      ∃ snap, loadDirSnapshot C J S cfgJson cfg ⟨true, none, 0#32⟩ false dir = .ok (some snap) ∧
        snap.blocks.length = targetH.toNat := by
  rw [repairPostCheck]
  simp only [except_bind_ok_iff, check_ok_iff]
  constructor
  · rintro ⟨loaded, hload, snap, hsome, hlen⟩
    cases loaded with
    | none => cases hsome
    | some snap' =>
        obtain rfl := Except.ok.inj hsome
        exact ⟨_, hload, hlen⟩
  · rintro ⟨snap, hload, hlen⟩
    exact ⟨_, hload, snap, rfl, hlen⟩

/-- A rewrite to a height that was reached ends well when the validator runs the blocks up to it. -/
theorem repairPostCheck_repaired (hown : cfg.state0.OwnIds C) (hset : cfg.vals.set ≠ [])
    {kept : List Block} (hstores : Stores C J dir.store kept)
    (hw : ∀ b ∈ kept, J.Writes b) (hc : ConsecutiveHeights kept) (hne : kept ≠ [])
    (hlen : kept.length = targetH.toNat)
    {state : State} {roaming : SnapshotRoamingWire} {crossShard : CrossShardLedger}
    (hwrites : S.Writes (repairSummary cfg state roaming crossShard targetH))
    (hsummary : dir.summary =
      some (S.toText (repairSummary cfg state roaming crossShard targetH))) :
    repairPostCheck C J S cfgJson cfg dir targetH = .ok () ↔
      ∃ p, Chained (BlockReaches C cfg (sealerPay cfg)) 0 (replayOrigin C cfg) kept p := by
  have hload := @loadDirSnapshot_repaired C J S cfgJson cfg dir targetH hown hset kept
    hstores hw hc hne state roaming crossShard hwrites hsummary ⟨true, none, 0#32⟩ rfl false
  rw [repairPostCheck_ok_iff]
  constructor
  · rintro ⟨snap, hok, -⟩
    exact hload.2 _ hok
  · rintro ⟨p, hchain⟩
    obtain ⟨snap, hok, hblocks, -⟩ := hload.1 p hchain
    exact ⟨snap, hok, by rw [hblocks, hlen]⟩

/-- The replay up to the height zero ends at genesis. -/
theorem replayTo_zero {res : ReplayRes} (hreplay : replayTo C cfg bs none = .ok res) :
    replayTo C cfg bs (some 0#64) = .ok ⟨0#64, "", replayStart cfg⟩ := by
  simp only [replayTo, except_bind_ok_iff, check_ok_iff] at hreplay ⊢
  obtain ⟨-, hset, -⟩ := hreplay
  refine ⟨(), hset, _, ?_, (), BitVec.le_refl _, rfl⟩
  cases bs with
  | nil => rfl
  | cons blk rest =>
      rw [replayBlocks]
      exact if_pos (by decide)

/-- A height that the replay reached is reached again when it is the one to replay to. -/
theorem replayTo_target {res : ReplayRes} (hfits : bs.length < 2 ^ 64)
    (hreplay : replayTo C cfg bs none = .ok res) (hle : targetH ≤ res.lastGoodH) :
    ∃ again, replayTo C cfg bs (some targetH) = .ok again ∧ again.lastGoodH = targetH ∧
      (0 < targetH.toNat → ∃ p, targetH.toNat ≤ bs.length ∧
        again = ⟨targetH, hexEncode p.1, p.2⟩ ∧
        Chained (BlockReaches C cfg (repairPay cfg)) 0 (replayOrigin C cfg)
          (bs.take targetH.toNat) p) := by
  rcases Nat.eq_zero_or_pos targetH.toNat with hzero | hpos
  · obtain rfl : targetH = 0#64 := BitVec.eq_of_toNat_eq hzero
    exact ⟨_, replayTo_zero hreplay, rfl, fun hpos => absurd hpos (lt_irrefl 0)⟩
  · obtain ⟨p, hwithin, hchain, hagain⟩ := replayTo_upTo hfits hreplay hpos hle
    exact ⟨_, hagain, rfl, fun _ => ⟨p, hwithin, rfl, hchain⟩⟩

theorem repairJsonEpochs_tooHigh (hread : readEpochBlocks J disk.dir = .ok bs) {res : ReplayRes}
    (hreplay : replayTo C cfg bs none = .ok res)
    (htarget : opts.targetH.getD res.lastGoodH = targetH) (hhigh : res.lastGoodH < targetH) :
    ∃ f, repairJsonEpochs C J S cfgJson cfg disk opts [] = .error f [] := by
  obtain ⟨h, hsome⟩ : ∃ h, opts.targetH = some h := by
    cases hasked : opts.targetH with
    | some h => exact ⟨h, rfl⟩
    | none =>
        rw [hasked, Option.getD_none] at htarget
        rw [htarget, BitVec.lt_def] at hhigh
        exact absurd hhigh (lt_irrefl _)
  obtain rfl : h = targetH := by
    rw [hsome] at htarget
    exact htarget
  have hcheck : ∃ f, repairTarget opts res.lastGoodH = .error f := by
    have hnot : ¬ h ≤ res.lastGoodH := by
      rw [BitVec.le_def]
      rw [BitVec.lt_def] at hhigh
      omega
    rw [repairTarget, hsome]
    dsimp only
    rw [check, if_neg hnot]
    exact ⟨_, rfl⟩
  obtain ⟨f, hcheck⟩ := hcheck
  refine ⟨f, ?_⟩
  rw [repairJsonEpochs, bind_of_lift hread, bind_of_lift hreplay, hcheck]
  rfl

variable (S cfgJson) in
/-- A repair to a height that was reached ends as its rewrite. -/
theorem repairJsonEpochs_reached (hread : readEpochBlocks J disk.dir = .ok bs)
    {res again : ReplayRes} (hreplay : replayTo C cfg bs none = .ok res)
    (htarget : opts.targetH.getD res.lastGoodH = targetH) (hle : targetH ≤ res.lastGoodH)
    (hagain : replayTo C cfg bs (some targetH) = .ok again) (hsame : again.lastGoodH = targetH) :
    ∃ report, repairJsonEpochs C J S cfgJson cfg disk opts [] =
      match onlyIf (opts.dryRun = false)
          (rewriteDir C J S cfgJson cfg disk opts bs again targetH) [] with
      | .ok _ ws => .ok report ws
      | .error f ws => .error f ws := by
  have hcheck : repairTarget opts res.lastGoodH = .ok targetH := by
    rw [repairTarget]
    cases hasked : opts.targetH with
    | none =>
        rw [hasked] at htarget
        exact congrArg Except.ok htarget
    | some h =>
        rw [hasked] at htarget
        obtain rfl : h = targetH := htarget
        dsimp only
        rw [check, if_pos hle]
        rfl
  have hreached : (require (again.lastGoodH = targetH)
      (.err s!"repair target {targetH.toNat} is not reproducible (replayed to {again.lastGoodH.toNat})") :
        EStateM SnapFault (List RepairWrite) Unit) [] = .ok () [] := by
    rw [require, if_pos hsame]
    rfl
  refine ⟨⟨res.lastGoodH, targetH, again.lastGoodHash, !opts.dryRun, !opts.dryRun && opts.backup,
    (loadAuxSummary S disk.dir targetH).2.2⟩, ?_⟩
  rw [repairJsonEpochs, bind_of_lift hread, bind_of_lift hreplay, bind_of_lift hcheck,
    bind_of_lift hagain, bind_of_ok hreached]
  cases hrun : onlyIf (opts.dryRun = false)
      (rewriteDir C J S cfgJson cfg disk opts bs again targetH) [] with
  | ok u ws =>
      rw [bind_of_ok hrun]
      rfl
  | error f ws =>
      change EStateM.bind _ _ _ = _
      rw [EStateM.bind, hrun]

/-- The summary that a repair of a directory writes. -/
def repairedSummary (S : SummaryJson) (cfg : GenCfg) (dir : DataDir) (again : ReplayRes)
    (targetH : U64) : SnapshotData :=
  repairSummary cfg again.state (loadAuxSummary S dir targetH).1 (loadAuxSummary S dir targetH).2.1
    targetH

variable (S cfgJson) in
/-- The writes of a repair, which it keeps also when it fails after them. -/
theorem repairJsonEpochs_writes (hfits : bs.length < 2 ^ 64)
    (hread : readEpochBlocks J disk.dir = .ok bs) {files : List (U64 × String × List U8)}
    (hfiles : epochFiles disk.dir = .ok files)
    {res again : ReplayRes} (hreplay : replayTo C cfg bs none = .ok res)
    (htarget : opts.targetH.getD res.lastGoodH = targetH) (hle : targetH ≤ res.lastGoodH)
    (hagain : replayTo C cfg bs (some targetH) = .ok again) (hwet : opts.dryRun = false) :
    ∃ report ws man, ws = repairWrites J files opts.backup (bs.take targetH.toNat) man
        (S.toText (repairedSummary S cfg disk.dir again targetH)) ∧
      (repairJsonEpochs C J S cfgJson cfg disk opts [] =
        match repairPostCheck C J S cfgJson cfg (disk.applyAll ws).dir targetH with
        | .ok () => .ok report ws
        | .error f => .error f ws) ∧
      (0 < targetH.toNat → targetH.toNat ≤ bs.length ∧
        man = manifestFor C (bs.take targetH.toNat)) := by
  have hc := readEpochBlocks_heights hread hfits
  obtain ⟨again', hagain', hsame, hreached⟩ := replayTo_target hfits hreplay hle
  obtain rfl : again' = again := Except.ok.inj (hagain'.symm.trans hagain)
  obtain ⟨report, hrun⟩ :=
    repairJsonEpochs_reached S cfgJson hread hreplay htarget hle hagain hsame
  obtain ⟨man, hman⟩ : ∃ man,
      man = mkManifest targetH again'.lastGoodHash (rowsFor (bs.take targetH.toNat).length) :=
    ⟨_, rfl⟩
  obtain ⟨ws, hws⟩ : ∃ ws, ws = repairWrites J files opts.backup (bs.take targetH.toNat) man
      (S.toText (repairedSummary S cfg disk.dir again' targetH)) := ⟨_, rfl⟩
  refine ⟨report, ws, man, hws, ?_, fun hpos => ?_⟩
  · have hdir := rewriteDir_run C cfgJson hc hfiles rfl (hman ▸ hws)
    rw [hrun, onlyIf, if_pos hwet, hdir]
    cases repairPostCheck C J S cfgJson cfg (disk.applyAll ws).dir targetH with
    | ok _ => rfl
    | error f => rfl
  · obtain ⟨p, hwithin, hp, hchain⟩ := hreached hpos
    have hlen : (bs.take targetH.toNat).length = targetH.toNat := List.length_take_of_le hwithin
    refine ⟨hwithin, ?_⟩
    rw [hman, hp]
    exact mkManifest_kept (List.ne_nil_of_length_pos (by omega)) hlen hchain

theorem keptDir_holds (dir : DataDir) (kept : List Block) (man : EpochManifest) (text : String) :
    (keptDir J dir kept man text).Holds J kept := by
  refine ⟨_, fun f hf => ?_, rfl⟩
  have hnot := (List.mem_filter.mp hf).2
  rwa [Bool.not_eq_true'] at hnot

/-- A repair refuses a height that the replay does not reach and leaves the disk as it is, as does
one that only looks. Otherwise, whether it ends well or not, it leaves the blocks up to its target
and no others: the directory reads and, with its manifest, stores these blocks, and the directory
of before is among the backups if that was asked for. It ends well exactly if the validator runs
the blocks that it kept; these are then loaded with full verification, and never without it and
without a key for the anchor. -/
theorem repair_rewrites (hown : cfg.state0.OwnIds C) (hfits : bs.length < 2 ^ 64)
    (hw : ∀ b ∈ bs, J.Writes b) (hread : readEpochBlocks J disk.dir = .ok bs) {res : ReplayRes}
    (hreplay : replayTo C cfg bs none = .ok res)
    (htarget : opts.targetH.getD res.lastGoodH = targetH)
    (hsummary : ∀ again, replayTo C cfg bs (some targetH) = .ok again →
      S.Writes (repairedSummary S cfg disk.dir again targetH))
    {out : EStateM.Result SnapFault (List RepairWrite) SnapRepairReport}
    (hout : repairJsonEpochs C J S cfgJson cfg disk opts [] = out) :
    (res.lastGoodH < targetH → disk.after out = disk ∧ ∃ f, out = .error f []) ∧
    (targetH ≤ res.lastGoodH → opts.dryRun = true →
      disk.after out = disk ∧ ∃ report, out = .ok report []) ∧
    (targetH ≤ res.lastGoodH → opts.dryRun = false →
      readEpochBlocks J (disk.after out).dir = .ok (bs.take targetH.toNat) ∧
      (disk.after out).backups = disk.backups ++ (if opts.backup then [disk.dir] else []) ∧
      (0 < targetH.toNat →
        Stores C J (disk.after out).dir.store (bs.take targetH.toNat) ∧
        ((∃ report ws, out = .ok report ws) ↔
          ∃ p, Chained (BlockReaches C cfg (sealerPay cfg)) 0 (replayOrigin C cfg)
            (bs.take targetH.toNat) p) ∧
        (∀ lopts allowLegacyEnv p, lopts.verifyChain = true →
          Chained (BlockReaches C cfg (sealerPay cfg)) 0 (replayOrigin C cfg)
            (bs.take targetH.toNat) p →
          ∃ snap, loadDirSnapshot C J S cfgJson cfg lopts allowLegacyEnv (disk.after out).dir =
            .ok (some snap) ∧ snap.blocks = bs.take targetH.toNat ∧ snap.state = p.2) ∧
        ∀ lopts loaded, lopts.verifyChain = false → lopts.anchorSk = none →
          loadDirSnapshot C J S cfgJson cfg lopts false (disk.after out).dir ≠ .ok loaded)) := by
  have hc := readEpochBlocks_heights hread hfits
  have hset : cfg.vals.set ≠ [] := by
    simp only [replayTo, except_bind_ok_iff, check_ok_iff] at hreplay
    obtain ⟨-, hset, -⟩ := hreplay
    exact hset
  refine ⟨fun hhigh => ?_, fun hle hdry => ?_, fun hle hwet => ?_⟩
  · obtain ⟨f, hfail⟩ := @repairJsonEpochs_tooHigh C J S cfgJson cfg bs disk opts targetH hread res
      hreplay htarget hhigh
    rw [← hout, hfail]
    exact ⟨rfl, f, rfl⟩
  · obtain ⟨again, hagain, hsame, -⟩ := replayTo_target hfits hreplay hle
    obtain ⟨report, hrun⟩ :=
      repairJsonEpochs_reached S cfgJson hread hreplay htarget hle hagain hsame
    have hnot : opts.dryRun ≠ false := by
      rw [hdry]
      exact Bool.noConfusion
    rw [onlyIf, if_neg hnot] at hrun
    rw [← hout, hrun]
    exact ⟨rfl, report, rfl⟩
  · obtain ⟨again, hagain, -⟩ := replayTo_target hfits hreplay hle
    obtain ⟨files, hfiles, -⟩ := except_bind_ok_iff.mp hread
    obtain ⟨report, ws, man, hws, hrun, hman⟩ :=
      repairJsonEpochs_writes S cfgJson hfits hread hfiles hreplay htarget hle hagain hwet
    have hafter := hws ▸ applyAll_repairWrites hfiles
      (lt_of_le_of_lt (List.length_take_le' targetH.toNat bs) hfits) opts.backup man
      (S.toText (repairedSummary S cfg disk.dir again targetH))
    rw [hout] at hrun
    have hdisk : disk.after out = disk.applyAll ws := by
      rw [hrun]
      split <;> rfl
    have hkept := hc.front targetH.toNat
    have hwkept : ∀ b ∈ bs.take targetH.toNat, J.Writes b :=
      fun b hb => hw b (List.mem_of_mem_take hb)
    have hholds := keptDir_holds (J := J) disk.dir (bs.take targetH.toNat) man
      (S.toText (repairedSummary S cfg disk.dir again targetH))
    rw [hdisk, hafter]
    refine ⟨hholds.read hwkept hkept, rfl, fun hpos => ?_⟩
    obtain ⟨hwithin, hman⟩ := hman hpos
    have hlen : (bs.take targetH.toNat).length = targetH.toNat := List.length_take_of_le hwithin
    have hne : bs.take targetH.toNat ≠ [] := List.ne_nil_of_length_pos (by omega)
    have hstores := hholds.stores hne hkept.length_lt (congrArg some hman)
    have hwrites := hsummary again hagain
    refine ⟨hstores, ?_, ?_, ?_⟩
    · rw [← repairPostCheck_repaired hown hset hstores hwkept hkept hne hlen hwrites rfl, hrun,
        hafter]
      constructor
      · rintro ⟨report', ws', hok⟩
        cases hpost : repairPostCheck C J S cfgJson cfg (keptDir J disk.dir
            (bs.take targetH.toNat) man (S.toText (repairedSummary S cfg disk.dir again targetH)))
            targetH with
        | ok _ => rfl
        | error f =>
            rw [hpost] at hok
            cases hok
      · intro hok
        rw [hok]
        exact ⟨report, ws, rfl⟩
    · intro lopts allowLegacyEnv p hverify hchain
      exact (loadDirSnapshot_repaired hown hset hstores hwkept hkept hne hwrites rfl hverify
        allowLegacyEnv).1 p hchain
    · intro lopts loaded hverify hanchor
      have htip : man.canonicalH = targetH := by
        rw [hman, manifestFor, hlen]
        change BitVec.ofNat 64 targetH.toNat = targetH
        rw [BitVec.ofNat_toNat, BitVec.setWidth_eq]
      exact loadDirSnapshot_noAnchor rfl htip hwrites rfl hverify hanchor loaded

end Outcomes

/-! ## A lost summary

The devnet has the file of its first block and neither a manifest nor a
summary. -/

namespace LostSummary

open HalfSeason SkipFirst

def dir : DataDir := ⟨[(epochFileName 0#64, blockFile json [devNetBlock])], none, none⟩

def disk : RepairDisk := ⟨dir, []⟩

def opts : SnapRepairOpts := ⟨none, true, false⟩

def kept : SnapshotData := repairSummary devNet (sealedWith devNet devNetBlock).st {} {} 1#64

/-- The JSON text of the summary. -/
def summaryText : String :=
  "\n".intercalate
    ["\x7b", "  \"version\": 4,", "  \"genesis_accounts\": [", "    \x7b",
      "      \"acct\": \"32bc5ae809c2ef645842719f50bbde7ab05745c9ee5eb43c781f62416a7ba412\",",
      "      \"pubkey\": \"664d58a29528769c8b2c89f115177a9132014da920bcd0ef80393e8142849529\",",
      "      \"der_idx\": 0", "    \x7d", "  ],", "  \"blocks\": [],", "  \"state\": \x7b",
      "    \"accounts\": [", "      \x7b",
      "        \"id\": \"32bc5ae809c2ef645842719f50bbde7ab05745c9ee5eb43c781f62416a7ba412\",",
      "        \"account\": \x7b",
      "          \"signing_pubkey\": \"664d58a29528769c8b2c89f115177a9132014da920bcd0ef80393e8142849529\",",
      "          \"derivation_index\": 0,", "          \"balance_pwm\": \"1000100\",",
      "          \"staked_pwm_raw\": \"0\",", "          \"stored_marks\": \"1\",",
      "          \"marks_last_block\": 0,", "          \"initialized\": true,",
      "          \"index\": 0,", "          \"flags\": 0,", "          \"nonce\": 0,",
      "          \"rescue_address\": null,", "          \"active_policies\": 0,",
      "          \"dormant_policies\": 0,", "          \"deferred_policies\": [],",
      "          \"ipv4_claimed_phase\": null,", "          \"finalized\": false,",
      "          \"owner_kind\": \"\",", "          \"owner_display_name\": \"\",",
      "          \"owner_country_hint\": \"\",",
      "          \"company_metadata_commitment\": null,",
      "          \"external_verification_ref\": null,", "          \"requested_domain_lo\": null",
      "        \x7d", "      \x7d", "    ],", "    \"fee_pool\": \"0\",",
      "    \"imported_set\": [],", "    \"exported_registry\": [],", "    \"epoch_counter\": 0,",
      "    \"active_validator_indices\": [", "      0", "    ],",
      "    \"cross_shard_locks\": [],", "    \"evidence_log\": [],",
      "    \"pending_conservation\": []", "  \x7d,", "  \"roaming\": \x7b",
      "    \"intents\": [],", "    \"locks\": []", "  \x7d,", "  \"cross_shard\": \x7b",
      "    \"facts\": []", "  \x7d,", "  \"blocks_stored\": \"epochs\",",
      "  \"checkpoint_height\": 1", "\x7d"]

def summaryJson : SummaryJson where
  toText := fun _ => summaryText
  ofText := fun t =>
    if t = summaryText then .ok kept.throughWire else .error "expected value at line 1 column 1"

theorem consecutive : ConsecutiveHeights [devNetBlock] := by
  intro i b hb
  cases i with
  | zero =>
      obtain rfl := Option.some.inj hb
      rfl
  | succ i => cases hb

theorem read : readEpochBlocks json disk.dir = .ok [devNetBlock] := by
  have hholds : disk.dir.Holds json [devNetBlock] := ⟨[], List.forall_mem_nil _, rfl⟩
  exact hholds.read writes consecutive

theorem replay : replayTo crypto devNet [devNetBlock] none =
    .ok ⟨1#64, hexEncode devNetHash, (sealedWith devNet devNetBlock).st⟩ := by
  obtain ⟨⟨h, hash, st⟩, hres, hheight, rfl, rfl⟩ := replayTo_of_chained (by decide) (by decide)
    (List.cons_ne_nil _ _) paysAlike sealedBy_devNet.chained
  obtain rfl : h = 1#64 := BitVec.eq_of_toNat_eq hheight
  rw [hres, tipHash_devNet]

theorem replay_again : replayTo crypto devNet [devNetBlock] (some 1#64) =
    .ok ⟨1#64, hexEncode devNetHash, (sealedWith devNet devNetBlock).st⟩ := by
  have hpos : 0 < (1#64 : U64).toNat := by
    decide
  obtain ⟨p, -, hchain, hagain⟩ := replayTo_upTo (by decide) replay hpos (BitVec.le_refl _)
  obtain rfl := (paysAlike.agree.chained.mpr hchain).functional blockReaches_functional
    sealedBy_devNet.chained
  rw [hagain, tipHash_devNet]

theorem writes_kept : summaryJson.Writes kept := by
  rw [SummaryJson.Writes, dataFromV4_toV4]
  simp only [summaryJson, if_pos]

theorem chained : ∃ p, Chained (BlockReaches crypto devNet (sealerPay devNet)) 0
    (replayOrigin crypto devNet) [devNetBlock] p :=
  ⟨_, sealedBy_devNet.chained⟩

end LostSummary

open HalfSeason SkipFirst LostSummary in
/-- The repair writes the manifest and the summary, and the node loads the block. -/
theorem repair_rewrites_lostSummary :
    ∃ report ws, repairJsonEpochs crypto json summaryJson (fun _ => []) devNet disk opts [] =
        .ok report ws ∧
      readEpochBlocks json (disk.applyAll ws).dir = .ok [devNetBlock] ∧
      (disk.applyAll ws).backups = [dir] ∧
      ∃ snap, loadDirSnapshot crypto json summaryJson (fun _ => []) devNet ⟨true, none, 0#32⟩ false
        (disk.applyAll ws).dir = .ok (some snap) ∧ snap.blocks = [devNetBlock] := by
  have hsummary : ∀ again, replayTo crypto devNet [devNetBlock] (some 1#64) = .ok again →
      summaryJson.Writes (repairedSummary summaryJson devNet disk.dir again 1#64) := by
    intro again hagain
    obtain rfl := Except.ok.inj (replay_again.symm.trans hagain)
    exact writes_kept
  obtain ⟨-, -, hwet⟩ := @repair_rewrites crypto json summaryJson (fun _ => []) devNet
    [devNetBlock] disk opts 1#64 ownIds (by decide) writes read _ replay rfl hsummary _ rfl
  obtain ⟨hread, hbackups, hpos⟩ := hwet (by decide) rfl
  obtain ⟨-, hiff, hload, -⟩ := hpos (by decide)
  obtain ⟨report, ws, hok⟩ := hiff.mpr chained
  obtain ⟨p, hchain⟩ := chained
  obtain ⟨snap, hsnap, hblocks, -⟩ := hload ⟨true, none, 0#32⟩ false p rfl hchain
  rw [hok] at hread hbackups hsnap
  exact ⟨report, ws, hok, hread, hbackups, snap, hsnap, hblocks⟩

end Pwm
