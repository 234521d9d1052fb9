import Pwm.Snapshot.RepairFiles

/-!
# A repair that is cut off

Between the first removal and the last new file the directory has some of its
old files, or some of the new ones. Where each file has blocks of its own epoch
only, what such a directory reads are the first blocks of the chain.
-/

namespace Pwm

open BitVec Attempt CheckedLog

/-! ## Files of their own epochs -/

section Files

variable {J : BlockJson} {wantH : U64} {bs : List Block}

/-- The blocks in the lines of a file are of its epoch. -/
def OwnLines (J : BlockJson) (eidx : U64) (lines : List (List U8)) : Prop :=
  ∀ line ∈ lines, ∀ text blk, utf8Text (stripCr line) = some text → J.ofText text = .ok blk →
    epochIdx blk.hdr.height = .ok eidx

def OwnFile (J : BlockJson) (f : U64 × String × List U8) : Prop :=
  OwnLines J f.1 (LineFile.lines newline f.2.2)

/-- The heights of an epoch. -/
theorem epochIdx_heights {height eidx : U64} (h : epochIdx height = .ok eidx) :
    1000 * eidx.toNat < height.toNat ∧ height.toNat ≤ 1000 * eidx.toNat + 1000 := by
  have hlt := height.isLt
  have hone : (1#64 : U64).toNat = 1 := rfl
  have hspan : epochSpan.toNat = 1000 := rfl
  rw [epochIdx] at h
  split at h
  · cases h
  · rename_i hne
    obtain rfl := Except.ok.inj h
    have hpos : 0 < height.toNat := by
      by_contra hzero
      exact hne (BitVec.eq_of_toNat_eq (by simpa using hzero))
    have hle : (1#64 : U64) ≤ height := by
      rw [BitVec.le_def, hone]
      omega
    rw [BitVec.toNat_udiv, hspan, BitVec.toNat_sub_of_le hle, hone]
    omega

/-- What is read of a file of an epoch is of that epoch. -/
theorem repairLines_own {fileName : String} {eidx : U64} {ps : List (List U8 × Nat)}
    {nextH : Option U64} (hown : OwnLines J eidx (ps.map Prod.fst))
    (hread : repairLines J fileName wantH ps = .ok (bs, nextH)) :
    ∀ b ∈ bs, epochIdx b.hdr.height = .ok eidx := by
  induction ps generalizing wantH bs nextH with
  | nil =>
      obtain ⟨rfl, -⟩ := Prod.mk.inj (Except.ok.inj hread)
      exact List.forall_mem_nil _
  | cons p rest ih =>
      have hrest : OwnLines J eidx (rest.map Prod.fst) :=
        fun line hline => hown line (List.mem_cons_of_mem _ hline)
      rw [repairLines] at hread
      split at hread
      · cases hread
      · rename_i text htext
        split at hread
        · exact ih hrest hread
        · split at hread
          · obtain ⟨rfl, -⟩ := Prod.mk.inj (Except.ok.inj hread)
            exact List.forall_mem_nil _
          · rename_i blk hblk
            split at hread
            · obtain ⟨rfl, -⟩ := Prod.mk.inj (Except.ok.inj hread)
              exact List.forall_mem_nil _
            · obtain ⟨⟨more, nextH'⟩, hmore, hread⟩ := except_bind_ok_iff.mp hread
              obtain ⟨rfl, -⟩ := Prod.mk.inj (Except.ok.inj hread)
              exact List.forall_mem_cons.mpr
                ⟨hown p.1 List.mem_cons_self text blk htext hblk, ih hrest hmore⟩

/-- A file of an epoch that is wanted at most from its first height. -/
theorem repairLines_from {fileName : String} {eidx : U64} {ps : List (List U8 × Nat)}
    {nextH : Option U64} (hown : OwnLines J eidx (ps.map Prod.fst))
    (hread : repairLines J fileName wantH ps = .ok (bs, nextH)) :
    (wantH.toNat ≤ 1000 * eidx.toNat → bs = []) ∧
      (wantH.toNat ≤ 1000 * eidx.toNat + 1 →
        ∀ next ∈ nextH, next.toNat ≤ 1000 * eidx.toNat + 1001) := by
  obtain ⟨hheights, hnext⟩ := repairLines_heights hread
  have hepoch := repairLines_own hown hread
  have hlt := wantH.isLt
  constructor
  · intro hbelow
    cases bs with
    | nil => rfl
    | cons b more =>
        have hfirst := (epochIdx_heights (hepoch b List.mem_cons_self)).1
        rw [hheights 0 b rfl] at hfirst
        omega
  · intro hfrom next hmem
    rw [hnext next hmem]
    rcases List.eq_nil_or_concat bs with rfl | ⟨front, last, rfl⟩
    · rw [List.length_nil]
      omega
    · have hend := (epochIdx_heights (hepoch last (by simp))).2
      rw [hheights front.length last (by simp)] at hend
      rw [List.length_concat]
      omega

/-- Files of later epochs than the height that is wanted. -/
theorem repairFilesFrom_later {files : List (U64 × String × List U8)}
    (hown : ∀ f ∈ files, OwnFile J f) (hlater : ∀ f ∈ files, wantH.toNat ≤ 1000 * f.1.toNat)
    (hread : repairFilesFrom J wantH files = .ok bs) : bs = [] := by
  induction files generalizing wantH bs with
  | nil => exact (Except.ok.inj hread).symm
  | cons f rest ih =>
      obtain ⟨hfirst, hrest⟩ := List.forall_mem_cons.mp hown
      obtain ⟨hbelow, hafter⟩ := List.forall_mem_cons.mp hlater
      obtain ⟨eidx, name, bytes⟩ := f
      rw [repairFilesFrom] at hread
      obtain ⟨⟨blocks, nextH⟩, hlines, hread⟩ := except_bind_ok_iff.mp hread
      have hown' : OwnLines J eidx ((LineFile.lines newline bytes).zipIdx.map Prod.fst) := by
        rwa [List.zipIdx_map_fst]
      obtain rfl := (repairLines_from hown' hlines).1 hbelow
      cases nextH with
      | none => exact (Except.ok.inj hread).symm
      | some next =>
          obtain ⟨more, hmore, hread⟩ := except_bind_ok_iff.mp hread
          obtain rfl := Except.ok.inj hread
          have hsame : next.toNat = wantH.toNat := by
            have hlt := wantH.isLt
            rw [(repairLines_heights hlines).2 next rfl, List.length_nil]
            omega
          refine ih hrest (fun g hg => ?_) hmore
          rw [hsame]
          exact hafter g hg

/-- Some of the files of the epochs read the first blocks of what all of them read. -/
theorem repairFilesFrom_sublist {files part : List (U64 × String × List U8)} {cs : List Block}
    (hsub : part.Sublist files) (hown : ∀ f ∈ files, OwnFile J f)
    (hsorted : files.Pairwise fun f g => f.1.toNat < g.1.toNat)
    (hfrom : ∀ f ∈ files, wantH.toNat ≤ 1000 * f.1.toNat + 1)
    (hread : repairFilesFrom J wantH files = .ok bs)
    (hread' : repairFilesFrom J wantH part = .ok cs) : cs <+: bs := by
  induction hsub generalizing wantH bs cs with
  | slnil =>
      obtain rfl := Except.ok.inj hread'
      exact List.nil_prefix
  | @cons part files f hsub ih =>
      obtain ⟨-, hrest⟩ := List.forall_mem_cons.mp hown
      obtain ⟨hbelow, -⟩ := List.forall_mem_cons.mp hfrom
      obtain ⟨hfirst, -⟩ := List.pairwise_cons.mp hsorted
      -- without this file the later ones are not reached
      obtain rfl := repairFilesFrom_later (fun g hg => hrest g (hsub.subset hg))
        (fun g hg => by
          have hlt := hfirst g (hsub.subset hg)
          omega) hread'
      exact List.nil_prefix
  | @cons_cons part files f hsub ih =>
      obtain ⟨hown₀, hrest⟩ := List.forall_mem_cons.mp hown
      obtain ⟨hbelow, -⟩ := List.forall_mem_cons.mp hfrom
      obtain ⟨hfirst, hafter⟩ := List.pairwise_cons.mp hsorted
      obtain ⟨eidx, name, bytes⟩ := f
      rw [repairFilesFrom] at hread hread'
      obtain ⟨⟨blocks, nextH⟩, hlines, hread⟩ := except_bind_ok_iff.mp hread
      obtain ⟨_, hlines', hread'⟩ := except_bind_ok_iff.mp hread'
      obtain rfl := Except.ok.inj (hlines.symm.trans hlines')
      have hown' : OwnLines J eidx ((LineFile.lines newline bytes).zipIdx.map Prod.fst) := by
        rwa [List.zipIdx_map_fst]
      cases nextH with
      | none =>
          obtain rfl := Except.ok.inj hread
          obtain rfl := Except.ok.inj hread'
          exact List.prefix_refl _
      | some next =>
          obtain ⟨more, hmore, hread⟩ := except_bind_ok_iff.mp hread
          obtain rfl := Except.ok.inj hread
          obtain ⟨more', hmore', hread'⟩ := except_bind_ok_iff.mp hread'
          obtain rfl := Except.ok.inj hread'
          have hnext := (repairLines_from hown' hlines).2 hbelow next rfl
          refine (List.prefix_append_right_inj blocks).mpr
            (ih hrest hafter (fun g hg => ?_) hmore hmore')
          have hlt := hfirst g hg
          dsimp only at hlt
          omega

end Files

/-! ## The directory between two writes -/

/-- The epoch files of a directory have different indices and blocks of their own epochs. -/
structure DataDir.Tidy (J : BlockJson) (dir : DataDir) (files : List (U64 × String × List U8)) :
    Prop where
  found : epochFiles dir = .ok files
  distinct : (files.map Prod.fst).Nodup
  own : ∀ f ∈ files, OwnFile J f

section Directory

variable {J : BlockJson} {bs : List Block} {dir dir' : DataDir} {disk : RepairDisk}
  {files : List (U64 × String × List U8)}

theorem epochFiles_filter (hfiles : epochFiles dir = .ok files) (keeps : String → Bool)
    (hepochs : dir'.epochs = dir.epochs.filter fun f => keeps f.1) :
    epochFiles dir' = .ok (files.filter fun f => keeps f.2.1) := by
  have hswap : (dir'.epochs.filter fun f => isEpochFile f.1) =
      (dir.epochs.filter fun f => isEpochFile f.1).filter fun f => keeps f.1 := by
    rw [hepochs, List.filter_filter, List.filter_filter]
    exact List.filter_congr fun f _ => Bool.and_comm _ _
  rw [epochFiles, hswap]
  refine mapM_filter (fun f row hrow => ?_) hfiles
  obtain ⟨idx, -, hrow⟩ := except_bind_ok_iff.mp hrow
  obtain rfl := Except.ok.inj hrow
  rfl

/-- The files in the order of their epochs. -/
theorem DataDir.Tidy.sorted (h : dir.Tidy J files) :
    (files.mergeSort fun f g => decide (f.1 ≤ g.1)).Pairwise fun f g =>
      f.1.toNat < g.1.toNat := by
  have hle : (files.mergeSort fun f g => decide (f.1 ≤ g.1)).Pairwise fun f g =>
      decide (f.1 ≤ g.1) = true := by
    refine List.pairwise_mergeSort (fun a b c hab hbc => ?_) (fun a b => ?_) files
    · rw [decide_eq_true_eq, BitVec.le_def] at *
      exact hab.trans hbc
    · rw [Bool.or_eq_true, decide_eq_true_eq, decide_eq_true_eq]
      exact BitVec.le_total a.1 b.1
  have hne : (files.mergeSort fun f g => decide (f.1 ≤ g.1)).Pairwise fun f g => f.1 ≠ g.1 := by
    have hnodup := h.distinct
    rw [List.nodup_iff_pairwise_ne, List.pairwise_map] at hnodup
    exact hnodup.perm (List.mergeSort_perm _ _).symm fun hxy => hxy.symm
  refine (hle.and hne).imp ?_
  rintro f g ⟨hfg, hdiff⟩
  rw [decide_eq_true_eq, BitVec.le_def] at hfg
  have hnat : f.1.toNat ≠ g.1.toNat := fun hbad => hdiff (BitVec.eq_of_toNat_eq hbad)
  omega

theorem DataDir.Tidy.filter (h : dir.Tidy J files) (keeps : String → Bool)
    (hepochs : dir'.epochs = dir.epochs.filter fun f => keeps f.1) :
    dir'.Tidy J (files.filter fun f => keeps f.2.1) where
  found := epochFiles_filter h.found keeps hepochs
  distinct := h.distinct.sublist (List.filter_sublist.map Prod.fst)
  own := fun f hf => h.own f (List.mem_of_mem_filter hf)

/-- A directory that has some of the files of a directory reads the first of its blocks. -/
theorem DataDir.Tidy.read_filter (h : dir.Tidy J files) (hread : readEpochBlocks J dir = .ok bs)
    (keeps : String → Bool) (hepochs : dir'.epochs = dir.epochs.filter fun f => keeps f.1)
    {cs : List Block} (hread' : readEpochBlocks J dir' = .ok cs) : cs <+: bs := by
  have h' := h.filter keeps hepochs
  have hsorted := h.sorted
  have hperm : ((files.filter fun f => keeps f.2.1).mergeSort fun f g =>
      decide (f.1 ≤ g.1)).Perm
        ((files.mergeSort fun f g => decide (f.1 ≤ g.1)).filter fun f => keeps f.2.1) :=
    (List.mergeSort_perm _ _).trans ((List.mergeSort_perm _ _).symm.filter _)
  -- the files that are left stand in the order in which they stood among all files
  have hpart := hperm.eq_of_pairwise
    (fun f g _ _ hfg hgf => absurd (hfg.trans hgf) (lt_irrefl _)) h'.sorted
    (hsorted.sublist List.filter_sublist)
  rw [readEpochBlocks, h.found] at hread
  rw [readEpochBlocks, h'.found] at hread'
  change repairFilesFrom J 1#64 (files.mergeSort _) = _ at hread
  change repairFilesFrom J 1#64 ((files.filter fun f => keeps f.2.1).mergeSort _) = _ at hread'
  rw [hpart] at hread'
  refine repairFilesFrom_sublist List.filter_sublist (fun f hf => ?_) hsorted (fun f _ => ?_)
    hread hread'
  · exact h.own f ((List.mergeSort_perm _ _).subset hf)
  · exact Nat.le_add_left 1 _

/-- The files of some blocks are tidy. -/
theorem DataDir.Holds.tidy (h : dir.Holds J bs) (hw : ∀ b ∈ bs, J.Writes b)
    (hc : ConsecutiveHeights bs) :
    dir.Tidy J (epochTable J bs (List.range (epochCount bs.length))) := by
  obtain ⟨others, hothers, hepochs⟩ := h
  have hfits := hc.length_lt
  refine ⟨epochFiles_holds _ hothers hepochs, ?_, ?_⟩
  · rw [epochTable, List.map_map, List.nodup_iff_pairwise_ne, List.pairwise_map]
    refine List.Pairwise.imp_of_mem ?_ List.pairwise_lt_range
    intro e e' he he' hlt hsame
    rw [List.mem_range, epochCount] at he he'
    have hnat := congrArg BitVec.toNat hsame
    simp only [Function.comp_apply] at hnat
    rw [toNat_ofNat_of_lt (by omega), toNat_ofNat_of_lt (by omega)] at hnat
    omega
  · intro f hf line hline text blk htext hblk
    obtain ⟨e, he, rfl⟩ := List.mem_map.mp hf
    rw [List.mem_range, epochCount] at he
    have hblocks : ∀ b ∈ epochBlocks bs e, J.Writes b := fun b hb =>
      hw b (List.mem_of_mem_drop (List.mem_of_mem_take hb))
    dsimp only at hline
    rw [lines_epochFile hw] at hline
    obtain ⟨b, hb, rfl⟩ := List.mem_map.mp hline
    obtain rfl : text = J.toText b := by
      rw [(hblocks b hb).stripCr_line, BlockJson.line, utf8Text_strBytes] at htext
      exact (Option.some.inj htext).symm
    obtain rfl : b = blk := Except.ok.inj ((hblocks b hb).reads.symm.trans hblk)
    obtain ⟨k, hk⟩ := List.mem_iff_getElem?.mp hb
    rw [epochBlocks, List.getElem?_take] at hk
    split at hk
    · rename_i hlt
      rw [List.getElem?_drop] at hk
      have hheight := hc _ b hk
      have hne : b.hdr.height ≠ 0#64 := by
        intro hzero
        rw [hzero] at hheight
        simp at hheight
      rw [epochIdx, if_neg hne]
      refine congrArg Except.ok (BitVec.eq_of_toNat_eq ?_)
      change (epochOf b).toNat = _
      rw [epochOf_toNat hheight, toNat_ofNat_of_lt (by omega)]
      omega
    · cases hk

theorem readEpochBlocks_congr (h : dir'.epochs = dir.epochs) :
    readEpochBlocks J dir' = readEpochBlocks J dir := by
  rw [readEpochBlocks, readEpochBlocks, epochFiles, epochFiles, h]

/-- A repair of a tidy directory that is cut off after some removals and new files. -/
theorem DataDir.Tidy.cut (h : disk.dir.Tidy J files) (hread : readEpochBlocks J disk.dir = .ok bs)
    (hw : ∀ b ∈ bs, J.Writes b) (hc : ConsecutiveHeights bs) {kept : List Block}
    (hkept : kept <+: bs) (k : Nat) {cs : List Block}
    (hcut : readEpochBlocks J (disk.applyAll ((keepWrites J files kept).take k)).dir = .ok cs) :
    cs <+: bs := by
  obtain ⟨rest, rfl⟩ := hkept
  have hwkept : ∀ b ∈ kept, J.Writes b := fun b hb => hw b (List.mem_append_left rest hb)
  have hckept : ConsecutiveHeights kept := hc.of_append
  rcases Nat.le_total k (files.map fun f => RepairWrite.removeFile f.2.1).length with
    hremoves | hputs
  · have hfirst : (keepWrites J files kept).take k =
        ((files.map fun f => f.2.1).take k).map .removeFile := by
      rw [keepWrites, List.take_append_of_le_length hremoves, ← List.map_take, ← List.map_take,
        List.map_map]
      rfl
    rw [hfirst, applyAll_removes] at hcut
    exact h.read_filter hread
      (fun name => decide (name ∉ (files.map fun f => f.2.1).take k)) rfl hcut
  · obtain ⟨n, hn, hfront⟩ : ∃ n, n ≤ epochCount kept.length ∧ (keepWrites J files kept).take k =
        (files.map fun f => .removeFile f.2.1) ++
          (epochTable J kept (List.range n)).map fun row => .putFile row.2.1 row.2.2 := by
      refine ⟨min (k - files.length) (epochCount kept.length), Nat.min_le_right _ _, ?_⟩
      rw [keepWrites, List.take_append, List.take_of_length_le hputs, List.length_map,
        ← List.map_take, epochTable, ← List.map_take, List.take_range, epochTable]
    rw [hfront, applyAll_front h.found hckept.length_lt hn,
      readEpochBlocks_front hwkept hckept hn (fun f hf => ?_) rfl] at hcut
    · obtain rfl := Except.ok.inj hcut
      exact (List.take_prefix _ _).trans (List.prefix_append kept rest)
    · have hnot := (List.mem_filter.mp hf).2
      rwa [Bool.not_eq_true'] at hnot

end Directory

/-! ## Any point of a repair -/

section Cut

variable {C : Crypto} {J : BlockJson} {S : SummaryJson} {cfgJson : GenCfg → List U8} {cfg : GenCfg}
  {bs : List Block} {disk : RepairDisk} {opts : SnapRepairOpts}
  {files : List (U64 × String × List U8)}

/-- The writes of a repair that came to its end or failed. -/
def RepairLog (out : EStateM.Result SnapFault (List RepairWrite) SnapRepairReport)
    (ws : List RepairWrite) : Prop :=
  (∃ report, out = .ok report ws) ∨ ∃ f, out = .error f ws

theorem RepairLog.ok {report : SnapRepairReport} {vs ws : List RepairWrite}
    (h : RepairLog (.ok report vs) ws) : ws = vs := by
  rcases h with ⟨report', h⟩ | ⟨f, h⟩
  · exact (EStateM.Result.ok.inj h).2.symm
  · cases h

theorem RepairLog.error {f : SnapFault} {vs ws : List RepairWrite}
    (h : RepairLog (.error f vs) ws) : ws = vs := by
  rcases h with ⟨report, h⟩ | ⟨f', h⟩
  · cases h
  · exact (EStateM.Result.error.inj h).2.symm

/-- A repair makes no write, or it writes the blocks up to its target. -/
theorem RepairLog.cases (hfits : bs.length < 2 ^ 64) (hread : readEpochBlocks J disk.dir = .ok bs)
    (hfiles : epochFiles disk.dir = .ok files) {ws : List RepairWrite}
    (hlog : RepairLog (repairJsonEpochs C J S cfgJson cfg disk opts []) ws) :
    ws = [] ∨ ∃ n man text, ws = repairWrites J files opts.backup (bs.take n) man text := by
  cases hreplay : replayTo C cfg bs none with
  | error f =>
      have hout : repairJsonEpochs C J S cfgJson cfg disk opts [] = .error f [] := by
        rw [repairJsonEpochs, bind_of_lift hread, hreplay]
        rfl
      rw [hout] at hlog
      exact .inl hlog.error
  | ok res =>
      obtain ⟨targetH, htarget⟩ : ∃ targetH, opts.targetH.getD res.lastGoodH = targetH := ⟨_, rfl⟩
      by_cases hhigh : res.lastGoodH < targetH
      · obtain ⟨f, hout⟩ := @repairJsonEpochs_tooHigh C J S cfgJson cfg bs disk opts targetH hread
          res hreplay htarget hhigh
        rw [hout] at hlog
        exact .inl hlog.error
      · have hle : targetH ≤ res.lastGoodH := BitVec.not_lt.mp hhigh
        obtain ⟨again, hagain, hsame, -⟩ := replayTo_target hfits hreplay hle
        cases hdry : opts.dryRun with
        | true =>
            obtain ⟨report, hout⟩ :=
              repairJsonEpochs_reached S cfgJson hread hreplay htarget hle hagain hsame
            rw [onlyIf, if_neg (by rw [hdry]; exact Bool.noConfusion)] at hout
            rw [hout] at hlog
            exact .inl hlog.ok
        | false =>
            obtain ⟨report, vs, man, hvs, hout, -⟩ :=
              repairJsonEpochs_writes S cfgJson hfits hread hfiles hreplay htarget hle hagain hdry
            have hws : ws = vs := by
              rw [hout] at hlog
              split at hlog
              · exact hlog.ok
              · exact hlog.error
            rw [hws, hvs]
            exact .inr ⟨_, _, _, rfl⟩

/-- The first writes of a repair, after the backup. -/
theorem take_repairWrites {backup : Bool} {kept : List Block} {man : EpochManifest} {text : String}
    (k : Nat) :
    (repairWrites J files backup kept man text).take k = [] ∨
      ∃ m tail, (repairWrites J files backup kept man text).take k =
          (if backup then [.backup] else []) ++ ((keepWrites J files kept).take m ++ tail) ∧
        ∀ saved : RepairDisk, (saved.applyAll tail).dir.epochs = saved.dir.epochs ∧
          (saved.applyAll tail).backups = saved.backups := by
  have hlater : ∀ m, ∃ tail,
      (keepWrites J files kept ++ [RepairWrite.putManifest man, .putSummary text]).take m =
          (keepWrites J files kept).take m ++ tail ∧
        ∀ saved : RepairDisk, (saved.applyAll tail).dir.epochs = saved.dir.epochs ∧
          (saved.applyAll tail).backups = saved.backups := by
    intro m
    refine ⟨_, List.take_append, fun saved => ?_⟩
    rcases m - (keepWrites J files kept).length with _ | _ | j
    · exact ⟨rfl, rfl⟩
    · exact ⟨rfl, rfl⟩
    · rw [List.take_of_length_le (Nat.le_add_left 2 j)]
      exact ⟨rfl, rfl⟩
  cases backup with
  | false =>
      obtain ⟨tail, htake, htail⟩ := hlater k
      exact .inr ⟨k, tail, htake, htail⟩
  | true =>
      cases k with
      | zero => exact .inl rfl
      | succ k =>
          obtain ⟨tail, htake, htail⟩ := hlater k
          refine .inr ⟨k, tail, ?_, htail⟩
          change RepairWrite.backup :: _ = RepairWrite.backup :: _
          exact congrArg _ htake

theorem applyAll_backups {ws : List RepairWrite} (disk : RepairDisk)
    (hws : ∀ w ∈ ws, w ≠ .backup) : (disk.applyAll ws).backups = disk.backups := by
  induction ws generalizing disk with
  | nil => rfl
  | cons w rest ih =>
      obtain ⟨hfirst, hrest⟩ := List.forall_mem_cons.mp hws
      change ((disk.apply w).applyAll rest).backups = disk.backups
      rw [ih (disk.apply w) hrest]
      cases w with
      | backup => exact absurd rfl hfirst
      | removeFile _ => rfl
      | putFile _ _ => rfl
      | putManifest _ => rfl
      | putSummary _ => rfl

theorem keepWrites_ne_backup {kept : List Block} : ∀ w ∈ keepWrites J files kept, w ≠ .backup := by
  intro w hw
  rcases List.mem_append.mp hw with hremove | hput
  · obtain ⟨f, -, rfl⟩ := List.mem_map.mp hremove
    intro hbad
    cases hbad
  · obtain ⟨row, -, rfl⟩ := List.mem_map.mp hput
    intro hbad
    cases hbad

/-- Wherever a repair is cut off, the directory reads the first blocks of those that it read before,
and with a backup the directory of before is still there or among the backups. -/
theorem repair_cut (hfits : bs.length < 2 ^ 64) (hw : ∀ b ∈ bs, J.Writes b)
    (hread : readEpochBlocks J disk.dir = .ok bs) (htidy : disk.dir.Tidy J files)
    {ws : List RepairWrite}
    (hlog : RepairLog (repairJsonEpochs C J S cfgJson cfg disk opts []) ws) (k : Nat) :
    (∀ cs, readEpochBlocks J (disk.applyAll (ws.take k)).dir = .ok cs → cs <+: bs) ∧
      (opts.backup = true → disk.applyAll (ws.take k) = disk ∨
        disk.dir ∈ (disk.applyAll (ws.take k)).backups) := by
  have hnone : ∀ vs : List RepairWrite, vs = [] →
      (∀ cs, readEpochBlocks J (disk.applyAll vs).dir = .ok cs → cs <+: bs) ∧
      (opts.backup = true → disk.applyAll vs = disk ∨ disk.dir ∈ (disk.applyAll vs).backups) := by
    rintro _ rfl
    refine ⟨fun cs hcs => ?_, fun _ => .inl rfl⟩
    obtain rfl := Except.ok.inj (hread.symm.trans hcs)
    exact List.prefix_refl _
  rcases hlog.cases hfits hread htidy.found with rfl | ⟨n, man, text, rfl⟩
  · exact hnone _ List.take_nil
  · rcases @take_repairWrites J files opts.backup (bs.take n) man text k with
      hempty | ⟨m, tail, htake, htail⟩
    · exact hnone _ hempty
    · obtain ⟨saved, hsaved⟩ : ∃ saved, saved =
          disk.applyAll (if opts.backup then [.backup] else []) := ⟨_, rfl⟩
      have hdir : saved.dir = disk.dir := by
        rw [hsaved]
        split <;> rfl
      rw [htake, RepairDisk.applyAll_append, RepairDisk.applyAll_append, ← hsaved]
      obtain ⟨hepochs, hbackups⟩ := htail (saved.applyAll ((keepWrites J files (bs.take n)).take m))
      constructor
      · intro cs hcs
        rw [readEpochBlocks_congr hepochs] at hcs
        exact DataDir.Tidy.cut (hdir ▸ htidy) (hdir ▸ hread) hw
          (readEpochBlocks_heights hread hfits) (List.take_prefix n bs) m hcs
      · intro hbackup
        right
        rw [hbackups, applyAll_backups saved fun w hmem =>
          keepWrites_ne_backup w (List.mem_of_mem_take hmem), hsaved, if_pos hbackup]
        exact List.mem_append_right _ List.mem_cons_self

end Cut

open HalfSeason SkipFirst LostSummary in
/-- The repair of the devnet that lost its summary, cut off when it has removed the file. -/
theorem repair_cut_lostSummary :
    ∃ ws,
      RepairLog (repairJsonEpochs crypto json summaryJson (fun _ => []) devNet disk opts []) ws ∧
      (disk.applyAll (ws.take 2)).dir.epochs = [] ∧
      (∃ cs, readEpochBlocks json (disk.applyAll (ws.take 2)).dir = .ok cs ∧
        cs <+: [devNetBlock]) ∧
      dir ∈ (disk.applyAll (ws.take 2)).backups := by
  have hholds : disk.dir.Holds json [devNetBlock] := ⟨[], List.forall_mem_nil _, rfl⟩
  have htidy := hholds.tidy writes consecutive
  obtain ⟨report, ws, man, hws, hout, -⟩ :=
    @repairJsonEpochs_writes crypto json summaryJson (fun _ => []) devNet [devNetBlock] disk opts
      1#64 (by decide) read _ htidy.found _ _ replay rfl (BitVec.le_refl _) replay_again rfl
  have hlog : RepairLog
      (repairJsonEpochs crypto json summaryJson (fun _ => []) devNet disk opts []) ws := by
    rw [hout]
    split
    · exact .inl ⟨report, rfl⟩
    · rename_i f _
      exact .inr ⟨f, rfl⟩
  have hempty : (disk.applyAll (ws.take 2)).dir.epochs = [] := by
    have htake : ws.take 2 = [.backup, .removeFile (epochFileName 0#64)] := by
      rw [hws]
      rfl
    rw [htake]
    change (disk.dir.epochs.filter fun f => decide (f.1 ≠ epochFileName 0#64)) = []
    simp [disk, dir]
  have hnil : readEpochBlocks json (disk.applyAll (ws.take 2)).dir = .ok [] := by
    have hnone : readEpochBlocks json ⟨[], none, none⟩ = .ok [] := by
      simp [readEpochBlocks, epochFiles, repairFilesFrom]
    rw [← hnone]
    exact readEpochBlocks_congr hempty
  obtain ⟨hfront, hsaved⟩ := repair_cut (by decide) writes read htidy hlog 2
  refine ⟨ws, hlog, hempty, ⟨[], hnil, hfront [] hnil⟩, ?_⟩
  rcases hsaved rfl with hsame | hmem
  · rw [hsame] at hempty
    cases hempty
  · exact hmem

end Pwm
