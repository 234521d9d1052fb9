import Pwm.Node.Commit
import Pwm.Snapshot.StoredChain

/-!
# The disk behind the memory

Before a summary is written, the blocks that the disk does not have yet are
appended from the tail in memory. The heights alone decide what is appended: a
block that was stored and then taken back in memory stays on disk, also when
another one is sealed at its height.
-/

namespace Pwm

open BitVec Attempt

/-! ## Bringing the disk up to the tip -/

/-- The height that the manifest ends at. -/
def EpochStore.diskTip (s : EpochStore) : U64 :=
  (s.manifest.map EpochManifest.canonicalH).getD 0#64

section Append

variable {C : Crypto} {J : BlockJson} {s : EpochStore} {blk : Block} {ws : List StoreWrite}

theorem applyAll_replaceManifest (s : EpochStore) (ws : List StoreWrite) (man : EpochManifest) :
    (s.applyAll (ws ++ [.replaceManifest man])).manifest = some man := by
  rw [EpochStore.applyAll, List.foldl_append]
  rfl

/-- A successful append ends with the manifest at the height of its block. -/
theorem diskTip_append (h : appendBlockForEpoch C J s blk [] = .ok () ws) :
    (s.applyAll ws).diskTip = blk.hdr.height := by
  simp only [appendBlockForEpoch] at h
  obtain ⟨_, _, -, h⟩ := bind_ok_iff.mp h
  obtain ⟨_, _, -, h⟩ := bind_ok_iff.mp h
  obtain ⟨_, _, -, h⟩ := bind_ok_iff.mp h
  obtain ⟨_, _, -, h⟩ := bind_ok_iff.mp h
  obtain ⟨_, _, -, h⟩ := bind_ok_iff.mp h
  obtain ⟨_, ws', -, h⟩ := bind_ok_iff.mp h
  have hws := (modify_ok_iff.mp h)
  rw [EpochStore.diskTip, ← hws, applyAll_replaceManifest]
  rfl

end Append

/-- Append the blocks above the disk's height one by one, up to the tip. -/
def syncLoop (C : Crypto) (J : BlockJson) (ch : Chain) (s : EpochStore) :
    Except String Unit × EpochStore :=
  let diskTip := s.diskTip
  if hdone : ch.tipH ≤ diskTip then (.ok (), s)
  else
    let wantH := diskTip + 1#64
    match hfind : ch.blocks.find? fun b => decide (b.hdr.height = wantH) with
    | none =>
        (.error (s!"epoch sync: need block height {wantH.toNat} on disk but it is not in memory " ++
          s!"tail (disk_tip={diskTip.toNat} tip={ch.tipH.toNat})"), s)
    | some blk =>
        match happend : appendBlockForEpoch C J s blk [] with
        | .ok _ ws => syncLoop C J ch (s.applyAll ws)
        | .error e ws => (.error e, s.applyAll ws)
termination_by ch.tipH.toNat - s.diskTip.toNat
decreasing_by
  have htip := diskTip_append happend
  have hheight : blk.hdr.height = s.diskTip + 1#64 := by
    simpa using List.find?_some hfind
  have hlt : s.diskTip.toNat < ch.tipH.toNat := Nat.lt_of_not_le hdone
  have hbound := ch.tipH.isLt
  rw [htip, hheight, BitVec.toNat_add]
  change ch.tipH.toNat - (s.diskTip.toNat + 1) % 2 ^ 64 < _
  rw [Nat.mod_eq_of_lt (by omega)]
  omega

def syncEpochToTip (C : Crypto) (J : BlockJson) (ch : Chain) (s : EpochStore) :
    Except String Unit × EpochStore :=
  if ch.tipH = 0#64 then (.ok (), s) else syncLoop C J ch s

section Loop

variable {C : Crypto} {J : BlockJson} {ch : Chain} {s : EpochStore} {blk : Block}
  {ws : List StoreWrite}

theorem syncLoop_done (h : ch.tipH ≤ s.diskTip) : syncLoop C J ch s = (.ok (), s) := by
  rw [syncLoop, dif_pos h]

theorem syncLoop_missing (h : ¬ ch.tipH ≤ s.diskTip)
    (hfind : (ch.blocks.find? fun b => decide (b.hdr.height = s.diskTip + 1#64)) = none) :
    ∃ e, syncLoop C J ch s = (.error e, s) := by
  rw [syncLoop, dif_neg h]
  dsimp only
  split
  next => exact ⟨_, rfl⟩
  next blk hblk =>
    rw [hfind] at hblk
    cases hblk

theorem syncLoop_appended (h : ¬ ch.tipH ≤ s.diskTip)
    (hfind : (ch.blocks.find? fun b => decide (b.hdr.height = s.diskTip + 1#64)) = some blk)
    (happend : appendBlockForEpoch C J s blk [] = .ok () ws) :
    syncLoop C J ch s = syncLoop C J ch (s.applyAll ws) := by
  rw [syncLoop, dif_neg h]
  dsimp only
  split
  next hnone =>
    rw [hfind] at hnone
    cases hnone
  next blk' hblk =>
    obtain rfl := Option.some.inj (hfind.symm.trans hblk)
    split
    next hok =>
      rw [happend] at hok
      cases hok
      rfl
    next herror =>
      rw [happend] at herror
      cases herror

theorem syncLoop_failed {e : String} (h : ¬ ch.tipH ≤ s.diskTip)
    (hfind : (ch.blocks.find? fun b => decide (b.hdr.height = s.diskTip + 1#64)) = some blk)
    (happend : appendBlockForEpoch C J s blk [] = .error e ws) :
    syncLoop C J ch s = (.error e, s.applyAll ws) := by
  rw [syncLoop, dif_neg h]
  dsimp only
  split
  next hnone =>
    rw [hfind] at hnone
    cases hnone
  next blk' hblk =>
    obtain rfl := Option.some.inj (hfind.symm.trans hblk)
    split
    next hok =>
      rw [happend] at hok
      cases hok
    next herror =>
      rw [happend] at herror
      cases herror
      rfl

end Loop

/-! ## What is on disk -/

/-- The manifest ends at the last of these blocks. The line of one more block may be on disk: its
append ended before the manifest was written. -/
inductive OnDisk (C : Crypto) (J : BlockJson) (s : EpochStore) (ds : List Block) : Prop
  | whole (stores : Stores C J s ds) (writes : ∀ b ∈ ds, J.Writes b)
      (heights : ConsecutiveHeights ds)
  | torn (b : Block) (lines : LineFiles J s (ds ++ [b]))
      (manifest : s.manifest = if ds = [] then none else some (manifestFor C ds))
      (writes : ∀ c ∈ ds ++ [b], J.Writes c) (heights : ConsecutiveHeights (ds ++ [b]))

section Disk

variable {C : Crypto} {J : BlockJson} {s : EpochStore} {ds fs : List Block} {b : Block}
  {ws : List StoreWrite}

theorem OnDisk.lines (h : OnDisk C J s ds) : ∃ fs, ds <+: fs ∧ LineFiles J s fs ∧
    (∀ b ∈ fs, J.Writes b) ∧ ConsecutiveHeights fs := by
  cases h with
  | whole stores writes heights => exact ⟨ds, List.prefix_rfl, stores.lines, writes, heights⟩
  | torn b lines _ writes heights => exact ⟨_, List.prefix_append .., lines, writes, heights⟩

theorem OnDisk.manifest (h : OnDisk C J s ds) :
    s.manifest = if ds = [] then none else some (manifestFor C ds) := by
  cases h with
  | whole stores _ _ => exact stores.manifest
  | torn _ _ manifest _ _ => exact manifest

theorem OnDisk.heights (h : OnDisk C J s ds) : ConsecutiveHeights ds := by
  obtain ⟨fs, ⟨more, rfl⟩, -, -, hc⟩ := h.lines
  exact hc.of_append

theorem OnDisk.diskTip (h : OnDisk C J s ds) : s.diskTip.toNat = ds.length := by
  rw [EpochStore.diskTip, h.manifest]
  by_cases hnil : ds = []
  · rw [if_pos hnil, hnil]
    rfl
  · rw [if_neg hnil]
    exact toNat_ofNat_of_lt h.heights.length_lt

/-- Each block is found by its height. -/
theorem OnDisk.height (h : OnDisk C J s ds) {height : U64} (hpos : 0 < height.toNat)
    (hle : height.toNat ≤ ds.length) :
    loadBlockAtHeight J s height = .ok ds[height.toNat - 1]? := by
  obtain ⟨fs, hfs, hlines, hw, hc⟩ := h.lines
  exact hlines.height h.manifest hw hc hfs hpos hle

/-- A block whose height has a line already is not appended. -/
theorem LineFiles.append_refused (h : LineFiles J s fs) (hw : ∀ c ∈ fs, J.Writes c)
    (hc : ConsecutiveHeights fs) (hle : b.hdr.height.toNat ≤ fs.length) :
    appendBlockForEpoch C J s b [] ≠ .ok () ws := by
  intro happend
  have hn := hc.length_lt
  cases hheight : b.hdr.height.toNat with
  | zero =>
      have hzero : b.hdr.height = 0#64 := BitVec.eq_of_toNat_eq hheight
      simp only [appendBlockForEpoch] at happend
      obtain ⟨_, _, hidx, -⟩ := bind_ok_iff.mp happend
      rw [liftExcept_ok_iff, hzero] at hidx
      cases hidx.1
  | succ n =>
      obtain ⟨lastH, hread, hlast⟩ := reads_of_append hheight happend
      have hfile := h (BitVec.ofNat 64 (n / 1000))
      rw [toNat_ofNat_of_lt (by omega), if_pos (by omega)] at hfile
      rw [hfile] at hread
      have hblocks := hc.epochBlocks (n / 1000)
      have hlen : (epochBlocks fs (n / 1000)).length = min 1000 (fs.length - 1000 * (n / 1000)) := by
        rw [epochBlocks, List.length_take, List.length_drop]
      obtain hnil | ⟨cs, c, hcs⟩ := List.eq_nil_or_concat' (epochBlocks fs (n / 1000))
      · rw [hnil, List.length_nil] at hlen
        omega
      rw [hcs, List.length_append, List.length_singleton] at hlen
      have hmem : c ∈ epochBlocks fs (n / 1000) := by
        rw [hcs]
        exact List.mem_append_right _ (List.mem_singleton.mpr rfl)
      have hwc := writes_epochBlocks hw (n / 1000) c hmem
      have hheightc := hblocks cs.length c (by rw [hcs]; simp)
      rw [hcs] at hread
      by_cases hv : LastVisible J (cs ++ [c])
      · rw [readLastBlockHeight_concat _ hwc hv] at hread
        have htail := hlast _ (Except.ok.inj hread).symm
        omega
      · obtain ⟨e, herror⟩ := readLastBlockHeight_error
          (epochFileName (BitVec.ofNat 64 (n / 1000))) hwc hv
        rw [herror] at hread
        cases hread

/-- An append that fails has written nothing, unless there is an empty file to clean up. -/
theorem append_failsClean (hfiles : ∀ eidx, s.files (epochFileName eidx) ≠ some [])
    (hschema : ∀ man, s.manifest = some man → man.schemaV = epochManSchemaCur) :
    FailsClean (fun _ => True) (appendBlockForEpoch C J s b) := by
  simp only [appendBlockForEpoch]
  refine .after_readOnly (readOnly_liftExcept _ _) fun eidx => ?_
  refine .after_readOnly (readOnly_liftExcept _ _) fun lastH => ?_
  have hcheck : ReadOnly
      (checkContinuity s (epochFileName eidx) (epochRange eidx) b.hdr.height lastH) := by
    cases lastH with
    | none =>
        refine readOnly_onlyIf _ (.bind ?_ fun _ => readOnly_throw _)
        rw [cleanupEmptyGapFile, onlyIf, if_neg (hfiles eidx)]
        exact readOnly_pure ()
    | some tailH => exact .bind (readOnly_orThrow _ _) fun _ => readOnly_require _ _
  refine .after_readOnly hcheck fun _ => .after_readOnly (readOnly_liftExcept _ _) fun firstH => ?_
  refine NeverFails.failsClean (.bind (neverFails_modify _) fun _ => .bind ?_ fun _ =>
    neverFails_modify _)
  have hman : (s.manifest.getD (mkManifest b.hdr.height (hexEncode (hdrHash C b.hdr)) [])).schemaV =
      epochManSchemaCur := by
    cases hman : s.manifest with
    | none => rfl
    | some man => exact hschema man hman
  intro ws e ws' herror
  obtain ⟨d, hd, -⟩ := liftExcept_error_iff.mp herror
  rw [EpochManifest.extend, ensureEpochManSchema, if_pos hman] at hd
  cases hd

theorem OnDisk.error_writes (h : OnDisk C J s ds) {e : String}
    (happend : appendBlockForEpoch C J s b [] = .error e ws) : ws = [] := by
  obtain ⟨fs, -, hlines, -, -⟩ := h.lines
  refine append_failsClean ?_ ?_ [] e ws happend trivial
  · intro eidx
    rw [hlines eidx]
    split
    next hlt =>
      intro hnil
      obtain ⟨c, cs, hcs⟩ : ∃ c cs, epochBlocks fs eidx.toNat = c :: cs := by
        refine List.exists_cons_of_length_pos ?_
        rw [epochBlocks, List.length_take, List.length_drop]
        omega
      rw [hcs, blockFile, List.map_cons, LineFile.ofLines] at hnil
      simp at hnil
    · intro hnone
      cases hnone
  · intro man hman
    rw [h.manifest] at hman
    split at hman
    · cases hman
    · rw [← Option.some.inj hman]
      rfl

/-- What an append leaves on disk, also when it is cut off between its writes. -/
theorem OnDisk.append (h : OnDisk C J s ds) (hb : J.Writes b)
    (hle : b.hdr.height.toNat ≤ ds.length + 1)
    (hws : ws <+: writesOf (appendBlockForEpoch C J s b [])) :
    OnDisk C J (s.applyAll ws) ds ∨
      b.hdr.height.toNat = ds.length + 1 ∧ OnDisk C J (s.applyAll ws) (ds ++ [b]) := by
  cases happend : appendBlockForEpoch C J s b [] with
  | error e ws' =>
      rw [happend, writesOf, h.error_writes happend] at hws
      rw [List.prefix_nil.mp hws]
      exact .inl h
  | ok _ ws' =>
      cases h with
      | torn c lines manifest writes heights =>
          refine absurd happend (lines.append_refused writes heights ?_)
          rwa [List.length_append, List.length_singleton]
      | whole stores writes heights =>
          have hnext : b.hdr.height.toNat = ds.length + 1 := by
            by_contra hne
            exact stores.lines.append_refused writes heights (by omega) happend
          have hc := heights.concat hnext
          have hn := hc.length_lt
          rw [List.length_append, List.length_singleton] at hn
          have hw : ∀ c ∈ ds ++ [b], J.Writes c := by
            intro c hmem
            rcases List.mem_append.mp hmem with hmem | hmem
            · exact writes c hmem
            · rw [List.mem_singleton.mp hmem]
              exact hb
          have hv := (AppendStep.stores ⟨ws', happend, rfl⟩ stores writes hc).1
          have hwrites := happend
          rw [stores.append_ok writes hc hv] at hwrites
          obtain ⟨-, rfl⟩ := EStateM.Result.ok.inj hwrites
          rw [happend, writesOf, appendWrites] at hws
          rcases List.prefix_cons_iff.mp hws with rfl | ⟨rest, rfl, hrest⟩
          · exact .inl (.whole stores writes heights)
          · rcases List.prefix_cons_iff.mp hrest with rfl | ⟨rest', rfl, hrest'⟩
            · exact .inl (.torn b (stores.files_line hn) stores.manifest hw hc)
            · rw [List.prefix_nil.mp hrest']
              exact .inr ⟨hnext, .whole (stores.written hn) hw hc⟩

end Disk

/-! ## Memory and disk -/

/-- The tail in memory ends a history without gaps. -/
structure TailOf (hs blocks : List Block) (tip : U64) : Prop where
  heights : ConsecutiveHeights hs
  blocks : blocks = hs.drop (hs.length - tailBlockCap)
  tip : tip.toNat = hs.length

/-- From a place on, two lists of blocks have no different blocks at one place. -/
def AgreeFrom (k : Nat) (hs ds : List Block) : Prop :=
  ∀ i, k ≤ i → ∀ b d, hs[i]? = some b → ds[i]? = some d → d = b

/-- The disk does not go above the history, and its blocks in the tail are those in memory. -/
structure DiskBehind (C : Crypto) (J : BlockJson) (hs : List Block) (s : EpochStore)
    (ds : List Block) : Prop where
  disk : OnDisk C J s ds
  le : ds.length ≤ hs.length
  agree : AgreeFrom (hs.length - tailBlockCap) hs ds

/-- The blocks in memory up to the tip are those on disk. -/
def DiskMatches (J : BlockJson) (ch : Chain) (s : EpochStore) : Prop :=
  ∀ b ∈ ch.blocks, b.hdr.height ≤ ch.tipH → loadBlockAtHeight J s b.hdr.height = .ok (some b)

section Tail

variable {C : Crypto} {J : BlockJson} {hs ds blocks : List Block} {tip : U64} {b : Block}
  {s : EpochStore} {ch : Chain}

theorem TailOf.place (h : TailOf hs blocks tip) (hb : b ∈ blocks) :
    ∃ i, hs.length - tailBlockCap ≤ i ∧ hs[i]? = some b ∧ b.hdr.height.toNat = i + 1 := by
  rw [h.blocks] at hb
  obtain ⟨k, hk⟩ := List.mem_iff_getElem?.mp hb
  rw [List.getElem?_drop] at hk
  exact ⟨_, Nat.le_add_right _ _, hk, h.heights _ b hk⟩

theorem TailOf.mem (h : TailOf hs blocks tip) {i : Nat} (hle : hs.length - tailBlockCap ≤ i)
    (hi : hs[i]? = some b) : b ∈ blocks := by
  rw [h.blocks]
  refine List.mem_iff_getElem?.mpr ⟨i - (hs.length - tailBlockCap), ?_⟩
  rw [List.getElem?_drop, Nat.add_sub_cancel' hle, hi]

/-- The tail with the next block. -/
theorem TailOf.append (h : TailOf hs ch.blocks ch.tipH)
    (hb : b.hdr.height.toNat = ch.tipH.toNat + 1) (st : State) :
    TailOf (hs ++ [b]) (ch.append b st).blocks (ch.append b st).tipH where
  heights := h.heights.concat (hb.trans (congrArg (· + 1) h.tip))
  blocks := Chain.append_tail h.blocks b st
  tip := by
    rw [Chain.append_tipH, hb, h.tip, List.length_append, List.length_singleton]

/-- A further block in memory does not change what the disk is behind. -/
theorem DiskBehind.concat (h : DiskBehind C J hs s ds) (b : Block) :
    DiskBehind C J (hs ++ [b]) s ds where
  disk := h.disk
  le := by
    rw [List.length_append]
    exact Nat.le_add_right_of_le h.le
  agree := by
    intro i hi c d hc hd
    have hlt := (List.getElem?_eq_some_iff.mp hd).1
    have hle := h.le
    rw [List.length_append, List.length_singleton] at hi
    rw [List.getElem?_append_left (by omega)] at hc
    exact h.agree i (by omega) c d hc hd

/-- An append of the next block in memory, or of one that is on disk, keeps the disk behind. -/
theorem DiskBehind.append (h : DiskBehind C J hs s ds) (hb : J.Writes b)
    (hle : b.hdr.height.toNat ≤ ds.length + 1)
    (hnext : b.hdr.height.toNat = ds.length + 1 → ds.length < hs.length ∧
      (hs.length - tailBlockCap ≤ ds.length → ∀ c, hs[ds.length]? = some c → b = c))
    {ws : List StoreWrite} (hws : ws <+: writesOf (appendBlockForEpoch C J s b [])) :
    ∃ ds', DiskBehind C J hs (s.applyAll ws) ds' := by
  rcases h.disk.append hb hle hws with hdisk | ⟨hheight, hdisk⟩
  · exact ⟨ds, hdisk, h.le, h.agree⟩
  · obtain ⟨hlt, hsame⟩ := hnext hheight
    refine ⟨ds ++ [b], hdisk, ?_, fun i hi c d hc hd => ?_⟩
    · rw [List.length_append, List.length_singleton]
      exact hlt
    · by_cases hold : i < ds.length
      · rw [List.getElem?_append_left hold] at hd
        exact h.agree i hi c d hc hd
      · rw [List.getElem?_append_right (by omega), List.getElem?_singleton] at hd
        split at hd
        next hzero =>
          obtain rfl : i = ds.length := by omega
          rw [← Option.some.inj hd]
          exact hsame hi c hc
        · cases hd

/-- The block that the loop asks for is the one after those on disk. -/
theorem DiskBehind.wanted (h : DiskBehind C J hs s ds) (htail : TailOf hs ch.blocks ch.tipH)
    (hfind : (ch.blocks.find? fun b => decide (b.hdr.height = s.diskTip + 1#64)) = some b)
    (hbelow : ¬ ch.tipH ≤ s.diskTip) :
    hs[ds.length]? = some b ∧ b.hdr.height.toNat = ds.length + 1 := by
  have hdisk := h.disk.diskTip
  have hlt : s.diskTip.toNat < ch.tipH.toNat := Nat.lt_of_not_le hbelow
  have hbound := ch.tipH.isLt
  have hheight : b.hdr.height = s.diskTip + 1#64 := by
    simpa using List.find?_some hfind
  have hvalue : b.hdr.height.toNat = ds.length + 1 := by
    rw [hheight, BitVec.toNat_add, hdisk]
    change (ds.length + 1) % 2 ^ 64 = ds.length + 1
    exact Nat.mod_eq_of_lt (by omega)
  obtain ⟨i, -, hi, hplace⟩ := htail.place (List.mem_of_find?_eq_some hfind)
  obtain rfl : i = ds.length := by omega
  exact ⟨hi, hvalue⟩

/-- One append of the loop. -/
theorem DiskBehind.round (h : DiskBehind C J hs s ds) (htail : TailOf hs ch.blocks ch.tipH)
    (hw : ∀ b ∈ hs, J.Writes b)
    (hfind : (ch.blocks.find? fun b => decide (b.hdr.height = s.diskTip + 1#64)) = some b)
    (hbelow : ¬ ch.tipH ≤ s.diskTip) :
    ∃ ds', DiskBehind C J hs
      (s.applyAll (writesOf (appendBlockForEpoch C J s b []))) ds' := by
  obtain ⟨hi, hheight⟩ := h.wanted htail hfind hbelow
  refine h.append (hw b (List.mem_of_getElem? hi)) hheight.le (fun _ => ⟨?_, fun _ c hc => ?_⟩)
    List.prefix_rfl
  · exact (List.getElem?_eq_some_iff.mp hi).1
  · exact Option.some.inj (hi.symm.trans hc)

/-- The loop keeps the disk behind the memory, and at its end brings it up to the tip. -/
theorem syncLoop_spec (htail : TailOf hs ch.blocks ch.tipH) (hw : ∀ b ∈ hs, J.Writes b)
    (h : DiskBehind C J hs s ds) :
    ∃ ds', DiskBehind C J hs (syncLoop C J ch s).2 ds' ∧
      ((syncLoop C J ch s).1 = .ok () → ds'.length = hs.length) := by
  induction s using syncLoop.induct C J ch generalizing ds with
  | case1 s diskTip =>
      rename_i hdone
      rw [syncLoop_done hdone]
      refine ⟨ds, h, fun _ => ?_⟩
      have hle : ch.tipH.toNat ≤ s.diskTip.toNat := hdone
      rw [htail.tip, h.disk.diskTip] at hle
      exact Nat.le_antisymm h.le hle
  | case2 s diskTip =>
      rename_i hbelow wantH hfind
      obtain ⟨e, hloop⟩ := @syncLoop_missing C J ch s hbelow hfind
      rw [hloop]
      exact ⟨ds, h, fun hok => nomatch hok⟩
  | case3 s diskTip =>
      rename_i hbelow wantH blk hfind u ws happend ih
      obtain ⟨ds', hround⟩ := h.round htail hw hfind hbelow
      rw [happend] at hround
      rw [syncLoop_appended hbelow hfind happend]
      exact ih hround
  | case4 s diskTip =>
      rename_i hbelow wantH blk hfind e ws happend
      obtain ⟨ds', hround⟩ := h.round htail hw hfind hbelow
      rw [happend] at hround
      rw [syncLoop_failed hbelow hfind happend]
      exact ⟨ds', hround, fun hok => nomatch hok⟩

/-- A synchronisation keeps the disk behind the memory. -/
theorem syncEpochToTip_spec (htail : TailOf hs ch.blocks ch.tipH) (hw : ∀ b ∈ hs, J.Writes b)
    (h : DiskBehind C J hs s ds) :
    ∃ ds', DiskBehind C J hs (syncEpochToTip C J ch s).2 ds' ∧
      ((syncEpochToTip C J ch s).1 = .ok () → ds'.length = hs.length) := by
  rw [syncEpochToTip]
  split
  next hzero =>
    refine ⟨ds, h, fun _ => ?_⟩
    have htip := htail.tip
    have hle := h.le
    rw [hzero] at htip
    change 0 = hs.length at htip
    omega
  · exact syncLoop_spec htail hw h

/-- A disk with all blocks of the history has those of the tail. -/
theorem DiskBehind.diskMatches (h : DiskBehind C J hs s ds) (htail : TailOf hs ch.blocks ch.tipH)
    (hlen : ds.length = hs.length) : DiskMatches J ch s ∧ s.diskTip = ch.tipH := by
  constructor
  · intro b hb _
    obtain ⟨i, hi, hib, hheight⟩ := htail.place hb
    have hlt : i < ds.length := hlen ▸ (List.getElem?_eq_some_iff.mp hib).1
    have hsome : ds[i]? = some ds[i] := List.getElem?_eq_getElem hlt
    rw [h.disk.height (by omega) (by omega), hheight, Nat.add_sub_cancel, hsome,
      h.agree i hi b _ hib hsome]
  · refine BitVec.eq_of_toNat_eq ?_
    rw [h.disk.diskTip, htail.tip, hlen]

end Tail

/-! ## Runs -/

structure DiskNode where
  inner : Inner
  store : EpochStore
  /-- The backups that were taken. -/
  baks : List CommitBak

inductive DiskAct
  | sealed (blk : Block)
  | applied (blk : Block)
  | appended (blk : Block)
  | synced
  | taken
  | restored (bak : CommitBak)

/-- The block that a step brings. -/
def DiskAct.block : DiskAct → Option Block
  | .sealed blk | .applied blk | .appended blk => some blk
  | .synced | .taken | .restored _ => none

/-- A step of the node. An append may be cut off between its writes, and a backup is restored at any
time after it was taken: the persist that failed is the synchronisation before, or an append cut off,
or a summary that was not written. -/
inductive DiskStep (C : Crypto) (J : BlockJson) : DiskNode → DiskAct → DiskNode → Prop
  | sealed {n : DiskNode} {inner : Inner} {now : U64} {entries : List SealEntry} {blk : Block}
      (hok : sealEntries C now n.inner.chain entries = .ok inner.chain)
      (hlast : inner.chain.blocks.getLast? = some blk) :
      DiskStep C J n (.sealed blk) { n with inner := inner }
  | applied {n : DiskNode} {inner : Inner} {blk : Block}
      (hok : applyBlk C n.inner blk = .ok inner) :
      DiskStep C J n (.applied blk) { n with inner := inner }
  | appended {n : DiskNode} {blk : Block} {ws : List StoreWrite}
      (hws : ws <+: writesOf (appendBlockForEpoch C J n.store blk [])) :
      DiskStep C J n (.appended blk) { n with store := n.store.applyAll ws }
  | synced {n : DiskNode} :
      DiskStep C J n .synced { n with store := (syncEpochToTip C J n.inner.chain n.store).2 }
  | taken {n : DiskNode} : DiskStep C J n .taken { n with baks := takeBak n.inner :: n.baks }
  | restored {n : DiskNode} {bak : CommitBak} (hbak : bak ∈ n.baks) :
      DiskStep C J n (.restored bak) { n with inner := rollbackCommit n.inner bak }

/-- A backup is restored only if the disk does not go above it and has its blocks. What is appended
above the disk's height is the next block, in memory; and no block is applied at the last height. -/
def DiskAct.Careful (J : BlockJson) (n : DiskNode) : DiskAct → Prop
  | .applied _ => n.inner.chain.tipH ≠ BitVec.allOnes 64
  | .appended blk => n.store.diskTip < blk.hdr.height →
      blk.hdr.height.toNat = n.store.diskTip.toNat + 1 ∧ blk.hdr.height ≤ n.inner.chain.tipH ∧
        ∀ b ∈ n.inner.chain.blocks, b.hdr.height = blk.hdr.height → blk = b
  | .restored bak => n.store.diskTip ≤ bak.canonicalH ∧
      ∀ b ∈ bak.blocks, b.hdr.height ≤ n.store.diskTip →
        loadBlockAtHeight J n.store b.hdr.height = .ok (some b)
  | .sealed _ | .synced | .taken => True

/-- Blocks that end a history, all of which can be written. -/
def Kept (J : BlockJson) (blocks : List Block) (tip : U64) : Prop :=
  ∃ hs, TailOf hs blocks tip ∧ ∀ b ∈ hs, J.Writes b

/-- The disk is behind the memory, and every backup is one of a chain. -/
structure DiskFollows (C : Crypto) (J : BlockJson) (n : DiskNode) : Prop where
  memory : ∃ hs, TailOf hs n.inner.chain.blocks n.inner.chain.tipH ∧ (∀ b ∈ hs, J.Writes b) ∧
    ∃ ds, DiskBehind C J hs n.store ds
  baks : ∀ bak ∈ n.baks, Kept J bak.blocks bak.canonicalH

section Steps

variable {C : Crypto} {J : BlockJson} {n n' : DiskNode} {a : DiskAct} {blk : Block}

/-- A block more in memory. -/
theorem DiskFollows.grow (h : DiskFollows C J n) (hb : J.Writes blk)
    (hheight : blk.hdr.height.toNat = n.inner.chain.tipH.toNat + 1) {inner : Inner} {st : State}
    (hchain : inner.chain = n.inner.chain.append blk st) :
    DiskFollows C J { n with inner := inner } := by
  obtain ⟨hs, htail, hw, ds, hbehind⟩ := h.memory
  refine ⟨⟨hs ++ [blk], ?_, fun c hc => ?_, ds, hbehind.concat blk⟩, h.baks⟩
  · rw [hchain]
    exact htail.append hheight st
  · rcases List.mem_append.mp hc with hc | hc
    · exact hw c hc
    · rw [List.mem_singleton.mp hc]
      exact hb

theorem DiskFollows.append (h : DiskFollows C J n) (hb : J.Writes blk)
    (hcareful : DiskAct.Careful J n (.appended blk)) {ws : List StoreWrite}
    (hws : ws <+: writesOf (appendBlockForEpoch C J n.store blk [])) :
    DiskFollows C J { n with store := n.store.applyAll ws } := by
  obtain ⟨hs, htail, hw, ds, hbehind⟩ := h.memory
  have hdisk := hbehind.disk.diskTip
  have habove : ds.length < blk.hdr.height.toNat →
      n.store.diskTip < blk.hdr.height := fun hlt => BitVec.lt_def.mpr (hdisk ▸ hlt)
  have hle : blk.hdr.height.toNat ≤ ds.length + 1 := by
    by_contra hgt
    have hnext := (hcareful (habove (by omega))).1
    omega
  refine ⟨⟨hs, htail, hw, hbehind.append hb hle (fun hnext => ?_) hws⟩, h.baks⟩
  obtain ⟨-, htip, hsame⟩ := hcareful (habove (by omega))
  have htip' := BitVec.le_def.mp htip
  rw [htail.tip, hnext] at htip'
  refine ⟨htip', fun hi c hc => hsame c (htail.mem hi hc) (BitVec.eq_of_toNat_eq ?_)⟩
  rw [htail.heights _ c hc, hnext]

/-- A backup that the disk does not go above. -/
theorem DiskFollows.restore (h : DiskFollows C J n) {bak : CommitBak} (hbak : bak ∈ n.baks)
    (hcareful : DiskAct.Careful J n (.restored bak)) :
    DiskFollows C J { n with inner := rollbackCommit n.inner bak } := by
  obtain ⟨_, -, -, ds, hbehind⟩ := h.memory
  obtain ⟨hs, htail, hw⟩ := h.baks bak hbak
  obtain ⟨hle, hfound⟩ := hcareful
  have hdisk := hbehind.disk.diskTip
  have hle' := BitVec.le_def.mp hle
  rw [hdisk, htail.tip] at hle'
  refine ⟨⟨hs, htail, hw, ds, hbehind.disk, hle', fun i hi b d hb hd => ?_⟩, h.baks⟩
  have hheight := htail.heights i b hb
  have hlt := (List.getElem?_eq_some_iff.mp hd).1
  have hload := hfound b (htail.mem hi hb) (BitVec.le_def.mpr (by omega))
  rw [hbehind.disk.height (by omega) (by omega), hheight, Nat.add_sub_cancel, hd] at hload
  exact Option.some.inj (Except.ok.inj hload)

/-- What a careful step keeps. -/
theorem DiskFollows.step (h : DiskFollows C J n) (hstep : DiskStep C J n a n') (hcareful : a.Careful J n)
    (hw : ∀ b ∈ a.block, J.Writes b) : DiskFollows C J n' := by
  cases hstep with
  | @sealed inner now entries blk hok hlast =>
      have htip := sealEntries_tipH hok
      obtain ⟨height, ts, prodIdx, sk, st, st', hctx, _, _, _, _, hchain⟩ := sealEntries_ok hok
      rw [hchain, Chain.append_getLast?] at hlast
      rw [hchain, Chain.append_tipH, Option.some.inj hlast] at htip
      rw [Option.some.inj hlast] at hchain
      exact h.grow (hw blk rfl) htip hchain
  | @applied inner blk hok =>
      obtain ⟨st', hreplays, hchain⟩ := applyBlk_chain hok
      refine h.grow (hw blk rfl) ?_ hchain
      have hne : n.inner.chain.tipH.toNat ≠ 2 ^ 64 - 1 := fun heq =>
        hcareful (BitVec.eq_of_toNat_eq (heq.trans (by decide)))
      have hlt := n.inner.chain.tipH.isLt
      rw [hreplays.height, toNat_saturatingAdd]
      change min (_ + 1) _ = _
      omega
  | @appended blk ws hws => exact h.append (hw blk rfl) hcareful hws
  | synced =>
      obtain ⟨hs, htail, hws, ds, hbehind⟩ := h.memory
      obtain ⟨ds', hbehind', -⟩ := syncEpochToTip_spec htail hws hbehind
      exact ⟨⟨hs, htail, hws, ds', hbehind'⟩, h.baks⟩
  | taken =>
      obtain ⟨hs, htail, hws, hbehind⟩ := h.memory
      refine ⟨h.memory, fun bak hbak => ?_⟩
      rcases List.mem_cons.mp hbak with rfl | hbak
      · exact ⟨hs, htail, hws⟩
      · exact h.baks bak hbak
  | restored hbak => exact h.restore hbak hcareful

end Steps

/-- Whenever a synchronisation succeeds, the disk has the blocks in memory up to the tip, and ends
there. -/
def SyncFollows (C : Crypto) (J : BlockJson) (n : DiskNode) : Prop :=
  (syncEpochToTip C J n.inner.chain n.store).1 = .ok () →
    DiskMatches J n.inner.chain (syncEpochToTip C J n.inner.chain n.store).2 ∧
      (syncEpochToTip C J n.inner.chain n.store).2.diskTip = n.inner.chain.tipH

section Runs

variable {C : Crypto} {J : BlockJson} {cfg : GenCfg} {valSks : List SigningKey} {ch₀ : Chain}
  {inner : Inner} {n : DiskNode} {acts : List DiskAct}

theorem DiskFollows.syncFollows (h : DiskFollows C J n) : SyncFollows C J n := by
  intro hok
  obtain ⟨hs, htail, hw, ds, hbehind⟩ := h.memory
  obtain ⟨ds', hbehind', hlen⟩ := syncEpochToTip_spec htail hw hbehind
  exact hbehind'.diskMatches htail (hlen hok)

/-- A chain at its boot, and no files. -/
theorem boot_diskFollows (hboot : Chain.boot cfg valSks = some ch₀) (hstart : inner.chain = ch₀) :
    DiskFollows C J ⟨inner, EpochStore.empty, []⟩ := by
  have hempty : ch₀.blocks = [] ∧ ch₀.tipH = 0#64 := by
    simp only [Chain.boot, Option.ite_none_right_eq_some, Option.some.injEq] at hboot
    obtain ⟨-, rfl⟩ := hboot
    exact ⟨rfl, rfl⟩
  have hnil : ConsecutiveHeights [] := by
    intro i b hb
    cases hb
  have hbehind : DiskBehind C J [] EpochStore.empty [] := by
    refine ⟨.whole stores_empty (List.forall_mem_nil _) hnil, Nat.le_refl 0, ?_⟩
    intro i _ b d hb
    cases hb
  refine ⟨⟨[], ?_, List.forall_mem_nil _, [], hbehind⟩, List.forall_mem_nil _⟩
  rw [hstart, hempty.1, hempty.2]
  exact ⟨hnil, List.drop_nil.symm, rfl⟩

/-- In a run of careful steps, a synchronisation that succeeds leaves the disk as the memory is. -/
theorem disk_follows_memory (hboot : Chain.boot cfg valSks = some ch₀) (hstart : inner.chain = ch₀)
    (hrun : Run (fun n a n' => DiskStep C J n a n' ∧ a.Careful J n) ⟨inner, EpochStore.empty, []⟩
      acts n)
    (hw : ∀ b ∈ acts.filterMap DiskAct.block, J.Writes b) : SyncFollows C J n := by
  have hkeep : ∀ acts n a n', ((∀ b ∈ acts.filterMap DiskAct.block, J.Writes b) →
        DiskFollows C J n) → DiskStep C J n a n' ∧ a.Careful J n →
      (∀ b ∈ (acts ++ [a]).filterMap DiskAct.block, J.Writes b) → DiskFollows C J n' := by
    rintro acts n a n' ih ⟨hstep, hcareful⟩ hw
    rw [List.filterMap_append] at hw
    refine (ih fun b hb => hw b (List.mem_append_left _ hb)).step hstep hcareful fun b hb => ?_
    refine hw b (List.mem_append_right _ (List.mem_filterMap.mpr ⟨a, ?_, hb⟩))
    exact List.mem_singleton.mpr rfl
  exact (hrun.history_invariant (I := fun acts n =>
    (∀ b ∈ acts.filterMap DiskAct.block, J.Writes b) → DiskFollows C J n) hkeep
    (fun _ => boot_diskFollows hboot hstart) hw).syncFollows

end Runs

/-! ## A block in place of another

The devnet seals its first block and takes it back; a second later it seals
another one at the same height. -/

namespace Resealed

set_option maxRecDepth 8192

open HalfSeason

def blk : Block :=
  ⟨{ height := 1#64, prevHash := PolicyRace.genesisHash, ts := 1700000002#64, prodIdx := 0#32,
     txRoot := emptyRoot, stateRoot := devNetRoot,
     sig := 0x528c3a8df1efc1b8f625691a67944f5b8210e37c5bcabf6e00a47768557e0ee8902c32206e6e52c7f9bae3e3e2c88a1a835dfa2d507144633748137d5485c80f#512 }, []⟩

def preimage : Bytes32 :=
  0x56078a36782ac496b6cb2efac70213e15edd1dd9d09ef1e297f9a7ff04fd27a8#256

def bothCrypto : Crypto :=
  .ofTables
    [(devNetRow.pubkey.beBytes 32 ++ (0#32).leBytes 4, devNetRow.acct),
      (strBytes "PWMv0/GENESIS", PolicyRace.genesisHash), (strBytes "PWMv0/EMPTYTX", emptyRoot),
      ((after devNet).bytes, devNetRoot), ((header devNetRoot 0#512).signBytes, devNetPreimage),
      ({ blk.hdr with sig := 0#512 }.signBytes, preimage), (devNetBlock.hdr.bytes, devNetHash),
      (blk.hdr.bytes, 0x80d393e7d9e1ecb3975c971e538c405376515e6bf3ebca41583bfef04c879930#256)]
    [⟨devNetSk, devNetRow.pubkey,
      [(devNetPreimage.beBytes 32, devNetSig), (preimage.beBytes 32, blk.hdr.sig)]⟩]

/-- The JSON text of the later block, without its outer braces. -/
def inner : List Char :=
  ["\"hdr\":\x7b\"height\":1,\"prev_hash\":\"",
    "52002052195e96fc6379a04df75794d0",
    "333458e98180236bb24957745b944366",
    "\",\"ts\":1700000002,\"prod_idx\":0,\"tx_root\":\"",
    "f48ef0568e656db56ca009e0ed80604d",
    "3f38cbe30b28a48f750d1e5139ef44f5",
    "\",\"state_root\":\"",
    "1f45b8b8211fb7b0ac71e3dd2750608e",
    "ffb4632fb368be87037abe5caca99a2a",
    "\",\"sig\":\"",
    "528c3a8df1efc1b8f625691a67944f5b",
    "8210e37c5bcabf6e00a47768557e0ee8",
    "902c32206e6e52c7f9bae3e3e2c88a1a",
    "835dfa2d507144633748137d5485c80f",
    "\"\x7d,\"txs\":[]"].flatMap String.toList

def text : String := String.ofList ('\x7b' :: inner ++ ['\x7d'])

def json : BlockJson where
  toText := fun b => if b = devNetBlock then SkipFirst.text else text
  ofText := fun t =>
    if t = SkipFirst.text then .ok devNetBlock
    else if t = text then .ok blk
    else .error "expected value at line 1 column 1"

theorem text_ne : text ≠ SkipFirst.text := by
  intro h
  have hbytes := congrArg strBytes h
  unfold text inner SkipFirst.text SkipFirst.inner at hbytes
  rw [strBytes_object, strBytes_object] at hbytes
  revert hbytes
  decide

theorem blk_ne : blk ≠ devNetBlock := by
  decide

theorem single_text : newline ∉ strBytes text := by
  unfold text inner
  rw [strBytes_object]
  decide

theorem writes_devNetBlock : json.Writes devNetBlock := by
  have htext : json.toText devNetBlock = SkipFirst.text := by
    simp only [json, if_pos]
  refine ⟨?_, ⟨SkipFirst.inner, ?_⟩, ?_⟩
  · rw [htext]
    simp only [json, if_pos]
  · rw [htext, SkipFirst.text, String.toList_ofList]
  · rw [htext]
    exact SkipFirst.single_text

theorem writes_blk : json.Writes blk := by
  have htext : json.toText blk = text := by
    simp only [json, if_neg blk_ne]
  refine ⟨?_, ⟨inner, ?_⟩, ?_⟩
  · rw [htext]
    simp only [json, if_neg text_ne, if_pos]
  · rw [htext, text, String.toList_ofList]
  · rw [htext]
    exact single_text

def start : DiskNode := ⟨{ chain := chain devNet }, EpochStore.empty, []⟩

/-- The node with a block sealed on the devnet and what its disk has. -/
def node (b : Block) (s : EpochStore) : DiskNode :=
  ⟨{ chain := sealedWith devNet b }, s, [takeBak start.inner]⟩

/-- A block is sealed on the devnet, before anything else or after a rollback. -/
theorem sealed_step {now : U64} {b : Block}
    (hok : sealEntries bothCrypto now (chain devNet) [] = .ok (sealedWith devNet b)) (s : EpochStore) :
    DiskStep bothCrypto json ⟨{ chain := chain devNet }, s, [takeBak start.inner]⟩ (.sealed b)
      (node b s) :=
  @DiskStep.sealed bothCrypto json ⟨{ chain := chain devNet }, s, [takeBak start.inner]⟩
    { chain := sealedWith devNet b } now [] b hok (Chain.append_getLast? _ _ _)

theorem restored_step (b : Block) (s : EpochStore) :
    DiskStep bothCrypto json (node b s) (.restored (takeBak start.inner))
      ⟨{ chain := chain devNet }, s, [takeBak start.inner]⟩ :=
  .restored (List.mem_singleton.mpr rfl)

theorem sealed_devNetBlock :
    sealEntries bothCrypto 1700000001#64 (chain devNet) [] = .ok (sealedWith devNet devNetBlock) := by
  decide +kernel

theorem sealed_blk :
    sealEntries bothCrypto 1700000002#64 (chain devNet) [] = .ok (sealedWith devNet blk) := by
  decide +kernel

theorem consecutive {b : Block} (hheight : b.hdr.height = 1#64) : ConsecutiveHeights [b] := by
  refine @ConsecutiveHeights.concat [] b (fun i c h => nomatch h) ?_
  rw [hheight]
  rfl

theorem sealedWith_blocks (b : Block) : (sealedWith devNet b).blocks = [b] := by
  rw [sealedWith, Chain.append_blocks]
  simp [tailBlockCap, chain]

/-- The first block goes to the empty disk. -/
theorem sync_first {b : Block} (hheight : b.hdr.height = 1#64) :
    syncEpochToTip bothCrypto json (sealedWith devNet b) EpochStore.empty =
      (.ok (), EpochStore.empty.applyAll (appendWrites bothCrypto json [] b)) := by
  have happend : appendBlockForEpoch bothCrypto json EpochStore.empty b [] =
      .ok () (appendWrites bothCrypto json [] b) :=
    stores_empty.append_ok (fun c hc => nomatch hc) (consecutive hheight) (nextReadable_nil json)
  have htip : (sealedWith devNet b).tipH = 1#64 := hheight
  have hdisk := diskTip_append happend
  rw [syncEpochToTip, if_neg (by rw [htip]; decide),
    syncLoop_appended (by rw [htip]; decide) _ happend, syncLoop_done]
  · rw [htip, hdisk, hheight]
    exact BitVec.le_refl _
  · rw [sealedWith_blocks, List.find?_singleton]
    exact if_pos (decide_eq_true hheight)

/-- The disk with the block that is taken back later. -/
def stored : EpochStore :=
  EpochStore.empty.applyAll (appendWrites bothCrypto json [] devNetBlock)

theorem stored_stores : Stores bothCrypto json stored [devNetBlock] :=
  stores_empty.written (by decide)

/-- The block is on disk before the rollback, and a disk at the tip is not looked at again. -/
theorem sync_resealed : syncEpochToTip bothCrypto json (sealedWith devNet blk) stored =
    (.ok (), stored) := by
  have htip : (sealedWith devNet blk).tipH = 1#64 := rfl
  have hdisk : stored.diskTip = 1#64 := by
    rw [EpochStore.diskTip, stored_stores.manifest_some (by simp)]
    rfl
  rw [syncEpochToTip, if_neg (by rw [htip]; decide), syncLoop_done]
  rw [htip, hdisk]
  exact BitVec.le_refl _

end Resealed

open HalfSeason Resealed in
/-- The block is taken back before it is on disk. -/
theorem disk_follows_resealed :
    Chain.boot devNet [devNetSk] = some (chain devNet) ∧
      (syncEpochToTip bothCrypto json (sealedWith devNet blk) EpochStore.empty).1 = .ok () ∧
      loadBlockAtHeight json
        (syncEpochToTip bothCrypto json (sealedWith devNet blk) EpochStore.empty).2 1#64 =
        .ok (some blk) := by
  have hboot : Chain.boot devNet [devNetSk] = some (chain devNet) := by decide
  have hrun : Run (fun n a n' => DiskStep bothCrypto json n a n' ∧ a.Careful json n) start
      [.taken, .sealed devNetBlock, .restored (takeBak start.inner), .sealed blk]
      (node blk EpochStore.empty) := by
    refine (((Run.single ⟨.taken, trivial⟩).snoc
      ⟨sealed_step sealed_devNetBlock EpochStore.empty, trivial⟩).snoc
      ⟨restored_step devNetBlock EpochStore.empty, ?_⟩).snoc
      ⟨sealed_step sealed_blk EpochStore.empty, trivial⟩
    exact ⟨BitVec.le_refl _, List.forall_mem_nil _⟩
  have hw : ∀ b ∈ [devNetBlock, blk], json.Writes b := by
    exact List.forall_mem_cons.mpr
      ⟨writes_devNetBlock, List.forall_mem_singleton.mpr writes_blk⟩
  have hok : (syncEpochToTip bothCrypto json (sealedWith devNet blk) EpochStore.empty).1 = .ok () := by
    rw [sync_first rfl]
  have hfollows := disk_follows_memory hboot rfl hrun hw hok
  refine ⟨hboot, hok, hfollows.1 blk ?_ (BitVec.le_refl _)⟩
  exact (sealedWith_blocks blk).symm ▸ List.mem_singleton.mpr rfl

open HalfSeason Resealed in
/-- A block that was synchronised and then taken back stays on disk in place of the block that is
sealed at its height. -/
theorem rolledBack_stays_on_disk :
    Chain.boot devNet [devNetSk] = some (chain devNet) ∧
      (json.Writes devNetBlock ∧ json.Writes blk) ∧
      Run (DiskStep bothCrypto json) start
        [.taken, .sealed devNetBlock, .synced, .restored (takeBak start.inner), .sealed blk]
        (node blk stored) ∧
      (syncEpochToTip bothCrypto json (node blk stored).inner.chain (node blk stored).store).1 =
        .ok () ∧
      ¬ SyncFollows bothCrypto json (node blk stored) := by
  have hboot : Chain.boot devNet [devNetSk] = some (chain devNet) := by decide
  have hsynced : DiskStep bothCrypto json (node devNetBlock EpochStore.empty) .synced
      (node devNetBlock stored) := by
    have hsync := @DiskStep.synced bothCrypto json (node devNetBlock EpochStore.empty)
    have hstore : (syncEpochToTip bothCrypto json (node devNetBlock EpochStore.empty).inner.chain
        (node devNetBlock EpochStore.empty).store).2 = stored :=
      congrArg Prod.snd (sync_first rfl)
    rw [hstore] at hsync
    exact hsync
  have hsync : syncEpochToTip bothCrypto json (node blk stored).inner.chain
      (node blk stored).store = (.ok (), stored) := sync_resealed
  have hok : (syncEpochToTip bothCrypto json (node blk stored).inner.chain
      (node blk stored).store).1 = .ok () := by
    rw [hsync]
  refine ⟨hboot, ⟨writes_devNetBlock, writes_blk⟩, ?_, hok, fun hfollows => ?_⟩
  · exact ((((Run.single .taken).snoc (sealed_step sealed_devNetBlock EpochStore.empty)).snoc
      hsynced).snoc (restored_step devNetBlock stored)).snoc (sealed_step sealed_blk stored)
  · have hmatches := (hfollows hok).1
    rw [hsync] at hmatches
    have hmem : blk ∈ (node blk stored).inner.chain.blocks :=
      (sealedWith_blocks blk).symm ▸ List.mem_singleton.mpr rfl
    have hfound := hmatches blk hmem (BitVec.le_refl _)
    have hw : ∀ b ∈ [devNetBlock], json.Writes b := List.forall_mem_singleton.mpr writes_devNetBlock
    have hload : loadBlockAtHeight json stored 1#64 = .ok (some devNetBlock) :=
      stored_stores.height hw (consecutive rfl) (by decide) (by decide)
    exact blk_ne (Option.some.inj (Except.ok.inj (hfound.symm.trans hload)))

end Pwm
