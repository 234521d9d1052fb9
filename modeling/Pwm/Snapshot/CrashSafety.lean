import Pwm.Core.Crypto
import Pwm.Snapshot.EpochFiles

/-!
# Crashes between the writes of an append

An append writes the line of its block and then the manifest. The store keeps
its blocks whenever the process ends before the line or after the manifest; in
between, line and manifest contradict each other.
-/

namespace Pwm

open BitVec Attempt LineFile

/-- A call of the append, and the blocks whose append returned. -/
def appendStep (C : Crypto) (J : BlockJson) (p : EpochStore × List Block) (b : Block) :
    EpochStore × List Block :=
  match appendBlockForEpoch C J p.1 b [] with
  | .ok _ ws => (p.1.applyAll ws, p.2 ++ [b])
  | .error _ ws => (p.1.applyAll ws, p.2)

/-- The appends of some blocks to an empty store. -/
def appendRun (C : Crypto) (J : BlockJson) (blocks : List Block) : EpochStore × List Block :=
  blocks.foldl (appendStep C J) (EpochStore.empty, [])

/-- The store when the process ends after `k` writes of the append of a further block. -/
def crashedStore (C : Crypto) (J : BlockJson) (blocks : List Block) (b : Block) (k : Nat) :
    EpochStore :=
  let s := (appendRun C J blocks).1
  s.applyAll ((writesOf (appendBlockForEpoch C J s b [])).take k)

/-- After the crash the blocks are loaded, those whose append returned among them, and the block
after them can be appended. -/
def CrashSafe (C : Crypto) (J : BlockJson) (blocks : List Block) (b : Block) (k : Nat) : Prop :=
  ∃ loaded, loadBlocksFromEpochs J (crashedStore C J blocks b k) = .ok loaded ∧
    (∀ c ∈ (appendRun C J blocks).2, c ∈ loaded) ∧
    ∀ next : Block, next.hdr.height.toNat = loaded.length + 1 →
      ∃ ws, appendBlockForEpoch C J (crashedStore C J blocks b k) next [] = .ok () ws

/-- The blocks with both writes made at the crash. -/
def written (blocks : List Block) (b : Block) (k : Nat) : List Block :=
  if 2 ≤ k then blocks ++ [b] else blocks

/-! ## What can be loaded -/

section Load

variable {J : BlockJson} {s : EpochStore} {loaded bs : List Block} {m : Nat}

theorem height_of_checkHeights {i : Nat} (h : checkHeights i bs = .ok ()) {k : Nat} {b : Block}
    (hk : bs[k]? = some b) : b.hdr.height = BitVec.ofNat 64 (i + k) + 1#64 := by
  induction bs generalizing i k with
  | nil => cases hk
  | cons c cs ih =>
      rw [checkHeights] at h
      split at h
      · cases h
      next hc =>
        cases k with
        | zero =>
            rw [List.getElem?_cons_zero] at hk
            rw [← Option.some.inj hk, Nat.add_zero]
            exact not_not.mp hc
        | succ k =>
            rw [List.getElem?_cons_succ] at hk
            rw [ih h hk, Nat.add_assoc, Nat.add_comm 1 k]

/-- A loaded store has its heights in order, and as many blocks as its manifest says. -/
theorem load_facts (h : loadBlocksFromEpochs J s = .ok loaded) :
    checkHeights 0 loaded = .ok () ∧
      ((s.manifest = none ∧ loaded = []) ∨
        ∃ man, s.manifest = some man ∧ loaded.length = man.canonicalH.toNat ∧
          loadRows J s man.epochs = .ok loaded) := by
  rw [loadBlocksFromEpochs] at h
  cases hman : s.manifest with
  | none =>
      rw [hman] at h
      rw [← Except.ok.inj h]
      exact ⟨rfl, .inl ⟨rfl, rfl⟩⟩
  | some man =>
      rw [hman] at h
      obtain ⟨_, _, h⟩ := except_bind_ok_iff.mp h
      obtain ⟨all, hall, h⟩ := except_bind_ok_iff.mp h
      by_cases hzero : man.canonicalH = 0#64
      · rw [if_pos hzero] at h
        by_cases hall' : all = []
        · rw [if_neg (not_not.mpr hall')] at h
          have hloaded : loaded = [] := (Except.ok.inj h).symm.trans hall'
          refine ⟨by rw [hloaded]; rfl, .inr ⟨man, rfl, by rw [hloaded, hzero]; rfl, ?_⟩⟩
          rw [hall, hloaded, hall']
        · rw [if_pos hall'] at h
          cases h
      · rw [if_neg hzero] at h
        by_cases hcount : all.length = man.canonicalH.toNat
        · rw [if_neg (not_not.mpr hcount)] at h
          obtain ⟨_, hheights, h⟩ := except_bind_ok_iff.mp h
          rw [← Except.ok.inj h]
          exact ⟨hheights, .inr ⟨man, rfl, hcount, hall⟩⟩
        · rw [if_pos hcount] at h
          cases h

theorem loadRows_mem {rows : List EpochMeta} (h : loadRows J s rows = .ok loaded) {b : Block}
    (hb : b ∈ loaded) :
    ∃ fileName bytes lines blocks, s.files fileName = some bytes ∧
      readJsonlLines (some bytes) = .ok lines ∧ decodeLines J fileName lines = .ok blocks ∧
      b ∈ blocks := by
  induction rows generalizing loaded with
  | nil =>
      rw [← Except.ok.inj h] at hb
      cases hb
  | cons em rows ih =>
      rw [loadRows] at h
      obtain ⟨lines, hlines, h⟩ := except_bind_ok_iff.mp h
      obtain ⟨blocks, hblocks, h⟩ := except_bind_ok_iff.mp h
      obtain ⟨more, hmore, h⟩ := except_bind_ok_iff.mp h
      rw [← Except.ok.inj h] at hb
      rcases List.mem_append.mp hb with hb | hb
      · cases hfile : s.files em.fileName with
        | none =>
            rw [hfile] at hlines
            rw [← Except.ok.inj hlines] at hblocks
            rw [← Except.ok.inj hblocks] at hb
            cases hb
        | some bytes =>
            rw [hfile] at hlines
            exact ⟨em.fileName, bytes, lines, blocks, hfile, hlines, hblocks, hb⟩
      · exact ih hmore hb

/-- No more is loaded than there is before the block that cannot be appended. -/
theorem Stuck.length_le (hs : Stuck J m s) (hm : m + 1 < 2 ^ 64)
    (h : loadBlocksFromEpochs J s = .ok loaded) : loaded.length ≤ m := by
  obtain ⟨hheights, hload⟩ := load_facts h
  rcases hload with ⟨_, rfl⟩ | ⟨man, _, _, hrows⟩
  · exact Nat.zero_le m
  · by_contra hlt
    have hlt' : m < loaded.length := by omega
    have hsome : loaded[m]? = some loaded[m] := List.getElem?_eq_getElem hlt'
    have hheight := congrArg BitVec.toNat (height_of_checkHeights hheights hsome)
    have hone : (1#64).toNat = 1 := rfl
    rw [Nat.zero_add, BitVec.toNat_add, toNat_ofNat_of_lt (by omega), hone,
      Nat.mod_eq_of_lt hm] at hheight
    obtain ⟨fileName, bytes, lines, blocks, hfile, hlines, hblocks, hmem⟩ :=
      loadRows_mem hrows (List.mem_of_getElem? hsome)
    obtain ⟨bs, rfl, hall⟩ := hs.lines fileName bytes hfile
    rw [readJsonlLines_blockFile fun b hb => (hall b hb).1] at hlines
    rw [← Except.ok.inj hlines, decodeLines_toText fileName fun b hb => (hall b hb).1] at hblocks
    rw [← Except.ok.inj hblocks] at hmem
    exact (hall _ hmem).2 hheight

end Load

/-! ## Runs -/

section Run

variable {C : Crypto} {J : BlockJson} {s : EpochStore} {blocks bs : List Block} {b : Block}
  {k m : Nat}

theorem stores_empty : Stores C J EpochStore.empty [] where
  files := fun _ => rfl
  names := fun _ _ h => nomatch h
  manifest := rfl

theorem appendRun_concat (C : Crypto) (J : BlockJson) (blocks : List Block) (b : Block) :
    appendRun C J (blocks ++ [b]) = appendStep C J (appendRun C J blocks) b := by
  rw [appendRun, List.foldl_concat, ← appendRun]

/-- As long as every last line is read, every append returns. -/
theorem appendRun_stores (hw : ∀ c ∈ blocks, J.Writes c) (hc : ConsecutiveHeights blocks)
    (hv : ∀ m < blocks.length, NextReadable J (blocks.take m)) :
    Stores C J (appendRun C J blocks).1 blocks ∧ (appendRun C J blocks).2 = blocks := by
  induction blocks using List.reverseRecOn with
  | nil => exact ⟨stores_empty, rfl⟩
  | append_singleton bs b ih =>
      have hlen : (bs ++ [b]).length = bs.length + 1 := by
        rw [List.length_append, List.length_singleton]
      have hw' : ∀ c ∈ bs, J.Writes c := fun c hc => hw c (List.mem_append_left _ hc)
      obtain ⟨hstores, hreturned⟩ := ih hw' hc.of_append fun m hm => by
        have hread := hv m (by omega)
        rwa [List.take_append_of_le_length hm.le] at hread
      have hread := hv bs.length (by omega)
      rw [List.take_left] at hread
      have hn := hc.length_lt
      rw [appendRun_concat, appendStep, hstores.append_ok hw' hc hread, hreturned]
      exact ⟨hstores.written (hlen ▸ hn), rfl⟩

/-- The blocks whose append returned stay, whatever is appended after them. -/
theorem returned_start (blocks more : List Block) :
    (appendRun C J blocks).2 <+: (appendRun C J (blocks ++ more)).2 := by
  induction more using List.reverseRecOn with
  | nil => rw [List.append_nil]
  | append_singleton more b ih =>
      refine ih.trans ?_
      rw [← List.append_assoc, appendRun_concat, appendStep]
      split
      · exact List.prefix_append _ _
      · exact List.prefix_rfl

theorem appendStep_store (p : EpochStore × List Block) (b : Block) :
    (appendStep C J p b).1 = p.1.applyAll (writesOf (appendBlockForEpoch C J p.1 b [])) := by
  rw [appendStep]
  cases appendBlockForEpoch C J p.1 b [] <;> rfl

/-- A file whose last line cannot be read stays as it is. -/
theorem Stuck.run (hs : Stuck J m (appendRun C J blocks).1) {more : List Block}
    (hw : ∀ c ∈ more, J.Writes c) : Stuck J m (appendRun C J (blocks ++ more)).1 := by
  induction more using List.reverseRecOn with
  | nil =>
      rw [List.append_nil]
      exact hs
  | append_singleton more b ih =>
      have hmore := ih fun c hc => hw c (List.mem_append_left _ hc)
      rw [← List.append_assoc, appendRun_concat, appendStep_store]
      exact hmore.applyAll fun w hwrite =>
        hmore.writes (hw b (List.mem_append_right _ List.mem_cons_self)) hwrite

theorem Stuck.crash (hs : Stuck J m (appendRun C J blocks).1) (hb : J.Writes b) (k : Nat) :
    Stuck J m (crashedStore C J blocks b k) :=
  hs.applyAll fun _ hw => hs.writes hb (List.mem_of_mem_take hw)

/-- A store whose open file ends in a line that cannot be read is stuck. -/
theorem Stores.stuck (hs : Stores C J s bs) (hw : ∀ c ∈ bs, J.Writes c)
    (hc : ConsecutiveHeights bs) (hv : ¬ NextReadable J bs) : Stuck J bs.length s where
  unread := hs.readLast_error hw hc.length_lt hv
  lines := by
    intro fileName bytes hfile
    obtain ⟨eidx, rfl⟩ := hs.names fileName bytes hfile
    rw [hs.files] at hfile
    split at hfile
    · refine ⟨_, (Option.some.inj hfile).symm, fun c hmem => ?_⟩
      have hbs : c ∈ bs := List.mem_of_mem_drop (List.mem_of_mem_take hmem)
      obtain ⟨i, hi⟩ := List.mem_iff_getElem?.mp hbs
      have hlt := (List.getElem?_eq_some_iff.mp hi).1
      refine ⟨hw c hbs, ?_⟩
      rw [hc i c hi]
      omega
    · cases hfile

/-- Once a last line cannot be read, no crash leaves a store that can be gone on with. -/
theorem not_crashSafe_of_stuck (hw : ∀ c ∈ blocks ++ [b], J.Writes c)
    (hc : ConsecutiveHeights (blocks ++ [b])) (hm : m ≤ blocks.length)
    (hread : ∀ i < m, NextReadable J (blocks.take i)) (hv : ¬ NextReadable J (blocks.take m)) :
    ¬ CrashSafe C J blocks b k := by
  rintro ⟨loaded, hload, hreturned, hnext⟩
  have hn := hc.length_lt
  rw [List.length_append, List.length_singleton] at hn
  have hblocks : blocks.take m ++ blocks.drop m = blocks := List.take_append_drop m blocks
  have hw' : ∀ c ∈ blocks, J.Writes c := fun c hmem => hw c (List.mem_append_left _ hmem)
  have hwm : ∀ c ∈ blocks.take m, J.Writes c := fun c hmem => hw' c (List.mem_of_mem_take hmem)
  have hlen : (blocks.take m).length = m := List.length_take_of_le hm
  have hcm : ConsecutiveHeights (blocks.take m) := by
    have happ : ConsecutiveHeights (blocks.take m ++ blocks.drop m) := by
      rw [hblocks]
      exact hc.of_append
    exact happ.of_append
  obtain ⟨hstores, htaken⟩ := appendRun_stores (C := C) hwm hcm fun i hi => by
    rw [List.take_take, Nat.min_eq_left (by omega)]
    exact hread i (by omega)
  have hstuck := hstores.stuck hwm hcm hv
  rw [hlen] at hstuck
  have hwmore : ∀ c ∈ blocks.drop m, J.Writes c := fun c hmem => hw' c (List.mem_of_mem_drop hmem)
  have hrun := hstuck.run hwmore
  rw [hblocks] at hrun
  have hcrash := hrun.crash (hw b (List.mem_append_right _ List.mem_cons_self)) k
  have hle := hcrash.length_le (by omega) hload
  have hpos : 0 < m := by
    refine Nat.pos_of_ne_zero fun hzero => hv ?_
    rw [hzero, List.take_zero]
    exact nextReadable_nil J
  -- the last block that was appended is loaded, so everything up to it is
  have hlt : m - 1 < blocks.length := by omega
  have hlast : blocks[m - 1]? = some blocks[m - 1] := List.getElem?_eq_getElem hlt
  have hheight := hc.of_append _ _ hlast
  have htake : blocks[m - 1] ∈ blocks.take m := by
    refine List.mem_of_getElem? (i := m - 1) ?_
    rw [List.getElem?_take_of_lt (by omega), hlast]
  have hstart := returned_start (C := C) (J := J) (blocks.take m) (blocks.drop m)
  rw [hblocks, htaken] at hstart
  obtain ⟨i, hi⟩ := List.mem_iff_getElem?.mp (hreturned _ (hstart.subset htake))
  have hfacts := height_of_checkHeights (load_facts hload).1 hi
  have hi' := (List.getElem?_eq_some_iff.mp hi).1
  have hone : (1#64).toNat = 1 := rfl
  have hplace : i + 1 = m := by
    have hnat := congrArg BitVec.toNat hfacts
    rw [hheight, Nat.zero_add, BitVec.toNat_add, toNat_ofNat_of_lt (by omega), hone] at hnat
    omega
  -- the block after it is the one that cannot be appended
  have hfull : loaded.length = m := by omega
  have hnextHeight : (BitVec.ofNat 64 (m + 1)).toNat = m + 1 := toNat_ofNat_of_lt (by omega)
  obtain ⟨ws, happend⟩ := hnext { b with hdr := { b.hdr with height := BitVec.ofNat 64 (m + 1) } } (by
    rw [hfull]
    exact hnextHeight)
  obtain ⟨lastH, hok, _⟩ := reads_of_append hnextHeight happend
  obtain ⟨e, he⟩ := hcrash.unread
  rw [hok] at he
  cases he

/-- A crash between the line and the manifest leaves a store that cannot be gone on with. -/
theorem not_crashSafe_between (hw : ∀ c ∈ blocks ++ [b], J.Writes c)
    (hc : ConsecutiveHeights (blocks ++ [b]))
    (hv : ∀ m ≤ blocks.length, NextReadable J (blocks.take m)) :
    ¬ CrashSafe C J blocks b 1 := by
  rintro ⟨loaded, hload, _, hnext⟩
  have hn := hc.length_lt
  rw [List.length_append, List.length_singleton] at hn
  have hw' : ∀ c ∈ blocks, J.Writes c := fun c hmem => hw c (List.mem_append_left _ hmem)
  have hb : J.Writes b := hw b (List.mem_append_right _ List.mem_cons_self)
  obtain ⟨hstores, _⟩ := appendRun_stores (C := C) hw' hc.of_append fun m hm => hv m hm.le
  have hlast := hv blocks.length le_rfl
  rw [List.take_length] at hlast
  have happend := hstores.append_ok (b := b) hw' hc hlast
  have hcrash : crashedStore C J blocks b 1 = (appendRun C J blocks).1.apply
      (.appendLine (epochFileName (BitVec.ofNat 64 (blocks.length / 1000)))
        (J.line b ++ [newline])) := by
    rw [crashedStore, happend]
    rfl
  rw [hcrash] at hload hnext
  -- the manifest still says how many blocks there were
  have hcount : loaded.length = blocks.length := by
    rcases (load_facts hload).2 with ⟨hnone, rfl⟩ | ⟨man, hsome, hlen, _⟩
    · rw [EpochStore.manifest_appendLine, hstores.manifest] at hnone
      by_cases hnil : blocks = []
      · rw [hnil]
      · rw [if_neg hnil] at hnone
        cases hnone
    · rw [EpochStore.manifest_appendLine, hstores.manifest] at hsome
      by_cases hnil : blocks = []
      · rw [if_pos hnil] at hsome
        cases hsome
      · rw [if_neg hnil] at hsome
        rw [hlen, ← Option.some.inj hsome]
        exact toNat_ofNat_of_lt (by omega)
  obtain ⟨ws, hagain⟩ := hnext b (by rw [hc.last, hcount])
  have hfile := hstores.files_line (b := b) hn (BitVec.ofNat 64 (blocks.length / 1000))
  rw [toNat_ofNat_of_lt (by omega), List.length_append, List.length_singleton,
    if_pos (by omega), epochBlocks_concat_open] at hfile
  obtain ⟨lastH, hread, htail⟩ := reads_of_append hc.last hagain
  rw [hfile] at hread
  by_cases hvisible : LastVisible J (openBlocks blocks ++ [b])
  · rw [readLastBlockHeight_concat _ hb hvisible] at hread
    have hheight := htail _ (Except.ok.inj hread).symm
    rw [hc.last] at hheight
    omega
  · obtain ⟨e, he⟩ := readLastBlockHeight_error
      (epochFileName (BitVec.ofNat 64 (blocks.length / 1000))) hb hvisible
    rw [he] at hread
    cases hread

theorem ConsecutiveHeights.concat (hc : ConsecutiveHeights bs)
    (hnext : b.hdr.height.toNat = bs.length + 1) : ConsecutiveHeights (bs ++ [b]) := by
  intro i c hi
  by_cases hlt : i < bs.length
  · rw [List.getElem?_append_left hlt] at hi
    exact hc i c hi
  · rw [List.getElem?_append_right (by omega), List.getElem?_singleton] at hi
    split at hi
    next hsame =>
      rw [← Option.some.inj hi, hnext]
      omega
    · cases hi

/-- A store of blocks is loaded, and gone on with exactly if its last line can be read. -/
theorem Stores.safe_iff (hs : Stores C J s bs) (hw : ∀ c ∈ bs, J.Writes c)
    (hc : ConsecutiveHeights bs) {returned : List Block} (hreturned : ∀ c ∈ returned, c ∈ bs) :
    (∃ loaded, loadBlocksFromEpochs J s = .ok loaded ∧ (∀ c ∈ returned, c ∈ loaded) ∧
      ∀ next : Block, next.hdr.height.toNat = loaded.length + 1 →
        ∃ ws, appendBlockForEpoch C J s next [] = .ok () ws) ↔
      (bs.length + 1 < 2 ^ 64 → NextReadable J bs) := by
  have hload := hs.load hw hc
  constructor
  · rintro ⟨loaded, hloaded, _, hnext⟩ hroom
    by_contra hv
    rw [← Except.ok.inj (hload.symm.trans hloaded)] at hnext
    have hheight : (BitVec.ofNat 64 (bs.length + 1)).toNat = bs.length + 1 := toNat_ofNat_of_lt hroom
    let next : Block := ⟨⟨BitVec.ofNat 64 (bs.length + 1), 0#256, 0#64, 0#32, 0#256, 0#256, 0#512⟩, []⟩
    obtain ⟨ws, hok⟩ := hnext next hheight
    obtain ⟨e, he⟩ := hs.append_error (b := next) hw (hc.concat hheight) hv
    rw [hok] at he
    cases he
  · intro hv
    refine ⟨bs, hload, hreturned, fun next hnext => ?_⟩
    have hroom : bs.length + 1 < 2 ^ 64 := hnext ▸ next.hdr.height.isLt
    exact ⟨_, hs.append_ok hw (hc.concat hnext) (hv hroom)⟩

/-- Every last line that an append has to read is seen to be one. -/
def AllReadable (J : BlockJson) (bs : List Block) : Prop :=
  ∀ m ≤ bs.length, m + 1 < 2 ^ 64 → NextReadable J (bs.take m)

theorem allReadable_concat_iff :
    AllReadable J (bs ++ [b]) ↔ AllReadable J bs ∧
      ((bs ++ [b]).length + 1 < 2 ^ 64 → NextReadable J (bs ++ [b])) := by
  have hlen : (bs ++ [b]).length = bs.length + 1 := by
    rw [List.length_append, List.length_singleton]
  constructor
  · intro h
    refine ⟨fun m hm hroom => ?_, fun hroom => ?_⟩
    · have hread := h m (by omega) hroom
      rwa [List.take_append_of_le_length hm] at hread
    · have hread := h (bs ++ [b]).length le_rfl hroom
      rwa [List.take_length] at hread
  · rintro ⟨hbefore, hlast⟩ m hm hroom
    by_cases hle : m ≤ bs.length
    · rw [List.take_append_of_le_length hle]
      exact hbefore m hle hroom
    · have hm' : m = (bs ++ [b]).length := by omega
      rw [hm', List.take_length]
      exact hlast (hm' ▸ hroom)

/-- A crash leaves a store that is loaded and gone on with exactly if it does not fall between the
line and the manifest of a block, and every last line that an append has to read is seen to be
one. -/
theorem crashSafe_iff (hw : ∀ c ∈ blocks ++ [b], J.Writes c)
    (hc : ConsecutiveHeights (blocks ++ [b])) :
    CrashSafe C J blocks b k ↔ k ≠ 1 ∧ AllReadable J (written blocks b k) := by
  have hw' : ∀ c ∈ blocks, J.Writes c := fun c hmem => hw c (List.mem_append_left _ hmem)
  have hn := hc.length_lt
  rw [List.length_append, List.length_singleton] at hn
  by_cases hall : AllReadable J blocks
  · have hread : ∀ m ≤ blocks.length, NextReadable J (blocks.take m) :=
      fun m hm => hall m hm (by omega)
    obtain ⟨hstores, hreturned⟩ := appendRun_stores (C := C) hw' hc.of_append
      fun m hm => hread m hm.le
    have hlast := hread blocks.length le_rfl
    rw [List.take_length] at hlast
    have happend := hstores.append_ok hw' hc hlast
    match k with
    | 0 =>
        have hcrash : crashedStore C J blocks b 0 = (appendRun C J blocks).1 := rfl
        rw [CrashSafe, hcrash, hreturned, hstores.safe_iff hw' hc.of_append fun _ h => h]
        exact ⟨fun _ => ⟨by omega, hall⟩, fun _ _ => hlast⟩
    | 1 => exact ⟨fun h => absurd h (not_crashSafe_between hw hc hread), fun h => absurd rfl h.1⟩
    | k + 2 =>
        have hcrash : crashedStore C J blocks b (k + 2) =
            (appendRun C J blocks).1.applyAll (appendWrites C J blocks b) := by
          rw [crashedStore, happend, writesOf, List.take_of_length_le]
          exact Nat.le_add_left 2 k
        have hafter := hstores.written (b := b) hn
        rw [written, if_pos (by omega), allReadable_concat_iff, CrashSafe, hcrash, hreturned,
          hafter.safe_iff hw hc fun c hmem => List.mem_append_left _ hmem]
        exact ⟨fun h => ⟨by omega, hall, h⟩, fun h => h.2.2⟩
  · have hwritten : ¬ AllReadable J (written blocks b k) := by
      rw [written]
      split
      · exact fun h => hall ((allReadable_concat_iff).mp h).1
      · exact hall
    have hunsafe : ¬ CrashSafe C J blocks b k := by
      -- the first last line that cannot be read
      classical
      have hexists : ∃ m, ¬ NextReadable J (blocks.take m) := by
        by_contra hnone
        push Not at hnone
        exact hall fun m _ _ => hnone m
      have hfirst := Nat.find_spec hexists
      have hle : Nat.find hexists ≤ blocks.length := by
        by_contra hlt
        have hbefore := Nat.find_min hexists (Nat.lt_of_not_le hlt)
        rw [List.take_of_length_le (by omega), ← List.take_length (l := blocks)] at hfirst
        exact hbefore hfirst
      exact not_crashSafe_of_stuck hw hc hle
        (fun i hi => not_not.mp (Nat.find_min hexists hi)) hfirst
    exact ⟨fun h => absurd h hunsafe, fun h => absurd h.2 hwritten⟩

end Run

/-! ## A crash in the second append -/

namespace TornAppend

def blockAt (height : U64) : Block :=
  ⟨⟨height, 0#256, 0#64, 0#32, 0#256, 0#256, 0#512⟩, []⟩

def zeros (n : Nat) : List Char := List.replicate n '0'

def front : List Char := "\"hdr\":\x7b\"height\":".toList

def back : List Char :=
  ",\"prev_hash\":\"".toList ++ zeros 64 ++ "\",\"ts\":0,\"prod_idx\":0,\"tx_root\":\"".toList ++
    zeros 64 ++ "\",\"state_root\":\"".toList ++ zeros 64 ++ "\",\"sig\":\"".toList ++ zeros 128 ++
    "\"\x7d,\"txs\":[]".toList

/-- The JSON text of such a block. -/
def text (digit : Char) : String :=
  String.ofList ('\x7b' :: (front ++ [digit] ++ back) ++ ['\x7d'])

def json : BlockJson where
  toText := fun b => if b.hdr.height = 1#64 then text '1' else text '2'
  ofText := fun t =>
    if t = text '1' then .ok (blockAt 1#64)
    else if t = text '2' then .ok (blockAt 2#64)
    else .error "expected value at line 1 column 1"

theorem text_ne : text '2' ≠ text '1' := by
  intro h
  have hlist := congrArg String.toList h
  simp only [text, String.toList_ofList] at hlist
  have hdigit := List.append_cancel_left (List.append_cancel_right
    (List.cons.inj (List.append_cancel_right hlist)).2)
  exact absurd hdigit (by decide)

theorem strBytes_text (digit : Char) : strBytes (text digit) =
    ('\x7b' :: (front ++ [digit] ++ back) ++ ['\x7d']).flatMap
      fun c => (String.utf8EncodeChar c).map UInt8.toBitVec := by
  rw [strBytes, text, String.toList_ofList]

theorem line_eq (height : U64) : json.line (blockAt height) =
    strBytes (if height = 1#64 then text '1' else text '2') := rfl

set_option maxRecDepth 8192 in
theorem length_text : (strBytes (text '1')).length = 422 ∧ (strBytes (text '2')).length = 422 := by
  rw [strBytes_text, strBytes_text]
  decide

set_option maxRecDepth 8192 in
theorem single_text : newline ∉ strBytes (text '1') ∧ newline ∉ strBytes (text '2') := by
  rw [strBytes_text, strBytes_text]
  decide

theorem writes : ∀ c ∈ [blockAt 1#64] ++ [blockAt 2#64], json.Writes c := by
  intro c hc
  simp only [List.singleton_append, List.mem_cons, List.not_mem_nil, or_false] at hc
  rcases hc with rfl | rfl
  · refine ⟨?_, ⟨front ++ ['1'] ++ back, String.toList_ofList⟩, single_text.1⟩
    simp only [json, blockAt, if_pos]
  · refine ⟨?_, ⟨front ++ ['2'] ++ back, String.toList_ofList⟩, single_text.2⟩
    have hne : (2#64 : U64) ≠ 1#64 := by decide
    simp only [json, blockAt, if_neg hne, if_neg text_ne, if_pos]

theorem consecutive : ConsecutiveHeights ([blockAt 1#64] ++ [blockAt 2#64]) := by
  intro i b hi
  match i with
  | 0 =>
      cases hi
      rfl
  | 1 =>
      cases hi
      rfl
  | i + 2 => cases hi

/-- Both lines are short. -/
theorem allReadable : AllReadable json ([blockAt 1#64] ++ [blockAt 2#64]) := by
  have hfirst : (json.line (blockAt 1#64)).length = 422 := length_text.1
  have hsecond : (json.line (blockAt 2#64)).length = 422 := length_text.2
  have hwindow : 1000 ≤ tailWindow := by decide +kernel
  have hfile : (blockFile json [blockAt 1#64]).length = 423 := by
    rw [blockFile, List.map_singleton, ofLines_singleton, List.length_append, hfirst]
    rfl
  have hempty : NextReadable json [] := nextReadable_nil json
  have hone : NextReadable json [blockAt 1#64] := by
    intro b hb
    have hb' : blockAt 1#64 = b := Option.some.inj hb
    subst hb'
    refine .inl ?_
    have hnil : (blockFile json (openBlocks [blockAt 1#64]).dropLast).length = 0 := rfl
    omega
  have htwo : NextReadable json ([blockAt 1#64] ++ [blockAt 2#64]) := by
    intro b hb
    have hb' : blockAt 2#64 = b := Option.some.inj hb
    subst hb'
    refine .inl ?_
    have hdrop : (openBlocks ([blockAt 1#64] ++ [blockAt 2#64])).dropLast = [blockAt 1#64] := rfl
    rw [hdrop]
    omega
  have hbefore : AllReadable json [blockAt 1#64] := by
    have hnone : AllReadable json [] := by
      intro m hm _
      rw [Nat.le_zero.mp hm]
      exact hempty
    rw [← List.nil_append [blockAt 1#64]]
    exact allReadable_concat_iff.mpr ⟨hnone, fun _ => hone⟩
  exact allReadable_concat_iff.mpr ⟨hbefore, fun _ => htwo⟩

end TornAppend

/-- Two blocks, the process ending between the line of the second one and its manifest. -/
theorem crashSafe_torn :
    (∀ c ∈ [TornAppend.blockAt 1#64] ++ [TornAppend.blockAt 2#64], TornAppend.json.Writes c) ∧
      ConsecutiveHeights ([TornAppend.blockAt 1#64] ++ [TornAppend.blockAt 2#64]) ∧
      ∀ C, ¬ CrashSafe C TornAppend.json [TornAppend.blockAt 1#64] (TornAppend.blockAt 2#64) 1 := by
  refine ⟨TornAppend.writes, TornAppend.consecutive, fun C => ?_⟩
  refine not_crashSafe_between TornAppend.writes TornAppend.consecutive fun m hm => ?_
  have hread := (allReadable_concat_iff.mp TornAppend.allReadable).1
  rw [List.length_singleton] at hm
  exact hread m hm (by omega)

/-- After both writes the store is gone on with. -/
theorem crashSafe_whole :
    CrashSafe (.ofTables [] []) TornAppend.json [TornAppend.blockAt 1#64]
      (TornAppend.blockAt 2#64) 2 :=
  (crashSafe_iff TornAppend.writes TornAppend.consecutive).mpr
    ⟨by decide, TornAppend.allReadable⟩

end Pwm
