import Pwm.Snapshot.CrashSafety
import Pwm.Snapshot.Validate

/-!
# The readers of the epoch files

Besides the load of all blocks there are three more readers: one for the last
blocks, one for a range and one for a single height. Each of them finds its
files and lines from the rows of the manifest.
-/

namespace Pwm

open BitVec Attempt LineFile

/-! ## One height -/

/-- The first block with this height; the lines after it are not decoded. -/
def findHeight (J : BlockJson) (fileName : String) (height : U64) :
    List (String × Nat) → Except String (Option Block)
  | [] => .ok none
  | p :: rest => do
      let b ← lineBlock J fileName p
      if b.hdr.height = height then return some b
      findHeight J fileName height rest

/-- The debug text of a row. -/
def EpochMeta.debug (em : EpochMeta) : String :=
  "EpochMeta \x7b idx: " ++ toString em.idx.toNat ++ ", first_h: " ++ toString em.firstH.toNat ++
    ", last_h: " ++ toString em.lastH.toNat ++ ", file_name: \"" ++ em.fileName ++ "\" \x7d"

def heightRows (J : BlockJson) (s : EpochStore) (height : U64) :
    List EpochMeta → Except String (Option Block)
  | [] => .ok none
  | em :: rest =>
      if em.lastH < height ∨ height < em.firstH then heightRows J s height rest
      else do
        let lines ← readJsonlLines (s.files em.fileName)
        match ← findHeight J em.fileName height lines.zipIdx with
        | some b => .ok (some b)
        | none =>
            .error ("epoch file " ++ em.fileName ++ " missing height " ++ toString height.toNat ++
              " (meta " ++ em.debug ++ ")")

/-- Single block from the epoch files. -/
def loadBlockAtHeight (J : BlockJson) (s : EpochStore) (height : U64) :
    Except String (Option Block) :=
  if height = 0#64 then .ok none
  else
    match s.manifest with
    | none => .ok none
    | some man => do
        ensureEpochManSchema man.schemaV
        heightRows J s height man.epochs

/-! ## The last blocks -/

/-- The blocks of the lines of one file from a height on. -/
def tailLines (J : BlockJson) (fileName : String) (startH tip : U64) :
    List (String × Nat) → Except String (List Block)
  | [] => .ok []
  | p :: rest => do
      let b ← lineBlock J fileName p
      let h := b.hdr.height
      if h < startH then tailLines J fileName startH tip rest
      else if tip < h then
        throw s!"epoch tail load: block height {h.toNat} beyond manifest tip {tip.toNat}"
      else
        let more ← tailLines J fileName startH tip rest
        return b :: more

def tailRows (J : BlockJson) (s : EpochStore) (startH tip : U64) :
    List EpochMeta → Except String (List Block)
  | [] => .ok []
  | em :: rest =>
      if em.lastH < startH then tailRows J s startH tip rest
      else if tip < em.firstH then .ok []
      else do
        let lines ← readJsonlLines (s.files em.fileName)
        let blocks ← tailLines J em.fileName startH tip lines.zipIdx
        let more ← tailRows J s startH tip rest
        return blocks ++ more

/-- Every block has the height of its place in the tail. -/
def checkTailHeights (startH : U64) : Nat → List Block → Except String Unit
  | _, [] => .ok ()
  | i, b :: rest =>
      let wantH := startH + BitVec.ofNat 64 i
      if b.hdr.height ≠ wantH then
        .error s!"epoch tail load: pos {i} height {b.hdr.height.toNat} want {wantH.toNat}"
      else checkTailHeights startH (i + 1) rest

/-- The blocks from this height to the tip. -/
def tailFrom (J : BlockJson) (s : EpochStore) (man : EpochManifest) (startH : U64) (expectN : Nat) :
    Except String (List Block) := do
  let tip := man.canonicalH
  let out ← tailRows J s startH tip man.epochs
  check (out.length = expectN)
    s!"epoch tail load: want {expectN} blocks (heights {startH.toNat}..={tip.toNat}), got {out.length}"
  checkTailHeights startH 0 out
  .ok out

/-- Loads only the last blocks; their number is computed with a subtraction that traps. -/
def loadTailBlocks (J : BlockJson) (s : EpochStore) (tailCap : U64) :
    Except SnapFault (List Block) :=
  match s.manifest with
  | none => .error (.err "epoch tail load: missing manifest")
  | some man => do
      (ensureEpochManSchema man.schemaV).mapError .err
      let tip := man.canonicalH
      if tip = 0#64 then
        if man.epochs.any fun e => decide (0#64 < e.lastH) then
          throw (.err "epoch tail load: canonical_h=0 but epochs non-empty")
        return []
      let startH := ((tip.saturatingSub tailCap).saturatingAdd 1#64).umax 1#64
      let behind ← orFail (tip.checkedSub startH) .panic
      (tailFrom J s man startH (behind.toNat + 1)).mapError .err

/-! ## A range -/

/-- The blocks of numbered lines, blank ones skipped. -/
def rangeLines (J : BlockJson) (fileName : String) :
    List (List U8 × Nat) → Except String (List Block)
  | [] => .ok []
  | p :: rest => do
      let text ← lineText p
      if text.toList.all isWhitespace then rangeLines J fileName rest
      else
        let b ← (J.ofText text).mapError fun e => s!"decode line {p.2} in {fileName}: {e}"
        let more ← rangeLines J fileName rest
        return b :: more

/-- So many lines of a file from this one on. -/
def readJsonlRange (J : BlockJson) (fileName : String) (file : Option (List U8))
    (start count : Nat) : Except String (List Block) :=
  if count = 0 then .ok []
  else
    match file with
    | none => .ok []
    | some bytes =>
        rangeLines J fileName (((LineFile.lines newline bytes).zipIdx.drop start).take count)

/-- Takes blocks of ascending heights up to the last one; what is left is the next height and the
blocks so far. -/
def takeChunk (endH : U64) : U64 → List Block → List Block → Except String (U64 × List Block)
  | nextH, out, [] => .ok (nextH, out)
  | nextH, out, b :: rest =>
      if b.hdr.height ≠ nextH then
        .error s!"epoch consecutive load: continuity break at {nextH.toNat}, got {b.hdr.height.toNat}"
      else
        let nextH := nextH.saturatingAdd 1#64
        if endH < nextH then .ok (nextH, out ++ [b]) else takeChunk endH nextH (out ++ [b]) rest

def consRows (J : BlockJson) (s : EpochStore) (endH : U64) :
    U64 → List Block → List EpochMeta → Except String (List Block)
  | _, out, [] => .ok out
  | nextH, out, em :: rest =>
      if endH < nextH then .ok out
      else if em.lastH < nextH then consRows J s endH nextH out rest
      else if nextH < em.firstH then
        .error s!"epoch consecutive load: missing height {nextH.toNat} before epoch {em.idx.toNat}"
      else do
        let readFromH := nextH.umax em.firstH
        let readToH := endH.umin em.lastH
        let lineStart := (readFromH.saturatingSub em.firstH).toNat
        let lineCount := ((readToH.saturatingSub readFromH).saturatingAdd 1#64).toNat
        let chunk ← readJsonlRange J em.fileName (s.files em.fileName) lineStart lineCount
        check (chunk.length = lineCount)
          ("epoch consecutive load: file " ++ em.fileName ++ " returned " ++
            toString chunk.length ++ " lines, want " ++ toString lineCount)
        let (nextH, out) ← takeChunk endH nextH out chunk
        consRows J s endH nextH out rest

/-- The blocks from this height to another one, without a gap. -/
def consFrom (J : BlockJson) (s : EpochStore) (man : EpochManifest) (fromH endH : U64) :
    Except String (List Block) := do
  let out ← consRows J s endH fromH [] man.epochs
  check (out.head?.map (fun b => b.hdr.height) = some fromH)
    s!"epoch consecutive load: missing start height {fromH.toNat}"
  .ok out

/-- The largest size of an allocation. -/
def isizeMax : Nat := 2 ^ 63 - 1

/-- Loads up to `limit` consecutive blocks; room for all of them, of this size each, is asked for
before the first is read. -/
def loadConsBlocksEpochs (J : BlockJson) (blockSize : Nat) (s : EpochStore) (fromH limit : U64) :
    Except SnapFault (List Block) :=
  if fromH = 0#64 ∨ limit = 0#64 then .ok []
  else
    match s.manifest with
    | none => .error (.err "epoch consecutive load: missing manifest")
    | some man => do
        (ensureEpochManSchema man.schemaV).mapError .err
        let endH := (fromH.saturatingAdd limit).saturatingSub 1#64
        check (limit.toNat * blockSize ≤ isizeMax) .panic
        (consFrom J s man fromH endH).mapError .err

/-! ## The store of successful appends -/

/-- An append that succeeds. -/
def AppendStep (C : Crypto) (J : BlockJson) (s : EpochStore) (b : Block) (s' : EpochStore) : Prop :=
  ∃ ws, appendBlockForEpoch C J s b [] = .ok () ws ∧ s' = s.applyAll ws

section Appended

variable {C : Crypto} {J : BlockJson} {s s' : EpochStore} {bs : List Block} {b : Block}

/-- A successful append to a store gives the store with the block; it has read the last line. -/
theorem AppendStep.stores (h : AppendStep C J s b s') (hs : Stores C J s bs)
    (hw : ∀ b ∈ bs, J.Writes b) (hc : ConsecutiveHeights (bs ++ [b])) :
    NextReadable J bs ∧ Stores C J s' (bs ++ [b]) := by
  have hn := hc.length_lt
  rw [List.length_append, List.length_singleton] at hn
  obtain ⟨ws, happend, rfl⟩ := h
  by_cases hv : NextReadable J bs
  · rw [hs.append_ok hw hc hv] at happend
    obtain ⟨-, rfl⟩ := EStateM.Result.ok.inj happend
    exact ⟨hv, hs.written hn⟩
  · obtain ⟨e, herror⟩ := hs.append_error hw hc hv
    rw [herror] at happend
    cases happend

theorem appendStep_of_readable (hs : Stores C J s bs) (hw : ∀ b ∈ bs, J.Writes b)
    (hc : ConsecutiveHeights (bs ++ [b])) (hv : NextReadable J bs) :
    AppendStep C J s b (s.applyAll (appendWrites C J bs b)) :=
  ⟨_, hs.append_ok hw hc hv, rfl⟩

theorem run_stores (hrun : Run (AppendStep C J) EpochStore.empty bs s)
    (hw : ∀ b ∈ bs, J.Writes b) (hc : ConsecutiveHeights bs) : Stores C J s bs := by
  have hstart : (∀ b ∈ ([] : List Block), J.Writes b) → ConsecutiveHeights [] →
      Stores C J EpochStore.empty [] := fun _ _ => stores_empty
  refine hrun.history_invariant (I := fun bs s => (∀ b ∈ bs, J.Writes b) →
    ConsecutiveHeights bs → Stores C J s bs) ?_ hstart hw hc
  intro bs s b s' ih hstep hw hc
  have hw' : ∀ c ∈ bs, J.Writes c := fun c hmem => hw c (List.mem_append_left _ hmem)
  exact (hstep.stores (ih hw' hc.of_append) hw' hc).2

end Appended

/-! ## What the readers find in the store -/

section Lines

variable {J : BlockJson} {bs : List Block} {b : Block}

/-- The heights go on from this one. -/
def HeightsFrom (i : Nat) (bs : List Block) : Prop :=
  ∀ k b, bs[k]? = some b → b.hdr.height.toNat = i + k + 1

theorem HeightsFrom.head {i : Nat} (h : HeightsFrom i (b :: bs)) : b.hdr.height.toNat = i + 1 :=
  h 0 b rfl

theorem HeightsFrom.tail {i : Nat} (h : HeightsFrom i (b :: bs)) : HeightsFrom (i + 1) bs := by
  intro k c hk
  rw [h (k + 1) c hk]
  omega

theorem HeightsFrom.drop {i : Nat} (h : HeightsFrom i bs) (n : Nat) :
    HeightsFrom (i + n) (bs.drop n) := by
  intro k b hk
  rw [List.getElem?_drop] at hk
  rw [h (n + k) b hk]
  omega

theorem HeightsFrom.take {i : Nat} (h : HeightsFrom i bs) (n : Nat) : HeightsFrom i (bs.take n) := by
  intro k b hk
  by_cases hlt : k < n
  · rw [List.getElem?_take_of_lt hlt] at hk
    exact h k b hk
  · rw [List.getElem?_eq_none (by rw [List.length_take]; omega)] at hk
    cases hk

theorem ConsecutiveHeights.heightsFrom (hc : ConsecutiveHeights bs) : HeightsFrom 0 bs := by
  intro k b hk
  rw [hc k b hk, Nat.zero_add]

theorem lineBlock_toText (fileName : String) (h : J.Writes b) (j : Nat) :
    lineBlock J fileName (J.toText b, j) = .ok b := by
  rw [lineBlock, h.reads]

/-- The block of a height is found among consecutive ones. -/
theorem findHeight_toText (fileName : String) (hw : ∀ b ∈ bs, J.Writes b) {height : U64}
    {i : Nat} (hh : HeightsFrom i bs) (hi : i < height.toNat) (j : Nat) :
    findHeight J fileName height ((bs.map J.toText).zipIdx j) =
      .ok bs[height.toNat - 1 - i]? := by
  induction bs generalizing i j with
  | nil => rfl
  | cons b rest ih =>
      have hb := hh.head
      rw [List.map_cons, List.zipIdx_cons, findHeight,
        lineBlock_toText fileName (hw b List.mem_cons_self)]
      by_cases hsame : b.hdr.height = height
      · have hzero : height.toNat - 1 - i = 0 := by
          rw [← hsame, hb]
          omega
        simp only [hsame, if_true, hzero, List.getElem?_cons_zero, bind, Except.bind, pure,
          Except.pure]
      · have hlt : i + 1 < height.toNat := by
          have hne : b.hdr.height.toNat ≠ height.toNat := fun h => hsame (BitVec.eq_of_toNat_eq h)
          omega
        have hsucc : height.toNat - 1 - i = height.toNat - 1 - (i + 1) + 1 := by omega
        rw [hsucc, List.getElem?_cons_succ, ← ih (fun c hc => hw c (List.mem_cons_of_mem b hc))
          hh.tail hlt (j + 1)]
        simp only [hsame, if_false, bind, Except.bind, pure, Except.pure]

/-- The blocks of a file from a height on. -/
theorem tailLines_toText (fileName : String) (hw : ∀ b ∈ bs, J.Writes b) {startH tip : U64}
    {i : Nat} (hh : HeightsFrom i bs) (htip : i + bs.length ≤ tip.toNat) (j : Nat) :
    tailLines J fileName startH tip ((bs.map J.toText).zipIdx j) =
      .ok (bs.drop (startH.toNat - 1 - i)) := by
  induction bs generalizing i j with
  | nil => rw [List.drop_nil]; rfl
  | cons b rest ih =>
      have hb := hh.head
      rw [List.length_cons] at htip
      rw [List.map_cons, List.zipIdx_cons, tailLines,
        lineBlock_toText fileName (hw b List.mem_cons_self)]
      have hrest := ih (fun c hc => hw c (List.mem_cons_of_mem b hc)) hh.tail (by omega) (j + 1)
      by_cases hlt : b.hdr.height < startH
      · have hsucc : startH.toNat - 1 - i = startH.toNat - 1 - (i + 1) + 1 := by
          rw [BitVec.lt_def, hb] at hlt
          omega
        simp only [hlt, if_true, hrest, hsucc, List.drop_succ_cons, bind, Except.bind]
      · have hbound : ¬ tip < b.hdr.height := by
          rw [BitVec.lt_def, hb]
          omega
        rw [BitVec.lt_def, hb] at hlt
        have hzero : startH.toNat - 1 - i = 0 := by omega
        have hzero' : startH.toNat - 1 - (i + 1) = 0 := by omega
        have hlt' : ¬ b.hdr.height < startH := by rwa [BitVec.lt_def, hb]
        rw [hzero'] at hrest
        simp only [hlt', hbound, if_false, hrest, hzero, List.drop_zero, bind, Except.bind, pure,
          Except.pure]

theorem checkTailHeights_ok {startH : U64} {i : Nat} (hfit : startH.toNat + i + bs.length ≤ 2 ^ 64)
    (hh : HeightsFrom (startH.toNat - 1 + i) bs) (hpos : 0 < startH.toNat) :
    checkTailHeights startH i bs = .ok () := by
  induction bs generalizing i with
  | nil => rfl
  | cons b rest ih =>
      rw [List.length_cons] at hfit
      have hb : b.hdr.height = startH + BitVec.ofNat 64 i := by
        refine BitVec.eq_of_toNat_eq ?_
        rw [hh.head, BitVec.toNat_add, toNat_ofNat_of_lt (by omega)]
        omega
      rw [checkTailHeights, if_neg (not_not.mpr hb)]
      exact ih (by omega) (by rw [← Nat.add_assoc]; exact hh.tail)

/-- Numbered lines of blocks. -/
theorem rangeLines_lines (fileName : String) (hw : ∀ b ∈ bs, J.Writes b)
    {ps : List (List U8 × Nat)} (hps : ps.map Prod.fst = bs.map J.line) :
    rangeLines J fileName ps = .ok bs := by
  induction bs generalizing ps with
  | nil =>
      obtain rfl := List.map_eq_nil_iff.mp hps
      rfl
  | cons b rest ih =>
      obtain ⟨⟨line, j⟩, qs, rfl, hline, hqs⟩ := List.map_eq_cons_iff.mp hps
      have hb := hw b List.mem_cons_self
      obtain rfl : line = J.line b := hline
      have htext : lineText (J.line b, j) = .ok (J.toText b) := by
        rw [lineText, hb.stripCr_line, BlockJson.line, utf8Text_strBytes]
      rw [rangeLines, htext]
      simp only [hb.not_blank, hb.reads, ih (fun c hc => hw c (List.mem_cons_of_mem b hc)) hqs,
        Bool.false_eq_true, if_false, bind, Except.bind, Except.mapError, pure, Except.pure]

theorem readJsonlRange_blockFile (fileName : String) (hw : ∀ b ∈ bs, J.Writes b)
    (start count : Nat) :
    readJsonlRange J fileName (some (blockFile J bs)) start count =
      .ok ((bs.drop start).take count) := by
  rw [readJsonlRange]
  by_cases hzero : count = 0
  · rw [if_pos hzero, hzero, List.take_zero]
  · have hlines : lines newline (blockFile J bs) = bs.map J.line := by
      refine lines_ofLines fun l hl => ?_
      obtain ⟨b, hb, rfl⟩ := List.mem_map.mp hl
      exact (hw b hb).single
    rw [if_neg hzero]
    refine rangeLines_lines fileName
      (fun b hb => hw b (List.mem_of_mem_drop (List.mem_of_mem_take hb))) ?_
    rw [hlines, List.map_take, List.map_drop, List.zipIdx_map_fst, List.map_take, List.map_drop]

/-- A chunk that ends by the last height is taken whole. -/
theorem takeChunk_ok {endH nextH : U64} {out : List Block} (hend : endH.toNat + 1 < 2 ^ 64)
    (hnext : 0 < nextH.toNat) (hh : HeightsFrom (nextH.toNat - 1) bs)
    (hfit : nextH.toNat + bs.length ≤ endH.toNat + 1) :
    ∃ nextH', nextH'.toNat = nextH.toNat + bs.length ∧
      takeChunk endH nextH out bs = .ok (nextH', out ++ bs) := by
  induction bs generalizing nextH out with
  | nil => exact ⟨nextH, rfl, by rw [List.append_nil]; rfl⟩
  | cons b rest ih =>
      rw [List.length_cons] at hfit
      have hone : (1#64).toNat = 1 := rfl
      have hb : b.hdr.height = nextH := by
        refine BitVec.eq_of_toNat_eq ?_
        rw [hh.head]
        omega
      have hnext' : (nextH.saturatingAdd 1#64).toNat = nextH.toNat + 1 := by
        rw [toNat_saturatingAdd_of_fits (by omega), hone]
      rw [takeChunk, if_neg (not_not.mpr hb)]
      by_cases hlast : endH < nextH.saturatingAdd 1#64
      · have hnil : rest = [] := by
          rw [BitVec.lt_def, hnext'] at hlast
          exact List.length_eq_zero_iff.mp (by omega)
        subst hnil
        exact ⟨_, hnext', by rw [if_pos hlast]⟩
      · have htail : HeightsFrom ((nextH.saturatingAdd 1#64).toNat - 1) rest := by
          have hsame : (nextH.saturatingAdd 1#64).toNat - 1 = nextH.toNat - 1 + 1 := by omega
          rw [hsame]
          exact hh.tail
        obtain ⟨nextH', hlen, htake⟩ := @ih (nextH.saturatingAdd 1#64) (out ++ [b]) (by omega) htail
          (by omega)
        refine ⟨nextH', ?_, ?_⟩
        · rw [hlen, hnext', List.length_cons]
          omega
        · rw [if_neg hlast, htake, List.append_assoc, List.singleton_append]

end Lines

section Rows

variable {C : Crypto} {J : BlockJson} {s : EpochStore} {bs : List Block}

/-- The epoch files hold the lines of these blocks. -/
def LineFiles (J : BlockJson) (s : EpochStore) (fs : List Block) : Prop :=
  ∀ eidx : U64, s.files (epochFileName eidx) =
    if 1000 * eidx.toNat < fs.length then some (blockFile J (epochBlocks fs eidx.toNat)) else none

theorem writes_epochBlocks (hw : ∀ b ∈ bs, J.Writes b) (e : Nat) :
    ∀ b ∈ epochBlocks bs e, J.Writes b :=
  fun b hb => hw b (List.mem_of_mem_drop (List.mem_of_mem_take hb))

theorem ConsecutiveHeights.epochBlocks (hc : ConsecutiveHeights bs) (e : Nat) :
    HeightsFrom (1000 * e) (epochBlocks bs e) := by
  have h := (hc.heightsFrom.drop (1000 * e)).take 1000
  rwa [Nat.zero_add] at h

theorem Stores.lines (hs : Stores C J s bs) : LineFiles J s bs :=
  hs.files

theorem LineFiles.file_at {fs : List Block} (h : LineFiles J s fs) {e : Nat}
    (he : 1000 * e < fs.length) (hn : fs.length < 2 ^ 64) (n : Nat) :
    s.files (rowAt n e).fileName = some (blockFile J (Pwm.epochBlocks fs e)) := by
  have hfile := h (BitVec.ofNat 64 e)
  rw [toNat_ofNat_of_lt (by omega), if_pos he] at hfile
  exact hfile

theorem rowAt_firstH {n e : Nat} (he : 1000 * e < n) (hn : n < 2 ^ 64) :
    (rowAt n e).firstH.toNat = 1000 * e + 1 :=
  toNat_ofNat_of_lt (by omega)

theorem rowAt_lastH {n e : Nat} (hn : n < 2 ^ 64) :
    (rowAt n e).lastH.toNat = min (1000 * (e + 1)) n :=
  toNat_ofNat_of_lt (by omega)

/-- What is left of one file, and the files after it. -/
theorem drop_epochBlocks {a d : Nat} (hd : d ≤ 1000) :
    (epochBlocks bs a).drop d ++ bs.drop (1000 * (a + 1)) = bs.drop (1000 * a + d) := by
  have hafter : bs.drop (1000 * (a + 1)) = (bs.drop (1000 * a + d)).drop (1000 - d) := by
    rw [List.drop_drop]
    congr 1
    omega
  rw [epochBlocks, List.drop_take, List.drop_drop, hafter, List.take_append_drop]

theorem rowsFor_range (n : Nat) : rowsFor n = (List.range' 0 (epochCount n)).map (rowAt n) := by
  rw [rowsFor, List.range_eq_range']

/-- The rows of some blocks find them by their heights, also where the files go on. -/
theorem LineFiles.heightRows {fs : List Block} (h : LineFiles J s fs) (hw : ∀ b ∈ fs, J.Writes b)
    (hc : ConsecutiveHeights fs) (hfs : bs <+: fs) {height : U64}
    (hle : height.toNat ≤ bs.length) {a m : Nat} (hcount : a + m = epochCount bs.length)
    (hpos : 1000 * a < height.toNat) :
    Pwm.heightRows J s height ((List.range' a m).map (rowAt bs.length)) =
      .ok bs[height.toNat - 1]? := by
  have hn := hc.length_lt
  have hlen := hfs.length_le
  rw [epochCount] at hcount
  induction m generalizing a with
  | zero => omega
  | succ m ih =>
      have ha : 1000 * a < bs.length := by omega
      rw [List.range'_succ, List.map_cons, Pwm.heightRows]
      by_cases hlast : height.toNat ≤ 1000 * (a + 1)
      · have hhere : ¬ ((rowAt bs.length a).lastH < height ∨ height < (rowAt bs.length a).firstH) := by
          rw [BitVec.lt_def, BitVec.lt_def, rowAt_lastH (by omega), rowAt_firstH ha (by omega)]
          omega
        have hsome : bs[height.toNat - 1]? = some bs[height.toNat - 1] :=
          List.getElem?_eq_getElem (by omega)
        have hplace : 1000 * a + (height.toNat - 1 - 1000 * a) = height.toNat - 1 := by omega
        have hblock : (Pwm.epochBlocks fs a)[height.toNat - 1 - 1000 * a]? =
            some bs[height.toNat - 1] := by
          obtain ⟨more, rfl⟩ := hfs
          rw [Pwm.epochBlocks, List.getElem?_take_of_lt (by omega), List.getElem?_drop, hplace,
            List.getElem?_append_left (by omega), hsome]
        rw [if_neg hhere, h.file_at (by omega) hn, readJsonlLines_blockFile (writes_epochBlocks hw a)]
        have hfind := findHeight_toText (rowAt bs.length a).fileName (writes_epochBlocks hw a)
          (hc.epochBlocks a) hpos 0
        rw [hblock] at hfind
        simp only [hfind, hsome, bind, Except.bind]
      · have hskip : (rowAt bs.length a).lastH < height := by
          rw [BitVec.lt_def, rowAt_lastH (by omega)]
          omega
        rw [if_pos (.inl hskip)]
        exact ih (by omega) (by omega)

theorem Stores.tailRows (hs : Stores C J s bs) (hw : ∀ b ∈ bs, J.Writes b)
    (hc : ConsecutiveHeights bs) {startH tip : U64} (htip : tip.toNat = bs.length)
    (hstart : startH.toNat ≤ bs.length) {a m : Nat} (hcount : a + m = epochCount bs.length) :
    Pwm.tailRows J s startH tip ((List.range' a m).map (rowAt bs.length)) =
      .ok (bs.drop (max (1000 * a) (startH.toNat - 1))) := by
  have hn := hc.length_lt
  rw [epochCount] at hcount
  induction m generalizing a with
  | zero =>
      rw [List.drop_eq_nil_of_le (by omega)]
      rfl
  | succ m ih =>
      have ha : 1000 * a < bs.length := by omega
      have hrest := @ih (a + 1) (by omega)
      rw [List.range'_succ, List.map_cons, Pwm.tailRows]
      by_cases hskip : (rowAt bs.length a).lastH < startH
      · rw [if_pos hskip, hrest]
        rw [BitVec.lt_def, rowAt_lastH hn] at hskip
        congr 2
        omega
      · have htip' : ¬ tip < (rowAt bs.length a).firstH := by
          rw [BitVec.lt_def, rowAt_firstH ha hn]
          omega
        have hlen : (epochBlocks bs a).length = min 1000 (bs.length - 1000 * a) := by
          rw [epochBlocks, List.length_take, List.length_drop]
        have hlines := @tailLines_toText J (epochBlocks bs a) (rowAt bs.length a).fileName
          (writes_epochBlocks hw a) startH tip _ (hc.epochBlocks a) (by omega) 0
        rw [if_neg hskip, if_neg htip', hs.lines.file_at ha hn,
          readJsonlLines_blockFile (writes_epochBlocks hw a)]
        simp only [hlines, hrest, bind, Except.bind, pure, Except.pure]
        rw [BitVec.lt_def, rowAt_lastH hn] at hskip
        have hnext : max (1000 * (a + 1)) (startH.toNat - 1) = 1000 * (a + 1) := by omega
        have hhere : 1000 * a + (startH.toNat - 1 - 1000 * a) = max (1000 * a) (startH.toNat - 1) := by
          omega
        rw [hnext, drop_epochBlocks (by omega), hhere]

/-- The rows are gone through from the one of the next height. -/
theorem Stores.consRows (hs : Stores C J s bs) (hw : ∀ b ∈ bs, J.Writes b)
    (hc : ConsecutiveHeights bs) {endH nextH : U64} {out : List Block}
    (hend : endH.toNat + 1 < 2 ^ 64) (hnext : 0 < nextH.toNat) {a m : Nat}
    (hcount : a + m = epochCount bs.length)
    (hplace : 1000 * a < nextH.toNat ∨ bs.length < nextH.toNat ∨ endH.toNat < nextH.toNat) :
    Pwm.consRows J s endH nextH out ((List.range' a m).map (rowAt bs.length)) =
      .ok (out ++ (bs.drop (nextH.toNat - 1)).take (endH.toNat + 1 - nextH.toNat)) := by
  have hn := hc.length_lt
  rw [epochCount] at hcount
  induction m generalizing a nextH out with
  | zero =>
      have hnil : (bs.drop (nextH.toNat - 1)).take (endH.toNat + 1 - nextH.toNat) = [] := by
        rw [List.take_eq_nil_iff, List.drop_eq_nil_iff]
        omega
      rw [hnil, List.append_nil]
      rfl
  | succ m ih =>
      have ha : 1000 * a < bs.length := by omega
      rw [List.range'_succ, List.map_cons, Pwm.consRows]
      by_cases hdone : endH < nextH
      · rw [if_pos hdone]
        rw [BitVec.lt_def] at hdone
        have hzero : endH.toNat + 1 - nextH.toNat = 0 := by omega
        rw [hzero, List.take_zero, List.append_nil]
      rw [if_neg hdone]
      rw [BitVec.lt_def] at hdone
      by_cases hskip : (rowAt bs.length a).lastH < nextH
      · rw [if_pos hskip]
        rw [BitVec.lt_def, rowAt_lastH hn] at hskip
        exact ih hnext (by omega) (by omega)
      have hfirst : ¬ nextH < (rowAt bs.length a).firstH := by
        rw [BitVec.lt_def, rowAt_lastH hn] at hskip
        rw [BitVec.lt_def, rowAt_firstH ha hn]
        omega
      rw [if_neg hskip, if_neg hfirst, hs.lines.file_at ha hn]
      rw [BitVec.lt_def, rowAt_lastH hn] at hskip
      rw [BitVec.lt_def, rowAt_firstH ha hn] at hfirst
      -- the lines from the next height to the last of the file or of the range
      have hfrom : nextH.umax (rowAt bs.length a).firstH = nextH := by
        refine BitVec.eq_of_toNat_eq ?_
        rw [toNat_umax, rowAt_firstH ha hn]
        omega
      have hto : (endH.umin (rowAt bs.length a).lastH).toNat =
          min endH.toNat (min (1000 * (a + 1)) bs.length) := by
        rw [toNat_umin, rowAt_lastH hn]
      have hline : (nextH.saturatingSub (rowAt bs.length a).firstH).toNat =
          nextH.toNat - 1 - 1000 * a := by
        rw [toNat_saturatingSub, rowAt_firstH ha hn]
        omega
      obtain ⟨count, hcnt⟩ : ∃ count, count =
          min endH.toNat (min (1000 * (a + 1)) bs.length) + 1 - nextH.toNat := ⟨_, rfl⟩
      have hlines : (((endH.umin (rowAt bs.length a).lastH).saturatingSub nextH).saturatingAdd
          1#64).toNat = count := by
        have hone : (1#64).toNat = 1 := rfl
        rw [toNat_saturatingAdd_of_fits, toNat_saturatingSub, hto, hone]
        · omega
        · rw [toNat_saturatingSub, hto, hone]
          omega
      have hchunk : ((epochBlocks bs a).drop (nextH.toNat - 1 - 1000 * a)).take count =
          (bs.drop (nextH.toNat - 1)).take count := by
        rw [epochBlocks, List.drop_take, List.drop_drop, List.take_take]
        congr 1
        · omega
        · congr 1
          omega
      have hlength : ((bs.drop (nextH.toNat - 1)).take count).length = count := by
        rw [List.length_take, List.length_drop]
        omega
      have hheights := (hc.heightsFrom.drop (nextH.toNat - 1)).take count
      rw [Nat.zero_add] at hheights
      obtain ⟨nextH', hnextH', htake⟩ := @takeChunk_ok ((bs.drop (nextH.toNat - 1)).take count) endH
        nextH out hend hnext hheights (by rw [hlength]; omega)
      rw [hlength] at hnextH'
      simp only [hfrom, hline, hlines, readJsonlRange_blockFile _ (writes_epochBlocks hw a), hchunk,
        hlength, check, if_true, htake, bind, Except.bind]
      rw [@ih nextH' (out ++ (bs.drop (nextH.toNat - 1)).take count) (by omega) (a + 1) (by omega)
        (by omega), List.append_assoc]
      refine congrArg (fun l => Except.ok (out ++ l)) ?_
      -- the chunk and what comes after it
      have hrest : bs.drop (nextH'.toNat - 1) = (bs.drop (nextH.toNat - 1)).drop count := by
        rw [List.drop_drop]
        congr 1
        omega
      have hleft : endH.toNat + 1 - nextH.toNat = count + (endH.toNat + 1 - nextH'.toNat) := by
        omega
      rw [hrest, hleft, List.take_add]

end Rows

/-! ## The readers agree -/

section Readers

variable {C : Crypto} {J : BlockJson} {s : EpochStore} {bs : List Block}

theorem Stores.manifest_some (hs : Stores C J s bs) (hbs : bs ≠ []) :
    s.manifest = some (manifestFor C bs) := by
  rw [hs.manifest, if_neg hbs]

/-- Each block is found by its height. -/
theorem LineFiles.height {fs : List Block} (h : LineFiles J s fs)
    (hman : s.manifest = if bs = [] then none else some (manifestFor C bs))
    (hw : ∀ b ∈ fs, J.Writes b) (hc : ConsecutiveHeights fs) (hfs : bs <+: fs) {height : U64}
    (hpos : 0 < height.toNat) (hle : height.toNat ≤ bs.length) :
    loadBlockAtHeight J s height = .ok bs[height.toNat - 1]? := by
  have hbs : bs ≠ [] := List.ne_nil_of_length_pos (by omega)
  have hne : height ≠ 0#64 := by
    rintro rfl
    exact absurd hpos (lt_irrefl _)
  have hrows : Pwm.heightRows J s height (manifestFor C bs).epochs = .ok bs[height.toNat - 1]? := by
    rw [manifestFor, mkManifest, rowsFor_range]
    exact h.heightRows hw hc hfs hle (Nat.zero_add _) (by omega)
  have hschema : ensureEpochManSchema (manifestFor C bs).schemaV = .ok () := if_pos rfl
  rw [loadBlockAtHeight, if_neg hne, hman, if_neg hbs]
  simp only [hschema, hrows, bind, Except.bind]

theorem Stores.height (hs : Stores C J s bs) (hw : ∀ b ∈ bs, J.Writes b)
    (hc : ConsecutiveHeights bs) {height : U64} (hpos : 0 < height.toNat)
    (hle : height.toNat ≤ bs.length) :
    loadBlockAtHeight J s height = .ok bs[height.toNat - 1]? :=
  hs.lines.height hs.manifest hw hc List.prefix_rfl hpos hle

theorem Stores.tail (hs : Stores C J s bs) (hw : ∀ b ∈ bs, J.Writes b)
    (hc : ConsecutiveHeights bs) (hbs : bs ≠ []) {tailCap : U64} (hcap : tailCap ≠ 0#64) :
    loadTailBlocks J s tailCap = .ok (bs.drop (bs.length - tailCap.toNat)) := by
  have hn := hc.length_lt
  have hpos := List.length_pos_of_ne_nil hbs
  have hcap' : 0 < tailCap.toNat := by
    rw [Nat.pos_iff_ne_zero]
    exact fun h => hcap (BitVec.eq_of_toNat_eq h)
  have htip : (manifestFor C bs).canonicalH.toNat = bs.length := toNat_ofNat_of_lt hn
  have hne : (manifestFor C bs).canonicalH ≠ 0#64 := by
    intro h
    rw [h] at htip
    exact absurd htip (by simpa using hpos.ne)
  obtain ⟨startH, hstartH⟩ : ∃ startH, startH =
      (((manifestFor C bs).canonicalH.saturatingSub tailCap).saturatingAdd 1#64).umax 1#64 := ⟨_, rfl⟩
  have hstart : startH.toNat = bs.length - tailCap.toNat + 1 := by
    have hone : (1#64).toNat = 1 := rfl
    rw [hstartH, toNat_umax, toNat_saturatingAdd_of_fits, toNat_saturatingSub, htip, hone]
    · omega
    · rw [toNat_saturatingSub, htip, hone]
      omega
  obtain ⟨behind, hbehind⟩ : ∃ behind, (manifestFor C bs).canonicalH.checkedSub startH =
      some behind := by
    refine ⟨_, if_pos ?_⟩
    rw [BitVec.le_def, hstart, htip]
    omega
  have hbehind' := (checkedSub_eq_some_iff.mp hbehind).2
  have hmax : max (1000 * 0) (startH.toNat - 1) = bs.length - tailCap.toNat := by omega
  have hrows := @Stores.tailRows C J s bs hs hw hc startH _ htip (by omega) 0 _ (Nat.zero_add _)
  rw [← rowsFor_range, hmax] at hrows
  have hlen : (bs.drop (bs.length - tailCap.toNat)).length = behind.toNat + 1 := by
    rw [List.length_drop]
    omega
  have hheights : HeightsFrom (startH.toNat - 1 + 0) (bs.drop (bs.length - tailCap.toNat)) := by
    have hsame : startH.toNat - 1 + 0 = 0 + (bs.length - tailCap.toNat) := by omega
    rw [hsame]
    exact hc.heightsFrom.drop _
  have hcheck : checkTailHeights startH 0 (bs.drop (bs.length - tailCap.toNat)) = .ok () :=
    checkTailHeights_ok (by rw [hlen]; omega) hheights (by omega)
  have htail : tailFrom J s (manifestFor C bs) startH (behind.toNat + 1) =
      .ok (bs.drop (bs.length - tailCap.toNat)) := by
    have hepochs : (manifestFor C bs).epochs = rowsFor bs.length := rfl
    simp only [tailFrom, hepochs, hrows, except_bind_ok_iff, check_ok_iff, hlen, hcheck,
      Except.ok.injEq, exists_eq_left']
    exact ⟨(), trivial, (), trivial, trivial⟩
  have hschema : ensureEpochManSchema (manifestFor C bs).schemaV = .ok () := if_pos rfl
  rw [loadTailBlocks, hs.manifest_some hbs]
  simp only [hschema, hne, if_false, ← hstartH, hbehind, htail, orFail, Except.mapError, bind,
    Except.bind]

/-- The last blocks are returned unless there are none or none are asked for. -/
theorem Stores.tail_iff (hs : Stores C J s bs) (hw : ∀ b ∈ bs, J.Writes b)
    (hc : ConsecutiveHeights bs) (tailCap : U64) :
    loadTailBlocks J s tailCap = .ok (bs.drop (bs.length - tailCap.toNat)) ↔
      bs ≠ [] ∧ tailCap ≠ 0#64 := by
  constructor
  · intro h
    have hbs : bs ≠ [] := by
      rintro rfl
      rw [loadTailBlocks, hs.manifest, if_pos rfl] at h
      cases h
    refine ⟨hbs, ?_⟩
    rintro rfl
    -- whatever is returned has a block
    have hnone : bs.drop (bs.length - (0#64).toNat) = [] := List.drop_eq_nil_of_le (Nat.le_refl _)
    have hpos := List.length_pos_of_ne_nil hbs
    have htip : (manifestFor C bs).canonicalH.toNat = bs.length := toNat_ofNat_of_lt hc.length_lt
    have hne : (manifestFor C bs).canonicalH ≠ 0#64 := by
      intro h
      rw [h] at htip
      exact absurd htip (by simpa using hpos.ne)
    have hschema : ensureEpochManSchema (manifestFor C bs).schemaV = .ok () := if_pos rfl
    rw [loadTailBlocks, hs.manifest_some hbs, hnone] at h
    simp only [hschema, hne, if_false, except_bind_ok_iff, orFail_ok_iff, mapError_ok_iff, tailFrom,
      check_ok_iff] at h
    obtain ⟨_, _, behind, _, out, _, _, hlen, _, _, hout⟩ := h
    obtain rfl := Except.ok.inj hout
    cases hlen
  · rintro ⟨hbs, hcap⟩
    exact hs.tail hw hc hbs hcap

/-- What the reader of a range returns when there is room for it. -/
theorem Stores.cons (hs : Stores C J s bs) (hw : ∀ b ∈ bs, J.Writes b)
    (hc : ConsecutiveHeights bs) {blockSize : Nat} {fromH limit : U64} (hpos : 0 < fromH.toNat)
    (hle : fromH.toNat ≤ bs.length) (hlimit : limit ≠ 0#64)
    (hroom : limit.toNat * blockSize ≤ isizeMax) {endH : Nat}
    (hend : endH = min (fromH.toNat + limit.toNat) (2 ^ 64 - 1) - 1) (hfrom : fromH.toNat ≤ endH) :
    loadConsBlocksEpochs J blockSize s fromH limit =
      .ok ((bs.drop (fromH.toNat - 1)).take (endH + 1 - fromH.toNat)) := by
  have hbs : bs ≠ [] := List.ne_nil_of_length_pos (by omega)
  have hne : ¬ (fromH = 0#64 ∨ limit = 0#64) := by
    rintro (rfl | rfl)
    · exact absurd hpos (lt_irrefl _)
    · exact hlimit rfl
  have hone : (1#64).toNat = 1 := rfl
  have hendH : ((fromH.saturatingAdd limit).saturatingSub 1#64).toNat = endH := by
    rw [toNat_saturatingSub, toNat_saturatingAdd, hone, hend]
  have hrows := @Stores.consRows C J s bs hs hw hc
    ((fromH.saturatingAdd limit).saturatingSub 1#64) fromH [] (by rw [hendH]; omega) hpos 0 _
    (Nat.zero_add _) (.inl (by omega))
  rw [← rowsFor_range, hendH, List.nil_append] at hrows
  have hhead : (((bs.drop (fromH.toNat - 1)).take (endH + 1 - fromH.toNat)).head?.map
      fun b => b.hdr.height) = some fromH := by
    have hlt : fromH.toNat - 1 < bs.length := by omega
    have hblock := hc (fromH.toNat - 1) bs[fromH.toNat - 1] (List.getElem?_eq_getElem hlt)
    rw [List.head?_take, if_neg (by omega), List.head?_drop, List.getElem?_eq_getElem hlt,
      Option.map_some]
    refine congrArg some (BitVec.eq_of_toNat_eq ?_)
    rw [hblock]
    omega
  have hcons : consFrom J s (manifestFor C bs) fromH
      ((fromH.saturatingAdd limit).saturatingSub 1#64) =
        .ok ((bs.drop (fromH.toNat - 1)).take (endH + 1 - fromH.toNat)) := by
    have hepochs : (manifestFor C bs).epochs = rowsFor bs.length := rfl
    simp only [consFrom, hepochs, hrows, except_bind_ok_iff, check_ok_iff, hhead, Except.ok.injEq,
      exists_eq_left']
    exact ⟨(), trivial, trivial⟩
  have hschema : ensureEpochManSchema (manifestFor C bs).schemaV = .ok () := if_pos rfl
  rw [loadConsBlocksEpochs, if_neg hne, hs.manifest_some hbs]
  simp only [hschema, check, if_pos hroom, hcons, Except.mapError, bind, Except.bind]

/-- A range that is returned was asked for with room for it, and starts before its end. -/
theorem Stores.room_of_cons (hs : Stores C J s bs) (hw : ∀ b ∈ bs, J.Writes b)
    (hc : ConsecutiveHeights bs) {blockSize : Nat} {fromH limit : U64} (hpos : 0 < fromH.toNat)
    (hle : fromH.toNat ≤ bs.length) (hlimit : limit ≠ 0#64) {out : List Block}
    (h : loadConsBlocksEpochs J blockSize s fromH limit = .ok out) :
    limit.toNat * blockSize ≤ isizeMax ∧
      fromH.toNat ≤ min (fromH.toNat + limit.toNat) (2 ^ 64 - 1) - 1 := by
  have hbs : bs ≠ [] := List.ne_nil_of_length_pos (by omega)
  have hne : ¬ (fromH = 0#64 ∨ limit = 0#64) := by
    rintro (rfl | rfl)
    · exact absurd hpos (lt_irrefl _)
    · exact hlimit rfl
  have hone : (1#64).toNat = 1 := rfl
  have hendH : ((fromH.saturatingAdd limit).saturatingSub 1#64).toNat =
      min (fromH.toNat + limit.toNat) (2 ^ 64 - 1) - 1 := by
    rw [toNat_saturatingSub, toNat_saturatingAdd, hone]
  have hschema : ensureEpochManSchema (manifestFor C bs).schemaV = .ok () := if_pos rfl
  rw [loadConsBlocksEpochs, if_neg hne, hs.manifest_some hbs] at h
  simp only [hschema, except_bind_ok_iff, mapError_ok_iff, check_ok_iff, consFrom] at h
  obtain ⟨_, _, _, hroom, out', hrows, _, hhead, _⟩ := h
  refine ⟨hroom, ?_⟩
  by_contra hlt
  have hnil := @Stores.consRows C J s bs hs hw hc
    ((fromH.saturatingAdd limit).saturatingSub 1#64) fromH [] (by rw [hendH]; omega) hpos 0 _
    (Nat.zero_add _) (.inl (by omega))
  have hzero : min (fromH.toNat + limit.toNat) (2 ^ 64 - 1) - 1 + 1 - fromH.toNat = 0 := by omega
  rw [← rowsFor_range, hendH, hzero, List.take_zero, List.append_nil] at hnil
  rw [show (manifestFor C bs).epochs = rowsFor bs.length from rfl, hnil] at hrows
  obtain rfl := Except.ok.inj hrows
  cases hhead

/-- A range is returned up to its end or the last block when there is room for as many blocks as
are asked for and the end is computed without saturation. -/
theorem Stores.cons_iff (hs : Stores C J s bs) (hw : ∀ b ∈ bs, J.Writes b)
    (hc : ConsecutiveHeights bs) {blockSize : Nat} {fromH limit : U64} (hpos : 0 < fromH.toNat)
    (hle : fromH.toNat ≤ bs.length) (hlimit : limit ≠ 0#64) :
    loadConsBlocksEpochs J blockSize s fromH limit =
        .ok ((bs.drop (fromH.toNat - 1)).take limit.toNat) ↔
      limit.toNat * blockSize ≤ isizeMax ∧
        (bs.length + 1 < 2 ^ 64 ∨ fromH.toNat + limit.toNat < 2 ^ 64) := by
  have hn := hc.length_lt
  have hlimit' : 0 < limit.toNat := by
    rw [Nat.pos_iff_ne_zero]
    exact fun h => hlimit (BitVec.eq_of_toNat_eq h)
  obtain ⟨endH, hend⟩ : ∃ endH, endH = min (fromH.toNat + limit.toNat) (2 ^ 64 - 1) - 1 := ⟨_, rfl⟩
  constructor
  · intro h
    obtain ⟨hroom, hfrom⟩ := hs.room_of_cons hw hc hpos hle hlimit h
    rw [hs.cons hw hc hpos hle hlimit hroom hend (hend ▸ hfrom), Except.ok.injEq] at h
    have hlen := congrArg List.length h
    rw [List.length_take, List.length_take, List.length_drop] at hlen
    exact ⟨hroom, by omega⟩
  · rintro ⟨hroom, hfit⟩
    rw [hs.cons hw hc hpos hle hlimit hroom hend (by omega), Except.ok.injEq]
    by_cases hexact : fromH.toNat + limit.toNat < 2 ^ 64
    · congr 1
      omega
    · rw [List.take_of_length_le, List.take_of_length_le]
      · rw [List.length_drop]
        omega
      · rw [List.length_drop]
        omega

/-- On the store that successful appends of consecutive blocks wrote, the readers of all blocks and
of one height return what they should; the reader of the last blocks does when there is a block and
the cap is not zero, the reader of a range when there is room for its limit and its end is below
the last height of all. -/
theorem readers_agree {blockSize : Nat} (hw : ∀ b ∈ bs, J.Writes b) (hc : ConsecutiveHeights bs)
    (hrun : Run (AppendStep C J) EpochStore.empty bs s) :
    loadBlocksFromEpochs J s = .ok bs ∧
      (∀ tailCap : U64,
        loadTailBlocks J s tailCap = .ok (bs.drop (bs.length - tailCap.toNat)) ↔
          bs ≠ [] ∧ tailCap ≠ 0#64) ∧
      (∀ fromH limit : U64, 0 < fromH.toNat → fromH.toNat ≤ bs.length → limit ≠ 0#64 →
        (loadConsBlocksEpochs J blockSize s fromH limit =
            .ok ((bs.drop (fromH.toNat - 1)).take limit.toNat) ↔
          limit.toNat * blockSize ≤ isizeMax ∧
            (bs.length + 1 < 2 ^ 64 ∨ fromH.toNat + limit.toNat < 2 ^ 64))) ∧
      ∀ height : U64, 0 < height.toNat → height.toNat ≤ bs.length →
        loadBlockAtHeight J s height = .ok bs[height.toNat - 1]? := by
  have hs := run_stores hrun hw hc
  refine ⟨hs.load hw hc, hs.tail_iff hw hc, fun fromH limit hpos hle hlimit => ?_,
    fun height hpos hle => hs.height hw hc hpos hle⟩
  exact hs.cons_iff hw hc hpos hle hlimit

end Readers

namespace TornAppend

theorem writes_one : ∀ c ∈ [blockAt 1#64], json.Writes c := by
  intro c hc
  exact writes c (List.mem_append_left _ hc)

theorem consecutive_one : ConsecutiveHeights [blockAt 1#64] :=
  consecutive.of_append

/-- The store with the first block. -/
def oneBlock : EpochStore :=
  EpochStore.empty.applyAll (appendWrites (.ofTables [] []) json [] (blockAt 1#64))

theorem appended_one :
    Run (AppendStep (.ofTables [] []) json) EpochStore.empty [blockAt 1#64] oneBlock := by
  have hstores : Stores (.ofTables [] []) json EpochStore.empty [] := stores_empty
  have hstep : AppendStep (.ofTables [] []) json EpochStore.empty (blockAt 1#64) oneBlock :=
    appendStep_of_readable hstores (fun _ h => absurd h List.not_mem_nil) consecutive_one
      (nextReadable_nil json)
  exact .single hstep

end TornAppend

open TornAppend in
/-- The readers on a store of one block. -/
theorem readers_agree_oneBlock :
    loadBlocksFromEpochs json oneBlock = .ok [blockAt 1#64] ∧
      loadTailBlocks json oneBlock 5#64 = .ok [blockAt 1#64] ∧
      loadConsBlocksEpochs json 208 oneBlock 1#64 5#64 = .ok [blockAt 1#64] ∧
      loadBlockAtHeight json oneBlock 1#64 = .ok (some (blockAt 1#64)) := by
  obtain ⟨hall, htail, hcons, hheight⟩ :=
    @readers_agree _ _ _ _ 208 writes_one consecutive_one appended_one
  refine ⟨hall, (htail 5#64).mpr ⟨by simp, by decide⟩, ?_, hheight 1#64 (by decide) (by decide)⟩
  exact (hcons 1#64 5#64 (by decide) (by decide) (by decide)).mpr ⟨by decide, .inl (by decide)⟩

open TornAppend in
/-- A cap of zero makes the reader of the last blocks panic, and the largest limit the reader of a
range. -/
theorem readers_panic :
    Run (AppendStep (.ofTables [] []) json) EpochStore.empty [blockAt 1#64] oneBlock ∧
      loadTailBlocks json oneBlock 0#64 = .error .panic ∧
      ∀ blockSize, 0 < blockSize →
        loadConsBlocksEpochs json blockSize oneBlock 1#64 (allOnes 64) = .error .panic := by
  have hs := run_stores appended_one writes_one consecutive_one
  have hman := hs.manifest_some (by simp)
  refine ⟨appended_one, ?_, fun blockSize hsize => ?_⟩
  · rw [loadTailBlocks, hman]
    rfl
  · have hroom : ¬ (allOnes 64).toNat * blockSize ≤ isizeMax := by
      have hle := Nat.le_mul_of_pos_right (allOnes 64).toNat hsize
      have hmax : isizeMax < (allOnes 64).toNat := by decide
      omega
    have hne : ¬ ((1#64 : U64) = 0#64 ∨ (allOnes 64) = 0#64) := by decide
    rw [loadConsBlocksEpochs, if_neg hne, hman]
    simp only [check, if_neg hroom]
    rfl

end Pwm
