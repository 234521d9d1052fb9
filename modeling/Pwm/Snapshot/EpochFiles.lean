import Pwm.Ledger.StateRoot
import Pwm.Snapshot.EpochStore

/-!
# What the epoch files hold

The store of a list of blocks, what an append does to it and what is loaded
from it. An append reads the last line of the file it goes on with, and can do
so as long as that line is seen in the window at the end of the file.
-/

namespace Pwm

open BitVec Attempt LineFile

/-- The JSON text of a block: an object on one line, from which the block is read back. -/
structure BlockJson.Writes (J : BlockJson) (b : Block) : Prop where
  reads : J.ofText (J.toText b) = .ok b
  object : ∃ inner, (J.toText b).toList = '\x7b' :: inner ++ ['\x7d']
  single : newline ∉ strBytes (J.toText b)

/-- The line of a block, without its end. -/
def BlockJson.line (J : BlockJson) (b : Block) : List U8 :=
  strBytes (J.toText b)

/-- The file with the lines of these blocks. -/
def blockFile (J : BlockJson) (bs : List Block) : List U8 :=
  ofLines newline (bs.map J.line)

section Lines

variable {J : BlockJson} {b : Block} {bs : List Block}

theorem utf8Text_strBytes (s : String) : utf8Text (strBytes s) = some s := by
  have harray : (⟨((strBytes s).map UInt8.ofBitVec).toArray⟩ : ByteArray) = s.toByteArray := by
    rw [strBytes_eq_data, List.map_map]
    exact ByteArray.ext (by simp [Function.comp_def])
  rw [utf8Text, harray, String.fromUTF8?, dif_pos s.isValidUTF8]
  rfl

/-- The bytes of an object are those of its pieces, between the braces. -/
theorem strBytes_object (pieces : List String) :
    strBytes (String.ofList ('\x7b' :: pieces.flatMap String.toList ++ ['\x7d'])) =
      0x7b#8 :: pieces.flatMap (fun s => s.toByteArray.data.toList.map UInt8.toBitVec) ++
        [0x7d#8] := by
  have hpieces : pieces.flatMap (fun s => s.toByteArray.data.toList.map UInt8.toBitVec) =
      (pieces.flatMap String.toList).flatMap
        fun c => (String.utf8EncodeChar c).map UInt8.toBitVec := by
    rw [List.flatMap_assoc]
    exact List.flatMap_congr fun s _ => (strBytes_eq_data s).symm
  rw [strBytes, String.toList_ofList, hpieces, List.flatMap_append, List.flatMap_cons]
  rfl

/-- The line of a block ends in a brace. -/
theorem BlockJson.Writes.line_eq (h : J.Writes b) : ∃ init, J.line b = init ++ [0x7d#8] := by
  obtain ⟨inner, hinner⟩ := h.object
  refine ⟨('\x7b' :: inner).flatMap fun c => (String.utf8EncodeChar c).map UInt8.toBitVec, ?_⟩
  rw [line, strBytes, hinner, List.flatMap_append]
  rfl

theorem BlockJson.Writes.fit (h : J.Writes b) : Fit newline isAsciiWhitespace (J.line b) := by
  obtain ⟨init, hinit⟩ := h.line_eq
  exact ⟨h.single, by decide, init, 0x7d#8, hinit, by decide⟩

theorem BlockJson.Writes.stripCr_line (h : J.Writes b) : stripCr (J.line b) = J.line b := by
  obtain ⟨init, hinit⟩ := h.line_eq
  rw [stripCr, hinit, if_neg (by simp)]

theorem BlockJson.Writes.not_blank (h : J.Writes b) :
    (J.toText b).toList.all isWhitespace = false := by
  obtain ⟨inner, hinner⟩ := h.object
  rw [hinner, List.cons_append, List.all_cons]
  have hbrace : isWhitespace '\x7b' = false := by decide
  rw [hbrace, Bool.false_and]

theorem mapM_lineText (h : ∀ b ∈ bs, J.Writes b) (i : Nat) :
    ((bs.map J.line).zipIdx i).mapM lineText = .ok (bs.map J.toText) := by
  induction bs generalizing i with
  | nil => rfl
  | cons b bs ih =>
      have hline : lineText (J.line b, i) = .ok (J.toText b) := by
        rw [lineText, (h b List.mem_cons_self).stripCr_line, BlockJson.line, utf8Text_strBytes]
      rw [List.map_cons, List.zipIdx_cons, List.mapM_cons, hline,
        ih fun c hc => h c (List.mem_cons_of_mem b hc)]
      rfl

theorem readJsonlLines_blockFile (h : ∀ b ∈ bs, J.Writes b) :
    readJsonlLines (some (blockFile J bs)) = .ok (bs.map J.toText) := by
  have hlines : lines newline (blockFile J bs) = bs.map J.line := by
    refine lines_ofLines fun l hl => ?_
    obtain ⟨b, hb, rfl⟩ := List.mem_map.mp hl
    exact (h b hb).single
  have hkeep : (bs.map J.toText).filter (fun text => ! text.toList.all isWhitespace) =
      bs.map J.toText := by
    refine List.filter_eq_self.mpr fun text htext => ?_
    obtain ⟨b, hb, rfl⟩ := List.mem_map.mp htext
    rw [(h b hb).not_blank, Bool.not_false]
  rw [readJsonlLines, hlines, mapM_lineText h]
  exact congrArg Except.ok hkeep

theorem decodeLines_toText (fileName : String) (h : ∀ b ∈ bs, J.Writes b) :
    decodeLines J fileName (bs.map J.toText) = .ok bs := by
  have hblocks : ∀ i, ((bs.map J.toText).zipIdx i).mapM (lineBlock J fileName) = .ok bs := by
    induction bs with
    | nil => exact fun _ => rfl
    | cons b bs ih =>
        intro i
        have hblock : lineBlock J fileName (J.toText b, i) = .ok b := by
          rw [lineBlock, (h b List.mem_cons_self).reads]
        rw [List.map_cons, List.zipIdx_cons, List.mapM_cons, hblock,
          ih fun c hc => h c (List.mem_cons_of_mem b hc)]
        rfl
  exact hblocks 0

/-- Whether the last line of a file of blocks is seen to be one. -/
def LastVisible (J : BlockJson) (bs : List Block) : Prop :=
  ∀ b ∈ bs.getLast?, Visible tailWindow (blockFile J bs.dropLast) (J.line b)

theorem blockFile_concat (J : BlockJson) (bs : List Block) (b : Block) :
    blockFile J (bs ++ [b]) = blockFile J bs ++ J.line b ++ [newline] := by
  rw [blockFile, List.map_append, List.map_singleton, ofLines_append, ofLines_singleton,
    ← List.append_assoc, blockFile]

theorem readLastBlockHeight_concat (fileName : String) (h : J.Writes b)
    (hvisible : LastVisible J (bs ++ [b])) :
    readLastBlockHeight J fileName (some (blockFile J (bs ++ [b]))) = .ok (some b.hdr.height) := by
  have hlast := hvisible b (by simp)
  rw [List.dropLast_concat] at hlast
  have hread := lastLine_of_visible (closed_ofLines (bs.map J.line)) h.fit hlast
  -- the window is kept as a name: it is too large to compute with
  obtain ⟨window, hwindow⟩ : ∃ window, window = tailWindow := ⟨_, rfl⟩
  rw [← hwindow] at hread
  rw [readLastBlockHeight.eq_def, blockFile_concat, ← hwindow]
  simp only [blockFile] at hread ⊢
  simp only [hread]
  simp only [BlockJson.line, utf8Text_strBytes, h.reads]

theorem readLastBlockHeight_error (fileName : String) (h : J.Writes b)
    (hvisible : ¬ LastVisible J (bs ++ [b])) :
    ∃ e, readLastBlockHeight J fileName (some (blockFile J (bs ++ [b]))) = .error e := by
  have hlast : ¬ Visible tailWindow (blockFile J bs) (J.line b) := by
    simpa [LastVisible] using hvisible
  have hread := lastLine_of_not_visible h.fit hlast
  obtain ⟨window, hwindow⟩ : ∃ window, window = tailWindow := ⟨_, rfl⟩
  rw [← hwindow] at hread
  rw [readLastBlockHeight.eq_def, blockFile_concat, ← hwindow]
  simp only [hread]
  exact ⟨_, rfl⟩

end Lines

/-! ## Rows of the manifest -/

/-- The blocks of one epoch file. -/
def epochBlocks (bs : List Block) (e : Nat) : List Block :=
  (bs.drop (1000 * e)).take 1000

/-- The number of files for this many blocks. -/
def epochCount (n : Nat) : Nat :=
  (n + 999) / 1000

/-- The row of one file when there are `n` blocks. -/
def rowAt (n e : Nat) : EpochMeta :=
  ⟨BitVec.ofNat 64 e, BitVec.ofNat 64 (1000 * e + 1), BitVec.ofNat 64 (min (1000 * (e + 1)) n),
    epochFileName (BitVec.ofNat 64 e)⟩

def rowsFor (n : Nat) : List EpochMeta :=
  (List.range (epochCount n)).map (rowAt n)

def manifestFor (C : Crypto) (bs : List Block) : EpochManifest :=
  mkManifest (BitVec.ofNat 64 bs.length)
    ((bs.getLast?.map fun b => hexEncode (hdrHash C b.hdr)).getD "") (rowsFor bs.length)

/-- The store of these blocks. -/
structure Stores (C : Crypto) (J : BlockJson) (s : EpochStore) (bs : List Block) : Prop where
  files : ∀ eidx : U64, s.files (epochFileName eidx) =
    if 1000 * eidx.toNat < bs.length then some (blockFile J (epochBlocks bs eidx.toNat)) else none
  names : ∀ fileName bytes, s.files fileName = some bytes → ∃ eidx, fileName = epochFileName eidx
  manifest : s.manifest = if bs = [] then none else some (manifestFor C bs)

/-- The blocks have the heights one, two, three and so on. -/
def ConsecutiveHeights (bs : List Block) : Prop :=
  ∀ i b, bs[i]? = some b → b.hdr.height.toNat = i + 1

section Rows

variable {C : Crypto} {J : BlockJson} {s : EpochStore} {bs : List Block} {b : Block} {n : Nat}

theorem epochFileName_injective : Function.Injective epochFileName := by
  intro x y h
  have hlist := congrArg String.toList h
  simp only [epochFileName, String.toList_append] at hlist
  have hdigits := List.append_cancel_left (List.append_cancel_right hlist)
  simp only [Nat.toString_eq_repr, Nat.toList_repr] at hdigits
  have hvalue := congrArg (fun cs => Nat.ofDigitChars 10 cs 0) hdigits
  simp only [Nat.ofDigitChars_ten_toDigits] at hvalue
  exact BitVec.eq_of_toNat_eq hvalue

theorem epochBlocks_flatMap (bs : List Block) (m : Nat) :
    (List.range m).flatMap (epochBlocks bs) = bs.take (1000 * m) := by
  induction m with
  | zero => simp
  | succ m ih =>
      rw [List.range_succ, List.flatMap_append, ih, List.flatMap_singleton, epochBlocks, Nat.mul_succ,
        List.take_add]

theorem ConsecutiveHeights.length_lt (h : ConsecutiveHeights bs) : bs.length < 2 ^ 64 := by
  cases hlast : bs.getLast? with
  | none => simp [List.getLast?_eq_none_iff.mp hlast]
  | some b =>
      have hpos : 0 < bs.length := by
        cases bs with
        | nil => cases hlast
        | cons c cs => simp
      rw [List.getLast?_eq_getElem?] at hlast
      have hheight := h _ _ hlast
      have hlt := b.hdr.height.isLt
      omega

theorem ConsecutiveHeights.of_append {cs : List Block} (h : ConsecutiveHeights (bs ++ cs)) :
    ConsecutiveHeights bs := by
  intro i b hi
  refine h i b ?_
  rw [List.getElem?_append_left (List.getElem?_eq_some_iff.mp hi).1, hi]

theorem ConsecutiveHeights.last (h : ConsecutiveHeights (bs ++ [b])) :
    b.hdr.height.toNat = bs.length + 1 :=
  h bs.length b (by simp)

theorem toNat_ofNat_of_lt (h : n < 2 ^ 64) : (BitVec.ofNat 64 n).toNat = n := by
  rw [BitVec.toNat_ofNat, Nat.mod_eq_of_lt h]

theorem Stores.loadRows (hs : Stores C J s bs) (hw : ∀ b ∈ bs, J.Writes b)
    (hn : bs.length < 2 ^ 64) {es : List Nat} (hes : ∀ e ∈ es, 1000 * e < bs.length) :
    loadRows J s (es.map (rowAt bs.length)) = .ok (es.flatMap (epochBlocks bs)) := by
  induction es with
  | nil => rfl
  | cons e es ih =>
      have he := hes e List.mem_cons_self
      have hfile := hs.files (BitVec.ofNat 64 e)
      rw [toNat_ofNat_of_lt (by omega), if_pos he] at hfile
      have hblocks : ∀ b ∈ epochBlocks bs e, J.Writes b := fun b hb =>
        hw b (List.mem_of_mem_drop (List.mem_of_mem_take hb))
      rw [List.map_cons, Pwm.loadRows, ih fun e' he' => hes e' (List.mem_cons_of_mem e he')]
      simp only [rowAt, hfile, readJsonlLines_blockFile hblocks]
      rw [List.flatMap_cons]
      exact congrArg (fun r => r >>= fun blocks => Except.ok (blocks ++ _))
        (decodeLines_toText (epochFileName (BitVec.ofNat 64 e)) hblocks)

theorem checkHeights_ok {i : Nat} (hn : i + bs.length < 2 ^ 64)
    (h : ∀ k b, bs[k]? = some b → b.hdr.height.toNat = i + k + 1) :
    checkHeights i bs = .ok () := by
  induction bs generalizing i with
  | nil => rfl
  | cons b bs ih =>
      rw [List.length_cons] at hn
      have hb : b.hdr.height = BitVec.ofNat 64 i + 1#64 := by
        refine BitVec.eq_of_toNat_eq ?_
        rw [h 0 b rfl, BitVec.toNat_add, toNat_ofNat_of_lt (by omega)]
        simp only [BitVec.toNat_ofNat]
        omega
      rw [checkHeights, if_neg (not_not.mpr hb)]
      refine ih (by omega) fun k c hk => ?_
      rw [h (k + 1) c hk]
      omega

/-- A store is loaded into its blocks. -/
theorem Stores.load (hs : Stores C J s bs) (hw : ∀ b ∈ bs, J.Writes b)
    (hc : ConsecutiveHeights bs) : loadBlocksFromEpochs J s = .ok bs := by
  have hn := hc.length_lt
  rw [loadBlocksFromEpochs, hs.manifest]
  by_cases hbs : bs = []
  · rw [if_pos hbs, hbs]
  · have hpos := List.length_pos_of_ne_nil hbs
    have hrows : Pwm.loadRows J s (rowsFor bs.length) = .ok bs := by
      have hes : ∀ e ∈ List.range (epochCount bs.length), 1000 * e < bs.length := by
        intro e he
        rw [List.mem_range, epochCount] at he
        omega
      rw [rowsFor, hs.loadRows hw hn hes, epochBlocks_flatMap, List.take_of_length_le]
      rw [epochCount]
      omega
    have hcanonical : BitVec.ofNat 64 bs.length ≠ 0#64 := by
      intro h
      have hnat := congrArg BitVec.toNat h
      rw [toNat_ofNat_of_lt hn] at hnat
      simp only [BitVec.toNat_ofNat] at hnat
      omega
    have hheights : checkHeights 0 bs = .ok () := by
      refine checkHeights_ok (by omega) fun k b hk => ?_
      rw [hc k b hk, Nat.zero_add]
    have hschema : ensureEpochManSchema (manifestFor C bs).schemaV = .ok () := if_pos rfl
    have hman : (manifestFor C bs).canonicalH = BitVec.ofNat 64 bs.length := rfl
    have hepochs : Pwm.loadRows J s (manifestFor C bs).epochs = .ok bs := hrows
    rw [if_neg hbs]
    simp only [hschema, hman, hepochs, bind, Except.bind]
    rw [if_neg hcanonical, if_neg (not_not.mpr (toNat_ofNat_of_lt hn).symm), hheights]
    rfl

end Rows

/-! ## Appending a block -/

/-- The two writes of an append to a store of these blocks. -/
def appendWrites (C : Crypto) (J : BlockJson) (bs : List Block) (b : Block) : List StoreWrite :=
  [.appendLine (epochFileName (BitVec.ofNat 64 (bs.length / 1000))) (J.line b ++ [newline]),
    .replaceManifest (manifestFor C (bs ++ [b]))]

/-- The blocks of the file that the next block goes into. -/
def openBlocks (bs : List Block) : List Block :=
  epochBlocks bs (bs.length / 1000)

section Append

variable {C : Crypto} {J : BlockJson} {s : EpochStore} {bs : List Block} {b : Block} {n : Nat}

theorem replaceRow_append {row : EpochMeta} {ms ms' : List EpochMeta}
    (h : ∀ m ∈ ms, m.idx ≠ row.idx) :
    replaceRow row (ms ++ ms') = (replaceRow row ms').map (ms ++ ·) := by
  induction ms with
  | nil => simp
  | cons m ms ih =>
      rw [List.cons_append, replaceRow, if_neg (h m List.mem_cons_self),
        ih fun m' hm' => h m' (List.mem_cons_of_mem m hm'), Option.map_map]
      rfl

theorem rowAt_full {e : Nat} (h : 1000 * (e + 1) ≤ n) : rowAt (n + 1) e = rowAt n e := by
  rw [rowAt, rowAt, Nat.min_eq_left h, Nat.min_eq_left (h.trans (Nat.le_succ n))]

theorem rows_full {k : Nat} (h : 1000 * k ≤ n) :
    (List.range k).map (rowAt n) = (List.range k).map (rowAt (n + 1)) := by
  refine List.map_congr_left fun e he => ?_
  have hlt := List.mem_range.mp he
  exact (rowAt_full (by omega)).symm

theorem rowAt_idx_ne {e e' : Nat} (hn : n < 2 ^ 64) (he : e < n) (he' : e' < n) (hne : e ≠ e')
    (m : Nat) : (rowAt n e).idx ≠ (rowAt m e').idx := by
  intro h
  have hnat := congrArg BitVec.toNat h
  simp only [rowAt] at hnat
  rw [toNat_ofNat_of_lt (by omega), toNat_ofNat_of_lt (by omega)] at hnat
  exact hne hnat

/-- The rows with one more block. -/
theorem putRow_rowsFor (hn : n + 1 < 2 ^ 64) :
    putRow (rowAt (n + 1) (n / 1000)) (rowsFor n) = rowsFor (n + 1) := by
  have hcount : epochCount (n + 1) = n / 1000 + 1 := by
    rw [epochCount]
    omega
  have hafter : rowsFor (n + 1) =
      (List.range (n / 1000)).map (rowAt n) ++ [rowAt (n + 1) (n / 1000)] := by
    rw [rowsFor, hcount, List.range_succ, List.map_append, List.map_singleton,
      ← @rows_full n _ (by omega)]
  have hother : ∀ m ∈ (List.range (n / 1000)).map (rowAt n),
      m.idx ≠ (rowAt (n + 1) (n / 1000)).idx := by
    intro m hm
    obtain ⟨e, he, rfl⟩ := List.mem_map.mp hm
    have hlt := List.mem_range.mp he
    by_cases hzero : n = 0
    · omega
    · exact rowAt_idx_ne (by omega) (by omega) (by omega) (by omega) _
  rw [hafter, putRow]
  by_cases hfull : n % 1000 = 0
  · -- the block opens a file of its own
    have hbefore : rowsFor n = (List.range (n / 1000)).map (rowAt n) := by
      rw [rowsFor, epochCount]
      congr 2
      omega
    have hnone := @replaceRow_append _ _ [] hother
    rw [List.append_nil, replaceRow, Option.map_none] at hnone
    rw [hbefore, hnone, Option.getD_none]
    refine List.mergeSort_of_pairwise ?_
    -- the indices of the rows grow
    have hsorted : ∀ {e e' : Nat} (m m' : Nat), e ≤ e' → e' ≤ n / 1000 →
        decide ((rowAt m e).idx ≤ (rowAt m' e').idx) = true := by
      intro e e' m m' hle hlt
      refine decide_eq_true (BitVec.le_def.mpr ?_)
      simp only [rowAt]
      rw [toNat_ofNat_of_lt (by omega), toNat_ofNat_of_lt (by omega)]
      exact hle
    rw [List.pairwise_append]
    refine ⟨?_, List.pairwise_singleton _ _, ?_⟩
    · rw [List.pairwise_map]
      refine List.pairwise_lt_range.imp_of_mem fun {e e'} _ he' hlt => ?_
      have hbound := List.mem_range.mp he'
      exact hsorted n n (by omega) (by omega)
    · intro m hm m' hm'
      obtain ⟨e, he, rfl⟩ := List.mem_map.mp hm
      have hbound := List.mem_range.mp he
      rw [List.mem_singleton.mp hm']
      exact hsorted n (n + 1) (by omega) le_rfl
  · have hbefore : rowsFor n = (List.range (n / 1000)).map (rowAt n) ++ [rowAt n (n / 1000)] := by
      have hopen : epochCount n = n / 1000 + 1 := by
        rw [epochCount]
        omega
      rw [rowsFor, hopen, List.range_succ, List.map_append, List.map_singleton]
    have hidx : (rowAt n (n / 1000)).idx = (rowAt (n + 1) (n / 1000)).idx := rfl
    rw [hbefore, replaceRow_append hother, replaceRow, if_pos hidx]
    rfl

theorem epochIdx_next (hheight : b.hdr.height.toNat = n + 1) :
    epochIdx b.hdr.height = .ok (BitVec.ofNat 64 (n / 1000)) := by
  have hne : b.hdr.height ≠ 0#64 := by
    intro h
    rw [h] at hheight
    simp at hheight
  have hone : (1#64).toNat = 1 := rfl
  have hsub : (b.hdr.height - 1#64).toNat = n := by
    rw [BitVec.toNat_sub_of_le, hheight, hone, Nat.add_sub_cancel]
    rw [BitVec.le_def, hheight, hone]
    omega
  rw [epochIdx, if_neg hne]
  refine congrArg Except.ok (BitVec.eq_of_toNat_eq ?_)
  rw [BitVec.toNat_udiv, hsub, toNat_ofNat_of_lt (by omega)]
  rfl

theorem epochRange_next (hn : n + 1 < 2 ^ 64) :
    (epochRange (BitVec.ofNat 64 (n / 1000))).firstH = BitVec.ofNat 64 (1000 * (n / 1000) + 1) := by
  have hspan : epochSpan.toNat = 1000 := rfl
  have hone : (1#64).toNat = 1 := rfl
  have hmul : ((BitVec.ofNat 64 (n / 1000)).saturatingMul epochSpan).toNat = 1000 * (n / 1000) := by
    rw [BitVec.saturatingMul, hspan, toNat_ofNat_of_lt (by omega), if_pos (by omega),
      BitVec.toNat_mul, hspan, toNat_ofNat_of_lt (by omega)]
    omega
  refine BitVec.eq_of_toNat_eq ?_
  rw [epochRange, BitVec.toNat_saturatingAdd, hmul, hone, toNat_ofNat_of_lt (by omega)]
  omega

theorem openBlocks_eq (bs : List Block) :
    openBlocks bs = bs.drop (1000 * (bs.length / 1000)) := by
  rw [openBlocks, epochBlocks, List.take_of_length_le]
  rw [List.length_drop]
  omega

theorem openBlocks_concat (h : bs.length % 1000 ≠ 0) :
    ∃ cs c, openBlocks bs = cs ++ [c] ∧ bs[bs.length - 1]? = some c := by
  have hlast : (openBlocks bs).getLast? = bs[bs.length - 1]? := by
    rw [openBlocks_eq, List.getLast?_drop, if_neg (by omega), List.getLast?_eq_getElem?]
  have hlt : bs.length - 1 < bs.length := by
    have hpos : bs.length ≠ 0 := fun hzero => h (by rw [hzero])
    omega
  have hsome : bs[bs.length - 1]? = some bs[bs.length - 1] := List.getElem?_eq_getElem hlt
  rw [hsome] at hlast
  obtain ⟨cs, hcs⟩ := List.getLast?_eq_some_iff.mp hlast
  exact ⟨cs, _, hcs, hsome⟩

/-- Whether the next append can read the last line of the file it goes on with. -/
def NextReadable (J : BlockJson) (bs : List Block) : Prop :=
  LastVisible J (openBlocks bs)

theorem Stores.openFile (hs : Stores C J s bs) (hn : bs.length < 2 ^ 64) :
    s.files (epochFileName (BitVec.ofNat 64 (bs.length / 1000))) =
      if bs.length % 1000 = 0 then none else some (blockFile J (openBlocks bs)) := by
  rw [hs.files, toNat_ofNat_of_lt (by omega), ← openBlocks]
  by_cases hfull : bs.length % 1000 = 0
  · rw [if_pos hfull, if_neg (by omega)]
  · rw [if_neg hfull, if_pos (by omega)]

/-- The height of the last block in the file that the next block goes into. -/
theorem Stores.readLast (hs : Stores C J s bs) (hw : ∀ b ∈ bs, J.Writes b)
    (hc : ConsecutiveHeights bs) (hv : NextReadable J bs) :
    readLastBlockHeight J (epochFileName (BitVec.ofNat 64 (bs.length / 1000)))
      (s.files (epochFileName (BitVec.ofNat 64 (bs.length / 1000)))) =
    .ok (if bs.length % 1000 = 0 then none else some (BitVec.ofNat 64 bs.length)) := by
  have hn := hc.length_lt
  rw [hs.openFile hn]
  by_cases hfull : bs.length % 1000 = 0
  · rw [if_pos hfull, if_pos hfull]
    rfl
  · obtain ⟨cs, c, hopen, hlast⟩ := openBlocks_concat hfull
    have hc' := hc _ _ hlast
    have hheight : c.hdr.height = BitVec.ofNat 64 bs.length := by
      refine BitVec.eq_of_toNat_eq ?_
      rw [hc', toNat_ofNat_of_lt hn]
      omega
    rw [NextReadable, hopen] at hv
    rw [if_neg hfull, if_neg hfull, hopen,
      readLastBlockHeight_concat _ (hw c (List.mem_of_getElem? hlast)) hv, hheight]

theorem Stores.readLast_error (hs : Stores C J s bs) (hw : ∀ b ∈ bs, J.Writes b)
    (hn : bs.length < 2 ^ 64) (hv : ¬ NextReadable J bs) :
    ∃ e, readLastBlockHeight J (epochFileName (BitVec.ofNat 64 (bs.length / 1000)))
      (s.files (epochFileName (BitVec.ofNat 64 (bs.length / 1000)))) = .error e := by
  have hfull : bs.length % 1000 ≠ 0 := by
    intro hfull
    refine hv fun b hb => ?_
    have hnil : openBlocks bs = [] := by
      rw [openBlocks_eq]
      exact List.drop_eq_nil_of_le (by omega)
    rw [hnil] at hb
    cases hb
  obtain ⟨cs, c, hopen, hlast⟩ := openBlocks_concat hfull
  rw [NextReadable, hopen] at hv
  rw [hs.openFile hn, if_neg hfull, hopen]
  exact readLastBlockHeight_error _ (hw c (List.mem_of_getElem? hlast)) hv

theorem find_rowsFor (hn : n < 2 ^ 64) (hopen : n % 1000 ≠ 0) :
    (rowsFor n).find? (fun m => decide (m.idx = BitVec.ofNat 64 (n / 1000))) =
      some (rowAt n (n / 1000)) := by
  have hcount : epochCount n = n / 1000 + 1 := by
    rw [epochCount]
    omega
  have hnone : ((List.range (n / 1000)).map (rowAt n)).find?
      (fun m => decide (m.idx = BitVec.ofNat 64 (n / 1000))) = none := by
    refine List.find?_eq_none.mpr fun m hm => ?_
    obtain ⟨e, he, rfl⟩ := List.mem_map.mp hm
    have hlt := List.mem_range.mp he
    have hne := rowAt_idx_ne hn (show e < n by omega) (show n / 1000 < n by omega) (by omega) n
    exact fun h => hne (of_decide_eq_true h)
  rw [rowsFor, hcount, List.range_succ, List.map_append, List.find?_append, hnone, Option.none_or,
    List.map_singleton, List.find?_singleton]
  exact if_pos (decide_eq_true rfl)

theorem logWrite_ok (w : StoreWrite) (ws : List StoreWrite) :
    logWrite w ws = .ok () (ws ++ [w]) := rfl

/-- The manifest that an append starts from. -/
theorem Stores.manifest_extend (hs : Stores C J s bs) (hn : bs.length + 1 < 2 ^ 64)
    (hheight : b.hdr.height = BitVec.ofNat 64 (bs.length + 1)) :
    (s.manifest.getD (mkManifest b.hdr.height (hexEncode (hdrHash C b.hdr)) [])).extend b.hdr.height
        (hexEncode (hdrHash C b.hdr)) (rowAt (bs.length + 1) (bs.length / 1000)) =
      manifestFor C (bs ++ [b]) := by
  have htip : ((bs ++ [b]).getLast?.map fun b => hexEncode (hdrHash C b.hdr)).getD "" =
      hexEncode (hdrHash C b.hdr) := by
    simp
  have hextend : ∀ man : EpochManifest, man.schemaV = epochManSchemaCur →
      man.epochs = rowsFor bs.length →
      man.extend b.hdr.height (hexEncode (hdrHash C b.hdr))
        (rowAt (bs.length + 1) (bs.length / 1000)) = manifestFor C (bs ++ [b]) := by
    intro man hschema hepochs
    rw [EpochManifest.extend, manifestFor, mkManifest, htip, hschema, hepochs, putRow_rowsFor hn,
      hheight, List.length_append, List.length_singleton]
  rw [hs.manifest]
  by_cases hbs : bs = []
  · subst hbs
    exact hextend _ rfl rfl
  · rw [if_neg hbs]
    exact hextend _ rfl rfl

/-- Where the row of the next block's file starts. -/
theorem Stores.rowFirstH_next (hs : Stores C J s bs) (hn : bs.length + 1 < 2 ^ 64) (h : U64)
    (tipHash : String) :
    rowFirstH (s.manifest.getD (mkManifest h tipHash []))
      (epochRange (BitVec.ofNat 64 (bs.length / 1000)))
      (if bs.length % 1000 = 0 then none else some (BitVec.ofNat 64 bs.length)) =
    .ok (BitVec.ofNat 64 (1000 * (bs.length / 1000) + 1)) := by
  by_cases hfull : bs.length % 1000 = 0
  · rw [if_pos hfull, rowFirstH, epochRange_next hn]
  · have hbs : bs ≠ [] := by
      rintro rfl
      exact hfull rfl
    have hfind : (manifestFor C bs).epochs.find? (fun m =>
        decide (m.idx = (epochRange (BitVec.ofNat 64 (bs.length / 1000))).idx)) =
        some (rowAt bs.length (bs.length / 1000)) :=
      find_rowsFor (by omega) hfull
    rw [if_neg hfull, rowFirstH, hs.manifest, if_neg hbs, Option.getD_some, hfind]
    rfl

theorem checkContinuity_next (fileName : String) {h : U64} (hn : n + 1 < 2 ^ 64)
    (hheight : h = BitVec.ofNat 64 (n + 1)) (ws : List StoreWrite) :
    checkContinuity s fileName (epochRange (BitVec.ofNat 64 (n / 1000))) h
      (if n % 1000 = 0 then none else some (BitVec.ofNat 64 n)) ws = .ok () ws := by
  by_cases hfull : n % 1000 = 0
  · have hfirst : h = (epochRange (BitVec.ofNat 64 (n / 1000))).firstH := by
      rw [hheight, epochRange_next hn]
      congr 1
      omega
    rw [if_pos hfull, checkContinuity, onlyIf_ok_iff]
    exact .inr ⟨not_not.mpr hfirst, rfl⟩
  · have hprev : h.checkedSub 1#64 = some (BitVec.ofNat 64 n) := by
      have hone : (1#64).toNat = 1 := rfl
      have hle : 1#64 ≤ h := by
        rw [BitVec.le_def, hheight, toNat_ofNat_of_lt hn, hone]
        omega
      rw [BitVec.checkedSub, if_pos hle]
      refine congrArg some (BitVec.eq_of_toNat_eq ?_)
      rw [BitVec.toNat_sub_of_le hle, hheight, toNat_ofNat_of_lt hn, hone, Nat.add_sub_cancel,
        toNat_ofNat_of_lt (by omega)]
    rw [if_neg hfull, checkContinuity, bind_ok_iff]
    exact ⟨_, _, orThrow_ok_iff.mpr ⟨hprev, rfl⟩, require_ok_iff.mpr ⟨rfl, rfl⟩⟩

/-- An append to a store makes its two writes if it can read the last line. -/
theorem Stores.append_ok (hs : Stores C J s bs) (hw : ∀ b ∈ bs, J.Writes b)
    (hc : ConsecutiveHeights (bs ++ [b])) (hv : NextReadable J bs) :
    appendBlockForEpoch C J s b [] = .ok () (appendWrites C J bs b) := by
  have hn := hc.length_lt
  rw [List.length_append, List.length_singleton] at hn
  have hheight : b.hdr.height = BitVec.ofNat 64 (bs.length + 1) := by
    refine BitVec.eq_of_toNat_eq ?_
    rw [hc.last, toNat_ofNat_of_lt hn]
  have hmanifest := hs.manifest_extend hn hheight
  rw [rowAt, Nat.min_eq_right (by omega), ← hheight] at hmanifest
  simp only [appendBlockForEpoch]
  refine bind_ok_iff.mpr ⟨_, _, liftExcept_ok_iff.mpr ⟨epochIdx_next hc.last, rfl⟩, ?_⟩
  refine bind_ok_iff.mpr
    ⟨_, _, liftExcept_ok_iff.mpr ⟨hs.readLast hw hc.of_append hv, rfl⟩, ?_⟩
  refine bind_ok_iff.mpr ⟨_, _, checkContinuity_next _ hn hheight _, ?_⟩
  refine bind_ok_iff.mpr ⟨_, _, liftExcept_ok_iff.mpr ⟨hs.rowFirstH_next hn _ _, rfl⟩, ?_⟩
  rw [hmanifest]
  refine bind_ok_iff.mpr ⟨(), _, logWrite_ok _ _, ?_⟩
  refine bind_ok_iff.mpr ⟨(), _, liftExcept_ok_iff.mpr ⟨if_pos rfl, rfl⟩, ?_⟩
  exact logWrite_ok _ _

/-- An append that cannot read the last line writes nothing. -/
theorem Stores.append_error (hs : Stores C J s bs) (hw : ∀ b ∈ bs, J.Writes b)
    (hc : ConsecutiveHeights (bs ++ [b])) (hv : ¬ NextReadable J bs) :
    ∃ e, appendBlockForEpoch C J s b [] = .error e [] := by
  have hn := hc.of_append.length_lt
  obtain ⟨e, he⟩ := hs.readLast_error hw hn hv
  refine ⟨e, ?_⟩
  simp only [appendBlockForEpoch]
  refine bind_error_iff.mpr (.inr ⟨_, _, liftExcept_ok_iff.mpr ⟨epochIdx_next hc.last, rfl⟩, ?_⟩)
  exact bind_error_iff.mpr (.inl (liftExcept_error_iff.mpr ⟨_, he, rfl, rfl⟩))

/-- An append that succeeds has read the last line of its file, and goes on from its height. -/
theorem reads_of_append {ws : List StoreWrite} (hheight : b.hdr.height.toNat = n + 1)
    (h : appendBlockForEpoch C J s b [] = .ok () ws) :
    ∃ lastH, readLastBlockHeight J (epochFileName (BitVec.ofNat 64 (n / 1000)))
        (s.files (epochFileName (BitVec.ofNat 64 (n / 1000)))) = .ok lastH ∧
      ∀ tailH ∈ lastH, tailH.toNat = n := by
  simp only [appendBlockForEpoch] at h
  obtain ⟨eidx, ws₁, hidx, h⟩ := bind_ok_iff.mp h
  rw [epochIdx_next hheight, liftExcept_ok_iff] at hidx
  rw [← Except.ok.inj hidx.1] at h
  obtain ⟨lastH, ws₂, hread, h⟩ := bind_ok_iff.mp h
  obtain ⟨_, _, hcheck, _⟩ := bind_ok_iff.mp h
  refine ⟨lastH, (liftExcept_ok_iff.mp hread).1, ?_⟩
  rintro tailH rfl
  obtain ⟨prevH, _, hprev, hsame⟩ := bind_ok_iff.mp hcheck
  have hsub := (orThrow_ok_iff.mp hprev).1
  rw [(require_ok_iff.mp hsame).1]
  rw [BitVec.checkedSub] at hsub
  split at hsub
  next hle =>
    rw [← Option.some.inj hsub, BitVec.toNat_sub_of_le hle, hheight]
    rfl
  · cases hsub

theorem nextReadable_nil (J : BlockJson) : NextReadable J [] := by
  intro b hb
  simp [openBlocks, epochBlocks] at hb

theorem epochBlocks_concat_open (bs : List Block) (b : Block) :
    epochBlocks (bs ++ [b]) (bs.length / 1000) = openBlocks bs ++ [b] := by
  rw [openBlocks_eq, epochBlocks, List.drop_append_of_le_length (by omega), List.take_of_length_le]
  rw [List.length_append, List.length_drop, List.length_singleton]
  omega

theorem epochBlocks_concat_full {e : Nat} (h : 1000 * (e + 1) ≤ bs.length) :
    epochBlocks (bs ++ [b]) e = epochBlocks bs e := by
  rw [epochBlocks, epochBlocks, List.drop_append_of_le_length (by omega),
    List.take_append_of_le_length]
  rw [List.length_drop]
  omega

/-- The files with the line of the next block. -/
theorem Stores.files_line (hs : Stores C J s bs) (hn : bs.length + 1 < 2 ^ 64) (eidx : U64) :
    (s.apply (.appendLine (epochFileName (BitVec.ofNat 64 (bs.length / 1000)))
      (J.line b ++ [newline]))).files (epochFileName eidx) =
    if 1000 * eidx.toNat < (bs ++ [b]).length then
      some (blockFile J (epochBlocks (bs ++ [b]) eidx.toNat))
    else none := by
  have hlen : (bs ++ [b]).length = bs.length + 1 := by
    rw [List.length_append, List.length_singleton]
  by_cases hidx : eidx = BitVec.ofNat 64 (bs.length / 1000)
  · have hopen := hs.openFile (by omega)
    have hold : (s.files (epochFileName (BitVec.ofNat 64 (bs.length / 1000)))).getD [] =
        blockFile J (openBlocks bs) := by
      rw [hopen]
      by_cases hfull : bs.length % 1000 = 0
      · have hnil : openBlocks bs = [] := by
          rw [openBlocks_eq]
          exact List.drop_eq_nil_of_le (by omega)
        rw [if_pos hfull, hnil]
        rfl
      · rw [if_neg hfull, Option.getD_some]
    rw [hidx, toNat_ofNat_of_lt (by omega), hlen, if_pos (by omega), epochBlocks_concat_open,
      blockFile_concat, EpochStore.files_appendLine_self, hold, List.append_assoc]
  · have hname : epochFileName eidx ≠ epochFileName (BitVec.ofNat 64 (bs.length / 1000)) :=
      fun h => hidx (epochFileName_injective h)
    have hne : eidx.toNat ≠ bs.length / 1000 := by
      intro h
      refine hidx (BitVec.eq_of_toNat_eq ?_)
      rw [toNat_ofNat_of_lt (by omega), h]
    rw [EpochStore.files_appendLine_of_ne hname, hs.files, hlen]
    by_cases hlt : 1000 * eidx.toNat < bs.length
    · rw [if_pos hlt, if_pos (by omega), epochBlocks_concat_full (by omega)]
    · rw [if_neg hlt, if_neg (by omega)]

/-- Both writes of an append give the store with the block. -/
theorem Stores.written (hs : Stores C J s bs) (hn : bs.length + 1 < 2 ^ 64) :
    Stores C J (s.applyAll (appendWrites C J bs b)) (bs ++ [b]) where
  files := hs.files_line hn
  names := by
    intro fileName bytes hfile
    by_cases hname : fileName = epochFileName (BitVec.ofNat 64 (bs.length / 1000))
    · exact ⟨_, hname⟩
    · exact hs.names fileName bytes (EpochStore.files_appendLine_of_ne hname ▸ hfile)
  manifest := by
    rw [if_neg (by simp)]
    rfl

end Append

/-! ## A file whose last line cannot be read -/

/-- The writes that an append makes, whether it succeeds or not. -/
def writesOf (r : EStateM.Result String (List StoreWrite) Unit) : List StoreWrite :=
  match r with
  | .ok _ ws => ws
  | .error _ ws => ws

/-- The last line of the file that the block of height `m + 1` goes into cannot be read, and no file
has this block. -/
structure Stuck (J : BlockJson) (m : Nat) (s : EpochStore) : Prop where
  unread : ∃ e, readLastBlockHeight J (epochFileName (BitVec.ofNat 64 (m / 1000)))
    (s.files (epochFileName (BitVec.ofNat 64 (m / 1000)))) = .error e
  lines : ∀ fileName bytes, s.files fileName = some bytes →
    ∃ bs, bytes = blockFile J bs ∧ ∀ b ∈ bs, J.Writes b ∧ b.hdr.height.toNat ≠ m + 1

/-- A write that leaves the file alone and does not bring the block. -/
def Elsewhere (J : BlockJson) (m : Nat) : StoreWrite → Prop
  | .appendLine fileName line =>
      fileName ≠ epochFileName (BitVec.ofNat 64 (m / 1000)) ∧
        ∃ b, J.Writes b ∧ b.hdr.height.toNat ≠ m + 1 ∧ line = J.line b ++ [newline]
  | .removeFile fileName => fileName ≠ epochFileName (BitVec.ofNat 64 (m / 1000))
  | .replaceManifest _ => True

section Writes

variable {C : Crypto} {J : BlockJson} {s : EpochStore} {b : Block}

/-- A write of an append: the manifest, or the file of the block, whose last line was read. -/
def WriteOf (J : BlockJson) (s : EpochStore) (b : Block) (w : StoreWrite) : Prop :=
  (∃ man, w = .replaceManifest man) ∨
    ∃ eidx lastH, epochIdx b.hdr.height = .ok eidx ∧
      readLastBlockHeight J (epochFileName eidx) (s.files (epochFileName eidx)) = .ok lastH ∧
      (w = .appendLine (epochFileName eidx) (J.line b ++ [newline]) ∨
        w = .removeFile (epochFileName eidx))

theorem keeps_logWrite {I : StoreWrite → Prop} {w : StoreWrite} (hw : I w) :
    Keeps (fun ws => ∀ v ∈ ws, I v) (logWrite w) := by
  refine keeps_modify fun ws hws v hv => ?_
  rcases List.mem_append.mp hv with hv | hv
  · exact hws v hv
  · rw [List.mem_singleton.mp hv]
    exact hw

/-- What an append may write, whether it succeeds or not. -/
theorem appendBlockForEpoch_keeps :
    Keeps (fun ws => ∀ w ∈ ws, WriteOf J s b w) (appendBlockForEpoch C J s b) := by
  simp only [appendBlockForEpoch]
  refine keeps_liftExcept_bind fun eidx hidx => keeps_liftExcept_bind fun lastH hread => ?_
  have hcheck : Keeps (fun ws => ∀ w ∈ ws, WriteOf J s b w)
      (checkContinuity s (epochFileName eidx) (epochRange eidx) b.hdr.height lastH) := by
    cases lastH with
    | none =>
        refine Keeps.onlyIf (Keeps.bind (Keeps.onlyIf (keeps_logWrite ?_)) fun _ =>
          (readOnly_throw _).keeps)
        exact .inr ⟨eidx, none, hidx, hread, .inr rfl⟩
    | some tailH =>
        exact ((readOnly_orThrow _ _).keeps).bind fun _ => (readOnly_require _ _).keeps
  refine hcheck.bind fun _ => keeps_liftExcept_bind fun firstH _ => ?_
  refine (keeps_logWrite (.inr ⟨eidx, lastH, hidx, hread, .inl rfl⟩)).bind fun _ => ?_
  exact keeps_liftExcept_bind fun _ _ => keeps_logWrite (.inl ⟨_, rfl⟩)

theorem writesOf_append {w : StoreWrite} (hw : w ∈ writesOf (appendBlockForEpoch C J s b [])) :
    WriteOf J s b w := by
  obtain ⟨hok, herror⟩ := appendBlockForEpoch_keeps (C := C) (J := J) (s := s) (b := b) []
    (by simp)
  cases h : appendBlockForEpoch C J s b [] with
  | ok u ws =>
      rw [h] at hw
      exact hok u ws h w hw
  | error e ws =>
      rw [h] at hw
      exact herror e ws h w hw

end Writes

section Stuck

variable {C : Crypto} {J : BlockJson} {s : EpochStore} {b : Block} {m : Nat}

theorem Stuck.apply (h : Stuck J m s) {w : StoreWrite} (hw : Elsewhere J m w) :
    Stuck J m (s.apply w) := by
  cases w with
  | appendLine fileName line =>
      obtain ⟨hname, b, hb, hheight, rfl⟩ := hw
      refine ⟨?_, fun name bytes hfile => ?_⟩
      · rw [EpochStore.files_appendLine_of_ne hname.symm]
        exact h.unread
      · by_cases hsame : name = fileName
        · subst hsame
          rw [EpochStore.files_appendLine_self] at hfile
          obtain ⟨bs, hbs, hall⟩ : ∃ bs, (s.files name).getD [] = blockFile J bs ∧
              ∀ c ∈ bs, J.Writes c ∧ c.hdr.height.toNat ≠ m + 1 := by
            cases hold : s.files name with
            | none => exact ⟨[], rfl, by simp⟩
            | some old => exact h.lines name old hold
          refine ⟨bs ++ [b], ?_, fun c hc => ?_⟩
          · rw [← Option.some.inj hfile, hbs, blockFile_concat, List.append_assoc]
          · rcases List.mem_append.mp hc with hc | hc
            · exact hall c hc
            · rw [List.mem_singleton.mp hc]
              exact ⟨hb, hheight⟩
        · rw [EpochStore.files_appendLine_of_ne hsame] at hfile
          exact h.lines name bytes hfile
  | removeFile fileName =>
      refine ⟨?_, fun name bytes hfile => ?_⟩
      · rw [EpochStore.files_removeFile_of_ne (Ne.symm hw)]
        exact h.unread
      · by_cases hsame : name = fileName
        · rw [hsame, EpochStore.files_removeFile_self] at hfile
          cases hfile
        · rw [EpochStore.files_removeFile_of_ne hsame] at hfile
          exact h.lines name bytes hfile
  | replaceManifest man => exact ⟨h.unread, h.lines⟩

theorem Stuck.applyAll (h : Stuck J m s) {ws : List StoreWrite}
    (hws : ∀ w ∈ ws, Elsewhere J m w) : Stuck J m (s.applyAll ws) := by
  induction ws generalizing s with
  | nil => exact h
  | cons w ws ih =>
      exact ih (h.apply (hws w List.mem_cons_self)) fun w' hw' =>
        hws w' (List.mem_cons_of_mem w hw')

/-- Appends to other files are all that can be made. -/
theorem Stuck.writes (h : Stuck J m s) (hb : J.Writes b) {w : StoreWrite}
    (hw : w ∈ writesOf (appendBlockForEpoch C J s b [])) : Elsewhere J m w := by
  rcases writesOf_append hw with ⟨man, rfl⟩ | ⟨eidx, lastH, hidx, hread, hw⟩
  · trivial
  · have hname : epochFileName eidx ≠ epochFileName (BitVec.ofNat 64 (m / 1000)) := by
      intro hname
      obtain ⟨e, he⟩ := h.unread
      rw [← hname, hread] at he
      cases he
    have hheight : b.hdr.height.toNat ≠ m + 1 := by
      intro hheight
      rw [epochIdx_next hheight] at hidx
      rw [Except.ok.inj hidx] at hname
      exact hname rfl
    rcases hw with rfl | rfl
    · exact ⟨hname, b, hb, hheight, rfl⟩
    · exact hname

end Stuck

end Pwm
