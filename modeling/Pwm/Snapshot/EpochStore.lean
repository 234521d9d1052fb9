import Pwm.Core.Block
import Pwm.Lib.Attempt
import Pwm.Lib.LineFile

/-!
# The epoch files

One block per line, a file for every thousand heights, and a manifest that
says which files there are and up to which height they go. A call makes its
writes one after the other, each of them at once; between two of them the
process may end.
-/

namespace Pwm

open BitVec Attempt

/-! ## Files and manifest -/

def epochSpan : U64 := 1000#64
def epochManSchemaCur : U32 := 1#32

structure EpochRange where
  idx : U64
  firstH : U64
  lastH : U64

structure EpochMeta where
  idx : U64
  firstH : U64
  lastH : U64
  fileName : String
  deriving DecidableEq

structure EpochManifest where
  schemaV : U32
  epochSpan : U64
  canonicalH : U64
  tipHash : String
  epochs : List EpochMeta
  deriving DecidableEq

def epochIdx (height : U64) : Except String U64 :=
  if height = 0#64 then .error "epoch idx expects height >= 1"
  else .ok ((height - 1#64) / epochSpan)

def epochRange (idx : U64) : EpochRange :=
  let firstH := (idx.saturatingMul epochSpan).saturatingAdd 1#64
  ⟨idx, firstH, firstH.saturatingAdd (epochSpan.saturatingSub 1#64)⟩

def epochFileName (idx : U64) : String :=
  "block_e" ++ toString idx.toNat ++ ".jsonl"

def mkManifest (canonicalH : U64) (tipHash : String) (epochs : List EpochMeta) : EpochManifest :=
  ⟨epochManSchemaCur, epochSpan, canonicalH, tipHash, epochs⟩

def ensureEpochManSchema (schemaV : U32) : Except String Unit :=
  if schemaV = epochManSchemaCur then .ok ()
  else .error s!"unsupported epoch manifest schema {schemaV.toNat}; supported schema {epochManSchemaCur.toNat}"

/-- The epoch files by their names, and the manifest. -/
structure EpochStore where
  files : String → Option (List U8)
  manifest : Option EpochManifest

def EpochStore.empty : EpochStore := ⟨fun _ => none, none⟩

inductive StoreWrite
  | appendLine (fileName : String) (line : List U8)
  | removeFile (fileName : String)
  | replaceManifest (man : EpochManifest)
  deriving DecidableEq

namespace EpochStore

def apply (s : EpochStore) : StoreWrite → EpochStore
  | .appendLine fileName line =>
      let file := (s.files fileName).getD [] ++ line
      { s with files := Function.update s.files fileName (some file) }
  | .removeFile fileName => { s with files := Function.update s.files fileName none }
  | .replaceManifest man => { s with manifest := some man }

def applyAll (s : EpochStore) (writes : List StoreWrite) : EpochStore :=
  writes.foldl apply s

section Apply

variable {s : EpochStore} {name fileName : String} {line : List U8}

@[simp] theorem files_appendLine_self :
    (s.apply (.appendLine fileName line)).files fileName =
      some ((s.files fileName).getD [] ++ line) :=
  Function.update_self ..

@[simp] theorem files_appendLine_of_ne (h : name ≠ fileName) :
    (s.apply (.appendLine fileName line)).files name = s.files name :=
  Function.update_of_ne h ..

@[simp] theorem files_removeFile_self : (s.apply (.removeFile fileName)).files fileName = none :=
  Function.update_self ..

@[simp] theorem files_removeFile_of_ne (h : name ≠ fileName) :
    (s.apply (.removeFile fileName)).files name = s.files name :=
  Function.update_of_ne h ..

@[simp] theorem files_replaceManifest (man : EpochManifest) :
    (s.apply (.replaceManifest man)).files = s.files := rfl

@[simp] theorem manifest_replaceManifest (man : EpochManifest) :
    (s.apply (.replaceManifest man)).manifest = some man := rfl

@[simp] theorem manifest_appendLine :
    (s.apply (.appendLine fileName line)).manifest = s.manifest := rfl

end Apply

end EpochStore

/-! ## Lines -/

/-- The JSON text of a block, and what is read from a text. -/
structure BlockJson where
  toText : Block → String
  ofText : String → Except String Block

def newline : U8 := 0x0A#8

def isAsciiWhitespace (b : U8) : Bool :=
  b == 0x20#8 || b == 0x09#8 || b == newline || b == 0x0C#8 || b == 0x0D#8

/-- The text with these bytes, if they are UTF-8. -/
def utf8Text (bytes : List U8) : Option String :=
  String.fromUTF8? ⟨(bytes.map UInt8.ofBitVec).toArray⟩

/-- A line without the carriage return at its end. -/
def stripCr (bytes : List U8) : List U8 :=
  if bytes.getLast? = some 0x0D#8 then bytes.dropLast else bytes

/-- How far back the last line of a file is looked for. -/
@[irreducible] def tailWindow : Nat := 128 * 1024

def readLastBlockHeight (J : BlockJson) (fileName : String) (file : Option (List U8)) :
    Except String (Option U64) :=
  match file with
  | none => .ok none
  | some bytes =>
      match LineFile.lastLine newline isAsciiWhitespace tailWindow bytes with
      | .error _ =>
          .error ("epoch file tail line starts before 131072 byte window: " ++ fileName)
      | .ok none => .ok none
      | .ok (some line) =>
          match utf8Text line with
          | none => .error "epoch file corrupt tail utf-8"
          | some text =>
              match J.ofText text with
              | .error e => .error ("epoch file corrupt tail line: " ++ e)
              | .ok last => .ok (some last.hdr.height)

/-- The text of a line, and its number for the error. -/
def lineText (p : List U8 × Nat) : Except String String :=
  match utf8Text (stripCr p.1) with
  | some text => .ok text
  | none => .error s!"read line {p.2}: stream did not contain valid UTF-8"

/-- The lines of a file that are not blank. -/
def readJsonlLines (file : Option (List U8)) : Except String (List String) :=
  match file with
  | none => .ok []
  | some bytes => do
      let texts ← (LineFile.lines newline bytes).zipIdx.mapM lineText
      return texts.filter fun text => ! text.toList.all isWhitespace

/-! ## Appending -/

/-- Make a write. -/
def logWrite (w : StoreWrite) : EStateM String (List StoreWrite) Unit :=
  modify fun writes => writes ++ [w]

def cleanupEmptyGapFile (s : EpochStore) (fileName : String) :
    EStateM String (List StoreWrite) Unit :=
  onlyIf (s.files fileName = some []) (logWrite (.removeFile fileName))

/-- The first row with the index of the new one gives way to it. -/
def replaceRow (row : EpochMeta) : List EpochMeta → Option (List EpochMeta)
  | [] => none
  | m :: rest =>
      if m.idx = row.idx then some (row :: rest) else (replaceRow row rest).map (m :: ·)

def putRow (row : EpochMeta) (epochs : List EpochMeta) : List EpochMeta :=
  (replaceRow row epochs).getD
    ((epochs ++ [row]).mergeSort fun m m' => decide (m.idx ≤ m'.idx))

/-- The block goes on from the last one of its file, or is the first of its range. -/
def checkContinuity (s : EpochStore) (fileName : String) (er : EpochRange) (h : U64) :
    Option U64 → EStateM String (List StoreWrite) Unit
  | none =>
      onlyIf (h ≠ er.firstH) do
        cleanupEmptyGapFile s fileName
        throw s!"epoch append gap: first height in file must be {er.firstH.toNat}, got {h.toNat}"
  | some tailH => do
      let prevH ← orThrow (h.checkedSub 1#64) "epoch append: height 0 has no previous height"
      require (tailH = prevH)
        s!"epoch append: want prev height {prevH.toNat}, file tail height {tailH.toNat}"

/-- Where the row of the block's file starts. -/
def rowFirstH (man : EpochManifest) (er : EpochRange) : Option U64 → Except String U64
  | none => .ok er.firstH
  | some _ =>
      match man.epochs.find? fun m => decide (m.idx = er.idx) with
      | some m => .ok m.firstH
      | none => .error s!"epoch append: existing file missing manifest row {er.idx.toNat}"

/-- The manifest with a block more. -/
def EpochManifest.extend (man : EpochManifest) (h : U64) (tipHash : String) (row : EpochMeta) :
    EpochManifest :=
  { man with
    canonicalH := h
    tipHash := tipHash
    epochSpan := Pwm.epochSpan
    epochs := putRow row man.epochs }

/-- The writes of an append and how it ends. Nothing is read after the first write. -/
def appendBlockForEpoch (C : Crypto) (J : BlockJson) (s : EpochStore) (blk : Block) :
    EStateM String (List StoreWrite) Unit := do
  let h := blk.hdr.height
  let tipHash := hexEncode (hdrHash C blk.hdr)
  let eidx ← liftExcept id (epochIdx h)
  let fileName := epochFileName eidx
  let er := epochRange eidx
  let lastH ← liftExcept id (readLastBlockHeight J fileName (s.files fileName))
  checkContinuity s fileName er h lastH
  let man := s.manifest.getD (mkManifest h tipHash [])
  let firstH ← liftExcept id (rowFirstH man er lastH)
  logWrite (.appendLine fileName (strBytes (J.toText blk) ++ [newline]))
  let man := man.extend h tipHash ⟨eidx, firstH, h, fileName⟩
  liftExcept id (ensureEpochManSchema man.schemaV)
  logWrite (.replaceManifest man)

/-! ## Loading -/

/-- The block of a line, and the line's number for the error. -/
def lineBlock (J : BlockJson) (fileName : String) (p : String × Nat) : Except String Block :=
  match J.ofText p.1 with
  | .ok b => .ok b
  | .error e => .error s!"epoch {fileName} line {p.2}: decode block: {e}"

/-- The blocks of the lines of one file. -/
def decodeLines (J : BlockJson) (fileName : String) (lines : List String) :
    Except String (List Block) :=
  lines.zipIdx.mapM (lineBlock J fileName)

/-- The blocks of the files that the rows of the manifest name, in their order. -/
def loadRows (J : BlockJson) (s : EpochStore) : List EpochMeta → Except String (List Block)
  | [] => .ok []
  | em :: rest => do
      let lines ← readJsonlLines (s.files em.fileName)
      let blocks ← decodeLines J em.fileName lines
      let more ← loadRows J s rest
      return blocks ++ more

/-- Every block has the height of its place. -/
def checkHeights : Nat → List Block → Except String Unit
  | _, [] => .ok ()
  | i, b :: rest =>
      let want : U64 := BitVec.ofNat 64 i + 1#64
      if b.hdr.height ≠ want then
        .error s!"epoch replay: block pos {i} has height {b.hdr.height.toNat}, want {want.toNat}"
      else checkHeights (i + 1) rest

def loadBlocksFromEpochs (J : BlockJson) (s : EpochStore) : Except String (List Block) :=
  match s.manifest with
  | none => .ok []
  | some man => do
      ensureEpochManSchema man.schemaV
      let all ← loadRows J s man.epochs
      if man.canonicalH = 0#64 then
        if all ≠ [] then throw "epoch manifest: canonical_h=0 but epoch files non-empty"
        return all
      if all.length ≠ man.canonicalH.toNat then
        throw s!"epoch replay: got {all.length} blocks, manifest canonical_h {man.canonicalH.toNat}"
      checkHeights 0 all
      return all

end Pwm
