import Pwm.Lib.Chunks
import Pwm.Node.PeerWire
import Pwm.Snapshot.EpochReaders

/-!
# A sync session with one peer

A peer announces its tip; a node that is behind asks for headers and blocks,
or for a window of one epoch when it is far behind. The other side answers
from its memory or from the epoch files.
-/

namespace Pwm

open BitVec Attempt Chunks

def syncCupLagMin : U64 := 256#64
def syncCupWinCap : U64 := 4096#64
def syncCupChunkCap : Nat := 32
def syncForkBrkCap : U8 := 3#8

/-- How the waits between two tries are computed. -/
structure TransportConfig where
  heartbeatIntervalMs : U64
  retryMaxMs : U64

/-- What a node keeps of a peer: the live sync, the window of blocks that is being fetched, and the
last break of the headers. -/
structure CupPeer extends SyncPeerState where
  tipHash : Option String := none
  liveStall : U8 := 0#8
  cupActive : Bool := false
  cupEpoch : U64 := 0#64
  cupFrom : U64 := 0#64
  cupTo : U64 := 0#64
  cupNextH : U64 := 0#64
  cupNextIx : U32 := 0#32
  cupPrevHash : String := ""
  cupTargetH : U64 := 0#64
  cupTry : U8 := 0#8
  cupNextMs : U64 := 0#64
  forkH : Option U64 := none
  forkTip : U64 := 0#64
  forkN : U8 := 0#8
  forkLocal : String := ""
  forkPrev : String := ""

/-- The node, the peer, and the reasons for which windows were given up; a session is gone when its
task has panicked. -/
structure PeerSession where
  inn : Inner
  peer : CupPeer := {}
  cupFails : List String := []
  gone : Bool := false

/-- A request to the peer. -/
inductive SyncAsk
  | headersReq (fromHeight : U64) (limit : U16)
  | blocksReq (blockHashes : List String) (blockHeights : Option (List U64))
  | catchupReq (startHeight endHeight epochId : U64) (anchorHash : String)
  deriving DecidableEq

/-- What the peer announces and answers. -/
inductive SyncAnswer
  | tipAnnounce (headHeight : U64) (headHash : String) (finalizedHeight : U64)
      (finalizedHash : Option String)
  | headersBatch (headers : List SyncHeaderWire)
  | blocksBatch (blocks : List SyncBlockWire)
  | chunk (chunk : SyncCatchupChunkWire)
  | done (epochId lastHeight : U64) (lastHash : String)
  | nack (reasonCode : String)

/-- Two chains that differ at a height; the connection is closed for it. -/
structure TipDivergence where
  localH : U64
  localHash : String
  peerH : U64
  peerHash : String

/-- The session after a message, with the requests that go out. -/
structure SyncOut where
  s : PeerSession
  asks : List SyncAsk := []
  div : Option TipDivergence := none

/-- The blocks of a chain by height, as far as it keeps them. -/
def chainHashAt (C : Crypto) (ch : Chain) (height : U64) : Option String :=
  if height = ch.tipH then some (hexEncode (ch.tipHash C))
  else (ch.blocks.reverse.find? fun b => decide (b.hdr.height = height)).map
    fun b => hexEncode (hdrHash C b.hdr)

/-! ## The state of the peer -/

def cupBackoffMs (cfg : TransportConfig) (cupTry : U8) : U64 :=
  let step := cfg.heartbeatIntervalMs.umax 200#64
  let shift := min cupTry.toNat 6
  (step.saturatingMul (1#64 <<< shift)).umin (cfg.retryMaxMs.umax step)

/-- The window that is asked for: it ends with the epoch of its first block. -/
def cupReqRange (localH headH : U64) : Except String (Option (U64 × U64)) :=
  if headH ≤ localH then .ok none
  else do
    let fromH := localH.saturatingAdd 1#64
    let lag := headH.saturatingSub localH
    let lagSpan := (lag.umin syncCupWinCap).saturatingSub 1#64
    let maxToH := fromH.saturatingAdd lagSpan
    let epochLastH := (epochRange (← epochIdx fromH)).lastH
    return some (fromH, maxToH.umin epochLastH)

namespace CupPeer

def forkClear (st : CupPeer) : CupPeer :=
  { st with forkH := none, forkTip := 0#64, forkN := 0#8, forkLocal := "", forkPrev := "" }

def forkMark (st : CupPeer) (brkH tipH : U64) (localHash peerPrev : String) : CupPeer :=
  if st.forkH = some brkH ∧ st.forkTip = tipH then
    { st with forkN := st.forkN.saturatingAdd 1#8 }
  else
    { st with
      forkH := some brkH, forkTip := tipH, forkN := 1#8
      forkLocal := localHash, forkPrev := peerPrev }

def forkLocked (st : CupPeer) (localH : U64) : Bool :=
  decide (st.forkH = some (localH.saturatingAdd 1#64) ∧ st.forkTip = localH ∧
    syncForkBrkCap ≤ st.forkN)

def cupClear (st : CupPeer) : CupPeer :=
  { st with
    cupActive := false, cupEpoch := 0#64, cupFrom := 0#64, cupTo := 0#64, cupNextH := 0#64
    cupNextIx := 0#32, cupPrevHash := "" }.forkClear

/-- A further try is due after a wait. -/
def cupRetry (st : CupPeer) (cfg : TransportConfig) (now : U64) : CupPeer :=
  let cupTry := st.cupTry.saturatingAdd 1#8
  { st with cupTry := cupTry, cupNextMs := now.saturatingAdd (cupBackoffMs cfg cupTry) }

def stalled (st : CupPeer) : CupPeer :=
  { st with liveStall := st.liveStall.saturatingAdd 1#8 }

def hdrAnswered (st : CupPeer) : CupPeer :=
  { st with inHdr := st.inHdr.saturatingSub 1#8, waitHdrFrom := none }

def blkAnswered (st : CupPeer) : CupPeer :=
  { st with inBlk := st.inBlk.saturatingSub 1#8, waitBlk := [] }

end CupPeer

/-- Headers that follow each other: the height after them, or the first break with the hash that
stands before it. -/
def walkHdrs (nextH : U64) (prevHash : String) :
    List SyncHeaderWire → Except (SyncHeaderWire × String) U64
  | [] => .ok nextH
  | hdr :: rest =>
      if hdr.height ≠ nextH ∨ hdr.prevHash ≠ prevHash then .error (hdr, prevHash)
      else walkHdrs (nextH.saturatingAdd 1#64) hdr.hash rest

/-- Compares the rows of a chunk with what comes next: the height and the hash after them, and the
blocks. -/
def walkChunk (C : Crypto) (fromH toH : U64) : U64 → String →
    List (SyncHeaderWire × SyncBlockWire) → Except String (U64 × String × List Block)
  | nextH, prevHash, [] => .ok (nextH, prevHash, [])
  | nextH, prevHash, (hdr, row) :: rest =>
      if hdr.height ≠ nextH ∨ hdr.prevHash ≠ prevHash ∨ row.height ≠ hdr.height ∨
          row.hash ≠ hdr.hash then .error "chunk_link"
      else match row.block with
      | none => .error "chunk_empty"
      | some blk =>
          if hexEncode (hdrHash C blk.hdr) ≠ hdr.hash then .error "chunk_hash"
          else if hdr.height < fromH ∨ toH < hdr.height then .error "chunk_range"
          else (walkChunk C fromH toH (nextH.saturatingAdd 1#64) hdr.hash rest).map
            fun p => (p.1, p.2.1, blk :: p.2.2)

/-! ## The node that follows -/

namespace PeerSession

section Handlers

variable (C : Crypto) (app : SyncApp) (cfg : TransportConfig) (caps : SyncCaps) (s : PeerSession)

def withPeer (st : CupPeer) : PeerSession :=
  { s with peer := st }

def withSync (inn : Inner) (st : SyncPeerState) : PeerSession :=
  { s with inn := inn, peer := { s.peer with toSyncPeerState := st } }

/-- Asks for headers; what is returned with the session says whether a request went out. -/
def askHdr (fromH : U64) (lim : U16) : Bool × SyncOut :=
  let (asked, st) := s.peer.askHdr fromH lim
  (asked, {
    s := s.withSync s.inn st
    asks := if asked then [.headersReq fromH st.waitHdrLim] else [] })

def askBlk : SyncOut :=
  let st := s.peer.askBlk caps
  { s := s.withSync s.inn st
    asks :=
      if s.peer.waitBlk = [] ∧ st.waitBlk ≠ [] then
        [.blocksReq (st.waitBlk.map Prod.snd) (some (st.waitBlk.map Prod.fst))]
      else [] }

/-- A further header request, if there is one, and then the blocks; they are not asked for when the
header request cannot be written. -/
def thenAskBlk (out : Bool × SyncOut) (wrote : Bool) : SyncOut :=
  if out.1 ∧ ¬ wrote then out.2
  else
    let blk := out.2.s.askBlk caps
    { blk with asks := out.2.asks ++ blk.asks }

/-- A window is given up; the next try is due later. -/
def cupChunkFail (now : U64) (reason : String) : PeerSession :=
  { s with
    peer := (s.peer.stalled.cupRetry cfg now).cupClear
    cupFails := s.cupFails ++ [reason] }

/-- The session with a window that begins with the next block. -/
def openCup (fromH toH eid : U64) (localHash : String) : PeerSession :=
  s.withPeer { s.peer with
    cupActive := true
    cupEpoch := eid
    cupFrom := fromH
    cupTo := toH
    cupNextH := fromH
    cupNextIx := 0#32
    cupPrevHash := localHash
    cupTargetH := s.peer.tipH.umax toH
    cupNextMs := 0#64 }

/-- Asks for a window; without a request when it cannot be written. -/
def sendCupReq (fromH toH now : U64) (wrote : Bool) : Option SyncAsk × PeerSession :=
  let localHash := hexEncode (s.inn.chain.tipHash C)
  match epochIdx fromH with
  | .error _ => (none, s)
  | .ok eid =>
      let s := s.openCup fromH toH eid localHash
      if wrote then (some (.catchupReq fromH toH eid localHash), s)
      else (none, s.cupChunkFail cfg now "req_write")

/-- Starts a window if none is open; the flag says that the live sync has to wait. -/
def maybeStartCup (headH now : U64) (canCup wrote : Bool) : Except String (Bool × SyncOut) :=
  if ¬ canCup then
    .ok (false, { s := { s with cupFails := s.cupFails ++ ["feature_mismatch"] } })
  else
    let localH := s.inn.chain.tipH
    let cupOn := s.peer.cupActive
    if s.peer.forkLocked localH ∨ cupOn ∨ now < s.peer.cupNextMs ∨ headH ≤ localH then
      .ok (cupOn, { s := s })
    else do
      match ← cupReqRange localH headH with
      | none => return (false, { s := s })
      | some (fromH, toH) =>
          match s.sendCupReq C cfg fromH toH now wrote with
          | (none, s) => return (false, { s := s })
          | (some ask, s) => return (true, { s := s, asks := [ask] })

/-- Ends an open window when the peer is only a short tail ahead. -/
def tryDemoteCupTail (tipLag : U64) : PeerSession :=
  if syncCupTailMax ≤ tipLag ∨ ¬ s.peer.cupActive then s
  else { s with peer := { s.peer.cupClear with cupTry := 0#8, cupNextMs := 0#64 } }

/-- Whether a peer of the same height has another chain, judged by its final block or by its tip. -/
def tipDivergence (headH : U64) (headHash : String) (finalizedH : U64)
    (finalizedHash : Option String) : Option TipDivergence :=
  let localH := s.inn.chain.tipH
  let localHash := hexEncode (s.inn.chain.tipHash C)
  let final := finalizedHash.bind fun peerFin =>
    if 0#64 < finalizedH ∧ finalizedH ≤ localH then
      (chainHashAt C s.inn.chain finalizedH).map fun localFin => (localFin, peerFin)
    else none
  match final with
  | some (localFin, peerFin) =>
      if localFin ≠ peerFin then some ⟨finalizedH, localFin, finalizedH, peerFin⟩ else none
  | none =>
      if headHash ≠ localHash then
        if finalizedHash.isSome ∧ finalizedH < headH ∧ localH.saturatingSub 1#64 < headH then none
        else some ⟨localH, localHash, headH, headHash⟩
      else none

def noteTip (headH : U64) (headHash : String) : PeerSession :=
  s.withPeer { s.peer with tipH := s.peer.tipH.umax headH, tipHash := some headHash }

/-- Goes after a tip that is ahead, by a window if one may be asked for, else by headers. -/
def follow (headH now : U64) (canCup wrote cupReq : Bool) : SyncOut :=
  let started :=
    if cupReq then s.maybeStartCup C cfg headH now canCup wrote else .ok (false, { s := s })
  match started with
  | .error _ => { s := s }
  | .ok (true, out) => out
  | .ok (false, out) =>
      (out.s.askHdr (s.inn.chain.tipH.saturatingAdd 1#64) caps.hdrHard).2

/-- A tip announcement; the flags say that windows are agreed on, and that a request can be
written. -/
def onTip (headH : U64) (headHash : String) (finalizedH : U64) (finalizedHash : Option String)
    (now : U64) (canCup wrote : Bool) : SyncOut :=
  let localH := s.inn.chain.tipH
  let s := s.noteTip headH headHash
  let cupOn := s.peer.cupActive && decide (s.peer.cupNextMs ≤ now)
  if headH < localH then { s := s }
  else
    let lag := headH - localH
    let s := s.tryDemoteCupTail lag
    if lag = 0#64 then { s := s, div := s.tipDivergence C headH headHash finalizedH finalizedHash }
    else s.follow C cfg caps headH now canCup wrote (cupOn || decide (syncCupLagMin ≤ lag))

/-- Headers that go on from the tip: their blocks are queued, and what comes next is asked for. -/
def acceptHdrs (headers : List SyncHeaderWire) (nextH : U64) (wrote : Bool) : SyncOut :=
  let s := s.withPeer s.peer.forkClear
  let s := s.withSync s.inn (s.peer.pushRows (headers.map fun hdr => (hdr.height, hdr.hash)))
  thenAskBlk caps
    (if nextH ≤ s.peer.tipH then s.askHdr nextH (s.peer.waitHdrLim.umax 1#16)
    else (false, { s := s })) wrote

def onHdrBatch (headers : List SyncHeaderWire) (wrote : Bool) : SyncOut :=
  if headers = [] ∨ caps.hdrHard.toNat < headers.length then { s := s }
  else if s.peer.cupActive then { s := s }
  else
    let reqLim := s.peer.waitHdrLim.umax 1#16
    let localH := s.inn.chain.tipH
    let answered := s.withPeer s.peer.hdrAnswered
    match s.peer.waitHdrFrom with
    | none => { s := answered }
    | some expH =>
        if headers.head?.map SyncHeaderWire.height ≠ some expH ∨ reqLim.toNat < headers.length then
          { s := answered.withPeer answered.peer.stalled }
        else if expH ≠ localH.saturatingAdd 1#64 then
          { s := answered.withPeer answered.peer.stalled }
        else match walkHdrs expH (hexEncode (s.inn.chain.tipHash C)) headers with
        | .error (hdr, prevHash) =>
            let st := answered.peer.stalled.forkMark hdr.height localH prevHash hdr.prevHash
            { s := answered.withPeer st
              div :=
                if syncForkBrkCap ≤ st.forkN ∧ st.forkTip = localH then
                  some ⟨localH, st.forkLocal, hdr.height, st.forkPrev⟩
                else none }
        | .ok nextH => answered.acceptHdrs caps headers nextH wrote

/-- After an apply: asks for the next headers of a short tail, when nothing is queued. -/
def liveTailPullHdr : Bool × SyncOut :=
  let localH := s.inn.chain.tipH
  let lag := s.peer.tipH.saturatingSub localH
  if lag = 0#64 ∨ syncCupTailMax ≤ lag then (false, { s := s })
  else if s.peer.cupActive ∨ s.peer.pendBlk ≠ [] ∨ s.peer.waitBlk ≠ [] ∨ 0#8 < s.peer.inHdr then
    (false, { s := s })
  else s.askHdr (localH.saturatingAdd 1#64) caps.hdrHard

/-- The blocks were applied; what is left of the request is queued again. -/
def blkApplied (inn : Inner) (rest : List (U64 × String)) : PeerSession :=
  let s := s.withPeer { s.peer.blkAnswered with liveStall := 0#8 }
  s.withSync inn (s.peer.reinqueue rest)

/-- The blocks were not applied; what is left of the request is queued again. -/
def blkRefused (inn : Inner) (rest : List (U64 × String)) : PeerSession :=
  let s := s.withPeer s.peer.blkAnswered.stalled
  s.withSync inn (s.peer.reinqueue rest)

def onBlkBatch (blocks : List SyncBlockWire) (wrote : Bool) : SyncOut :=
  if blocks = [] ∨ caps.blkHard.toNat < blocks.length then { s := s }
  else if s.peer.cupActive then { s := s }
  else
    let expected := s.peer.waitBlk
    if expected = [] then { s := s.withPeer s.peer.blkAnswered }
    else match matchRows C expected blocks with
    | .error (want, rest) =>
        let s := s.blkRefused s.inn rest
        { s := s.withSync s.inn { s.peer.toSyncPeerState with pendBlk := want :: s.peer.pendBlk } }
    | .ok (applyRows, rest) =>
        match app.applyBlkBatch C s.inn applyRows with
        | (.ok (), inn) => thenAskBlk caps ((s.blkApplied inn rest).liveTailPullHdr caps) wrote
        | (.error (.err _), inn) => (s.blkRefused inn rest).askBlk caps
        | (.error .panic, inn) =>
            { s := { s.withPeer s.peer.blkAnswered with inn := inn, gone := true } }

/-- The blocks of a chunk were applied; the next chunk goes on from here. -/
def chunkTaken (inn : Inner) (nextH : U64) (prevHash : String) : PeerSession :=
  { s with
    inn := inn
    peer := { s.peer with
      cupPrevHash := prevHash
      cupNextH := nextH
      cupNextIx := s.peer.cupNextIx.saturatingAdd 1#32
      liveStall := 0#8 } }

def onCupChunk (chunk : SyncCatchupChunkWire) (now : U64) : PeerSession :=
  if chunk.headers = [] ∨ syncCupChunkCap < chunk.headers.length ∨
      chunk.headers.length ≠ chunk.blocks.length then s.cupChunkFail cfg now "chunk_bounds"
  else if ¬ s.peer.cupActive then s
  else if chunk.epochId ≠ s.peer.cupEpoch ∨ chunk.chunkIndex ≠ s.peer.cupNextIx ∨
      chunk.firstPrevHash ≠ s.peer.cupPrevHash then s.cupChunkFail cfg now "chunk_order"
  else match walkChunk C s.peer.cupFrom s.peer.cupTo s.peer.cupNextH s.peer.cupPrevHash
      (chunk.headers.zip chunk.blocks) with
  | .error reason => s.cupChunkFail cfg now reason
  | .ok (nextH, prevHash, applyRows) =>
      if chunk.lastHash ≠ prevHash then s.cupChunkFail cfg now "chunk_tail"
      else match app.applyBlkBatch C s.inn applyRows with
      | (.ok (), inn) => s.chunkTaken inn nextH prevHash
      | (.error (.err _), inn) => { s with inn := inn }.cupChunkFail cfg now "chunk_apply"
      | (.error .panic, inn) => { s with inn := inn, gone := true }

def onCupDone (epochId lastH : U64) (lastHash : String) (now : U64) : SyncOut :=
  if ¬ s.peer.cupActive ∨ s.peer.cupEpoch ≠ epochId then { s := s }
  else if s.peer.cupNextH.saturatingSub 1#64 ≠ lastH ∨ s.peer.cupPrevHash ≠ lastHash then
    { s := { s with
      peer := (s.peer.cupRetry cfg now).cupClear
      cupFails := s.cupFails ++ ["done_mismatch"] } }
  else
    let s := s.withPeer { s.peer with cupTry := 0#8, liveStall := 0#8 }.cupClear
    let localH := s.inn.chain.tipH
    if localH < s.peer.tipH then (s.askHdr (localH.saturatingAdd 1#64) caps.hdrHard).2
    else { s := s }

def onNack (reasonCode : String) (now : U64) : PeerSession :=
  let s := { s with peer := s.peer.stalled }
  let s := s.withSync s.inn s.peer.onNack
  if ¬ s.peer.cupActive then s
  else
    let st :=
      if reasonCode = "catchup_epoch" then { s.peer with cupTry := 0#8, cupNextMs := 0#64 }
      else s.peer.cupRetry cfg now
    { s with
      peer := st.cupClear
      cupFails := s.cupFails ++
        [if reasonCode = "catchup_epoch" then "nack:catchup_epoch" else "nack"] }

/-- A message of the peer; one for windows is dropped when they are not agreed on. -/
def onMsg (canCup : Bool) (now : U64) (wrote : Bool) : SyncAnswer → SyncOut
  | .tipAnnounce headH headHash finalizedH finalizedHash =>
      s.onTip C cfg caps headH headHash finalizedH finalizedHash now canCup wrote
  | .headersBatch headers => s.onHdrBatch C caps headers wrote
  | .blocksBatch blocks => s.onBlkBatch C app caps blocks wrote
  | .chunk chunk => { s := if canCup then s.onCupChunk C app cfg chunk now else s }
  | .done epochId lastH lastHash =>
      if canCup then s.onCupDone cfg caps epochId lastH lastHash now else { s := s }
  | .nack reasonCode => { s := s.onNack cfg reasonCode now }

/-- What happens to a session: a message, or a change of the node by another task. -/
inductive Event
  | msg (answer : SyncAnswer) (now : U64) (wrote : Bool)
  | other (inn : Inner)

def step (canCup : Bool) : Event → SyncOut
  | .msg answer now wrote =>
      if s.gone then { s := s } else s.onMsg C app cfg caps canCup now wrote answer
  | .other inn => { s := { s with inn := inn } }

/-- A step is labelled with what happens and with the requests that go out. -/
def Step (canCup : Bool) (s : PeerSession) (label : Event × List SyncAsk) (s' : PeerSession) :
    Prop :=
  s' = (s.step C app cfg caps canCup label.1).s ∧
    label.2 = (s.step C app cfg caps canCup label.1).asks

end Handlers

end PeerSession

/-! ## The side that answers -/

/-- The chain of a node, and its epoch files when it has a data file. -/
structure SyncServer where
  chain : Chain
  disk : Option EpochStore

def headerWire (C : Crypto) (blk : Block) : SyncHeaderWire :=
  ⟨blk.hdr.height, hexEncode (hdrHash C blk.hdr), hexEncode blk.hdr.prevHash⟩

def blockWire (C : Crypto) (blk : Block) : SyncBlockWire :=
  ⟨blk.hdr.height, hexEncode (hdrHash C blk.hdr), some blk⟩

/-- The blocks in front whose heights go on one by one, at most so many. -/
def takeFollowing : Nat → Option U64 → List Block → List Block
  | 0, _, _ => []
  | _ + 1, _, [] => []
  | n + 1, prevH, blk :: rest =>
      if ∀ height ∈ prevH, blk.hdr.height = height.saturatingAdd 1#64 then
        blk :: takeFollowing n (some blk.hdr.height) rest
      else []

/-- The blocks begin at a height. -/
def startsAt (fromH : U64) (rows : List Block) : Prop :=
  rows.head?.map (fun b => b.hdr.height) = some fromH

/-- The blocks begin at a height and end at another. -/
def spans (startH endH : U64) (rows : List Block) : Prop :=
  startsAt startH rows ∧ rows.getLast?.map (fun b => b.hdr.height) = some endH

instance (fromH : U64) (rows : List Block) : Decidable (startsAt fromH rows) :=
  inferInstanceAs (Decidable (_ = _))

instance (startH endH : U64) (rows : List Block) : Decidable (spans startH endH rows) :=
  inferInstanceAs (Decidable (_ ∧ _))

/-- Notes a block at each wanted hash that is its own and has no block yet. -/
def noteHash (C : Crypto) (hashes : List String) (out : List (Option Block)) (blk : Block) :
    List (Option Block) :=
  List.zipWith (fun want found =>
    if found.isNone ∧ want = hexEncode (hdrHash C blk.hdr) then some blk else found) hashes out

/-- Looks for hashes in the lines of a file, until all are found. -/
def scanLines (C : Crypto) (J : BlockJson) (fileName : String) (hashes : List String) :
    List (Option Block) → List (String × Nat) → Except String (List (Option Block))
  | out, [] => .ok out
  | out, p :: rest => do
      let blk ← lineBlock J fileName p
      let out := noteHash C hashes out blk
      if out.all Option.isSome then return out
      scanLines C J fileName hashes out rest

def scanRows (C : Crypto) (J : BlockJson) (store : EpochStore) (hashes : List String) :
    List (Option Block) → List EpochMeta → Except String (List (Option Block))
  | out, [] => .ok out
  | out, em :: rest =>
      if out.all Option.isSome then .ok out
      else do
        let lines ← readJsonlLines (store.files em.fileName)
        let out ← scanLines C J em.fileName hashes out lines.zipIdx
        scanRows C J store hashes out rest

/-- The blocks with these hashes, found by a scan of all epoch files. -/
def loadHashScanBlocks (C : Crypto) (J : BlockJson) (store : EpochStore) (hashes : List String) :
    Except String (List (Option Block)) :=
  if hashes = [] then .ok []
  else
    match store.manifest with
    | none => .error "epoch hash scan: missing manifest"
    | some man => do
        ensureEpochManSchema man.schemaV
        scanRows C J store hashes (hashes.map fun _ => none) man.epochs

/-- Puts what was found on disk in the places that the memory left open. -/
def fillMisses : List (Option Block) → List (Option Block) → List (Option Block)
  | [], _ => []
  | some blk :: rest, scan => some blk :: fillMisses rest scan
  | none :: rest, [] => none :: fillMisses rest []
  | none :: rest, found :: scan => found :: fillMisses rest scan

/-- Why a request is not answered with rows: a nack with its reason, or an error that is only
logged. -/
inductive ServeFault
  | nack (reasonCode : String)
  | err (msg : String)
  | panic

namespace SyncServer

section Server

variable (C : Crypto) (J : BlockJson) (blockSize : Nat) (caps : SyncCaps) (srv : SyncServer)

/-- A range of blocks from the epoch files, if `use` accepts it; an error of the files is not
reported. -/
def diskRange (fromH limit : U64) (use : List Block → Bool) (rows : List Block) :
    Except ServeFault (List Block) :=
  match srv.disk with
  | none => .ok rows
  | some store =>
      match loadConsBlocksEpochs J blockSize store fromH limit with
      | .ok diskRows => .ok (if use diskRows then diskRows else rows)
      | .error (.err _) => .ok rows
      | .error .panic => .error .panic

/-- The blocks from a height on, at most so many. -/
def hdrRows (fromH : U64) (reqLim : U16) : Except ServeFault (List Block) :=
  let mem := takeFollowing reqLim.toNat none
    (srv.chain.blocks.filter fun b => decide (fromH ≤ b.hdr.height))
  if startsAt fromH mem then .ok mem
  else srv.diskRange J blockSize fromH (reqLim.setWidth 64)
    (fun diskRows => decide (startsAt fromH diskRows)) mem

def onHdrReq (fromH : U64) (limit : U16) : Except ServeFault (List SyncAnswer) := do
  check (fromH ≠ 0#64 ∧ limit ≠ 0#16 ∧ limit ≤ caps.hdrHard) (.nack "headers_limit")
  let out ← srv.hdrRows J blockSize fromH ((limit.umin caps.hdrHard).umax 1#16)
  check (startsAt fromH out) (.nack "headers_range")
  return [.headersBatch (out.map (headerWire C))]

/-- The first block in memory with a hash. -/
def findHash (want : String) : Option Block :=
  srv.chain.blocks.find? fun b => decide (hexEncode (hdrHash C b.hdr) = want)

/-- The block of a row that was not found in memory. -/
def diskBlock (store : EpochStore) (want : String) (height : U64) : Except ServeFault Block := do
  let found ← (loadBlockAtHeight J store height).mapError .err
  let blk ← orFail found (.nack "blocks_range")
  check (hexEncode (hdrHash C blk.hdr) = want) (.nack "blocks_hash")
  return blk

/-- The block of a row when its height is given. -/
def blockAtHeight (row : String × U64) : Except ServeFault Block :=
  match srv.findHash C row.1 with
  | some blk => .ok blk
  | none => do
      let store ← orFail srv.disk (.nack "blocks_range")
      diskBlock C J store row.1 row.2

/-- The blocks with the hashes that were not found in memory. -/
def scanMisses (misses : List String) : Except ServeFault (List (Option Block)) :=
  if misses = [] then .ok []
  else do
    let store ← orFail srv.disk (.nack "blocks_range")
    (loadHashScanBlocks C J store misses).mapError .err

/-- The blocks of rows without heights. -/
def blocksByScan (hashes : List String) : Except ServeFault (List Block) := do
  let found := hashes.map (srv.findHash C)
  let scan ← srv.scanMisses C J (hashes.filter fun want => (srv.findHash C want).isNone)
  (hashes.zip (fillMisses found scan)).mapM fun p => do
    let blk ← orFail p.2 (.nack "blocks_range")
    check (hexEncode (hdrHash C blk.hdr) = p.1) (.nack "blocks_hash")
    return blk

def blkRows (hashes : List String) : Option (List U64) → Except ServeFault (List Block)
  | some heights => (hashes.zip heights).mapM (srv.blockAtHeight C J)
  | none => srv.blocksByScan C J hashes

def onBlkReq (hashes : List String) (heights : Option (List U64)) :
    Except ServeFault (List SyncAnswer) := do
  check (hashes ≠ [] ∧ hashes.length ≤ caps.blkHard.toNat) (.nack "blocks_limit")
  check (∀ hs ∈ heights, hs.length = hashes.length) (.nack "blocks_range")
  let blocks ← srv.blkRows C J hashes heights
  return [.blocksBatch (blocks.map (blockWire C))]

/-- One chunk of a window. -/
def cupChunk (epochId : U64) (index : Nat) (rows : List Block) : SyncAnswer :=
  .chunk {
    epochId := epochId
    chunkIndex := BitVec.ofNat 32 (min index (2 ^ 32 - 1))
    firstPrevHash := (rows.head?.map fun b => hexEncode b.hdr.prevHash).getD ""
    lastHash := (rows.getLast?.map fun b => hexEncode (hdrHash C b.hdr)).getD ""
    headers := rows.map (headerWire C)
    blocks := rows.map (blockWire C) }

/-- The blocks of a window. -/
def cupRows (startH endH : U64) : Except ServeFault (List Block) :=
  let mem := srv.chain.blocks.filter fun b =>
    decide (startH ≤ b.hdr.height ∧ b.hdr.height ≤ endH)
  if spans startH endH mem then .ok mem
  else srv.diskRange J blockSize startH ((endH.saturatingSub startH).saturatingAdd 1#64)
    (fun diskRows => decide (spans startH endH diskRows)) mem

def onCupReq (startH endH epochId : U64) : Except ServeFault (List SyncAnswer) := do
  check (startH ≠ 0#64 ∧ startH ≤ endH ∧
    (endH.saturatingSub startH).saturatingAdd 1#64 ≤ syncCupWinCap) (.nack "catchup_range")
  let startEpoch ← (epochIdx startH).mapError .err
  check (startEpoch = epochId) (.nack "catchup_epoch")
  let endEpoch ← (epochIdx endH).mapError .err
  check (endEpoch = epochId) (.nack "catchup_epoch")
  let rows ← srv.cupRows J blockSize startH endH
  check (spans startH endH rows) (.nack "catchup_gap")
  return (chunks syncCupChunkCap rows).mapIdx (cupChunk C epochId) ++
    [.done epochId endH ((rows.getLast?.map fun b => hexEncode (hdrHash C b.hdr)).getD "")]

/-- Serves a request; one for a window is dropped when windows are not agreed on. -/
def serve (canCup : Bool) : SyncAsk → Except ServeFault (List SyncAnswer)
  | .headersReq fromH limit => srv.onHdrReq C J blockSize caps fromH limit
  | .blocksReq hashes heights => srv.onBlkReq C J caps hashes heights
  | .catchupReq startH endH epochId _ =>
      if canCup then srv.onCupReq C J blockSize startH endH epochId else .ok []

/-- The messages that are sent for a request. -/
def answer (canCup : Bool) (ask : SyncAsk) : List SyncAnswer :=
  match srv.serve C J blockSize caps canCup ask with
  | .ok answers => answers
  | .error (.nack reasonCode) => [.nack reasonCode]
  | .error (.err _) => []
  | .error .panic => []

/-- The tip that is announced, with the block below it as the final one. -/
def tip : SyncAnswer :=
  let headH := srv.chain.tipH
  let finalizedH := headH.saturatingSub 1#64
  .tipAnnounce headH (hexEncode (srv.chain.tipHash C)) finalizedH
    (if finalizedH = 0#64 then none else chainHashAt C srv.chain finalizedH)

end Server

end SyncServer

end Pwm
