import Pwm.Lib.KeyedQueue
import Pwm.Node.Commit

/-!
# Live sync with one peer

Outside catch-up the blocks of a peer are asked for in the order of their
heights. Announced blocks are pending, asked blocks are awaited, and a batch is
applied or put back. The queue has no gap as long as the headers go on from
what is queued and every answer is good, or bad at its first row.
-/

namespace Pwm

open Attempt

def syncHdrReqCap : U16 := 128#16
def syncBlkReqCap : U16 := 32#16
def syncInfCap : U8 := 8#8
def syncPendCap : Nat := 512
def syncCupTailMax : U64 := 32#64

/-- What a node keeps of the live sync with a peer. -/
structure SyncPeerState where
  tipH : U64 := 0#64
  waitHdrFrom : Option U64 := none
  waitHdrLim : U16 := 0#16
  waitBlk : List (U64 × String) := []
  pendBlk : List (U64 × String) := []
  inHdr : U8 := 0#8
  inBlk : U8 := 0#8

structure SyncHeaderWire where
  height : U64
  hash : String
  prevHash : String

structure SyncBlockWire where
  height : U64
  hash : String
  block : Option Block

/-- The node and what it keeps of the peer. -/
structure SyncLive where
  inn : Inner
  peer : SyncPeerState := {}

/-- The limits that the peer announced. -/
structure SyncCaps where
  hdrCap : U16
  blkCap : U16

/-- The most headers of a batch. -/
def SyncCaps.hdrHard (caps : SyncCaps) : U16 :=
  (caps.hdrCap.umin syncHdrReqCap).umax 1#16

/-- The most blocks of a batch. -/
def SyncCaps.blkHard (caps : SyncCaps) : U16 :=
  (caps.blkCap.umin syncBlkReqCap).umax 1#16

namespace SyncPeerState

/-- Asks for headers; the flag says that a request goes out. -/
def askHdr (st : SyncPeerState) (fromH : U64) (lim : U16) : Bool × SyncPeerState :=
  if st.waitHdrFrom = some fromH ∧ 0#8 < st.inHdr then (false, st)
  else if syncInfCap ≤ st.inHdr then (false, st)
  else (true, { st with
    waitHdrFrom := some fromH
    waitHdrLim := (lim.umin syncHdrReqCap).umax 1#16
    inHdr := st.inHdr.saturatingAdd 1#8 })

/-- Asks for the first pending blocks, if none is awaited. -/
def askBlk (st : SyncPeerState) (caps : SyncCaps) : SyncPeerState :=
  let lim := caps.blkHard.toNat
  if syncInfCap ≤ st.inBlk ∨ st.waitBlk ≠ [] then st
  else if st.pendBlk = [] then st
  else { st with
    waitBlk := st.pendBlk.take lim
    pendBlk := st.pendBlk.drop lim
    inBlk := st.inBlk.saturatingAdd 1#8 }

def reinqueue (st : SyncPeerState) (rows : List (U64 × String)) : SyncPeerState :=
  { st with pendBlk := requeue Prod.snd syncPendCap rows st.pendBlk }

/-- New rows at the back of the queue. -/
def pushRows (st : SyncPeerState) (rows : List (U64 × String)) : SyncPeerState :=
  { st with pendBlk := enqueue Prod.snd syncPendCap st.waitBlk rows st.pendBlk }

/-- After an apply: asks for the next headers of a short tail, when nothing is queued. -/
def liveTailPullHdr (st : SyncPeerState) (caps : SyncCaps) (localH : U64) :
    Bool × SyncPeerState :=
  let lag := st.tipH.saturatingSub localH
  if lag = 0#64 ∨ syncCupTailMax ≤ lag then (false, st)
  else if st.pendBlk ≠ [] ∨ st.waitBlk ≠ [] ∨ 0#8 < st.inHdr then (false, st)
  else st.askHdr (localH.saturatingAdd 1#64) caps.hdrHard

def onNack (st : SyncPeerState) : SyncPeerState :=
  reinqueue { st with
    inHdr := st.inHdr.saturatingSub 1#8
    inBlk := st.inBlk.saturatingSub 1#8
    waitHdrFrom := none
    waitBlk := [] } st.waitBlk

end SyncPeerState

/-- Headers that follow each other from a height and a hash on; the height after them. -/
def followHdrs (nextH : U64) (prevHash : String) : List SyncHeaderWire → Option U64
  | [] => some nextH
  | hdr :: rest =>
      if hdr.height = nextH ∧ hdr.prevHash = prevHash then
        followHdrs (nextH.saturatingAdd 1#64) hdr.hash rest
      else none

/-- The block of a row, if it is the one that was asked for. -/
def SyncBlockWire.answers (row : SyncBlockWire) (C : Crypto) (want : U64 × String) : Option Block :=
  if row.hash = want.2 ∧ row.height = want.1 then
    row.block.filter fun blk =>
      decide (hexEncode (hdrHash C blk.hdr) = row.hash ∧ blk.hdr.height = row.height)
  else none

/-- Compares rows with what was asked for: the blocks, and what is left of the request; or the
first that is not answered, and what is left after it. -/
def matchRows (C : Crypto) : List (U64 × String) → List SyncBlockWire →
    Except ((U64 × String) × List (U64 × String)) (List Block × List (U64 × String))
  | rest, [] => .ok ([], rest)
  | [], _ :: _ => .ok ([], [])
  | want :: rest, row :: rows =>
      match row.answers C want with
      | none => .error (want, rest)
      | some blk => (matchRows C rest rows).map fun p => (blk :: p.1, p.2)

section Handlers

variable (C : Crypto) (app : SyncApp) (caps : SyncCaps) (s : SyncLive)

/-- The live part of a tip announcement. -/
def SyncLive.onTip (headH : U64) : SyncLive :=
  let localH := s.inn.chain.tipH
  let st := { s.peer with tipH := s.peer.tipH.umax headH }
  if headH ≤ localH then { s with peer := st }
  else { s with peer := (st.askHdr (localH.saturatingAdd 1#64) caps.hdrHard).2 }

/-- The rows of a header batch that goes on from the tip, and the height after them. -/
def SyncLive.acceptHdrs (headers : List SyncHeaderWire) : Option (List (U64 × String) × U64) :=
  let localH := s.inn.chain.tipH
  match s.peer.waitHdrFrom with
  | none => none
  | some expH =>
      if headers.head?.map SyncHeaderWire.height ≠ some expH ∨
          (s.peer.waitHdrLim.umax 1#16).toNat < headers.length then none
      else if expH ≠ localH.saturatingAdd 1#64 then none
      else (followHdrs expH (hexEncode (s.inn.chain.tipHash C)) headers).map fun nextH =>
        (headers.map fun hdr => (hdr.height, hdr.hash), nextH)

/-- A header batch; the flag says that a further header request can be written. -/
def SyncLive.onHdrBatch (headers : List SyncHeaderWire) (wrote : Bool) : SyncLive :=
  if headers = [] ∨ caps.hdrHard.toNat < headers.length then s
  else
    let st := { s.peer with
      inHdr := s.peer.inHdr.saturatingSub 1#8
      waitHdrFrom := none }
    match s.acceptHdrs C headers with
    | none => { s with peer := st }
    | some (rows, nextH) =>
        let st := st.pushRows rows
        let (asked, st) :=
          if nextH ≤ st.tipH then st.askHdr nextH (st.waitHdrLim.umax 1#16) else (false, st)
        if asked ∧ ¬ wrote then { s with peer := st }
        else { s with peer := st.askBlk caps }

/-- A block batch; the flag says that a further header request can be written. -/
def SyncLive.onBlkBatch (blocks : List SyncBlockWire) (wrote : Bool) : SyncLive :=
  if blocks = [] ∨ caps.blkHard.toNat < blocks.length then s
  else
    let expected := s.peer.waitBlk
    let st := { s.peer with
      inBlk := s.peer.inBlk.saturatingSub 1#8
      waitBlk := [] }
    if expected = [] then { s with peer := st }
    else match matchRows C expected blocks with
    | .error (want, rest) =>
        let st := st.reinqueue rest
        { s with peer := { st with pendBlk := want :: st.pendBlk } }
    | .ok (applyRows, rest) =>
        match app.applyBlkBatch C s.inn applyRows with
        | (.ok (), inn) =>
            let (asked, st) := (st.reinqueue rest).liveTailPullHdr caps inn.chain.tipH
            if asked ∧ ¬ wrote then ⟨inn, st⟩ else ⟨inn, st.askBlk caps⟩
        | (.error (.err _), inn) => ⟨inn, (st.reinqueue rest).askBlk caps⟩
        -- the task that held the peer's rows is gone
        | (.error .panic, inn) => ⟨inn, st⟩

inductive SyncEvent
  | tip (headH : U64)
  | hdrBatch (headers : List SyncHeaderWire) (wrote : Bool)
  | askBlk
  | blkBatch (blocks : List SyncBlockWire) (wrote : Bool)
  | nack

def SyncLive.step : SyncEvent → SyncLive
  | .tip headH => s.onTip caps headH
  | .hdrBatch headers wrote => s.onHdrBatch C caps headers wrote
  | .askBlk => { s with peer := s.peer.askBlk caps }
  | .blkBatch blocks wrote => s.onBlkBatch C app caps blocks wrote
  | .nack => { s with peer := s.peer.onNack }

/-- The node after these events. -/
def syncAfter (events : List SyncEvent) : SyncLive :=
  events.foldl (SyncLive.step C app caps) s

end Handlers

/-! ## No gaps -/

/-- The awaited blocks, then the pending ones. -/
def SyncPeerState.queue (st : SyncPeerState) : List (U64 × String) :=
  st.waitBlk ++ st.pendBlk

/-- The queued heights are those after the tip, one by one. -/
def SyncLive.NoGaps (s : SyncLive) : Prop :=
  s.peer.queue.map (fun row => row.1.toNat) =
    List.range' (s.inn.chain.tipH.toNat + 1) s.peer.queue.length

/-- What was asked for and is not applied is still queued. -/
def SyncLive.Keeps (s s' : SyncLive) : Prop :=
  ∀ row ∈ s.peer.waitBlk, row ∈ s'.peer.queue ∨ row.1 ≤ s'.inn.chain.tipH

/-- The headers that are taken go on from the queue: their hashes are distinct and begin as those
of the queue, and their heights do not run out. -/
def SyncLive.HeadersMet (C : Crypto) (caps : SyncCaps) (s : SyncLive)
    (headers : List SyncHeaderWire) : Prop :=
  headers.length ≤ caps.hdrHard.toNat → ∀ rows nextH, s.acceptHdrs C headers = some (rows, nextH) →
    s.inn.chain.tipH.toNat + rows.length < 2 ^ 64 ∧ (rows.map Prod.snd).Nodup ∧
      (s.peer.queue.map Prod.snd <+: rows.map Prod.snd ∨
        rows.map Prod.snd <+: s.peer.queue.map Prod.snd)

/-- A batch is bad at its first row, or its blocks are applied and their snapshot is saved. -/
def SyncLive.BlocksMet (C : Crypto) (app : SyncApp) (caps : SyncCaps) (s : SyncLive)
    (blocks : List SyncBlockWire) : Prop :=
  blocks ≠ [] → blocks.length ≤ caps.blkHard.toNat → s.peer.waitBlk ≠ [] →
    match matchRows C s.peer.waitBlk blocks with
    | .error (want, rest) => s.peer.waitBlk = want :: rest
    | .ok (applyRows, _) => (∃ reached, applyBlkBatch C s.inn applyRows = .ok reached) ∧
        ¬ SaveFails C app s.inn applyRows

def SyncLive.Met (C : Crypto) (app : SyncApp) (caps : SyncCaps) (s : SyncLive) :
    SyncEvent → Prop
  | .hdrBatch headers _ => s.HeadersMet C caps headers
  | .blkBatch blocks _ => s.BlocksMet C app caps blocks
  | _ => True

/-- A queue without gaps, with a hash for each row, that fits in one header batch. -/
structure QueueSound (tipH : U64) (queue : List (U64 × String)) : Prop where
  heights : queue.map (fun row => row.1.toNat) = List.range' (tipH.toNat + 1) queue.length
  hashes : (queue.map Prod.snd).Nodup
  room : queue.length ≤ syncHdrReqCap.toNat

namespace QueueSound

variable {tipH tipH' : U64} {front rest queue : List (U64 × String)} {row : U64 × String}

theorem nil : QueueSound tipH [] := by
  constructor
  · rfl
  · exact List.nodup_nil
  · exact Nat.zero_le _

/-- The rows in front are those up to their number above the tip. -/
theorem front_le (h : QueueSound tipH (front ++ rest)) (hrow : row ∈ front) :
    row.1.toNat ≤ tipH.toNat + front.length := by
  have hheights := h.heights
  rw [List.map_append, List.length_append, ← List.range'_append_1] at hheights
  have hfront := List.append_inj_left hheights (by rw [List.length_map, List.length_range'])
  have hmem : row.1.toNat ∈ List.range' (tipH.toNat + 1) front.length := by
    rw [← hfront]
    exact List.mem_map_of_mem hrow
  rw [List.mem_range'_1] at hmem
  omega

/-- Queued heights are heights. -/
theorem fits (h : QueueSound tipH queue) : tipH.toNat + queue.length < 2 ^ 64 := by
  have htip := tipH.isLt
  rcases Nat.eq_zero_or_pos queue.length with hnone | hsome
  · omega
  · have hlast : tipH.toNat + queue.length ∈ List.range' (tipH.toNat + 1) queue.length := by
      rw [List.mem_range'_1]
      omega
    rw [← h.heights] at hlast
    obtain ⟨row, -, hrow⟩ := List.mem_map.mp hlast
    rw [← hrow]
    exact row.1.isLt

theorem drop (h : QueueSound tipH (front ++ rest))
    (htip : tipH'.toNat = tipH.toNat + front.length) : QueueSound tipH' rest := by
  constructor
  · have hheights := h.heights
    rw [List.map_append, List.length_append, ← List.range'_append_1] at hheights
    have hrest := List.append_inj_right hheights (by rw [List.length_map, List.length_range'])
    rw [hrest, htip]
    congr 1
    omega
  · have hhashes := h.hashes
    rw [List.map_append] at hhashes
    exact hhashes.of_append_right
  · have hroom := h.room
    rw [List.length_append] at hroom
    omega

end QueueSound

section Steps

variable {C : Crypto} {app : SyncApp} {caps : SyncCaps} {s : SyncLive} {st : SyncPeerState}
  {rows : List (U64 × String)} {headers : List SyncHeaderWire} {blocks : List SyncBlockWire}

theorem askHdr_queue (st : SyncPeerState) (fromH : U64) (lim : U16) :
    (st.askHdr fromH lim).2.queue = st.queue := by
  unfold SyncPeerState.askHdr
  split
  · rfl
  · split <;> rfl

theorem askBlk_queue (st : SyncPeerState) (caps : SyncCaps) :
    (st.askBlk caps).queue = st.queue := by
  unfold SyncPeerState.askBlk
  dsimp only
  split
  · rfl
  · rename_i hidle
    rw [not_or, ne_eq, not_not] at hidle
    split
    · rfl
    · rw [SyncPeerState.queue, SyncPeerState.queue, hidle.2, List.take_append_drop, List.nil_append]

theorem liveTailPullHdr_queue (st : SyncPeerState) (caps : SyncCaps) (localH : U64) :
    (st.liveTailPullHdr caps localH).2.queue = st.queue := by
  unfold SyncPeerState.liveTailPullHdr
  dsimp only
  split
  · rfl
  · split
    · rfl
    · exact askHdr_queue _ _ _

/-- Awaited rows that go back are in front of the pending ones again. -/
theorem reinqueue_queue {tipH : U64} (hsound : QueueSound tipH (rows ++ st.pendBlk))
    (hnone : st.waitBlk = []) : (st.reinqueue rows).queue = rows ++ st.pendBlk := by
  have hroom := hsound.room
  have hcap : syncHdrReqCap.toNat ≤ syncPendCap := by decide
  rw [SyncPeerState.queue, SyncPeerState.reinqueue, hnone, List.nil_append]
  exact requeue_eq hsound.hashes (by omega)

/-- The heights of headers that follow each other. -/
theorem followHdrs_heights {nextH endH : U64} {prevHash : String}
    (hok : followHdrs nextH prevHash headers = some endH)
    (hfits : nextH.toNat + headers.length ≤ 2 ^ 64) :
    headers.map (fun hdr => hdr.height.toNat) = List.range' nextH.toNat headers.length := by
  induction headers generalizing nextH prevHash with
  | nil => rfl
  | cons hdr rest ih =>
      rw [followHdrs] at hok
      split at hok
      · rename_i hnext
        rw [List.length_cons] at hfits
        rw [List.map_cons, List.length_cons, List.range'_succ, hnext.1]
        cases rest with
        | nil => rfl
        | cons hdr' rest =>
            rw [List.length_cons] at hfits
            have hsucc : (nextH.saturatingAdd 1#64).toNat = nextH.toNat + 1 := by
              have hone : (1#64 : U64).toNat = 1 := rfl
              rw [BitVec.toNat_saturatingAdd, hone]
              omega
            rw [ih hok (by rw [hsucc, List.length_cons]; omega), hsucc]
      · cases hok

/-- The rows of an accepted batch are those after the tip. -/
theorem acceptHdrs_heights {nextH : U64} (hok : s.acceptHdrs C headers = some (rows, nextH))
    (hfits : s.inn.chain.tipH.toNat + rows.length < 2 ^ 64) :
    rows.map (fun row => row.1.toNat) =
      List.range' (s.inn.chain.tipH.toNat + 1) rows.length := by
  unfold SyncLive.acceptHdrs at hok
  dsimp only at hok
  split at hok
  · cases hok
  · split at hok
    · cases hok
    · split at hok
      · cases hok
      · rename_i expH _ _ hnext
        obtain ⟨endH, hfollow, hpair⟩ := Option.map_eq_some_iff.mp hok
        obtain ⟨rfl, -⟩ := Prod.mk.inj hpair
        rw [List.length_map] at hfits ⊢
        have hexp : headers ≠ [] → expH.toNat = s.inn.chain.tipH.toNat + 1 := by
          intro hne
          have hpos := List.length_pos_iff.mpr hne
          have hone : (1#64 : U64).toNat = 1 := rfl
          rw [not_not.mp hnext, BitVec.toNat_saturatingAdd, hone]
          omega
        cases headers with
        | nil => rfl
        | cons hdr rest =>
            have hstart := hexp (List.cons_ne_nil _ _)
            have hheights := followHdrs_heights hfollow (by rw [hstart]; omega)
            rw [List.map_map, ← hstart, ← hheights]
            rfl

theorem acceptHdrs_length {nextH : U64} (hok : s.acceptHdrs C headers = some (rows, nextH)) :
    rows.length = headers.length := by
  unfold SyncLive.acceptHdrs at hok
  dsimp only at hok
  split at hok
  · cases hok
  · split at hok
    · cases hok
    · split at hok
      · cases hok
      · obtain ⟨endH, -, hpair⟩ := Option.map_eq_some_iff.mp hok
        obtain ⟨rfl, -⟩ := Prod.mk.inj hpair
        exact List.length_map _

/-- What was matched is the front of the request. -/
theorem matchRows_ok {expected rest : List (U64 × String)} {applyRows : List Block}
    (hok : matchRows C expected blocks = .ok (applyRows, rest)) :
    ∃ front, expected = front ++ rest ∧ front.length = applyRows.length := by
  induction blocks generalizing expected applyRows with
  | nil =>
      rw [matchRows] at hok
      obtain ⟨rfl, rfl⟩ := Prod.mk.inj (Except.ok.inj hok)
      exact ⟨[], rfl, rfl⟩
  | cons row rows ih =>
      cases expected with
      | nil =>
          rw [matchRows] at hok
          obtain ⟨rfl, rfl⟩ := Prod.mk.inj (Except.ok.inj hok)
          exact ⟨[], rfl, rfl⟩
      | cons want wants =>
          rw [matchRows] at hok
          split at hok
          · cases hok
          · rename_i blk _
            cases hrest : matchRows C wants rows with
            | error e =>
                rw [hrest] at hok
                cases hok
            | ok p =>
                rw [hrest] at hok
                obtain ⟨rfl, rfl⟩ := Prod.mk.inj (Except.ok.inj hok)
                obtain ⟨front, rfl, hlength⟩ := ih hrest
                exact ⟨want :: front, rfl, by rw [List.length_cons, List.length_cons, hlength]⟩

theorem hdrHard_le (caps : SyncCaps) : caps.hdrHard.toNat ≤ syncHdrReqCap.toNat := by
  have hcap : syncHdrReqCap.toNat = 128 := rfl
  have hone : (1#16 : U16).toNat = 1 := rfl
  rw [SyncCaps.hdrHard, BitVec.toNat_umax, BitVec.toNat_umin, hcap, hone]
  omega

/-- New rows that go on from the queue leave it without a gap. -/
theorem pushRows_sound {tipH : U64} (hsound : QueueSound tipH st.queue)
    (hheights : rows.map (fun row => row.1.toNat) = List.range' (tipH.toNat + 1) rows.length)
    (hhashes : (rows.map Prod.snd).Nodup) (hroom : rows.length ≤ syncHdrReqCap.toNat)
    (hagree : st.queue.map Prod.snd <+: rows.map Prod.snd ∨
      rows.map Prod.snd <+: st.queue.map Prod.snd) :
    ∃ back, (st.pushRows rows).queue = st.queue ++ back ∧ QueueSound tipH (st.queue ++ back) := by
  have hcap : syncHdrReqCap.toNat ≤ syncPendCap := by decide
  have hqueue : (st.pushRows rows).queue = st.queue ++ rows.drop st.queue.length :=
    enqueue_agree hhashes (by omega) hagree
  refine ⟨_, hqueue, ?_⟩
  rcases hagree with hbegins | hknown
  · have hcount : st.queue.length ≤ rows.length := by
      simpa only [List.length_map] using hbegins.length_le
    have hhash : (st.queue ++ rows.drop st.queue.length).map Prod.snd = rows.map Prod.snd := by
      have htake := List.prefix_iff_eq_take.mp hbegins
      rw [List.length_map] at htake
      rw [List.map_append, htake, List.map_drop, List.take_append_drop]
    have hlength : (st.queue ++ rows.drop st.queue.length).length = rows.length := by
      rw [List.length_append, List.length_drop]
      omega
    constructor
    · rw [List.map_append, List.map_drop, hheights, hsound.heights, hlength,
        ← Nat.add_sub_of_le hcount, ← List.range'_append_1, List.drop_left']
      exact List.length_range'
    · rw [hhash]
      exact hhashes
    · rw [hlength]
      exact hroom
  · have hcount : rows.length ≤ st.queue.length := by
      simpa only [List.length_map] using hknown.length_le
    rw [List.drop_of_length_le hcount, List.append_nil]
    exact hsound

/-- A step puts rows behind the queue, and takes those that were applied off its front. -/
def SyncLive.Advances (s s' : SyncLive) : Prop :=
  ∃ front back, QueueSound s.inn.chain.tipH (s.peer.queue ++ back) ∧
    s.peer.queue ++ back = front ++ s'.peer.queue ∧
    s'.inn.chain.tipH.toNat = s.inn.chain.tipH.toNat + front.length

theorem advances_same {s' : SyncLive} (hsound : QueueSound s.inn.chain.tipH s.peer.queue)
    (hinn : s'.inn = s.inn) (hqueue : s'.peer.queue = s.peer.queue) : s.Advances s' := by
  refine ⟨[], [], ?_, ?_, ?_⟩
  · rw [List.append_nil]
    exact hsound
  · rw [List.append_nil, List.nil_append, hqueue]
  · rw [hinn, List.length_nil, Nat.add_zero]

theorem onTip_advances (hsound : QueueSound s.inn.chain.tipH s.peer.queue) (headH : U64) :
    s.Advances (s.onTip caps headH) := by
  unfold SyncLive.onTip
  dsimp only
  split
  · exact advances_same hsound rfl rfl
  · exact advances_same hsound rfl (askHdr_queue _ _ _)

theorem onHdrBatch_advances (hsound : QueueSound s.inn.chain.tipH s.peer.queue)
    (hmet : s.HeadersMet C caps headers) (wrote : Bool) :
    s.Advances (s.onHdrBatch C caps headers wrote) := by
  unfold SyncLive.onHdrBatch
  split
  · exact advances_same hsound rfl rfl
  · rename_i hsize
    have hlength : headers.length ≤ caps.hdrHard.toNat := by
      by_contra hover
      exact hsize (.inr (by omega))
    cases haccept : s.acceptHdrs C headers with
    | none => exact advances_same hsound rfl rfl
    | some p =>
        obtain ⟨rows, nextH⟩ := p
        obtain ⟨hfits, hhashes, hagree⟩ := hmet hlength rows nextH haccept
        have hrows : rows.length ≤ syncHdrReqCap.toNat := by
          rw [acceptHdrs_length haccept]
          exact hlength.trans (hdrHard_le caps)
        obtain ⟨back, hqueue, hback⟩ := @pushRows_sound
          { s.peer with inHdr := s.peer.inHdr.saturatingSub 1#8, waitHdrFrom := none } rows
          s.inn.chain.tipH hsound (acceptHdrs_heights haccept hfits) hhashes hrows hagree
        refine ⟨[], back, hback, ?_, ?_⟩
        · dsimp only
          rw [List.nil_append]
          have hasked : ∀ q : Bool × SyncPeerState, q.2.queue = s.peer.queue ++ back →
              s.peer.queue ++ back = (if q.1 = true ∧ ¬ wrote = true then
                { s with peer := q.2 } else { s with peer := q.2.askBlk caps }).peer.queue := by
            intro q hq
            split
            · exact hq.symm
            · exact (askBlk_queue q.2 caps).symm ▸ hq.symm
          apply hasked
          split
          · rw [askHdr_queue]
            exact hqueue
          · exact hqueue
        · dsimp only
          split <;> split <;> rfl

/-- After an apply: the header request and the next block request leave the queue. -/
theorem afterApply_queue (st : SyncPeerState) (inn : Inner) (caps : SyncCaps) (wrote : Bool) :
    (if (st.liveTailPullHdr caps inn.chain.tipH).1 = true ∧ ¬ wrote = true then
        (⟨inn, (st.liveTailPullHdr caps inn.chain.tipH).2⟩ : SyncLive)
      else ⟨inn, (st.liveTailPullHdr caps inn.chain.tipH).2.askBlk caps⟩).peer.queue = st.queue := by
  split
  · exact liveTailPullHdr_queue _ _ _
  · exact (askBlk_queue _ _).trans (liveTailPullHdr_queue _ _ _)

theorem onBlkBatch_advances (hsound : QueueSound s.inn.chain.tipH s.peer.queue)
    (hmet : s.BlocksMet C app caps blocks) (wrote : Bool) :
    s.Advances (s.onBlkBatch C app caps blocks wrote) := by
  unfold SyncLive.onBlkBatch
  split
  · exact advances_same hsound rfl rfl
  · rename_i hsize
    rw [not_or, not_lt] at hsize
    dsimp only
    split
    · rename_i hnone
      refine advances_same hsound rfl ?_
      rw [SyncPeerState.queue, SyncPeerState.queue, hnone]
    · rename_i hsome
      have hgood := hmet hsize.1 hsize.2 hsome
      cases hmatch : matchRows C s.peer.waitBlk blocks with
      | error p =>
          -- the first row is put back in front of the others
          obtain ⟨want, rest⟩ := p
          rw [hmatch] at hgood
          have hsound' : QueueSound s.inn.chain.tipH ([want] ++ (rest ++ s.peer.pendBlk)) := by
            rw [SyncPeerState.queue, hgood] at hsound
            exact hsound
          have hroom := hsound'.room
          rw [List.length_append, List.length_singleton] at hroom
          have hcap : syncHdrReqCap.toNat ≤ syncPendCap := by decide
          have hrequeue : requeue Prod.snd syncPendCap rest s.peer.pendBlk =
              rest ++ s.peer.pendBlk := by
            apply requeue_eq
            · have hhashes := hsound'.hashes
              rw [List.map_append] at hhashes
              exact hhashes.of_append_right
            · omega
          refine advances_same hsound rfl ?_
          dsimp only
          rw [SyncPeerState.queue, SyncPeerState.reinqueue, hrequeue, SyncPeerState.queue, hgood]
          rfl
      | ok p =>
          obtain ⟨applyRows, rest⟩ := p
          rw [hmatch] at hgood
          obtain ⟨⟨reached, hok⟩, hsave⟩ := hgood
          obtain ⟨front, hwait, hlength⟩ := matchRows_ok hmatch
          have hqueue : s.peer.queue = front ++ (rest ++ s.peer.pendBlk) := by
            rw [SyncPeerState.queue, hwait, List.append_assoc]
          have htip : reached.chain.tipH.toNat = s.inn.chain.tipH.toNat + front.length := by
            have hfits := hsound.fits
            rw [hqueue, List.length_append] at hfits
            rw [applyBlkBatch_tipH hok, hlength]
            omega
          have hrest : QueueSound reached.chain.tipH (rest ++ s.peer.pendBlk) := by
            rw [hqueue] at hsound
            exact hsound.drop htip
          dsimp only
          rw [applyBlkBatch_saved hok hsave]
          refine ⟨front, [], ?_, ?_, ?_⟩
          · rw [List.append_nil]
            exact hsound
          · dsimp only
            rw [afterApply_queue, List.append_nil, hqueue]
            congr 1
            exact (@reinqueue_queue
              { s.peer with inBlk := s.peer.inBlk.saturatingSub 1#8, waitBlk := [] } rest
              reached.chain.tipH hrest rfl).symm
          · dsimp only
            split <;> exact htip

theorem onNack_advances (hsound : QueueSound s.inn.chain.tipH s.peer.queue) :
    s.Advances { s with peer := s.peer.onNack } :=
  advances_same hsound rfl (reinqueue_queue hsound rfl)

/-- Every step of which the peer meets its part goes on without a gap. -/
theorem step_advances (hsound : QueueSound s.inn.chain.tipH s.peer.queue) {event : SyncEvent}
    (hmet : s.Met C app caps event) : s.Advances (s.step C app caps event) := by
  cases event with
  | tip headH => exact onTip_advances hsound headH
  | hdrBatch headers wrote => exact onHdrBatch_advances hsound hmet wrote
  | askBlk => exact advances_same hsound rfl (askBlk_queue _ _)
  | blkBatch blocks wrote => exact onBlkBatch_advances hsound hmet wrote
  | nack => exact onNack_advances hsound

theorem SyncLive.Advances.sound {s' : SyncLive} (h : s.Advances s') :
    QueueSound s'.inn.chain.tipH s'.peer.queue := by
  obtain ⟨front, back, hsound, hqueue, htip⟩ := h
  rw [hqueue] at hsound
  exact hsound.drop htip

theorem SyncLive.Advances.keeps {s' : SyncLive} (h : s.Advances s') : s.Keeps s' := by
  obtain ⟨front, back, hsound, hqueue, htip⟩ := h
  intro row hrow
  have hmem : row ∈ front ++ s'.peer.queue := by
    rw [← hqueue]
    exact List.mem_append_left _ (List.mem_append_left _ hrow)
  rcases List.mem_append.mp hmem with hfront | hqueued
  · right
    rw [hqueue] at hsound
    rw [BitVec.le_def, htip]
    exact hsound.front_le hfront
  · exact .inl hqueued

end Steps

section Runs

variable {C : Crypto} {app : SyncApp} {caps : SyncCaps} {events : List SyncEvent}

theorem syncAfter_take_succ (s : SyncLive) {n : Nat} {event : SyncEvent}
    (hevent : events[n]? = some event) :
    syncAfter C app caps s (events.take (n + 1)) =
      (syncAfter C app caps s (events.take n)).step C app caps event := by
  rw [List.take_add_one, hevent, syncAfter, List.foldl_append]
  rfl

theorem syncAfter_sound {s : SyncLive} (hsound : QueueSound s.inn.chain.tipH s.peer.queue)
    (hmet : ∀ n event, events[n]? = some event →
      (syncAfter C app caps s (events.take n)).Met C app caps event) (n : Nat) :
    QueueSound (syncAfter C app caps s (events.take n)).inn.chain.tipH
      (syncAfter C app caps s (events.take n)).peer.queue := by
  induction n with
  | zero => exact hsound
  | succ n ih =>
      cases hevent : events[n]? with
      | none =>
          have hend := List.getElem?_eq_none_iff.mp hevent
          rw [List.take_of_length_le (by omega), ← List.take_of_length_le hend]
          exact ih
      | some event =>
          rw [syncAfter_take_succ s hevent]
          exact (step_advances ih (hmet n event hevent)).sound

/-- In every run from a fresh peer of which the peer meets its part, the queue has no gap after any
step, and no step forgets what was asked for and is not applied. -/
theorem syncQueue_noGaps {inn : Inner}
    (hmet : ∀ n event, events[n]? = some event →
      (syncAfter C app caps ⟨inn, {}⟩ (events.take n)).Met C app caps event) :
    ∀ n ≤ events.length, (syncAfter C app caps ⟨inn, {}⟩ (events.take n)).NoGaps ∧
      (syncAfter C app caps ⟨inn, {}⟩ (events.take n)).Keeps
        (syncAfter C app caps ⟨inn, {}⟩ (events.take (n + 1))) := by
  intro n _
  have hsound := syncAfter_sound (s := ⟨inn, {}⟩) QueueSound.nil hmet n
  constructor
  · exact hsound.heights
  · cases hevent : events[n]? with
    | none =>
        have hend := List.getElem?_eq_none_iff.mp hevent
        rw [List.take_of_length_le (i := n + 1) (by omega), List.take_of_length_le hend]
        intro row hrow
        exact .inl (List.mem_append_left _ hrow)
    | some event =>
        rw [syncAfter_take_succ _ hevent]
        exact (step_advances hsound (hmet n event hevent)).keeps

end Runs

/-! ## A batch that is bad after its first row -/

namespace ShortAnswer

open MissedPrimary (primaryHdr)
open PolicyRace (genesisHash)

def firstHash : Bytes32 :=
  0x27c60ae33ccfbdb75866f987a9b347acecbefb738f4e6ad6df7f7c18f3fa9457#256

def secondHash : Bytes32 :=
  0xb2b2b2b2b2b2b2b2b2b2b2b2b2b2b2b2b2b2b2b2b2b2b2b2b2b2b2b2b2b2b2b2#256

def crypto : Crypto :=
  .ofTables ((primaryHdr.bytes, firstHash) :: MissedPrimary.hashes) MissedPrimary.keys

def app : SyncApp := ⟨true, none⟩
def caps : SyncCaps := ⟨128#16, 32#16⟩

def fresh : SyncLive := { inn := UnsavedBatch.standby }

def firstHeader : SyncHeaderWire := ⟨1#64, hexEncode firstHash, hexEncode genesisHash⟩
def secondHeader : SyncHeaderWire := ⟨2#64, hexEncode secondHash, hexEncode firstHash⟩

def firstRow : SyncBlockWire := ⟨1#64, hexEncode firstHash, some UnsavedBatch.sealed⟩

/-- The second block is not there. -/
def emptyRow : SyncBlockWire := ⟨2#64, hexEncode secondHash, none⟩

def badSecond : List SyncEvent :=
  [.tip 2#64, .hdrBatch [firstHeader, secondHeader] true, .blkBatch [firstRow, emptyRow] true]

def answered : List SyncEvent :=
  [.tip 1#64, .hdrBatch [firstHeader] true, .blkBatch [firstRow] true]

theorem accepted : (syncAfter crypto app caps fresh (answered.take 1)).acceptHdrs crypto
    [firstHeader] = some ([(1#64, hexEncode firstHash)], 2#64) := by
  decide

theorem matched : matchRows crypto
    (syncAfter crypto app caps fresh (answered.take 2)).peer.waitBlk [firstRow] =
      .ok ([UnsavedBatch.sealed], []) := by
  decide +kernel

theorem seal_first :
    sealEntries crypto PolicyRace.now MissedPrimary.chain [] = .ok MissedPrimary.afterPrimary := by
  unfold sealEntries digest crypto MissedPrimary.hashes State.bytes Account.bytes
  -- bytes put together from the end are faster to compute
  simp -zeta only [List.append_assoc]
  decide +kernel

theorem applied : applyBlkBatch crypto
    (syncAfter crypto app caps fresh (answered.take 2)).inn [UnsavedBatch.sealed] =
      .ok UnsavedBatch.reached := by
  have hinn : (syncAfter crypto app caps fresh (answered.take 2)).inn = UnsavedBatch.standby := by
    decide +kernel
  have hblk : applyBlk crypto UnsavedBatch.standby UnsavedBatch.sealed = .ok UnsavedBatch.reached :=
    applyBlk_of_sealed_empty MissedPrimary.keysMatch MissedPrimary.signsVerify seal_first
  rw [hinn, applyBlkBatch, List.foldlM_cons, hblk]
  rfl

/-- Every event of the run finds its part met. -/
theorem answered_met : ∀ n event, answered[n]? = some event →
    (syncAfter crypto app caps fresh (answered.take n)).Met crypto app caps event := by
  intro n event hevent
  match n, hevent with
  | 0, hevent =>
      obtain rfl := Option.some.inj hevent
      trivial
  | 1, hevent =>
      obtain rfl := Option.some.inj hevent
      intro _ rows nextH haccept
      rw [accepted] at haccept
      obtain ⟨rfl, -⟩ := Prod.mk.inj (Option.some.inj haccept)
      have hqueue : (syncAfter crypto app caps fresh (answered.take 1)).peer.queue = [] := by
        decide
      have htip : (syncAfter crypto app caps fresh (answered.take 1)).inn.chain.tipH = 0#64 := by
        decide
      rw [hqueue, htip]
      refine ⟨?_, List.nodup_singleton _, .inl (List.nil_prefix)⟩
      rw [List.length_singleton]
      decide
  | 2, hevent =>
      obtain rfl := Option.some.inj hevent
      intro _ _ _
      rw [matched]
      refine ⟨⟨_, applied⟩, ?_⟩
      rintro ⟨_, _, _, _, _, hbackend, _⟩
      cases hbackend

end ShortAnswer

/-- The answered block is applied, and the queue is empty. -/
theorem answered_noGaps :
    (syncAfter ShortAnswer.crypto ShortAnswer.app ShortAnswer.caps ShortAnswer.fresh
      ShortAnswer.answered).NoGaps :=
  (syncQueue_noGaps ShortAnswer.answered_met 3 le_rfl).1

/-- The second row of the answer is empty: the first block is neither applied nor queued. -/
theorem badSecond_gap :
    (syncAfter ShortAnswer.crypto ShortAnswer.app ShortAnswer.caps ShortAnswer.fresh
        ShortAnswer.badSecond).peer.queue.map (fun row => row.1.toNat) = [2] ∧
      ¬ (syncAfter ShortAnswer.crypto ShortAnswer.app ShortAnswer.caps ShortAnswer.fresh
        ShortAnswer.badSecond).NoGaps := by
  obtain ⟨hqueue, htip⟩ : (syncAfter ShortAnswer.crypto ShortAnswer.app ShortAnswer.caps
        ShortAnswer.fresh ShortAnswer.badSecond).peer.queue.map (fun row => row.1.toNat) = [2] ∧
      (syncAfter ShortAnswer.crypto ShortAnswer.app ShortAnswer.caps ShortAnswer.fresh
        ShortAnswer.badSecond).inn.chain.tipH = 0#64 := by
    decide +kernel
  refine ⟨hqueue, fun hgaps => ?_⟩
  have hlength := congrArg List.length hqueue
  rw [List.length_map] at hlength
  rw [SyncLive.NoGaps, hqueue, htip, hlength] at hgaps
  cases hgaps

end Pwm
