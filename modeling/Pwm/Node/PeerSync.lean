import Pwm.Node.PeerAnswers

/-!
# Two nodes sync

A node that is behind and a peer that has the blocks exchange messages: the
peer announces its tip, the node asks, the peer answers each request in turn.
Every announcement is followed by finitely many messages, after which the node
is closer to the tip; after as many announcements as there are blocks to fetch
it holds them all.
-/

namespace Pwm

open BitVec Attempt Chunks

section Exchange

variable (C : Crypto) (J : BlockJson) (blockSize : Nat) (app : SyncApp) (cfg : TransportConfig)
  (caps srvCaps : SyncCaps) (canCup : Bool) (srv : SyncServer)

/-- A session takes messages one after the other, without a reason to close the connection; the
requests that go out meanwhile. -/
inductive Handles (now : U64) : PeerSession → List SyncAnswer → List SyncAsk → PeerSession → Prop
  | nil (s : PeerSession) : Handles now s [] [] s
  | cons {s s' : PeerSession} {answer : SyncAnswer} {rest : List SyncAnswer}
      {asks : List SyncAsk} {out : SyncOut}
      (hout : s.step C app cfg caps canCup (.msg answer now true) = out) (hdiv : out.div = none)
      (hrest : Handles now out.s rest asks s') :
      Handles now s (answer :: rest) (out.asks ++ asks) s'

/-- The peer answers the requests that are under way in their order, until there is none. -/
inductive Settles (now : U64) : PeerSession → List SyncAsk → PeerSession → Prop
  | nil (s : PeerSession) : Settles now s [] s
  | cons {s s₁ s' : PeerSession} {ask : SyncAsk} {rest more : List SyncAsk}
      (hanswer : Handles C app cfg caps canCup now s
        (srv.answer C J blockSize srvCaps canCup ask) more s₁)
      (hrest : Settles now s₁ (rest ++ more) s') : Settles now s (ask :: rest) s'

/-- The peer announces its tip at these times; the messages after one announcement come before the
next. -/
inductive Rounds : List U64 → PeerSession → PeerSession → Prop
  | nil (s : PeerSession) : Rounds [] s s
  | cons {now : U64} {nows : List U64} {s s₁ s₂ s' : PeerSession} {asks : List SyncAsk}
      (htip : Handles C app cfg caps canCup now s [srv.tip C] asks s₁)
      (hsettles : Settles C J blockSize app cfg caps srvCaps canCup srv now s₁ asks s₂)
      (hrest : Rounds nows s₂ s') : Rounds (now :: nows) s s'

end Exchange

/-! ## What a session takes of a peer -/

section Takes

variable {C : Crypto} {inn inn' : Inner} {blocks : List Block} {nextH : U64} {prevHash : String}

/-- The headers of blocks that the node accepts go on from its tip. -/
theorem walkHdrs_served (happly : applyBlkBatch C inn blocks = .ok inn')
    (hnext : nextH = inn.chain.tipH.saturatingAdd 1#64)
    (hprev : prevHash = hexEncode (inn.chain.tipHash C)) :
    walkHdrs nextH prevHash (blocks.map (headerWire C)) =
      .ok (inn'.chain.tipH.saturatingAdd 1#64) := by
  induction blocks generalizing inn nextH prevHash with
  | nil =>
      obtain rfl := Except.ok.inj happly
      rw [List.map_nil, walkHdrs, hnext]
  | cons blk rest ih =>
      obtain ⟨inn₁, hblk, happly⟩ := except_bind_ok_iff.mp happly
      obtain ⟨htip, hhash⟩ := applyBlk_tip hblk
      obtain ⟨st', hreplays, -⟩ := applyBlk_chain hblk
      have hheight : blk.hdr.height = nextH := hreplays.height.trans hnext.symm
      have hlink : hexEncode blk.hdr.prevHash = prevHash := by
        rw [hreplays.prevHash, hprev]
      have hgood : ¬ ((headerWire C blk).height ≠ nextH ∨
          (headerWire C blk).prevHash ≠ prevHash) := by
        rintro (hbad | hbad)
        · exact hbad hheight
        · exact hbad hlink
      rw [List.map_cons, walkHdrs, if_neg hgood]
      apply ih happly
      · rw [htip, hheight]
      · rw [hhash]
        rfl

/-- The rows of such blocks pass a window that they lie in. -/
theorem walkChunk_served (fromH toH : U64) (happly : applyBlkBatch C inn blocks = .ok inn')
    (hnext : nextH = inn.chain.tipH.saturatingAdd 1#64)
    (hprev : prevHash = hexEncode (inn.chain.tipHash C))
    (hrange : ∀ b ∈ blocks, fromH ≤ b.hdr.height ∧ b.hdr.height ≤ toH) :
    walkChunk C fromH toH nextH prevHash
        ((blocks.map (headerWire C)).zip (blocks.map (blockWire C))) =
      .ok (inn'.chain.tipH.saturatingAdd 1#64, hexEncode (inn'.chain.tipHash C), blocks) := by
  induction blocks generalizing inn nextH prevHash with
  | nil =>
      obtain rfl := Except.ok.inj happly
      rw [List.map_nil, List.zip_nil_left, walkChunk, hnext, hprev]
  | cons blk rest ih =>
      obtain ⟨inn₁, hblk, happly⟩ := except_bind_ok_iff.mp happly
      obtain ⟨htip, hhash⟩ := applyBlk_tip hblk
      obtain ⟨st', hreplays, -⟩ := applyBlk_chain hblk
      have hheight : blk.hdr.height = nextH := hreplays.height.trans hnext.symm
      have hlink : hexEncode blk.hdr.prevHash = prevHash := by
        rw [hreplays.prevHash, hprev]
      obtain ⟨hlow, hhigh⟩ := hrange blk List.mem_cons_self
      have hgood : ¬ ((headerWire C blk).height ≠ nextH ∨ (headerWire C blk).prevHash ≠ prevHash ∨
          (blockWire C blk).height ≠ (headerWire C blk).height ∨
            (blockWire C blk).hash ≠ (headerWire C blk).hash) := by
        rintro (hbad | hbad | hbad | hbad)
        · exact hbad hheight
        · exact hbad hlink
        · exact hbad rfl
        · exact hbad rfl
      have hinside : ¬ ((headerWire C blk).height < fromH ∨ toH < (headerWire C blk).height) := by
        rw [le_def] at hlow hhigh
        rintro (hbad | hbad)
        · rw [lt_def] at hbad
          exact absurd hlow (Nat.not_le_of_lt hbad)
        · rw [lt_def] at hbad
          exact absurd hhigh (Nat.not_le_of_lt hbad)
      have hnext' : nextH.saturatingAdd 1#64 = inn₁.chain.tipH.saturatingAdd 1#64 := by
        rw [htip, hheight]
      have hprev' : hexEncode (hdrHash C blk.hdr) = hexEncode (inn₁.chain.tipHash C) := by
        rw [hhash]
      have hrest := ih happly hnext' hprev' fun b hb => hrange b (List.mem_cons_of_mem blk hb)
      rw [List.map_cons, List.map_cons, List.zip_cons_cons, walkChunk, if_neg hgood]
      have hsame : ¬ hexEncode (hdrHash C blk.hdr) ≠ (headerWire C blk).hash := fun hbad => hbad rfl
      have hblock : (blockWire C blk).block = some blk := rfl
      have hhashRest : (headerWire C blk).hash = hexEncode (hdrHash C blk.hdr) := rfl
      rw [hblock]
      dsimp only
      rw [if_neg hsame, if_neg hinside, hhashRest, hrest]
      rfl

/-- The rows of requested blocks are all matched. -/
theorem matchRows_served (blocks : List Block) :
    matchRows C (askRows C blocks) (blocks.map (blockWire C)) = .ok (blocks, []) := by
  induction blocks with
  | nil => rfl
  | cons blk rest ih =>
      have hanswers : (blockWire C blk).answers C (blk.hdr.height, hexEncode (hdrHash C blk.hdr)) =
          some blk := by
        rw [SyncBlockWire.answers, if_pos ⟨rfl, rfl⟩]
        exact Option.filter_some_pos (decide_eq_true ⟨rfl, rfl⟩)
      have hrows : askRows C (blk :: rest) =
          (blk.hdr.height, hexEncode (hdrHash C blk.hdr)) :: askRows C rest := rfl
      rw [hrows, List.map_cons, matchRows, hanswers]
      dsimp only
      rw [ih]
      rfl

end Takes

/-! ## A session that follows -/

/-- The session lives and has no window: its header and block requests under way, what it waits for
and what is queued. -/
structure PeerSession.Live (s : PeerSession) (n : Nat) (inHdr inBlk : U8)
    (wait pend : List (U64 × String)) : Prop where
  gone : s.gone = false
  tipH : s.peer.tipH.toNat = n
  inHdr : s.peer.inHdr = inHdr
  inBlk : s.peer.inBlk = inBlk
  waitBlk : s.peer.waitBlk = wait
  pendBlk : s.peer.pendBlk = pend
  nextMs : s.peer.cupNextMs = 0#64
  idle : s.peer.cupActive = false
  forkH : s.peer.forkH = none

/-- The session waits for headers from a height on. -/
structure PeerSession.Asked (s : PeerSession) (caps : SyncCaps) (fromH : U64) : Prop where
  fromH : s.peer.waitHdrFrom = some fromH
  lim : s.peer.waitHdrLim = caps.hdrHard

/-- The node lacks the last of the blocks and would take them. -/
structure CanFollow (C : Crypto) (bs : List Block) (innN inn : Inner) : Prop where
  le : inn.chain.tipH.toNat ≤ bs.length
  applies : applyBlkBatch C inn (bs.drop inn.chain.tipH.toNat) = .ok innN

section Following

variable {C : Crypto} {bs : List Block} {innN inn : Inner} {caps : SyncCaps} {s : PeerSession}
  {n : Nat} {inHdr inBlk : U8} {wait pend : List (U64 × String)}

/-- The next blocks are taken. -/
theorem CanFollow.next (h : CanFollow C bs innN inn) (hfits : bs.length + 1 < 2 ^ 64) {k : Nat}
    (hk : inn.chain.tipH.toNat + k ≤ bs.length) :
    ∃ inn', applyBlkBatch C inn ((bs.drop inn.chain.tipH.toNat).take k) = .ok inn' ∧
      inn'.chain.tipH.toNat = inn.chain.tipH.toNat + k ∧ CanFollow C bs innN inn' := by
  have happly := h.applies
  rw [← List.take_append_drop k (bs.drop inn.chain.tipH.toNat), applyBlkBatch_append] at happly
  obtain ⟨inn', hfront, hrest⟩ := except_bind_ok_iff.mp happly
  have htip := applyBlkBatch_tipH hfront
  rw [List.length_take, List.length_drop] at htip
  have htip' : inn'.chain.tipH.toNat = inn.chain.tipH.toNat + k := by
    omega
  refine ⟨inn', hfront, htip', ⟨by omega, ?_⟩⟩
  rw [htip', ← List.drop_drop]
  exact hrest

theorem CanFollow.eq_of_end (h : CanFollow C bs innN inn)
    (hend : inn.chain.tipH.toNat = bs.length) : inn = innN := by
  have happly := h.applies
  rw [hend, List.drop_length] at happly
  exact Except.ok.inj happly

theorem hdrHard_clamp (caps : SyncCaps) : (caps.hdrHard.umin syncHdrReqCap).umax 1#16 =
    caps.hdrHard := by
  apply BitVec.eq_of_toNat_eq
  have hhard := hdrHard_toNat caps
  rw [hdrLimit_toNat]
  omega

variable (caps) in
theorem askHdr_live (h : s.Live n 0#8 inBlk wait pend) (fromH : U64) :
    ∃ s', s.askHdr fromH caps.hdrHard =
        (true, { s := s', asks := [.headersReq fromH caps.hdrHard] }) ∧
      s'.Live n 1#8 inBlk wait pend ∧ s'.Asked caps fromH ∧ s'.inn = s.inn := by
  have hasked : s.peer.askHdr fromH caps.hdrHard = (true, { s.peer.toSyncPeerState with
      waitHdrFrom := some fromH
      waitHdrLim := caps.hdrHard
      inHdr := 1#8 }) := by
    have hnotWaiting : ¬ (s.peer.waitHdrFrom = some fromH ∧ 0#8 < s.peer.inHdr) := by
      rw [h.inHdr]
      rintro ⟨-, hpos⟩
      exact absurd hpos (by decide)
    have hroom : ¬ syncInfCap ≤ s.peer.inHdr := by
      rw [h.inHdr]
      decide
    rw [SyncPeerState.askHdr, if_neg hnotWaiting, if_neg hroom, hdrHard_clamp, h.inHdr]
    rfl
  refine ⟨s.withSync s.inn { s.peer.toSyncPeerState with
    waitHdrFrom := some fromH
    waitHdrLim := caps.hdrHard
    inHdr := 1#8 }, ?_, ?_, ⟨rfl, rfl⟩, rfl⟩
  · rw [PeerSession.askHdr, hasked]
    rfl
  · exact ⟨h.gone, h.tipH, rfl, h.inBlk, h.waitBlk, h.pendBlk, h.nextMs, h.idle, h.forkH⟩

variable (caps) in
/-- Queued rows are asked for. -/
theorem askBlk_live (h : s.Live n inHdr 0#8 [] pend) (hpend : pend ≠ []) :
    ∃ s', s.askBlk caps = { s := s', asks :=
          [.blocksReq ((pend.take caps.blkHard.toNat).map Prod.snd)
            (some ((pend.take caps.blkHard.toNat).map Prod.fst))] } ∧
      s'.Live n inHdr 1#8 (pend.take caps.blkHard.toNat) (pend.drop caps.blkHard.toNat) ∧
      s'.inn = s.inn ∧ s'.peer.waitHdrFrom = s.peer.waitHdrFrom ∧
      s'.peer.waitHdrLim = s.peer.waitHdrLim := by
  have hasked : s.peer.askBlk caps = { s.peer.toSyncPeerState with
      waitBlk := pend.take caps.blkHard.toNat
      pendBlk := pend.drop caps.blkHard.toNat
      inBlk := 1#8 } := by
    have hidle : ¬ (syncInfCap ≤ s.peer.inBlk ∨ s.peer.waitBlk ≠ []) := by
      rw [h.inBlk, h.waitBlk]
      rintro (hbusy | hwait)
      · exact absurd hbusy (by decide)
      · exact hwait rfl
    have hsome : ¬ s.peer.pendBlk = [] := by
      rw [h.pendBlk]
      exact hpend
    rw [SyncPeerState.askBlk]
    dsimp only
    rw [if_neg hidle, if_neg hsome, h.pendBlk, h.inBlk]
    rfl
  have hne : pend.take caps.blkHard.toNat ≠ [] := by
    apply List.ne_nil_of_length_pos
    have hpos := List.length_pos_of_ne_nil hpend
    have hhard := blkHard_pos caps
    rw [List.length_take]
    omega
  refine ⟨s.withSync s.inn { s.peer.toSyncPeerState with
    waitBlk := pend.take caps.blkHard.toNat
    pendBlk := pend.drop caps.blkHard.toNat
    inBlk := 1#8 }, ?_, ?_, rfl, rfl, rfl⟩
  · rw [PeerSession.askBlk, hasked]
    dsimp only
    rw [if_pos ⟨h.waitBlk, hne⟩]
  · exact ⟨h.gone, h.tipH, h.inHdr, rfl, rfl, rfl, h.nextMs, h.idle, h.forkH⟩

/-- Nothing is asked for when nothing is queued. -/
theorem askBlk_empty (h : s.Live n inHdr 0#8 [] []) :
    s.askBlk caps = { s := s } := by
  have hsame : s.peer.askBlk caps = s.peer.toSyncPeerState := by
    unfold SyncPeerState.askBlk
    split
    · rfl
    · rw [if_pos h.pendBlk]
  rw [PeerSession.askBlk, hsame, if_neg]
  · rfl
  · rintro ⟨hnone, hsome⟩
    exact hsome hnone

theorem hdrHard_umax (caps : SyncCaps) : caps.hdrHard.umax 1#16 = caps.hdrHard := by
  apply BitVec.eq_of_toNat_eq
  have hone : (1#16 : U16).toNat = 1 := rfl
  have hhard := hdrHard_toNat caps
  rw [toNat_umax, hone]
  omega

/-- The request for the first of these rows. -/
def blkAsk (caps : SyncCaps) (rows : List (U64 × String)) : SyncAsk :=
  .blocksReq ((rows.take caps.blkHard.toNat).map Prod.snd)
    (some ((rows.take caps.blkHard.toNat).map Prod.fst))

/-- The session waits for the first of these rows; the others are queued. -/
def PeerSession.Fetching (s : PeerSession) (caps : SyncCaps) (n : Nat) (inHdr : U8)
    (rows : List (U64 × String)) : Prop :=
  s.Live n inHdr 1#8 (rows.take caps.blkHard.toNat) (rows.drop caps.blkHard.toNat)

/-- Accepted headers are queued and their first blocks asked for; more headers are asked for up to
the tip of the peer. -/
theorem acceptHdrs_live (h : s.Live n 0#8 0#8 [] []) (hlim : s.peer.waitHdrLim = caps.hdrHard)
    {headers : List SyncHeaderWire} (hne : headers ≠ [])
    (hroom : headers.length ≤ caps.hdrHard.toNat)
    (hhashes : (headers.map SyncHeaderWire.hash).Nodup) (nextH : U64) :
    ∃ s' asks inHdr, s.acceptHdrs caps headers nextH true =
        { s := s', asks := asks ++ [blkAsk caps (headers.map fun hdr => (hdr.height, hdr.hash))] } ∧
      s'.Fetching caps n inHdr (headers.map fun hdr => (hdr.height, hdr.hash)) ∧
      s'.inn = s.inn ∧ (asks = [] ∧ inHdr = 0#8 ∨ nextH.toNat ≤ n ∧
        asks = [.headersReq nextH caps.hdrHard] ∧ inHdr = 1#8 ∧ s'.Asked caps nextH) := by
  have hhard := hdrHard_toNat caps
  have hkeys : (headers.map fun hdr => (hdr.height, hdr.hash)).map Prod.snd =
      headers.map SyncHeaderWire.hash := by
    rw [List.map_map]
    rfl
  have hpush : enqueue Prod.snd syncPendCap s.peer.waitBlk
      (headers.map fun hdr => (hdr.height, hdr.hash)) s.peer.pendBlk =
        headers.map fun hdr => (hdr.height, hdr.hash) := by
    rw [h.waitBlk, h.pendBlk]
    refine (enqueue_new ?_ ?_).trans (List.nil_append _)
    · rw [List.nil_append, List.nil_append, hkeys]
      exact hhashes
    · have hcap : syncPendCap = 512 := rfl
      rw [List.nil_append, List.length_map]
      omega
  have hrowsNe : (headers.map fun hdr => (hdr.height, hdr.hash)) ≠ [] := by
    rw [ne_eq, List.map_eq_nil_iff]
    exact hne
  obtain ⟨q, hq⟩ : ∃ q, q = (s.withPeer s.peer.forkClear).withSync s.inn
      (s.peer.pushRows (headers.map fun hdr => (hdr.height, hdr.hash))) := ⟨_, rfl⟩
  have hqueued : q.Live n 0#8 0#8 [] (headers.map fun hdr => (hdr.height, hdr.hash)) := by
    rw [hq]
    exact ⟨h.gone, h.tipH, h.inHdr, h.inBlk, h.waitBlk, hpush, h.nextMs, h.idle, rfl⟩
  have hqlim : q.peer.waitHdrLim = caps.hdrHard := by
    rw [hq]
    exact hlim
  have hqinn : q.inn = s.inn := by
    rw [hq]
    rfl
  have haccept : s.acceptHdrs caps headers nextH true = PeerSession.thenAskBlk caps
      (if nextH ≤ q.peer.tipH then q.askHdr nextH caps.hdrHard else (false, { s := q })) true := by
    rw [← hdrHard_umax, ← hqlim, hq]
    rfl
  rw [haccept]
  by_cases hmore : nextH ≤ q.peer.tipH
  · obtain ⟨s₁, hask, hlive₁, hasked, hinn₁⟩ := askHdr_live caps hqueued nextH
    obtain ⟨s₂, hblk, hlive₂, hinn₂, hfrom, hlim₂⟩ := askBlk_live caps hlive₁ hrowsNe
    refine ⟨s₂, [.headersReq nextH caps.hdrHard], 1#8, ?_, hlive₂, ?_, .inr ⟨?_, rfl, rfl, ?_⟩⟩
    · rw [if_pos hmore, hask, PeerSession.thenAskBlk, if_neg (by rintro ⟨-, hbad⟩; exact hbad rfl)]
      dsimp only
      rw [hblk]
      rfl
    · rw [hinn₂, hinn₁, hqinn]
    · rw [le_def, hqueued.tipH] at hmore
      exact hmore
    · exact ⟨hfrom.trans hasked.fromH, hlim₂.trans hasked.lim⟩
  · obtain ⟨s₂, hblk, hlive₂, hinn₂, -, -⟩ := askBlk_live caps hqueued hrowsNe
    refine ⟨s₂, [], 0#8, ?_, hlive₂, hinn₂.trans hqinn, .inl ⟨rfl, rfl⟩⟩
    rw [if_neg hmore, PeerSession.thenAskBlk, if_neg (by rintro ⟨hbad, -⟩; cases hbad)]
    dsimp only
    rw [hblk]
    rfl

theorem applyBlkBatch_head {blk : Block} {rest : List Block} {inn' : Inner}
    (happly : applyBlkBatch C inn (blk :: rest) = .ok inn') :
    blk.hdr.height = inn.chain.tipH.saturatingAdd 1#64 := by
  obtain ⟨inn₁, hblk, -⟩ := except_bind_ok_iff.mp happly
  obtain ⟨st', hreplays, -⟩ := applyBlk_chain hblk
  exact hreplays.height

/-- The headers that were asked for are taken. -/
theorem onHdrBatch_served (h : s.Live n 1#8 0#8 [] [])
    (hasked : s.Asked caps (s.inn.chain.tipH.saturatingAdd 1#64)) {blocks : List Block}
    (hne : blocks ≠ []) (hroom : blocks.length ≤ caps.hdrHard.toNat) {inn' : Inner}
    (happly : applyBlkBatch C s.inn blocks = .ok inn')
    (hhashes : (blocks.map fun b => hexEncode (hdrHash C b.hdr)).Nodup) :
    ∃ s' asks inHdr, s.onHdrBatch C caps (blocks.map (headerWire C)) true =
        { s := s', asks := asks ++ [blkAsk caps (askRows C blocks)] } ∧
      s'.Fetching caps n inHdr (askRows C blocks) ∧ s'.inn = s.inn ∧
      (asks = [] ∧ inHdr = 0#8 ∨
        (inn'.chain.tipH.saturatingAdd 1#64).toNat ≤ n ∧
          asks = [.headersReq (inn'.chain.tipH.saturatingAdd 1#64) caps.hdrHard] ∧ inHdr = 1#8 ∧
            s'.Asked caps (inn'.chain.tipH.saturatingAdd 1#64)) := by
  have hheadersNe : blocks.map (headerWire C) ≠ [] := by
    rw [ne_eq, List.map_eq_nil_iff]
    exact hne
  have hlength : (blocks.map (headerWire C)).length = blocks.length := List.length_map ..
  have hhead : (blocks.map (headerWire C)).head?.map SyncHeaderWire.height =
      some (s.inn.chain.tipH.saturatingAdd 1#64) := by
    cases blocks with
    | nil => exact absurd rfl hne
    | cons blk rest => exact congrArg some (applyBlkBatch_head happly)
  have hanswered : (s.withPeer s.peer.hdrAnswered).Live n 0#8 0#8 [] [] := by
    refine ⟨h.gone, h.tipH, ?_, h.inBlk, h.waitBlk, h.pendBlk, h.nextMs, h.idle, h.forkH⟩
    change s.peer.inHdr.saturatingSub 1#8 = 0#8
    rw [h.inHdr]
    rfl
  have hkeys : (blocks.map (headerWire C)).map SyncHeaderWire.hash =
      blocks.map fun b => hexEncode (hdrHash C b.hdr) := by
    rw [List.map_map]
    rfl
  have hrows : (blocks.map (headerWire C)).map (fun hdr => (hdr.height, hdr.hash)) =
      askRows C blocks := by
    rw [List.map_map]
    rfl
  obtain ⟨s', asks, inHdr, haccept, hfetching, hinn, hmore⟩ := acceptHdrs_live hanswered hasked.lim
    hheadersNe (by rw [hlength]; exact hroom) (by rw [hkeys]; exact hhashes)
    (inn'.chain.tipH.saturatingAdd 1#64)
  rw [hrows] at haccept hfetching
  refine ⟨s', asks, inHdr, ?_, hfetching, hinn, hmore⟩
  have hsize : ¬ (blocks.map (headerWire C) = [] ∨
      caps.hdrHard.toNat < (blocks.map (headerWire C)).length) := by
    rintro (hbad | hbad)
    · exact hheadersNe hbad
    · omega
  have hreq : ¬ ((blocks.map (headerWire C)).head?.map SyncHeaderWire.height ≠
      some (s.inn.chain.tipH.saturatingAdd 1#64) ∨
        (s.peer.waitHdrLim.umax 1#16).toNat < (blocks.map (headerWire C)).length) := by
    rintro (hbad | hbad)
    · exact hbad hhead
    · rw [hasked.lim, hdrHard_umax] at hbad
      omega
  rw [PeerSession.onHdrBatch, if_neg hsize, if_neg (by rw [h.idle]; exact Bool.false_ne_true)]
  dsimp only
  rw [hasked.fromH]
  dsimp only
  rw [if_neg hreq, if_neg (fun hbad => hbad rfl), walkHdrs_served happly rfl rfl]
  exact haccept

/-- Headers that were asked for too early are not taken; the request is done with. -/
theorem onHdrBatch_early {rows : List (U64 × String)} (h : s.Fetching caps n 1#8 rows)
    {fromH : U64} (hasked : s.Asked caps fromH)
    (hearly : fromH ≠ s.inn.chain.tipH.saturatingAdd 1#64) {headers : List SyncHeaderWire}
    (hhead : headers.head?.map SyncHeaderWire.height = some fromH)
    (hroom : headers.length ≤ caps.hdrHard.toNat) :
    ∃ s', s.onHdrBatch C caps headers true = { s := s' } ∧ s'.Fetching caps n 0#8 rows ∧
      s'.inn = s.inn := by
  have hne : headers ≠ [] := by
    rintro rfl
    cases hhead
  have hsize : ¬ (headers = [] ∨ caps.hdrHard.toNat < headers.length) := by
    rintro (hbad | hbad)
    · exact hne hbad
    · omega
  have hreq : ¬ (headers.head?.map SyncHeaderWire.height ≠ some fromH ∨
      (s.peer.waitHdrLim.umax 1#16).toNat < headers.length) := by
    rintro (hbad | hbad)
    · exact hbad hhead
    · rw [hasked.lim, hdrHard_umax] at hbad
      omega
  refine ⟨(s.withPeer s.peer.hdrAnswered).withPeer s.peer.hdrAnswered.stalled, ?_, ?_, rfl⟩
  · rw [PeerSession.onHdrBatch, if_neg hsize, if_neg (by rw [h.idle]; exact Bool.false_ne_true)]
    dsimp only
    rw [hasked.fromH]
    dsimp only
    rw [if_neg hreq, if_pos hearly]
    rfl
  · refine ⟨h.gone, h.tipH, ?_, h.inBlk, h.waitBlk, h.pendBlk, h.nextMs, h.idle, h.forkH⟩
    change s.peer.inHdr.saturatingSub 1#8 = 0#8
    rw [h.inHdr]
    rfl

variable (caps) in
/-- The blocks that were asked for are applied. -/
theorem onBlkBatch_served {app : SyncApp} (hsaves : app.SavesAll) {blocks rest : List Block}
    (h : s.Live n 0#8 1#8 (askRows C blocks) (askRows C rest)) (hne : blocks ≠ [])
    (hroom : blocks.length ≤ caps.blkHard.toNat) {inn' : Inner}
    (happly : applyBlkBatch C s.inn blocks = .ok inn') :
    ∃ s' : PeerSession, s.onBlkBatch C app caps (blocks.map (blockWire C)) true =
        PeerSession.thenAskBlk caps (s'.liveTailPullHdr caps) true ∧
      s'.Live n 0#8 0#8 [] (askRows C rest) ∧ s'.inn = inn' := by
  have hsize : ¬ (blocks.map (blockWire C) = [] ∨
      caps.blkHard.toNat < (blocks.map (blockWire C)).length) := by
    rw [List.map_eq_nil_iff, List.length_map]
    rintro (hbad | hbad)
    · exact hne hbad
    · omega
  have hwaits : askRows C blocks ≠ [] := by
    rw [askRows, ne_eq, List.map_eq_nil_iff]
    exact hne
  refine ⟨s.blkApplied inn' [], ?_, ?_, rfl⟩
  · rw [PeerSession.onBlkBatch, if_neg hsize, if_neg (by rw [h.idle]; exact Bool.false_ne_true)]
    dsimp only
    rw [h.waitBlk, if_neg hwaits, matchRows_served]
    dsimp only
    rw [applyBlkBatch_saved happly hsaves.not_saveFails]
  · refine ⟨h.gone, h.tipH, h.inHdr, ?_, rfl, h.pendBlk, h.nextMs, h.idle, h.forkH⟩
    change s.peer.inBlk.saturatingSub 1#8 = 0#8
    rw [h.inBlk]
    rfl

variable (caps) in
/-- After an apply the next rows are asked for, or the headers of a short tail, or nothing. -/
theorem afterApply_live (h : s.Live n 0#8 0#8 [] pend) :
    ∃ s' asks, PeerSession.thenAskBlk caps (s.liveTailPullHdr caps) true =
        { s := s', asks := asks } ∧ s'.inn = s.inn ∧
      (pend ≠ [] ∧ asks = [blkAsk caps pend] ∧ s'.Fetching caps n 0#8 pend ∨
        pend = [] ∧ asks = [] ∧ s'.Live n 0#8 0#8 [] [] ∨
        pend = [] ∧ s.inn.chain.tipH.toNat < n ∧
          asks = [.headersReq (s.inn.chain.tipH.saturatingAdd 1#64) caps.hdrHard] ∧
            s'.Live n 1#8 0#8 [] [] ∧
              s'.Asked caps (s.inn.chain.tipH.saturatingAdd 1#64)) := by
  have hnoPull : s.liveTailPullHdr caps = (false, { s := s }) →
      PeerSession.thenAskBlk caps (s.liveTailPullHdr caps) true =
        { (s.askBlk caps) with asks := [] ++ (s.askBlk caps).asks } := by
    intro hpull
    rw [hpull, PeerSession.thenAskBlk, if_neg (by rintro ⟨hbad, -⟩; cases hbad)]
  by_cases hpend : pend = []
  · by_cases hpull : s.liveTailPullHdr caps = (false, { s := s })
    · rw [hpend] at h
      refine ⟨s, [], ?_, rfl, .inr (.inl ⟨hpend, rfl, h⟩)⟩
      rw [hnoPull hpull, askBlk_empty h]
      rfl
    · rw [hpend] at h
      obtain ⟨s₁, hask, hlive, hasked, hinn⟩ := askHdr_live caps h
        (s.inn.chain.tipH.saturatingAdd 1#64)
      have hpulled : s.liveTailPullHdr caps =
          s.askHdr (s.inn.chain.tipH.saturatingAdd 1#64) caps.hdrHard ∧
            s.inn.chain.tipH.toNat < n := by
        unfold PeerSession.liveTailPullHdr at hpull ⊢
        dsimp only at hpull ⊢
        split at hpull
        · exact absurd rfl hpull
        · rename_i hshort
          split at hpull
          · exact absurd rfl hpull
          · rename_i hquiet
            refine ⟨by rw [if_neg hshort, if_neg hquiet], ?_⟩
            by_contra hend
            refine hshort (.inl (BitVec.eq_of_toNat_eq ?_))
            rw [toNat_saturatingSub, h.tipH, BitVec.toNat_ofNat]
            omega
      refine ⟨s₁, [.headersReq (s.inn.chain.tipH.saturatingAdd 1#64) caps.hdrHard], ?_, hinn,
        .inr (.inr ⟨hpend, hpulled.2, rfl, hlive, hasked⟩)⟩
      rw [hpulled.1, hask, PeerSession.thenAskBlk,
        if_neg (by rintro ⟨-, hbad⟩; exact hbad rfl)]
      -- nothing is queued, so there are no blocks to ask for
      have hnone : s₁.askBlk caps = { s := s₁ } := askBlk_empty hlive
      dsimp only
      rw [hnone]
      rfl
  · have hpull : s.liveTailPullHdr caps = (false, { s := s }) := by
      unfold PeerSession.liveTailPullHdr
      dsimp only
      split
      · rfl
      · rw [if_pos (.inr (.inl (by rw [h.pendBlk]; exact hpend)))]
    obtain ⟨s', hblk, hlive, hinn, -, -⟩ := askBlk_live caps h hpend
    refine ⟨s', [blkAsk caps pend], ?_, hinn, .inl ⟨hpend, rfl, hlive⟩⟩
    rw [hnoPull hpull, hblk]
    rfl

end Following

/-! ## An announcement is followed up -/

section Settling

variable {C : Crypto} {J : BlockJson} {blockSize : Nat} {app : SyncApp} {cfg : TransportConfig}
  {caps srvCaps : SyncCaps} {canCup : Bool} {srv : SyncServer} {bs : List Block} {innN : Inner}
  {now : U64} {s : PeerSession}

theorem step_msg (hgone : s.gone = false) (answer : SyncAnswer) :
    s.step C app cfg caps canCup (.msg answer now true) =
      s.onMsg C app cfg caps canCup now true answer := by
  rw [PeerSession.step, if_neg (by rw [hgone]; exact Bool.false_ne_true)]

/-- One message is taken. -/
theorem Handles.single {answer : SyncAnswer} (out : SyncOut) (hgone : s.gone = false)
    (hout : s.onMsg C app cfg caps canCup now true answer = out) (hdiv : out.div = none) :
    Handles C app cfg caps canCup now s [answer] out.asks out.s := by
  have hnone : Handles C app cfg caps canCup now out.s [] [] out.s := .nil out.s
  have hone := Handles.cons ((step_msg hgone answer).trans hout) hdiv hnone
  rwa [List.append_nil] at hone

/-- What a session has come to when nothing is under way: it is closer to the tip. -/
structure Closer (C : Crypto) (bs : List Block) (innN : Inner) (m : Nat) (s : PeerSession) :
    Prop where
  live : s.Live bs.length 0#8 0#8 [] []
  follows : CanFollow C bs innN s.inn
  gained : m < s.inn.chain.tipH.toNat

/-- Block requests at this height are followed up. -/
def FetchSettles (C : Crypto) (J : BlockJson) (blockSize : Nat) (app : SyncApp)
    (cfg : TransportConfig) (caps srvCaps : SyncCaps) (canCup : Bool) (srv : SyncServer)
    (bs : List Block) (innN : Inner) (now : U64) (m : Nat) : Prop :=
  ∀ (s : PeerSession) (k : Nat), s.inn.chain.tipH.toNat = m → CanFollow C bs innN s.inn →
    0 < k → m + k ≤ bs.length →
    s.Fetching caps bs.length 0#8 (askRows C ((bs.drop m).take k)) →
    ∃ s', Settles C J blockSize app cfg caps srvCaps canCup srv now s
      [blkAsk caps (askRows C ((bs.drop m).take k))] s' ∧ Closer C bs innN m s'

/-- Header requests at this height are followed up. -/
def AskSettles (C : Crypto) (J : BlockJson) (blockSize : Nat) (app : SyncApp)
    (cfg : TransportConfig) (caps srvCaps : SyncCaps) (canCup : Bool) (srv : SyncServer)
    (bs : List Block) (innN : Inner) (now : U64) (m : Nat) : Prop :=
  ∀ s : PeerSession, s.inn.chain.tipH.toNat = m → CanFollow C bs innN s.inn → m < bs.length →
    s.Live bs.length 1#8 0#8 [] [] → s.Asked caps (s.inn.chain.tipH.saturatingAdd 1#64) →
    ∃ s', Settles C J blockSize app cfg caps srvCaps canCup srv now s
      [.headersReq (s.inn.chain.tipH.saturatingAdd 1#64) caps.hdrHard] s' ∧ Closer C bs innN m s'

theorem Closer.mono {m m' : Nat} (h : Closer C bs innN m' s) (hle : m ≤ m') :
    Closer C bs innN m s :=
  ⟨h.live, h.follows, hle.trans_lt h.gained⟩

variable (canCup) in
theorem answer_hdrReq (hserves : Serves C J blockSize srv bs)
    (hhdr : caps.hdrHard ≤ srvCaps.hdrHard) (fromH : U64) (hpos : 0 < fromH.toNat)
    (hle : fromH.toNat ≤ bs.length) :
    ∃ k, 0 < k ∧ k ≤ caps.hdrHard.toNat ∧ fromH.toNat - 1 + k ≤ bs.length ∧
      srv.answer C J blockSize srvCaps canCup (.headersReq fromH caps.hdrHard) =
        [.headersBatch (((bs.drop (fromH.toNat - 1)).take k).map (headerWire C))] := by
  have hhard := hdrHard_toNat caps
  have hform : (SyncAsk.headersReq fromH caps.hdrHard).InForm srvCaps := by
    refine ⟨?_, ?_, hhdr⟩
    · rintro rfl
      exact absurd hpos (lt_irrefl _)
    · intro hzero
      rw [hzero, BitVec.toNat_ofNat] at hhard
      omega
  obtain ⟨k, hk, hlim, hend, hok⟩ := hserves.onHdrReq hform hle
  refine ⟨k, hk, hlim, hend, ?_⟩
  rw [SyncServer.answer, SyncServer.serve, hok]

variable (canCup) in
theorem answer_blkAsk (hserves : Serves C J blockSize srv bs)
    (hblk : caps.blkHard ≤ srvCaps.blkHard) {blocks : List Block} (hne : blocks ≠ [])
    (hmem : ∀ b ∈ blocks, b ∈ bs) :
    srv.answer C J blockSize srvCaps canCup (blkAsk caps (askRows C blocks)) =
      [.blocksBatch ((blocks.take caps.blkHard.toNat).map (blockWire C))] := by
  have htake : (askRows C blocks).take caps.blkHard.toNat =
      askRows C (blocks.take caps.blkHard.toNat) :=
    List.map_take.symm
  have hsome : blocks.take caps.blkHard.toNat ≠ [] := by
    apply List.ne_nil_of_length_pos
    have hpos := List.length_pos_of_ne_nil hne
    have hhard := blkHard_pos caps
    rw [List.length_take]
    omega
  have hok := hserves.onBlkReq srvCaps hsome
    ((List.length_take_le _ _).trans (le_def.mp hblk))
    fun b hb => hmem b (List.mem_of_mem_take hb)
  rw [blkAsk, htake, SyncServer.answer, SyncServer.serve, hok]

/-- A block request is followed up when what comes after it is. -/
theorem fetchSettles (hserves : Serves C J blockSize srv bs) (hsaves : app.SavesAll)
    (hblk : caps.blkHard ≤ srvCaps.blkHard) {m : Nat}
    (hfetch : ∀ m' > m,
      FetchSettles C J blockSize app cfg caps srvCaps canCup srv bs innN now m')
    (hask : ∀ m' > m, AskSettles C J blockSize app cfg caps srvCaps canCup srv bs innN now m') :
    FetchSettles C J blockSize app cfg caps srvCaps canCup srv bs innN now m := by
  intro s k htip hfollows hk hend hfetching
  have hhard := blkHard_pos caps
  obtain ⟨w, hw⟩ : ∃ w, w = min caps.blkHard.toNat k := ⟨_, rfl⟩
  have hfront : ((bs.drop m).take k).take caps.blkHard.toNat = (bs.drop m).take w := by
    rw [List.take_take, hw]
  have hback : ((bs.drop m).take k).drop caps.blkHard.toNat = (bs.drop (m + w)).take (k - w) := by
    by_cases hall : caps.blkHard.toNat ≤ k
    · rw [List.drop_take, List.drop_drop, hw, Nat.min_eq_left hall]
    · rw [hw, Nat.min_eq_right (by omega), Nat.sub_self, List.take_zero, List.drop_eq_nil_iff,
        List.length_take]
      omega
  have hlength : ((bs.drop m).take w).length = w := by
    rw [List.length_take, List.length_drop]
    omega
  obtain ⟨inn', happly, htip', hfollows'⟩ := hfollows.next hserves.fits (k := w) (by omega)
  rw [htip] at happly htip'
  have hlive : s.Live bs.length 0#8 1#8 (askRows C ((bs.drop m).take w))
      (askRows C ((bs.drop (m + w)).take (k - w))) := by
    rw [← hfront, ← hback, askRows, askRows, List.map_take, List.map_drop]
    exact hfetching
  have hne : (bs.drop m).take k ≠ [] := by
    apply List.ne_nil_of_length_pos
    rw [List.length_take, List.length_drop]
    omega
  have hwne : (bs.drop m).take w ≠ [] := List.ne_nil_of_length_pos (by omega)
  have hanswer := answer_blkAsk canCup hserves hblk hne
    fun b hb => List.mem_of_mem_drop (List.mem_of_mem_take hb)
  rw [hfront] at hanswer
  obtain ⟨s₁, hbatch, hlive₁, hinn₁⟩ := onBlkBatch_served caps hsaves hlive hwne
    (by omega) happly
  obtain ⟨s₂, asks, hafter, hinn₂, hcases⟩ := afterApply_live caps hlive₁
  have htip₂ : s₂.inn.chain.tipH.toNat = m + w := by
    rw [hinn₂, hinn₁, htip']
  have hfollows₂ : CanFollow C bs innN s₂.inn := by
    rw [hinn₂, hinn₁]
    exact hfollows'
  have htaken : Handles C app cfg caps canCup now s
      (srv.answer C J blockSize srvCaps canCup (blkAsk caps (askRows C ((bs.drop m).take k))))
      asks s₂ := by
    rw [hanswer]
    exact Handles.single { s := s₂, asks := asks } hlive.gone (hbatch.trans hafter) rfl
  rcases hcases with ⟨hmore, rfl, hfetching₂⟩ | ⟨-, rfl, hlive₂⟩ | ⟨-, hlead, rfl, hlive₂, hasked₂⟩
  · -- the next rows are asked for
    have hleft : 0 < k - w := by
      by_contra hnone
      apply hmore
      have hzero : k - w = 0 := by
        omega
      rw [hzero, List.take_zero]
      rfl
    obtain ⟨s', hsettles, hcloser⟩ := hfetch (m + w) (by omega) s₂ (k - w) htip₂ hfollows₂ hleft
      (by omega) hfetching₂
    exact ⟨s', .cons htaken hsettles, hcloser.mono (by omega)⟩
  · exact ⟨s₂, .cons htaken (.nil s₂), hlive₂, hfollows₂, by omega⟩
  · rw [← hinn₂] at hlead hasked₂ htaken
    obtain ⟨s', hsettles, hcloser⟩ := hask (m + w) (by omega) s₂ htip₂ hfollows₂ (by omega) hlive₂
      hasked₂
    exact ⟨s', .cons htaken hsettles, hcloser.mono (by omega)⟩

/-- A header request is followed up when the block request after it is. -/
theorem askSettles (hserves : Serves C J blockSize srv bs)
    (hhdr : caps.hdrHard ≤ srvCaps.hdrHard) {m : Nat}
    (hfetch : FetchSettles C J blockSize app cfg caps srvCaps canCup srv bs innN now m) :
    AskSettles C J blockSize app cfg caps srvCaps canCup srv bs innN now m := by
  intro s htip hfollows hlead hlive hasked
  have hfits := hserves.fits
  have hone : (1#64 : U64).toNat = 1 := rfl
  have hfrom : (s.inn.chain.tipH.saturatingAdd 1#64).toNat = m + 1 := by
    rw [toNat_saturatingAdd, htip, hone]
    omega
  obtain ⟨k, hk, hklim, hkend, hanswer⟩ := answer_hdrReq canCup hserves hhdr
    (s.inn.chain.tipH.saturatingAdd 1#64) (by omega) (by omega)
  rw [hfrom, Nat.add_sub_cancel] at hkend hanswer
  obtain ⟨inn', happly, htip', -⟩ := hfollows.next hfits (k := k) (by omega)
  rw [htip] at happly htip'
  have hlength : ((bs.drop m).take k).length = k := by
    rw [List.length_take, List.length_drop]
    omega
  have hhashes : (((bs.drop m).take k).map fun b => hexEncode (hdrHash C b.hdr)).Nodup := by
    refine List.Nodup.sublist ?_ hserves.hashes
    exact ((List.take_sublist _ _).trans (List.drop_sublist _ _)).map _
  obtain ⟨s₁, asks, inHdr, hbatch, hfetching, hinn₁, hmore⟩ := onHdrBatch_served hlive hasked
    (List.ne_nil_of_length_pos (by omega)) (by omega) happly hhashes
  have hnext : (inn'.chain.tipH.saturatingAdd 1#64).toNat = m + k + 1 := by
    rw [toNat_saturatingAdd, htip', hone]
    omega
  have htaken : Handles C app cfg caps canCup now s
      (srv.answer C J blockSize srvCaps canCup
        (.headersReq (s.inn.chain.tipH.saturatingAdd 1#64) caps.hdrHard))
      (asks ++ [blkAsk caps (askRows C ((bs.drop m).take k))]) s₁ := by
    rw [hanswer]
    exact Handles.single { s := s₁, asks := _ } hlive.gone hbatch rfl
  have htip₁ : s₁.inn.chain.tipH.toNat = m := by
    rw [hinn₁, htip]
  have hfollows₁ : CanFollow C bs innN s₁.inn := by
    rw [hinn₁]
    exact hfollows
  rcases hmore with ⟨rfl, rfl⟩ | ⟨hle, rfl, rfl, hasked₁⟩
  · obtain ⟨s', hsettles, hcloser⟩ := hfetch s₁ k htip₁ hfollows₁ hk (by omega) hfetching
    exact ⟨s', .cons htaken hsettles, hcloser⟩
  · -- the headers that were asked for as well come too early
    obtain ⟨k', hk', hklim', hkend', hanswer'⟩ := answer_hdrReq canCup hserves hhdr
      (inn'.chain.tipH.saturatingAdd 1#64) (by omega) (by omega)
    rw [hnext, Nat.add_sub_cancel] at hkend' hanswer'
    have hlength' : ((bs.drop (m + k)).take k').length = k' := by
      rw [List.length_take, List.length_drop]
      omega
    have hheights := (hserves.heights.heightsFrom.drop (m + k)).take k'
    obtain ⟨b, hb, hbheight⟩ := hheights.head? (List.ne_nil_of_length_pos (by omega))
    have hhead : (((bs.drop (m + k)).take k').map (headerWire C)).head?.map
        SyncHeaderWire.height = some (inn'.chain.tipH.saturatingAdd 1#64) := by
      rw [List.head?_map, hb, Option.map_some, Option.map_some, Option.some.injEq]
      apply BitVec.eq_of_toNat_eq
      rw [hnext]
      change b.hdr.height.toNat = _
      omega
    have hearly : inn'.chain.tipH.saturatingAdd 1#64 ≠ s₁.inn.chain.tipH.saturatingAdd 1#64 := by
      intro hsame
      have hnat := congrArg BitVec.toNat hsame
      rw [hnext, hinn₁, hfrom] at hnat
      omega
    obtain ⟨s₂, hbatch₂, hfetching₂, hinn₂⟩ := onHdrBatch_early (C := C) hfetching hasked₁ hearly
      hhead (by rw [List.length_map]; omega)
    have htaken₂ : Handles C app cfg caps canCup now s₁
        (srv.answer C J blockSize srvCaps canCup
          (.headersReq (inn'.chain.tipH.saturatingAdd 1#64) caps.hdrHard)) [] s₂ := by
      rw [hanswer']
      exact Handles.single { s := s₂ } hfetching.gone hbatch₂ rfl
    obtain ⟨s', hsettles, hcloser⟩ := hfetch s₂ k (by rw [hinn₂, htip₁])
      (by rw [hinn₂]; exact hfollows₁) hk (by omega) hfetching₂
    exact ⟨s', .cons htaken (.cons htaken₂ hsettles), hcloser⟩

variable (cfg canCup innN now) in
/-- Requests are followed up at every height. -/
theorem settles_all (hserves : Serves C J blockSize srv bs) (hsaves : app.SavesAll)
    (hhdr : caps.hdrHard ≤ srvCaps.hdrHard) (hblk : caps.blkHard ≤ srvCaps.blkHard) (m : Nat) :
    FetchSettles C J blockSize app cfg caps srvCaps canCup srv bs innN now m ∧
      AskSettles C J blockSize app cfg caps srvCaps canCup srv bs innN now m := by
  induction hleft : bs.length - m using Nat.strong_induction_on generalizing m with
  | _ d ih =>
      by_cases hbelow : m < bs.length
      · have hfetch : FetchSettles C J blockSize app cfg caps srvCaps canCup srv bs innN now m :=
          fetchSettles hserves hsaves hblk
            (fun m' hm' => (ih (bs.length - m') (by omega) m' rfl).1)
            (fun m' hm' => (ih (bs.length - m') (by omega) m' rfl).2)
        exact ⟨hfetch, askSettles hserves hhdr hfetch⟩
      · -- there is nothing above the tip
        constructor
        · intro s k _ _ hk hend
          omega
        · intro s _ _ hlead
          exact absurd hlead hbelow

end Settling

/-! ## Windows -/

/-- The session stands in a window, after so many chunks, and nothing else is under way. -/
structure PeerSession.InWindow (C : Crypto) (s : PeerSession) (n : Nat) (fromH toH eid : U64)
    (ix : Nat) : Prop where
  gone : s.gone = false
  tipH : s.peer.tipH.toNat = n
  inHdr : s.peer.inHdr = 0#8
  inBlk : s.peer.inBlk = 0#8
  waitBlk : s.peer.waitBlk = []
  pendBlk : s.peer.pendBlk = []
  nextMs : s.peer.cupNextMs = 0#64
  active : s.peer.cupActive = true
  epoch : s.peer.cupEpoch = eid
  fromH : s.peer.cupFrom = fromH
  toH : s.peer.cupTo = toH
  nextIx : s.peer.cupNextIx = BitVec.ofNat 32 (min ix (2 ^ 32 - 1))
  atTip : s.peer.window.AtTip C s.inn.chain

section Windows

variable {C : Crypto} {J : BlockJson} {blockSize : Nat} {app : SyncApp} {cfg : TransportConfig}
  {caps srvCaps : SyncCaps} {canCup : Bool} {srv : SyncServer} {bs : List Block} {innN : Inner}
  {now : U64} {s s₁ s' : PeerSession}

theorem Handles.append {xs ys : List SyncAnswer} {asks asks' : List SyncAsk}
    (hxs : Handles C app cfg caps canCup now s xs asks s₁)
    (hys : Handles C app cfg caps canCup now s₁ ys asks' s') :
    Handles C app cfg caps canCup now s (xs ++ ys) (asks ++ asks') s' := by
  induction hxs with
  | nil => exact hys
  | cons hout hdiv _ ih =>
      rw [List.cons_append, List.append_assoc]
      exact .cons hout hdiv (ih hys)

theorem nextIx_succ (ix : Nat) :
    (BitVec.ofNat 32 (min ix (2 ^ 32 - 1))).saturatingAdd 1#32 =
      BitVec.ofNat 32 (min (ix + 1) (2 ^ 32 - 1)) := by
  have hone : (1#32 : U32).toNat = 1 := rfl
  apply BitVec.eq_of_toNat_eq
  rw [toNat_saturatingAdd, hone, BitVec.toNat_ofNat, BitVec.toNat_ofNat,
    Nat.mod_eq_of_lt (by omega), Nat.mod_eq_of_lt (by omega)]
  omega

/-- The hash of the last block that was applied. -/
theorem applyBlkBatch_lastHash {inn inn' : Inner} {blocks : List Block}
    (happly : applyBlkBatch C inn blocks = .ok inn') (hne : blocks ≠ []) :
    (blocks.getLast?.map fun b => hexEncode (hdrHash C b.hdr)).getD "" =
      hexEncode (inn'.chain.tipHash C) := by
  obtain ⟨front, last, rfl⟩ := (List.eq_nil_or_concat blocks).resolve_left hne
  rw [List.concat_eq_append, applyBlkBatch_append] at happly
  obtain ⟨inn₁, -, hlast⟩ := except_bind_ok_iff.mp happly
  obtain ⟨inn₂, hblk, hend⟩ := except_bind_ok_iff.mp hlast
  obtain rfl := Except.ok.inj hend
  rw [List.concat_eq_append, List.getLast?_concat, Option.map_some, Option.getD_some,
    (applyBlk_tip hblk).2]

/-- The hash before the first block that was applied. -/
theorem applyBlkBatch_firstPrev {inn inn' : Inner} {blocks : List Block}
    (happly : applyBlkBatch C inn blocks = .ok inn') (hne : blocks ≠ []) :
    (blocks.head?.map fun b => hexEncode b.hdr.prevHash).getD "" =
      hexEncode (inn.chain.tipHash C) := by
  cases blocks with
  | nil => exact absurd rfl hne
  | cons blk rest =>
      obtain ⟨inn₁, hblk, -⟩ := except_bind_ok_iff.mp happly
      obtain ⟨st', hreplays, -⟩ := applyBlk_chain hblk
      rw [List.head?_cons, Option.map_some, Option.getD_some, hreplays.prevHash]

variable (cfg caps now) in
/-- A chunk with the next blocks of the window is applied. -/
theorem cupChunk_served (hsaves : app.SavesAll) {n ix : Nat} {fromH toH eid : U64}
    (h : s.InWindow C n fromH toH eid ix) {blocks : List Block} (hne : blocks ≠ [])
    (hroom : blocks.length ≤ syncCupChunkCap)
    (hrange : ∀ b ∈ blocks, fromH ≤ b.hdr.height ∧ b.hdr.height ≤ toH) {inn' : Inner}
    (happly : applyBlkBatch C s.inn blocks = .ok inn') :
    ∃ s', s.onMsg C app cfg caps true now true (SyncServer.cupChunk C eid ix blocks) =
        { s := s' } ∧ s'.InWindow C n fromH toH eid (ix + 1) ∧ s'.inn = inn' := by
  obtain ⟨hnext, hprev⟩ := h.atTip
  have hwalk := walkChunk_served fromH toH happly hnext hprev hrange
  have hbounds : ¬ (blocks.map (headerWire C) = [] ∨
      syncCupChunkCap < (blocks.map (headerWire C)).length ∨
        (blocks.map (headerWire C)).length ≠ (blocks.map (blockWire C)).length) := by
    rw [List.map_eq_nil_iff, List.length_map, List.length_map]
    rintro (hbad | hbad | hbad)
    · exact hne hbad
    · omega
    · exact hbad rfl
  have hprevHash : s.peer.cupPrevHash = hexEncode (s.inn.chain.tipHash C) := hprev
  have horder : ¬ (eid ≠ s.peer.cupEpoch ∨
      BitVec.ofNat 32 (min ix (2 ^ 32 - 1)) ≠ s.peer.cupNextIx ∨
        (blocks.head?.map fun b => hexEncode b.hdr.prevHash).getD "" ≠ s.peer.cupPrevHash) := by
    rw [h.epoch, h.nextIx, hprevHash, applyBlkBatch_firstPrev happly hne]
    rintro (hbad | hbad | hbad) <;> exact hbad rfl
  have hlast : ¬ (blocks.getLast?.map fun b => hexEncode (hdrHash C b.hdr)).getD "" ≠
      hexEncode (inn'.chain.tipHash C) := by
    rw [applyBlkBatch_lastHash happly hne]
    exact fun hbad => hbad rfl
  have hactive : ¬ ¬ s.peer.cupActive = true := fun hbad => hbad h.active
  refine ⟨s.chunkTaken inn' (inn'.chain.tipH.saturatingAdd 1#64) (hexEncode (inn'.chain.tipHash C)),
    ?_, ?_, rfl⟩
  · have htaken : s.onCupChunk C app cfg {
        epochId := eid
        chunkIndex := BitVec.ofNat 32 (min ix (2 ^ 32 - 1))
        firstPrevHash := (blocks.head?.map fun b => hexEncode b.hdr.prevHash).getD ""
        lastHash := (blocks.getLast?.map fun b => hexEncode (hdrHash C b.hdr)).getD ""
        headers := blocks.map (headerWire C)
        blocks := blocks.map (blockWire C) } now =
          s.chunkTaken inn' (inn'.chain.tipH.saturatingAdd 1#64)
            (hexEncode (inn'.chain.tipHash C)) := by
      have hwalk' : walkChunk C s.peer.cupFrom s.peer.cupTo s.peer.cupNextH s.peer.cupPrevHash
          ((blocks.map (headerWire C)).zip (blocks.map (blockWire C))) =
            .ok (inn'.chain.tipH.saturatingAdd 1#64, hexEncode (inn'.chain.tipHash C), blocks) := by
        rw [h.fromH, h.toH]
        exact hwalk
      rw [PeerSession.onCupChunk, if_neg hbounds, if_neg hactive, if_neg horder, hwalk']
      dsimp only
      rw [if_neg hlast, applyBlkBatch_saved happly hsaves.not_saveFails]
    rw [← htaken]
    rfl
  · refine ⟨h.gone, h.tipH, h.inHdr, h.inBlk, h.waitBlk, h.pendBlk, h.nextMs, h.active, h.epoch,
      h.fromH, h.toH, ?_, rfl, rfl⟩
    change s.peer.cupNextIx.saturatingAdd 1#32 = _
    rw [h.nextIx, nextIx_succ]

variable (cfg caps now) in
/-- The chunks of the next blocks of the window are applied one after the other. -/
theorem chunks_served (hsaves : app.SavesAll) {n ix : Nat} {fromH toH eid : U64}
    (h : s.InWindow C n fromH toH eid ix) {blocks : List Block}
    (hrange : ∀ b ∈ blocks, fromH ≤ b.hdr.height ∧ b.hdr.height ≤ toH) {inn' : Inner}
    (happly : applyBlkBatch C s.inn blocks = .ok inn') :
    ∃ s' ix', Handles C app cfg caps true now s ((chunks syncCupChunkCap blocks).mapIdx fun i =>
        SyncServer.cupChunk C eid (ix + i)) [] s' ∧
      s'.InWindow C n fromH toH eid ix' ∧ s'.inn = inn' := by
  have hcap : 0 < syncCupChunkCap := by decide
  induction blocks using chunk_induction hcap generalizing s ix with
  | nil =>
      obtain rfl := Except.ok.inj happly
      refine ⟨s, ix, ?_, h, rfl⟩
      rw [chunks_nil, List.mapIdx_nil]
      exact .nil s
  | step blocks hne ih =>
      have hsplit := List.take_append_drop syncCupChunkCap blocks
      rw [← hsplit, applyBlkBatch_append] at happly
      obtain ⟨inn₁, hfront, hrest⟩ := except_bind_ok_iff.mp happly
      have hfrontNe : blocks.take syncCupChunkCap ≠ [] := by
        apply List.ne_nil_of_length_pos
        have hpos := List.length_pos_of_ne_nil hne
        rw [List.length_take]
        omega
      obtain ⟨s₁, hchunk, hwindow₁, hinn₁⟩ := cupChunk_served cfg caps now hsaves h hfrontNe (List.length_take_le _ _)
        (fun b hb => hrange b (List.mem_of_mem_take hb)) hfront
      rw [← hinn₁] at hrest
      obtain ⟨s', ix', hhandles, hwindow', hinn'⟩ := ih hwindow₁
        (fun b hb => hrange b (List.mem_of_mem_drop hb)) hrest
      refine ⟨s', ix', ?_, hwindow', hinn'⟩
      rw [chunks_of_ne_nil hcap hne, List.mapIdx_cons]
      have hshift : (fun i => SyncServer.cupChunk C eid (ix + 1 + i)) =
          fun i => SyncServer.cupChunk C eid (ix + (i + 1)) := by
        funext i
        rw [Nat.add_right_comm, Nat.add_assoc]
      rw [hshift] at hhandles
      exact Handles.cons ((step_msg h.gone _).trans hchunk) rfl hhandles

variable (cfg caps now) in
/-- The end of a window that was taken in full closes it; more headers are asked for up to the tip
of the peer. -/
theorem onCupDone_served {n ix : Nat} {fromH toH eid : U64}
    (h : s.InWindow C n fromH toH eid ix) (hend : s.inn.chain.tipH = toH)
    (hfits : toH.toNat + 1 < 2 ^ 64) :
    ∃ s' asks, s.onCupDone cfg caps eid toH (hexEncode (s.inn.chain.tipHash C)) now =
        { s := s', asks := asks } ∧ s'.inn = s.inn ∧
      (asks = [] ∧ s'.Live n 0#8 0#8 [] [] ∨
        toH.toNat < n ∧ asks = [.headersReq (toH.saturatingAdd 1#64) caps.hdrHard] ∧
          s'.Live n 1#8 0#8 [] [] ∧ s'.Asked caps (toH.saturatingAdd 1#64)) := by
  obtain ⟨hnext, hprev⟩ := h.atTip
  have hnextH : s.peer.cupNextH = toH.saturatingAdd 1#64 := by
    rw [← hend]
    exact hnext
  have hprevHash : s.peer.cupPrevHash = hexEncode (s.inn.chain.tipHash C) := hprev
  have hone : (1#64 : U64).toNat = 1 := rfl
  have hlast : s.peer.cupNextH.saturatingSub 1#64 = toH := by
    apply BitVec.eq_of_toNat_eq
    rw [hnextH, toNat_saturatingSub, toNat_saturatingAdd, hone]
    omega
  have hours : ¬ (¬ s.peer.cupActive = true ∨ s.peer.cupEpoch ≠ eid) := by
    rw [h.active, h.epoch]
    rintro (hbad | hbad) <;> exact hbad rfl
  have hmatch : ¬ (s.peer.cupNextH.saturatingSub 1#64 ≠ toH ∨
      s.peer.cupPrevHash ≠ hexEncode (s.inn.chain.tipHash C)) := by
    rintro (hbad | hbad)
    · exact hbad hlast
    · exact hbad hprevHash
  obtain ⟨q, hq⟩ : ∃ q, q =
      s.withPeer { s.peer with cupTry := 0#8, liveStall := 0#8 }.cupClear := ⟨_, rfl⟩
  have hlive : q.Live n 0#8 0#8 [] [] := by
    rw [hq]
    exact ⟨h.gone, h.tipH, h.inHdr, h.inBlk, h.waitBlk, h.pendBlk, h.nextMs, rfl, rfl⟩
  have hqinn : q.inn = s.inn := by
    rw [hq]
    rfl
  have hdone : s.onCupDone cfg caps eid toH (hexEncode (s.inn.chain.tipHash C)) now =
      if toH < q.peer.tipH then (q.askHdr (toH.saturatingAdd 1#64) caps.hdrHard).2
      else { s := q } := by
    rw [PeerSession.onCupDone, if_neg hours, if_neg hmatch, ← hend, hq]
    rfl
  rw [hdone]
  by_cases hmore : toH < q.peer.tipH
  · obtain ⟨s', hask, hlive', hasked, hinn'⟩ := askHdr_live caps hlive
      (toH.saturatingAdd 1#64)
    rw [if_pos hmore, hask]
    rw [lt_def, hlive.tipH] at hmore
    exact ⟨s', _, rfl, hinn'.trans hqinn, .inr ⟨hmore, rfl, hlive', hasked⟩⟩
  · rw [if_neg hmore]
    exact ⟨q, [], rfl, hqinn, .inl ⟨rfl, hlive⟩⟩

variable (cfg now) in
/-- A window that was asked for is followed up. -/
theorem windowSettles (hserves : Serves C J blockSize srv bs) (hsaves : app.SavesAll)
    (hhdr : caps.hdrHard ≤ srvCaps.hdrHard) (hblk : caps.blkHard ≤ srvCaps.blkHard)
    {headH toH eid : U64} (hhead : headH.toNat = bs.length)
    (hfollows : CanFollow C bs innN s.inn)
    (hrange : cupReqRange s.inn.chain.tipH headH =
      .ok (some (s.inn.chain.tipH.saturatingAdd 1#64, toH)))
    (h : s.InWindow C bs.length (s.inn.chain.tipH.saturatingAdd 1#64) toH eid 0)
    (hepoch : epochIdx (s.inn.chain.tipH.saturatingAdd 1#64) = .ok eid) (anchorHash : String) :
    ∃ s', Settles C J blockSize app cfg caps srvCaps true srv now s
      [.catchupReq (s.inn.chain.tipH.saturatingAdd 1#64) toH eid anchorHash] s' ∧
        Closer C bs innN s.inn.chain.tipH.toNat s' := by
  have hfits := hserves.fits
  obtain ⟨m, hm⟩ : ∃ m, m = s.inn.chain.tipH.toNat := ⟨_, rfl⟩
  obtain ⟨-, hlead, hfrom, -, -, -⟩ := cupReqRange_inForm hrange
  obtain ⟨toH', hrange', hto⟩ := cupReqRange_some hlead
  obtain ⟨-, rfl⟩ := Prod.mk.inj (Option.some.inj (Except.ok.inj (hrange.symm.trans hrange')))
  rw [← hm, hhead] at hlead hto
  rw [← hm] at hfrom
  have hend : toH.toNat = min bs.length (1000 * (m / 1000) + 1000) := by
    omega
  have habove : m < toH.toNat := by
    omega
  obtain ⟨rows, hrowsDef⟩ : ∃ rows, rows = (bs.drop m).take (toH.toNat - m) := ⟨_, rfl⟩
  have hlength : rows.length = toH.toNat - m := by
    rw [hrowsDef, List.length_take, List.length_drop]
    omega
  have hanswer : srv.answer C J blockSize srvCaps true
      (.catchupReq (s.inn.chain.tipH.saturatingAdd 1#64) toH eid anchorHash) =
        windowAnswers C eid toH rows := by
    have hok := hserves.onCupReq (cupReq_inForm srvCaps hrange hepoch anchorHash)
      (by rw [hfrom, Nat.add_sub_cancel]; exact hend)
    have hcount : toH.toNat + 1 - (m + 1) = toH.toNat - m := by
      omega
    rw [hfrom, Nat.add_sub_cancel, hcount, ← hrowsDef] at hok
    rw [SyncServer.answer, SyncServer.serve, if_pos rfl, hok]
  obtain ⟨inn', happly, htip', hfollows'⟩ := hfollows.next hfits (k := toH.toNat - m) (by omega)
  rw [← hm, ← hrowsDef] at happly
  have htipH : inn'.chain.tipH = toH := by
    apply BitVec.eq_of_toNat_eq
    omega
  have hheights : HeightsFrom m rows := by
    have hall := (hserves.heights.heightsFrom.drop m).take (toH.toNat - m)
    rw [Nat.zero_add, ← hrowsDef] at hall
    exact hall
  have hinside : ∀ b ∈ rows, s.inn.chain.tipH.saturatingAdd 1#64 ≤ b.hdr.height ∧
      b.hdr.height ≤ toH := by
    intro b hb
    have hlow := hheights.mem_height hb
    have hhigh := hheights.mem_le hb
    rw [le_def, le_def, hfrom]
    omega
  obtain ⟨s₁, ix, hchunks, hwindow₁, hinn₁⟩ := chunks_served cfg caps now hsaves h hinside happly
  have hzero : (fun i => SyncServer.cupChunk C eid (0 + i)) = SyncServer.cupChunk C eid := by
    funext i
    rw [Nat.zero_add]
  rw [hzero] at hchunks
  obtain ⟨s₂, asks, hdone, hinn₂, hcases⟩ := onCupDone_served cfg caps now hwindow₁ (by rw [hinn₁, htipH]) (by omega)
  have hlastHash := applyBlkBatch_lastHash happly (List.ne_nil_of_length_pos (by omega))
  rw [hinn₁, ← hlastHash] at hdone
  have htaken : Handles C app cfg caps true now s (srv.answer C J blockSize srvCaps true
      (.catchupReq (s.inn.chain.tipH.saturatingAdd 1#64) toH eid anchorHash)) asks s₂ := by
    rw [hanswer]
    exact hchunks.append (Handles.single { s := s₂, asks := asks } hwindow₁.gone hdone rfl)
  have htip₂ : s₂.inn.chain.tipH = toH := by
    rw [hinn₂, hinn₁, htipH]
  have hfollows₂ : CanFollow C bs innN s₂.inn := by
    rw [hinn₂, hinn₁]
    exact hfollows'
  rcases hcases with ⟨rfl, hlive₂⟩ | ⟨hmore, rfl, hlive₂, hasked₂⟩
  · exact ⟨s₂, .cons htaken (.nil s₂), hlive₂, hfollows₂, by rw [htip₂, ← hm]; exact habove⟩
  · rw [← htip₂] at hasked₂ htaken
    have hasks := (settles_all cfg true innN now hserves hsaves hhdr hblk toH.toNat).2
    obtain ⟨s', hsettles, hcloser⟩ := hasks s₂ (by rw [htip₂]) hfollows₂ hmore hlive₂ hasked₂
    rw [htip₂] at htaken hsettles
    exact ⟨s', .cons htaken hsettles, hcloser.mono (by omega)⟩

end Windows

/-! ## Announcements until the tip -/

section Announcements

variable {C : Crypto} {J : BlockJson} {blockSize : Nat} {app : SyncApp} {cfg : TransportConfig}
  {caps srvCaps : SyncCaps} {canCup : Bool} {srv : SyncServer} {bs : List Block} {innN : Inner}
  {now : U64} {s : PeerSession}

/-- Nothing is under way, and the session has heard of no tip above the one of the peer. -/
def PeerSession.Resting (s : PeerSession) (n : Nat) : Prop :=
  ∃ heard ≤ n, s.Live heard 0#8 0#8 [] []

variable (cfg caps canCup now) in
/-- A node that is behind follows an announced tip, by a window or by headers. -/
theorem follow_live (h : s.Live bs.length 0#8 0#8 [] []) {headH : U64}
    (hhead : headH.toNat = bs.length) (hlead : s.inn.chain.tipH.toNat < bs.length)
    (cupReq : Bool) :
    (∃ s' toH eid, canCup = true ∧ s.follow C cfg caps headH now canCup true cupReq =
        { s := s', asks := [.catchupReq (s.inn.chain.tipH.saturatingAdd 1#64) toH eid
          (hexEncode (s.inn.chain.tipHash C))] } ∧ s'.inn = s.inn ∧
      cupReqRange s.inn.chain.tipH headH =
        .ok (some (s.inn.chain.tipH.saturatingAdd 1#64, toH)) ∧
      epochIdx (s.inn.chain.tipH.saturatingAdd 1#64) = .ok eid ∧
      s'.InWindow C bs.length (s.inn.chain.tipH.saturatingAdd 1#64) toH eid 0) ∨
    ∃ s', s.follow C cfg caps headH now canCup true cupReq =
        { s := s', asks := [.headersReq (s.inn.chain.tipH.saturatingAdd 1#64) caps.hdrHard] } ∧
      s'.inn = s.inn ∧ s'.Live bs.length 1#8 0#8 [] [] ∧
      s'.Asked caps (s.inn.chain.tipH.saturatingAdd 1#64) := by
  cases cupReq with
  | false =>
      obtain ⟨s', hask, hlive, hasked, hinn⟩ := askHdr_live caps h
        (s.inn.chain.tipH.saturatingAdd 1#64)
      refine .inr ⟨s', ?_, hinn, hlive, hasked⟩
      rw [PeerSession.follow, if_neg Bool.false_ne_true]
      dsimp only
      rw [hask]
  | true =>
      cases canCup with
      | false =>
          have hsame : ({ s with cupFails := s.cupFails ++ ["feature_mismatch"] } :
              PeerSession).Live bs.length 0#8 0#8 [] [] :=
            ⟨h.gone, h.tipH, h.inHdr, h.inBlk, h.waitBlk, h.pendBlk, h.nextMs, h.idle, h.forkH⟩
          obtain ⟨s', hask, hlive, hasked, hinn⟩ := askHdr_live caps hsame
            (s.inn.chain.tipH.saturatingAdd 1#64)
          refine .inr ⟨s', ?_, hinn, hlive, hasked⟩
          rw [PeerSession.follow, if_pos rfl, PeerSession.maybeStartCup,
            if_pos Bool.false_ne_true]
          dsimp only
          rw [hask]
      | true =>
          have hahead : s.inn.chain.tipH.toNat < headH.toNat := by omega
          obtain ⟨toH, hrange, -⟩ := cupReqRange_some hahead
          obtain ⟨-, -, -, -, -, eid, hepoch, -⟩ := cupReqRange_inForm hrange
          have hlock : s.peer.forkLocked s.inn.chain.tipH = false := by
            apply decide_eq_false
            rintro ⟨hfork, -⟩
            rw [h.forkH] at hfork
            cases hfork
          have hready : s.peer.cupNextMs ≤ now := by
            rw [h.nextMs]
            exact le_def.mpr (Nat.zero_le _)
          have hopens := follow_opens C cfg caps h.idle hlock hready hahead hrange hepoch
          exact .inl ⟨_, toH, eid, rfl, hopens, rfl, hrange, hepoch,
            ⟨h.gone, h.tipH, h.inHdr, h.inBlk, h.waitBlk, h.pendBlk, rfl, rfl, rfl, rfl, rfl, rfl,
              rfl, rfl⟩⟩

variable (cfg canCup) in
/-- After an announcement and the messages it leads to, the node is closer to the tip. -/
theorem announcement_settles (hserves : Serves C J blockSize srv bs) (hsaves : app.SavesAll)
    (hhdr : caps.hdrHard ≤ srvCaps.hdrHard) (hblk : caps.blkHard ≤ srvCaps.blkHard)
    (hfollows : CanFollow C bs innN s.inn) (hlead : s.inn.chain.tipH.toNat < bs.length)
    (hrest : s.Resting bs.length) (now : U64) :
    ∃ asks s₁ s', Handles C app cfg caps canCup now s [srv.tip C] asks s₁ ∧
      Settles C J blockSize app cfg caps srvCaps canCup srv now s₁ asks s' ∧
      Closer C bs innN s.inn.chain.tipH.toNat s' := by
  obtain ⟨heard, hheard, hlive⟩ := hrest
  obtain ⟨noted, hnoted⟩ : ∃ noted, noted = s.noteTip srv.chain.tipH
      (hexEncode (srv.chain.tipHash C)) := ⟨_, rfl⟩
  have hnotedLive : noted.Live bs.length 0#8 0#8 [] [] := by
    rw [hnoted]
    refine ⟨hlive.gone, ?_, hlive.inHdr, hlive.inBlk, hlive.waitBlk, hlive.pendBlk, hlive.nextMs,
      hlive.idle, hlive.forkH⟩
    change (s.peer.tipH.umax srv.chain.tipH).toNat = _
    rw [toNat_umax, hlive.tipH, hserves.tip]
    omega
  have hnotedInn : noted.inn = s.inn := by
    rw [hnoted]
    rfl
  have hlag := @headH_sub_toNat s.inn.chain.tipH srv.chain.tipH (by rw [hserves.tip]; omega)
  have hnot : ¬ srv.chain.tipH < s.inn.chain.tipH := by
    rw [lt_def, hserves.tip]
    omega
  have hne : srv.chain.tipH - s.inn.chain.tipH ≠ 0#64 := by
    intro hzero
    rw [hzero, BitVec.toNat_ofNat, hserves.tip] at hlag
    omega
  have hidle : ¬ noted.peer.cupActive = true := by
    rw [hnotedLive.idle]
    exact Bool.false_ne_true
  have hkept : noted.tryDemoteCupTail (srv.chain.tipH - s.inn.chain.tipH) = noted :=
    if_pos (.inr hidle)
  have htip : ∃ cupReq, s.onMsg C app cfg caps canCup now true (srv.tip C) =
      noted.follow C cfg caps srv.chain.tipH now canCup true cupReq := by
    refine ⟨noted.peer.cupActive && decide (noted.peer.cupNextMs ≤ now) ||
      decide (syncCupLagMin ≤ srv.chain.tipH - s.inn.chain.tipH), ?_⟩
    rw [SyncServer.tip, PeerSession.onMsg, PeerSession.onTip]
    dsimp only
    rw [if_neg hnot, if_neg hne, ← hnoted, hkept]
  obtain ⟨cupReq, htip⟩ := htip
  rw [← hnotedInn] at hfollows hlead ⊢
  rcases follow_live cfg caps canCup now hnotedLive hserves.tip hlead cupReq with
    ⟨s₁, toH, eid, hcan, hfollow, hinn₁, hrange, hepoch, hwindow⟩ | ⟨s₁, hfollow, hinn₁, hlive₁,
      hasked⟩
  · have htaken := Handles.single _ hlive.gone (htip.trans hfollow) rfl
    rw [hcan] at htaken ⊢
    rw [← hinn₁] at hrange hepoch hwindow hfollows htaken ⊢
    obtain ⟨s', hsettles, hcloser⟩ := windowSettles cfg now hserves hsaves hhdr
      hblk hserves.tip hfollows hrange hwindow hepoch (hexEncode (s₁.inn.chain.tipHash C))
    exact ⟨_, s₁, s', htaken, hsettles, hcloser⟩
  · have htaken := Handles.single _ hlive.gone (htip.trans hfollow) rfl
    rw [← hinn₁] at hasked hfollows hlead htaken ⊢
    obtain ⟨s', hsettles, hcloser⟩ := (settles_all cfg canCup innN now hserves hsaves hhdr hblk
      s₁.inn.chain.tipH.toNat).2 s₁ rfl hfollows hlead hlive₁ hasked
    exact ⟨_, s₁, s', htaken, hsettles, hcloser⟩

/-- A peer with all blocks brings a node that is behind to its tip: whenever it announces the tip,
finitely many messages follow, and after at most as many announcements as there are blocks missing
the node holds them all. -/
theorem sync_completes (hserves : Serves C J blockSize srv bs) (hsaves : app.SavesAll)
    (hhdr : caps.hdrHard ≤ srvCaps.hdrHard) (hblk : caps.blkHard ≤ srvCaps.blkHard)
    (hfollows : CanFollow C bs innN s.inn) (hrest : s.Resting bs.length) (nows : List U64)
    (henough : bs.length ≤ s.inn.chain.tipH.toNat + nows.length) :
    ∃ k s', Rounds C J blockSize app cfg caps srvCaps canCup srv (nows.take k) s s' ∧
      s'.inn = innN ∧ s'.Resting bs.length := by
  induction nows generalizing s with
  | nil =>
      have hend : s.inn.chain.tipH.toNat = bs.length := by
        have hle := hfollows.le
        rw [List.length_nil] at henough
        omega
      exact ⟨0, s, .nil s, hfollows.eq_of_end hend, hrest⟩
  | cons now nows ih =>
      by_cases hlead : s.inn.chain.tipH.toNat < bs.length
      · obtain ⟨asks, s₁, s₂, htip, hsettles, hcloser⟩ := announcement_settles cfg canCup
          hserves hsaves hhdr hblk hfollows hlead hrest now
        have hgained := hcloser.gained
        rw [List.length_cons] at henough
        obtain ⟨k, s', hrounds, hinn, hrest'⟩ := ih hcloser.follows ⟨_, le_rfl, hcloser.live⟩
          (by omega)
        exact ⟨k + 1, s', .cons htip hsettles hrounds, hinn, hrest'⟩
      · have hle := hfollows.le
        exact ⟨0, s, .nil s, hfollows.eq_of_end (by omega), hrest⟩

end Announcements

/-! ## A standby without blocks -/

namespace OneBlockPeer

open UnsavedBatch FarPeer

/-- The primary after its first block, without a data file. -/
def primary : SyncServer := ⟨MissedPrimary.afterPrimary, none⟩

theorem primary_blocks : MissedPrimary.afterPrimary.blocks = [sealed] := by
  decide +kernel

theorem primary_tip : MissedPrimary.afterPrimary.tipH.toNat = 1 := by
  decide

theorem sealed_height : sealed.hdr.height.toNat = 1 := by
  decide

theorem primary_serves : Serves MissedPrimary.crypto json 208 primary [sealed] where
  tip := primary_tip
  blocks := primary_blocks
  heights := by
    intro i b hb
    cases i with
    | zero =>
        obtain rfl := Option.some.inj hb
        exact sealed_height
    | succ i => cases hb
  hashes := List.nodup_singleton _
  disk := .inl (by decide)
  room := by decide
  fits := by decide

theorem saves : app.SavesAll := by
  intro save hbackend
  cases hbackend

theorem standby_tip : standby.chain.tipH.toNat = 0 := by
  decide

theorem standby_follows : CanFollow MissedPrimary.crypto [sealed] reached standby where
  le := by
    rw [standby_tip]
    exact Nat.zero_le _
  applies := by
    rw [standby_tip]
    exact applied

theorem fresh_rests : fresh.Resting 1 :=
  ⟨0, by decide, ⟨rfl, rfl, rfl, rfl, rfl, rfl, rfl, rfl, rfl⟩⟩

end OneBlockPeer

open OneBlockPeer FarPeer in
/-- One announcement brings the standby to the block of the primary. -/
theorem sync_completes_oneBlock :
    ∃ k s', Rounds MissedPrimary.crypto json 208 app cfg caps caps true primary
        ([7#64].take k) fresh s' ∧ s'.inn = UnsavedBatch.reached ∧ s'.Resting 1 :=
  sync_completes primary_serves saves (BitVec.le_refl _) (BitVec.le_refl _) standby_follows
    fresh_rests [7#64] (by rw [List.length_singleton]; exact Nat.le_add_left _ _)

end Pwm
