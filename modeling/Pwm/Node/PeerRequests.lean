import Pwm.Node.PeerSession

/-!
# Requests in form

Before a peer looks for blocks it checks the form of a request: heights and
limits, the size of a window, and that both of its ends lie in one epoch. The
requests of a session pass these checks whatever the session has received.
-/

namespace Pwm

open BitVec Attempt Chunks

/-- What a peer with these limits checks of a request before it looks for blocks. -/
def SyncAsk.InForm (caps : SyncCaps) : SyncAsk → Prop
  | .headersReq fromH limit => fromH ≠ 0#64 ∧ limit ≠ 0#16 ∧ limit ≤ caps.hdrHard
  | .blocksReq hashes heights => hashes ≠ [] ∧ hashes.length ≤ caps.blkHard.toNat ∧
      ∀ hs ∈ heights, hs.length = hashes.length
  | .catchupReq startH endH epochId _ => startH ≠ 0#64 ∧ startH ≤ endH ∧
      (endH.saturatingSub startH).saturatingAdd 1#64 ≤ syncCupWinCap ∧
      epochIdx startH = .ok epochId ∧ epochIdx endH = .ok epochId

/-- The reasons for which a peer refuses a request for its form. -/
def formNacks : List String := ["headers_limit", "blocks_limit", "catchup_range", "catchup_epoch"]

section Windows

variable {localH headH fromH toH : U64}

theorem epochIdx_ok (height : U64) (hpos : 0 < height.toNat) :
    ∃ eid, epochIdx height = .ok eid ∧ eid.toNat = (height.toNat - 1) / 1000 := by
  have hne : height ≠ 0#64 := by
    rintro rfl
    exact absurd hpos (lt_irrefl _)
  refine ⟨(height - 1#64) / epochSpan, if_neg hne, ?_⟩
  have hone : (1#64 : U64).toNat = 1 := rfl
  have hspan : epochSpan.toNat = 1000 := rfl
  rw [BitVec.toNat_udiv, hspan, BitVec.toNat_sub_of_le (by rw [BitVec.le_def, hone]; omega), hone]

theorem epochRange_lastH {eid : U64} (hfits : 1000 * eid.toNat < 2 ^ 64) :
    (epochRange eid).lastH.toNat = min (1000 * eid.toNat + 1000) (2 ^ 64 - 1) := by
  have hone : (1#64 : U64).toNat = 1 := rfl
  have hspan : epochSpan.toNat = 1000 := rfl
  have hwidth : (epochSpan.saturatingSub 1#64).toNat = 999 := by
    rw [toNat_saturatingSub, hspan, hone]
  have hmul : (eid.saturatingMul epochSpan).toNat = 1000 * eid.toNat := by
    rw [saturatingMul, hspan, if_pos (by omega), BitVec.toNat_mul, hspan,
      Nat.mod_eq_of_lt (by omega), Nat.mul_comm]
  simp only [epochRange, toNat_saturatingAdd, hmul, hone, hwidth]
  omega

/-- The window begins above the tip and ends with the lead, the cap or the epoch. -/
theorem cupReqRange_some (hlead : localH.toNat < headH.toNat) :
    ∃ toH, cupReqRange localH headH = .ok (some (localH.saturatingAdd 1#64, toH)) ∧
      toH.toNat = min (min headH.toNat (localH.toNat + 4096))
        (1000 * (localH.toNat / 1000) + 1000) := by
  have hone : (1#64 : U64).toNat = 1 := rfl
  have hcap : syncCupWinCap.toNat = 4096 := rfl
  have hhead := headH.isLt
  have hfrom : (localH.saturatingAdd 1#64).toNat = localH.toNat + 1 := by
    rw [toNat_saturatingAdd, hone]
    omega
  obtain ⟨eid, heid, hepoch⟩ := epochIdx_ok (localH.saturatingAdd 1#64) (by omega)
  rw [hfrom, Nat.add_sub_cancel] at hepoch
  have hnot : ¬ headH ≤ localH := by
    rw [BitVec.le_def]
    omega
  have hrange : cupReqRange localH headH = .ok (some (localH.saturatingAdd 1#64,
      ((localH.saturatingAdd 1#64).saturatingAdd
        (((headH.saturatingSub localH).umin syncCupWinCap).saturatingSub 1#64)).umin
          (epochRange eid).lastH)) := by
    rw [cupReqRange, if_neg hnot]
    simp only [heid, bind, Except.bind, pure, Except.pure]
  have hspan : (((headH.saturatingSub localH).umin syncCupWinCap).saturatingSub 1#64).toNat =
      min (headH.toNat - localH.toNat) 4096 - 1 := by
    rw [toNat_saturatingSub, toNat_umin, toNat_saturatingSub, hcap, hone]
  have hmax : ((localH.saturatingAdd 1#64).saturatingAdd
      (((headH.saturatingSub localH).umin syncCupWinCap).saturatingSub 1#64)).toNat =
        min headH.toNat (localH.toNat + 4096) := by
    rw [toNat_saturatingAdd, hfrom, hspan]
    omega
  have hlast := @epochRange_lastH eid (by omega)
  rw [hepoch] at hlast
  have hend : min (min headH.toNat (localH.toNat + 4096))
      (min (1000 * (localH.toNat / 1000) + 1000) (2 ^ 64 - 1)) =
        min (min headH.toNat (localH.toNat + 4096)) (1000 * (localH.toNat / 1000) + 1000) := by
    clear hrange hspan hmax hlast hfrom heid hepoch hcap hone
    omega
  refine ⟨_, hrange, ?_⟩
  rw [toNat_umin, hmax, hlast, hend]

/-- Both ends of a window lie in its epoch, and the window is not too large. -/
theorem cupReqRange_inForm (hrange : cupReqRange localH headH = .ok (some (fromH, toH))) :
    fromH = localH.saturatingAdd 1#64 ∧ localH.toNat < headH.toNat ∧
      fromH.toNat = localH.toNat + 1 ∧ fromH.toNat ≤ toH.toNat ∧
      toH.toNat ≤ min headH.toNat (localH.toNat + 4096) ∧
      ∃ eid, epochIdx fromH = .ok eid ∧ epochIdx toH = .ok eid := by
  have hone : (1#64 : U64).toNat = 1 := rfl
  have hlead : localH.toNat < headH.toNat := by
    by_contra hnot
    have hle : headH ≤ localH := by
      rw [BitVec.le_def]
      omega
    rw [cupReqRange, if_pos hle] at hrange
    cases hrange
  have hhead := headH.isLt
  obtain ⟨toH', hrange', hto⟩ := cupReqRange_some hlead
  rw [hrange] at hrange'
  obtain ⟨rfl, rfl⟩ := Prod.mk.inj (Option.some.inj (Except.ok.inj hrange'))
  have hfrom : (localH.saturatingAdd 1#64).toNat = localH.toNat + 1 := by
    rw [toNat_saturatingAdd, hone]
    omega
  obtain ⟨eid, heid, hepoch⟩ := epochIdx_ok (localH.saturatingAdd 1#64) (by omega)
  obtain ⟨eid', heid', hepoch'⟩ := epochIdx_ok toH (by omega)
  have hsame : eid' = eid := by
    apply BitVec.eq_of_toNat_eq
    rw [hepoch, hepoch', hfrom, hto]
    omega
  refine ⟨rfl, hlead, hfrom, by omega, by omega, eid, heid, hsame ▸ heid'⟩

end Windows

section Asks

variable {C : Crypto} {app : SyncApp} {cfg : TransportConfig} {caps : SyncCaps} {s : PeerSession}

/-- The requests are in form, and so will be a header request with the limit of the last one. -/
structure SyncOut.InForm (caps : SyncCaps) (out : SyncOut) : Prop where
  asks : ∀ ask ∈ out.asks, ask.InForm caps
  lim : out.s.peer.waitHdrLim ≤ caps.hdrHard

theorem SyncOut.InForm.silent (hlim : s.peer.waitHdrLim ≤ caps.hdrHard) :
    SyncOut.InForm caps { s := s } :=
  ⟨List.forall_mem_nil _, hlim⟩

theorem hdrLimit_toNat (lim : U16) :
    ((lim.umin syncHdrReqCap).umax 1#16).toNat = max (min lim.toNat 128) 1 := by
  rw [toNat_umax, toNat_umin]
  rfl

theorem hdrHard_toNat (caps : SyncCaps) : caps.hdrHard.toNat = max (min caps.hdrCap.toNat 128) 1 :=
  hdrLimit_toNat caps.hdrCap

theorem askHdr_inForm {fromH : U64} {lim : U16} (hlim : s.peer.waitHdrLim ≤ caps.hdrHard)
    (hfrom : fromH ≠ 0#64) (hle : lim ≤ caps.hdrHard) :
    (s.askHdr fromH lim).2.InForm caps := by
  have hbound : (lim.umin syncHdrReqCap).umax 1#16 ≤ caps.hdrHard := by
    rw [le_def, hdrHard_toNat] at hle ⊢
    rw [hdrLimit_toNat]
    omega
  have hpos : (lim.umin syncHdrReqCap).umax 1#16 ≠ 0#16 := by
    intro hzero
    have hnat := hdrLimit_toNat lim
    rw [hzero, BitVec.toNat_ofNat] at hnat
    omega
  simp only [PeerSession.askHdr, SyncPeerState.askHdr]
  split
  · exact ⟨List.forall_mem_nil _, hlim⟩
  · split
    · exact ⟨List.forall_mem_nil _, hlim⟩
    · refine ⟨?_, hbound⟩
      intro ask hask
      obtain rfl := List.mem_singleton.mp hask
      exact ⟨hfrom, hpos, hbound⟩

theorem blkHard_pos (caps : SyncCaps) : 0 < caps.blkHard.toNat := by
  rw [SyncCaps.blkHard, toNat_umax]
  have hone : (1#16 : U16).toNat = 1 := rfl
  omega

/-- The blocks that a request takes from the queue. -/
theorem askBlk_waitBlk (st : SyncPeerState) (caps : SyncCaps) :
    st.askBlk caps = st ∨ st.waitBlk = [] ∧ st.pendBlk ≠ [] ∧
      (st.askBlk caps).waitBlk = st.pendBlk.take caps.blkHard.toNat ∧
      (st.askBlk caps).waitHdrLim = st.waitHdrLim := by
  unfold SyncPeerState.askBlk
  dsimp only
  split
  · exact .inl rfl
  · rename_i hidle
    have hwait : st.waitBlk = [] := by
      by_contra hsome
      exact hidle (.inr hsome)
    split
    · exact .inl rfl
    · rename_i hsome
      exact .inr ⟨hwait, hsome, rfl, rfl⟩

theorem askBlk_inForm (hlim : s.peer.waitHdrLim ≤ caps.hdrHard) : (s.askBlk caps).InForm caps := by
  unfold PeerSession.askBlk
  dsimp only
  rcases askBlk_waitBlk s.peer.toSyncPeerState caps with hsame | ⟨-, -, hwait, hkept⟩
  · rw [hsame]
    constructor
    · dsimp only
      split
      · rename_i hboth
        exact absurd hboth.1 hboth.2
      · exact List.forall_mem_nil _
    · exact hlim
  · constructor
    · dsimp only
      split
      · rename_i hboth
        intro ask hask
        obtain rfl := List.mem_singleton.mp hask
        refine ⟨?_, ?_, ?_⟩
        · rw [ne_eq, List.map_eq_nil_iff]
          exact hboth.2
        · rw [List.length_map, hwait, List.length_take]
          exact Nat.min_le_left _ _
        · intro hs hmem
          obtain rfl := Option.some.inj hmem
          rw [List.length_map, List.length_map]
      · exact List.forall_mem_nil _
    · change (s.peer.toSyncPeerState.askBlk caps).waitHdrLim ≤ caps.hdrHard
      rw [hkept]
      exact hlim

theorem thenAskBlk_inForm {out : Bool × SyncOut} (hout : out.2.InForm caps) (wrote : Bool) :
    (PeerSession.thenAskBlk caps out wrote).InForm caps := by
  unfold PeerSession.thenAskBlk
  split
  · exact hout
  · have hblk := askBlk_inForm hout.lim
    refine ⟨?_, hblk.lim⟩
    intro ask hask
    rcases List.mem_append.mp hask with hfirst | hsecond
    · exact hout.asks ask hfirst
    · exact hblk.asks ask hsecond

theorem saturatingAdd_one_ne (x : U64) : x.saturatingAdd 1#64 ≠ 0#64 := by
  intro hzero
  have hone : (1#64 : U64).toNat = 1 := rfl
  have hnat := congrArg BitVec.toNat hzero
  rw [toNat_saturatingAdd, hone, BitVec.toNat_ofNat] at hnat
  omega

theorem walkHdrs_ne {headers : List SyncHeaderWire} {nextH endH : U64} {prevHash : String}
    (hok : walkHdrs nextH prevHash headers = .ok endH) (hne : nextH ≠ 0#64) : endH ≠ 0#64 := by
  induction headers generalizing nextH prevHash with
  | nil =>
      obtain rfl := Except.ok.inj hok
      exact hne
  | cons hdr rest ih =>
      rw [walkHdrs] at hok
      split at hok
      · cases hok
      · exact ih hok (saturatingAdd_one_ne nextH)

variable (caps) in
/-- The request for a window is in form. -/
theorem cupReq_inForm {localH headH fromH toH eid : U64}
    (hrange : cupReqRange localH headH = .ok (some (fromH, toH)))
    (hepoch : epochIdx fromH = .ok eid) (anchorHash : String) :
    (SyncAsk.catchupReq fromH toH eid anchorHash).InForm caps := by
  obtain ⟨-, -, hfrom, hle, hto, eid', hepoch', hlast⟩ := cupReqRange_inForm hrange
  obtain rfl := Except.ok.inj (hepoch'.symm.trans hepoch)
  refine ⟨?_, le_def.mpr hle, ?_, hepoch, hlast⟩
  · rintro rfl
    rw [BitVec.toNat_ofNat] at hfrom
    omega
  · have hone : (1#64 : U64).toNat = 1 := rfl
    have hcap : syncCupWinCap.toNat = 4096 := rfl
    rw [le_def, toNat_saturatingAdd, toNat_saturatingSub, hone, hcap]
    omega

theorem sendCupReq_inForm {fromH toH headH now : U64} {wrote : Bool}
    (hrange : cupReqRange s.inn.chain.tipH headH = .ok (some (fromH, toH))) :
    (s.sendCupReq C cfg fromH toH now wrote).2.peer.waitHdrLim = s.peer.waitHdrLim ∧
      ∀ ask ∈ (s.sendCupReq C cfg fromH toH now wrote).1, ask.InForm caps := by
  obtain ⟨-, -, -, -, -, eid, hepoch, -⟩ := cupReqRange_inForm hrange
  unfold PeerSession.sendCupReq
  rw [hepoch]
  dsimp only
  split
  · refine ⟨rfl, ?_⟩
    intro ask hask
    obtain rfl := Option.some.inj hask
    exact cupReq_inForm caps hrange hepoch _
  · refine ⟨rfl, ?_⟩
    intro ask hask
    cases hask

theorem maybeStartCup_inForm (hlim : s.peer.waitHdrLim ≤ caps.hdrHard) {headH now : U64}
    {canCup wrote : Bool} {p : Bool × SyncOut}
    (hok : s.maybeStartCup C cfg headH now canCup wrote = .ok p) : p.2.InForm caps := by
  unfold PeerSession.maybeStartCup at hok
  split at hok
  · obtain rfl := Except.ok.inj hok
    exact .silent hlim
  · dsimp only at hok
    split at hok
    · obtain rfl := Except.ok.inj hok
      exact .silent hlim
    · obtain ⟨range, hrange, hok⟩ := except_bind_ok_iff.mp hok
      cases range with
      | none =>
          obtain rfl := Except.ok.inj hok
          exact .silent hlim
      | some p =>
          obtain ⟨fromH, toH⟩ := p
          obtain ⟨hkept, hform⟩ := @sendCupReq_inForm C cfg caps s fromH toH headH now wrote hrange
          dsimp only at hok
          cases hsend : s.sendCupReq C cfg fromH toH now wrote with
          | mk ask s' =>
              rw [hsend] at hok hkept hform
              have hlim' : s'.peer.waitHdrLim ≤ caps.hdrHard := hkept.symm ▸ hlim
              cases ask with
              | none =>
                  obtain rfl := Except.ok.inj hok
                  exact .silent hlim'
              | some ask =>
                  obtain rfl := Except.ok.inj hok
                  refine ⟨?_, hlim'⟩
                  intro ask' hmem
                  obtain rfl := List.mem_singleton.mp hmem
                  exact hform _ rfl

theorem tryDemoteCupTail_lim (s : PeerSession) (tipLag : U64) :
    (s.tryDemoteCupTail tipLag).peer.waitHdrLim = s.peer.waitHdrLim := by
  unfold PeerSession.tryDemoteCupTail
  split <;> rfl

theorem follow_inForm (hlim : s.peer.waitHdrLim ≤ caps.hdrHard) (headH now : U64)
    (canCup wrote cupReq : Bool) :
    (s.follow C cfg caps headH now canCup wrote cupReq).InForm caps := by
  have hstart : ∀ {p : Bool × SyncOut}, (if cupReq = true then
      s.maybeStartCup C cfg headH now canCup wrote else .ok (false, { s := s })) = .ok p →
        p.2.InForm caps := by
    intro p hp
    split at hp
    · exact maybeStartCup_inForm hlim hp
    · obtain rfl := Except.ok.inj hp
      exact .silent hlim
  unfold PeerSession.follow
  dsimp only
  split
  · exact .silent hlim
  · rename_i out hstarted
    exact hstart hstarted
  · rename_i out hstarted
    exact askHdr_inForm (hstart hstarted).lim (saturatingAdd_one_ne _) (le_def.mpr le_rfl)

theorem onTip_inForm (hlim : s.peer.waitHdrLim ≤ caps.hdrHard) (headH finalizedH now : U64)
    (headHash : String) (finalizedHash : Option String) (canCup wrote : Bool) :
    (s.onTip C cfg caps headH headHash finalizedH finalizedHash now canCup wrote).InForm caps := by
  have hdemoted : ((s.noteTip headH headHash).tryDemoteCupTail
      (headH - s.inn.chain.tipH)).peer.waitHdrLim ≤ caps.hdrHard := by
    rw [tryDemoteCupTail_lim]
    exact hlim
  unfold PeerSession.onTip
  dsimp only
  split
  · exact .silent hlim
  · split
    · exact ⟨List.forall_mem_nil _, hdemoted⟩
    · exact follow_inForm hdemoted _ _ _ _ _

theorem acceptHdrs_inForm (hlim : s.peer.waitHdrLim ≤ caps.hdrHard)
    (headers : List SyncHeaderWire) {nextH : U64} (hne : nextH ≠ 0#64) (wrote : Bool) :
    (s.acceptHdrs caps headers nextH wrote).InForm caps := by
  unfold PeerSession.acceptHdrs
  apply thenAskBlk_inForm
  split
  · refine askHdr_inForm hlim hne ?_
    have hone : (1#16 : U16).toNat = 1 := rfl
    have hhard := hdrHard_toNat caps
    rw [le_def] at hlim ⊢
    rw [toNat_umax, hone]
    change max s.peer.waitHdrLim.toNat 1 ≤ _
    omega
  · exact .silent hlim

theorem onHdrBatch_inForm (hlim : s.peer.waitHdrLim ≤ caps.hdrHard)
    (headers : List SyncHeaderWire) (wrote : Bool) :
    (s.onHdrBatch C caps headers wrote).InForm caps := by
  unfold PeerSession.onHdrBatch
  split
  · exact .silent hlim
  · split
    · exact .silent hlim
    · dsimp only
      split
      · exact .silent hlim
      · split
        · exact .silent hlim
        · split
          · exact .silent hlim
          · rename_i hnext
            split
            · constructor
              · exact List.forall_mem_nil _
              · change (CupPeer.forkMark _ _ _ _ _).waitHdrLim ≤ _
                unfold CupPeer.forkMark
                split <;> exact hlim
            · rename_i nextH hwalk
              have hlim' : (s.withPeer s.peer.hdrAnswered).peer.waitHdrLim ≤ caps.hdrHard := hlim
              refine acceptHdrs_inForm hlim' headers (walkHdrs_ne hwalk ?_) wrote
              rw [not_not.mp hnext]
              exact saturatingAdd_one_ne _

theorem liveTailPullHdr_inForm (hlim : s.peer.waitHdrLim ≤ caps.hdrHard) :
    (s.liveTailPullHdr caps).2.InForm caps := by
  unfold PeerSession.liveTailPullHdr
  dsimp only
  split
  · exact .silent hlim
  · split
    · exact .silent hlim
    · exact askHdr_inForm hlim (saturatingAdd_one_ne _) (le_def.mpr le_rfl)

theorem onBlkBatch_inForm (hlim : s.peer.waitHdrLim ≤ caps.hdrHard)
    (blocks : List SyncBlockWire) (wrote : Bool) :
    (s.onBlkBatch C app caps blocks wrote).InForm caps := by
  unfold PeerSession.onBlkBatch
  split
  · exact .silent hlim
  · split
    · exact .silent hlim
    · dsimp only
      split
      · exact .silent hlim
      · split
        · exact .silent hlim
        · split
          · rename_i rest _ _ inn _
            have hlim' : (s.blkApplied inn rest).peer.waitHdrLim ≤ caps.hdrHard := hlim
            exact thenAskBlk_inForm (liveTailPullHdr_inForm hlim') wrote
          · exact askBlk_inForm hlim
          · exact .silent hlim

theorem onCupChunk_lim (s : PeerSession) (chunk : SyncCatchupChunkWire) (now : U64) :
    (s.onCupChunk C app cfg chunk now).peer.waitHdrLim = s.peer.waitHdrLim := by
  unfold PeerSession.onCupChunk
  split
  · rfl
  · split
    · rfl
    · split
      · rfl
      · split
        · rfl
        · split
          · rfl
          · split <;> rfl

theorem onCupDone_inForm (hlim : s.peer.waitHdrLim ≤ caps.hdrHard) (epochId lastH now : U64)
    (lastHash : String) : (s.onCupDone cfg caps epochId lastH lastHash now).InForm caps := by
  unfold PeerSession.onCupDone
  split
  · exact .silent hlim
  · split
    · exact .silent hlim
    · dsimp only
      split
      · exact askHdr_inForm hlim (saturatingAdd_one_ne _) (le_def.mpr le_rfl)
      · exact .silent hlim

theorem onNack_lim (s : PeerSession) (reasonCode : String) (now : U64) :
    (s.onNack cfg reasonCode now).peer.waitHdrLim = s.peer.waitHdrLim := by
  unfold PeerSession.onNack
  dsimp only
  split
  · rfl
  · split <;> rfl

theorem step_inForm (hlim : s.peer.waitHdrLim ≤ caps.hdrHard) (canCup : Bool)
    (event : PeerSession.Event) : (s.step C app cfg caps canCup event).InForm caps := by
  cases event with
  | other inn => exact .silent hlim
  | msg answer now wrote =>
      unfold PeerSession.step
      dsimp only
      split
      · exact .silent hlim
      · cases answer with
        | tipAnnounce headH headHash finalizedH finalizedHash =>
            exact onTip_inForm hlim _ _ _ _ _ _ _
        | headersBatch headers => exact onHdrBatch_inForm hlim headers wrote
        | blocksBatch blocks => exact onBlkBatch_inForm hlim blocks wrote
        | chunk chunk =>
            unfold PeerSession.onMsg
            dsimp only
            split
            · exact .silent (@onCupChunk_lim C app cfg s chunk now ▸ hlim)
            · exact .silent hlim
        | done epochId lastH lastHash =>
            unfold PeerSession.onMsg
            dsimp only
            split
            · exact onCupDone_inForm hlim _ _ _ _
            · exact .silent hlim
        | nack reasonCode => exact .silent ((onNack_lim s reasonCode now).symm ▸ hlim)

end Asks

/-! ## What the other side refuses -/

section Refusals

variable {C : Crypto} {J : BlockJson} {blockSize : Nat} {caps : SyncCaps} {srv : SyncServer}
  {reasonCode : String}

/-- No nack of these is for the form of a request. -/
def NotForForm (outcome : Except ServeFault (List SyncAnswer)) : Prop :=
  ∀ reasonCode, outcome = .error (.nack reasonCode) → reasonCode ∉ formNacks

theorem diskRange_nack {fromH limit : U64} {use : List Block → Bool} {rows : List Block} :
    srv.diskRange J blockSize fromH limit use rows ≠ .error (.nack reasonCode) := by
  unfold SyncServer.diskRange
  split
  · intro h
    cases h
  · split <;> intro h <;> cases h

theorem hdrRows_nack {fromH : U64} {reqLim : U16} :
    srv.hdrRows J blockSize fromH reqLim ≠ .error (.nack reasonCode) := by
  unfold SyncServer.hdrRows
  dsimp only
  split
  · intro h
    cases h
  · exact diskRange_nack

theorem cupRows_nack {startH endH : U64} :
    srv.cupRows J blockSize startH endH ≠ .error (.nack reasonCode) := by
  unfold SyncServer.cupRows
  dsimp only
  split
  · intro h
    cases h
  · exact diskRange_nack

theorem onHdrReq_inForm {fromH : U64} {limit : U16}
    (hform : (SyncAsk.headersReq fromH limit).InForm caps) :
    NotForForm (srv.onHdrReq C J blockSize caps fromH limit) := by
  intro reason hnack
  simp only [SyncServer.onHdrReq, except_bind_error_iff, check_error_iff] at hnack
  rcases hnack with ⟨hbad, -⟩ | ⟨_, -, hrows | ⟨rows, -, ⟨-, hreason⟩ | ⟨_, -, hend⟩⟩⟩
  · exact absurd hform hbad
  · exact absurd hrows hdrRows_nack
  · obtain rfl := ServeFault.nack.inj hreason
    decide
  · cases hend

/-- The reasons for which a block is missing. -/
def rowNacks : List String := ["blocks_range", "blocks_hash"]

theorem mapError_error_iff {α δ ε : Type} {g : δ → ε} {r : Except δ α} {e : ε} :
    r.mapError g = .error e ↔ ∃ d, r = .error d ∧ g d = e := by
  cases r <;> simp [Except.mapError]

theorem blockAtHeight_nack {row : String × U64}
    (hnack : srv.blockAtHeight C J row = .error (.nack reasonCode)) : reasonCode ∈ rowNacks := by
  unfold SyncServer.blockAtHeight at hnack
  split at hnack
  · cases hnack
  · simp only [SyncServer.diskBlock, except_bind_error_iff, orFail_error_iff, mapError_error_iff,
      check_error_iff] at hnack
    rcases hnack with ⟨-, hreason⟩ | ⟨_, -, ⟨_, -, hlog⟩ | ⟨_, -, ⟨-, hreason⟩ | ⟨_, -,
      ⟨-, hreason⟩ | ⟨_, -, hend⟩⟩⟩⟩
    · obtain rfl := ServeFault.nack.inj hreason
      decide
    · cases hlog
    · obtain rfl := ServeFault.nack.inj hreason
      decide
    · obtain rfl := ServeFault.nack.inj hreason
      decide
    · cases hend

theorem blocksByScan_nack {hashes : List String}
    (hnack : srv.blocksByScan C J hashes = .error (.nack reasonCode)) :
    reasonCode ∈ rowNacks := by
  simp only [SyncServer.blocksByScan, except_bind_error_iff] at hnack
  rcases hnack with hscan | ⟨scan, -, hrows⟩
  · unfold SyncServer.scanMisses at hscan
    split at hscan
    · cases hscan
    · simp only [except_bind_error_iff, orFail_error_iff, mapError_error_iff] at hscan
      rcases hscan with ⟨-, hreason⟩ | ⟨_, -, _, -, hlog⟩
      · obtain rfl := ServeFault.nack.inj hreason
        decide
      · cases hlog
  · obtain ⟨row, -, hrow⟩ := mapM_error hrows
    simp only [except_bind_error_iff, orFail_error_iff, check_error_iff] at hrow
    rcases hrow with ⟨-, hreason⟩ | ⟨_, -, ⟨-, hreason⟩ | ⟨_, -, hend⟩⟩
    · obtain rfl := ServeFault.nack.inj hreason
      decide
    · obtain rfl := ServeFault.nack.inj hreason
      decide
    · cases hend

theorem onBlkReq_inForm {hashes : List String} {heights : Option (List U64)}
    (hform : (SyncAsk.blocksReq hashes heights).InForm caps) :
    NotForForm (srv.onBlkReq C J caps hashes heights) := by
  intro reason hnack
  have hrow : ∀ {reason : String}, reason ∈ rowNacks → reason ∉ formNacks := by
    intro reason hmem
    simp only [rowNacks, List.mem_cons, List.not_mem_nil, or_false] at hmem
    rcases hmem with rfl | rfl <;> decide
  obtain ⟨hne, hlength, hheights⟩ := hform
  simp only [SyncServer.onBlkReq, except_bind_error_iff, check_error_iff] at hnack
  rcases hnack with ⟨hbad, -⟩ | ⟨_, -, ⟨hbad, -⟩ | ⟨_, -, hrows | ⟨_, -, hend⟩⟩⟩
  · exact absurd ⟨hne, hlength⟩ hbad
  · exact absurd hheights hbad
  · cases heights with
    | some hs =>
        obtain ⟨row, -, hrow'⟩ := mapM_error hrows
        exact hrow (blockAtHeight_nack hrow')
    | none => exact hrow (blocksByScan_nack hrows)
  · cases hend

theorem onCupReq_inForm {startH endH epochId : U64} {anchorHash : String}
    (hform : (SyncAsk.catchupReq startH endH epochId anchorHash).InForm caps) :
    NotForForm (srv.onCupReq C J blockSize startH endH epochId) := by
  intro reason hnack
  obtain ⟨hne, hle, hsize, hfirst, hlast⟩ := hform
  simp only [SyncServer.onCupReq, except_bind_error_iff, check_error_iff, mapError_error_iff,
    mapError_ok_iff, hfirst, hlast] at hnack
  rcases hnack with ⟨hbad, -⟩ | ⟨_, -, ⟨_, herr, -⟩ | ⟨_, heid, ⟨hbad, -⟩ | ⟨_, -, ⟨_, herr, -⟩ |
    ⟨_, heid', ⟨hbad, -⟩ | ⟨_, -, hrows | ⟨_, -, ⟨-, hreason⟩ | ⟨_, -, hend⟩⟩⟩⟩⟩⟩⟩
  · exact absurd ⟨hne, hle, hsize⟩ hbad
  · cases herr
  · exact absurd (Except.ok.inj heid).symm hbad
  · cases herr
  · exact absurd (Except.ok.inj heid').symm hbad
  · exact absurd hrows cupRows_nack
  · obtain rfl := ServeFault.nack.inj hreason
    decide
  · cases hend

/-- A request that is in form for some limits is in form for no smaller ones. -/
theorem inForm_mono {srvCaps : SyncCaps} {ask : SyncAsk} (hform : ask.InForm caps)
    (hhdr : caps.hdrHard ≤ srvCaps.hdrHard) (hblk : caps.blkHard ≤ srvCaps.blkHard) :
    ask.InForm srvCaps := by
  cases ask with
  | headersReq fromH limit =>
      obtain ⟨hfrom, hlimit, hle⟩ := hform
      exact ⟨hfrom, hlimit, BitVec.le_trans hle hhdr⟩
  | blocksReq hashes heights =>
      obtain ⟨hne, hlength, hheights⟩ := hform
      exact ⟨hne, hlength.trans (le_def.mp hblk), hheights⟩
  | catchupReq startH endH epochId anchorHash => exact hform

theorem serve_inForm {ask : SyncAsk} (hform : ask.InForm caps) (canCup : Bool) :
    NotForForm (srv.serve C J blockSize caps canCup ask) := by
  cases ask with
  | headersReq fromH limit => exact onHdrReq_inForm hform
  | blocksReq hashes heights => exact onBlkReq_inForm hform
  | catchupReq startH endH epochId anchorHash =>
      unfold SyncServer.serve
      dsimp only
      split
      · exact onCupReq_inForm hform
      · intro reason hnack
        cases hnack

end Refusals

section Runs

variable {C : Crypto} {app : SyncApp} {cfg : TransportConfig} {caps : SyncCaps} {canCup : Bool}
  {s s' : PeerSession} {labels : List (PeerSession.Event × List SyncAsk)}

theorem run_inForm (hrun : Run (PeerSession.Step C app cfg caps canCup) s labels s')
    (hlim : s.peer.waitHdrLim ≤ caps.hdrHard) :
    s'.peer.waitHdrLim ≤ caps.hdrHard ∧ ∀ label ∈ labels, ∀ ask ∈ label.2, ask.InForm caps := by
  induction hrun with
  | nil => exact ⟨hlim, List.forall_mem_nil _⟩
  | @snoc mid next labels label _ hstep ih =>
      obtain ⟨hmid, hasks⟩ := ih
      obtain ⟨hnext, hlabel⟩ := hstep
      have hform := @step_inForm C app cfg caps mid hmid canCup label.1
      refine ⟨hnext ▸ hform.lim, ?_⟩
      intro label' hmem
      rcases List.mem_append.mp hmem with hold | hnew
      · exact hasks label' hold
      · obtain rfl := List.mem_singleton.mp hnew
        rw [hlabel]
        exact hform.asks

/-- Whatever the peer sends and other tasks do, no request of a session is refused for its form by
a peer with the same limits or larger ones. -/
theorem session_asks_inForm {inn : Inner}
    (hrun : Run (PeerSession.Step C app cfg caps canCup) { inn := inn } labels s')
    (J : BlockJson) (blockSize : Nat) (srv : SyncServer) (srvCaps : SyncCaps) (srvCup : Bool)
    (hhdr : caps.hdrHard ≤ srvCaps.hdrHard) (hblk : caps.blkHard ≤ srvCaps.blkHard) :
    ∀ label ∈ labels, ∀ ask ∈ label.2, ∀ reason,
      srv.serve C J blockSize srvCaps srvCup ask = .error (.nack reason) → reason ∉ formNacks := by
  intro label hlabel ask hask
  have hlim : ({ inn := inn } : PeerSession).peer.waitHdrLim ≤ caps.hdrHard := by
    rw [le_def]
    exact Nat.zero_le _
  have hform := (run_inForm hrun hlim).2 label hlabel ask hask
  exact serve_inForm (inForm_mono hform hhdr hblk) srvCup

end Runs

/-! ## A peer that is far ahead -/

namespace FarPeer

def app : SyncApp := ⟨false, none⟩
def cfg : TransportConfig := ⟨1000#64, 60000#64⟩
def caps : SyncCaps := ⟨128#16, 32#16⟩

/-- Nothing is read where there is no data file. -/
def json : BlockJson := ⟨fun _ => "", fun _ => .error "EOF while parsing a value"⟩

/-- A node without blocks, and a peer of which it knows nothing. -/
def fresh : PeerSession := { inn := UnsavedBatch.standby }

/-- The peer is 300 blocks ahead. -/
def tip : PeerSession.Event := .msg (.tipAnnounce 300#64 "aa" 299#64 none) 5#64 true

def afterTip : SyncOut := fresh.step MissedPrimary.crypto app cfg caps true tip

theorem afterTip_run : Run (PeerSession.Step MissedPrimary.crypto app cfg caps true) fresh
    [(tip, afterTip.asks)] afterTip.s :=
  .single ⟨rfl, rfl⟩

theorem afterTip_active : afterTip.s.peer.cupActive = true := by
  decide

theorem afterTip_asks :
    .catchupReq 1#64 300#64 0#64 (hexEncode (fresh.inn.chain.tipHash MissedPrimary.crypto)) ∈
      afterTip.asks := by
  decide

end FarPeer

open FarPeer in
/-- A peer without blocks and with the same limits does not refuse the window for its form. -/
theorem session_asks_inForm_farPeer :
    SyncServer.serve MissedPrimary.crypto json 208 caps ⟨MissedPrimary.chain, none⟩ true
        (.catchupReq 1#64 300#64 0#64 (hexEncode (fresh.inn.chain.tipHash MissedPrimary.crypto))) ≠
      .error (.nack "catchup_range") := by
  intro hrefused
  have hform := session_asks_inForm afterTip_run json 208 ⟨MissedPrimary.chain, none⟩ caps true
    (BitVec.le_refl _) (BitVec.le_refl _) _ (List.mem_singleton_self _) _ afterTip_asks
  exact hform _ hrefused (by decide)

end Pwm
