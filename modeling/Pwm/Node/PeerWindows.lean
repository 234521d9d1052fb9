import Pwm.Node.PeerRequests

/-!
# What a session does to its node

A message leaves the node as it is or applies blocks to it; a window that is
open is kept, closed, or moved on by a chunk of blocks that were applied. So
the chain of the node only goes on with blocks that replay on it, and an open
window stands where the chain does. It also waits: nothing but a chunk, the
end of the window or a nack closes it while the peer is not close.
-/

namespace Pwm

open BitVec Attempt

/-- The window that is open, and when a further one may be asked for. -/
structure CupWindow where
  active : Bool
  epoch : U64
  fromH : U64
  toH : U64
  nextH : U64
  prevHash : String
  nextMs : U64

def CupPeer.window (st : CupPeer) : CupWindow :=
  ⟨st.cupActive, st.cupEpoch, st.cupFrom, st.cupTo, st.cupNextH, st.cupPrevHash, st.cupNextMs⟩

/-- Node and window are as they were. -/
structure PeerSession.Quiet (s s' : PeerSession) : Prop where
  inn : s'.inn = s.inn
  gone : s'.gone = s.gone
  window : s'.peer.window = s.peer.window

/-- What a message does to node and window. -/
inductive PeerSession.Effect (C : Crypto) (app : SyncApp) (s s' : PeerSession) : Prop
  | quiet (h : s.Quiet s')
  | closed (hinn : s'.inn = s.inn) (hclosed : s'.peer.cupActive = false)
  | opened (headH fromH toH eid : U64) (hinn : s'.inn = s.inn)
      (hrange : cupReqRange s.inn.chain.tipH headH = .ok (some (fromH, toH)))
      (hepoch : epochIdx fromH = .ok eid)
      (hwindow : s'.peer.window =
        ⟨true, eid, fromH, toH, fromH, hexEncode (s.inn.chain.tipHash C), 0#64⟩)
  | applied (blocks : List Block) (r : Except SyncFault Unit)
      (happly : app.applyBlkBatch C s.inn blocks = (r, s'.inn))
      (hclosed : s'.peer.cupActive = false)
  | went (rows : List (SyncHeaderWire × SyncBlockWire)) (nextH : U64) (prevHash : String)
      (blocks : List Block) (hactive : s.peer.cupActive = true)
      (hwalk : walkChunk C s.peer.cupFrom s.peer.cupTo s.peer.cupNextH s.peer.cupPrevHash rows =
        .ok (nextH, prevHash, blocks))
      (happly : app.applyBlkBatch C s.inn blocks = (.ok (), s'.inn))
      (hwindow : s'.peer.window = { s.peer.window with nextH := nextH, prevHash := prevHash })
  | panicked (blocks : List Block)
      (happly : app.applyBlkBatch C s.inn blocks = (.error .panic, s'.inn))
      (hgone : s'.gone = true)

section Effects

variable {C : Crypto} {app : SyncApp} {cfg : TransportConfig} {caps : SyncCaps}
  {s s' s₁ : PeerSession}

theorem PeerSession.Quiet.refl (s : PeerSession) : s.Quiet s := ⟨rfl, rfl, rfl⟩

theorem PeerSession.Quiet.trans (h : s.Quiet s₁) (h' : s₁.Quiet s') : s.Quiet s' where
  inn := h'.inn.trans h.inn
  gone := h'.gone.trans h.gone
  window := h'.window.trans h.window

theorem PeerSession.Quiet.active (h : s.Quiet s') : s'.peer.cupActive = s.peer.cupActive :=
  congrArg CupWindow.active h.window

/-- What follows an effect without touching node and window does not change the effect. -/
theorem PeerSession.Effect.then_quiet (h : s.Effect C app s₁) (hquiet : s₁.Quiet s') :
    s.Effect C app s' := by
  cases h with
  | quiet h => exact .quiet (h.trans hquiet)
  | closed hinn hclosed => exact .closed (hquiet.inn.trans hinn) (hquiet.active.trans hclosed)
  | opened headH fromH toH eid hinn hrange hepoch hwindow =>
      exact .opened headH fromH toH eid (hquiet.inn.trans hinn) hrange hepoch
        (hquiet.window.trans hwindow)
  | applied blocks r happly hclosed =>
      exact .applied blocks r (hquiet.inn ▸ happly) (hquiet.active.trans hclosed)
  | went rows nextH prevHash blocks hactive hwalk happly hwindow =>
      exact .went rows nextH prevHash blocks hactive hwalk (hquiet.inn ▸ happly)
        (hquiet.window.trans hwindow)
  | panicked blocks happly hgone =>
      exact .panicked blocks (hquiet.inn ▸ happly) (hquiet.gone.trans hgone)

/-- What goes before an effect without touching node and window does not change it either. -/
theorem PeerSession.Effect.of_quiet (hquiet : s.Quiet s₁) (h : s₁.Effect C app s') :
    s.Effect C app s' := by
  have hwin := hquiet.window
  cases h with
  | quiet h => exact .quiet (hquiet.trans h)
  | closed hinn hclosed => exact .closed (hinn.trans hquiet.inn) hclosed
  | opened headH fromH toH eid hinn hrange hepoch hwindow =>
      rw [hquiet.inn] at hinn hrange hwindow
      exact .opened headH fromH toH eid hinn hrange hepoch hwindow
  | applied blocks r happly hclosed => exact .applied blocks r (hquiet.inn ▸ happly) hclosed
  | went rows nextH prevHash blocks hactive hwalk happly hwindow =>
      have hfrom : s₁.peer.cupFrom = s.peer.cupFrom := congrArg CupWindow.fromH hwin
      have hto : s₁.peer.cupTo = s.peer.cupTo := congrArg CupWindow.toH hwin
      have hnext : s₁.peer.cupNextH = s.peer.cupNextH := congrArg CupWindow.nextH hwin
      have hprev : s₁.peer.cupPrevHash = s.peer.cupPrevHash := congrArg CupWindow.prevHash hwin
      rw [hfrom, hto, hnext, hprev] at hwalk
      rw [hwin] at hwindow
      exact .went rows nextH prevHash blocks (hquiet.active ▸ hactive) hwalk
        (hquiet.inn ▸ happly) hwindow
  | panicked blocks happly hgone => exact .panicked blocks (hquiet.inn ▸ happly) hgone

theorem withSync_quiet (s : PeerSession) (st : SyncPeerState) : s.Quiet (s.withSync s.inn st) :=
  ⟨rfl, rfl, rfl⟩

theorem askHdr_quiet (s : PeerSession) (fromH : U64) (lim : U16) :
    s.Quiet (s.askHdr fromH lim).2.s :=
  withSync_quiet s _

theorem askBlk_quiet (s : PeerSession) (caps : SyncCaps) : s.Quiet (s.askBlk caps).s :=
  withSync_quiet s _

theorem thenAskBlk_quiet (caps : SyncCaps) (out : Bool × SyncOut) (wrote : Bool) :
    out.2.s.Quiet (PeerSession.thenAskBlk caps out wrote).s := by
  unfold PeerSession.thenAskBlk
  split
  · exact .refl _
  · exact askBlk_quiet _ _

theorem liveTailPullHdr_quiet (s : PeerSession) (caps : SyncCaps) :
    s.Quiet (s.liveTailPullHdr caps).2.s := by
  unfold PeerSession.liveTailPullHdr
  dsimp only
  split
  · exact .refl s
  · split
    · exact .refl s
    · exact askHdr_quiet s _ _

theorem sendCupReq_effect {headH fromH toH now : U64} {wrote : Bool}
    (hrange : cupReqRange s.inn.chain.tipH headH = .ok (some (fromH, toH))) :
    s.Effect C app (s.sendCupReq C cfg fromH toH now wrote).2 := by
  obtain ⟨-, -, -, -, -, eid, hepoch, -⟩ := cupReqRange_inForm hrange
  unfold PeerSession.sendCupReq
  rw [hepoch]
  dsimp only
  split
  · exact .opened headH fromH toH eid rfl hrange hepoch rfl
  · exact .closed rfl rfl

theorem maybeStartCup_effect {headH now : U64} {canCup wrote : Bool} {p : Bool × SyncOut}
    (hok : s.maybeStartCup C cfg headH now canCup wrote = .ok p) : s.Effect C app p.2.s := by
  unfold PeerSession.maybeStartCup at hok
  split at hok
  · obtain rfl := Except.ok.inj hok
    exact .quiet ⟨rfl, rfl, rfl⟩
  · dsimp only at hok
    split at hok
    · obtain rfl := Except.ok.inj hok
      exact .quiet (.refl s)
    · obtain ⟨range, hrange, hok⟩ := except_bind_ok_iff.mp hok
      cases range with
      | none =>
          obtain rfl := Except.ok.inj hok
          exact .quiet (.refl s)
      | some range =>
          obtain ⟨fromH, toH⟩ := range
          have hsent := @sendCupReq_effect C app cfg s headH fromH toH now wrote hrange
          dsimp only at hok
          cases hsend : s.sendCupReq C cfg fromH toH now wrote with
          | mk ask s' =>
              rw [hsend] at hok hsent
              cases ask <;>
              · obtain rfl := Except.ok.inj hok
                exact hsent

/-- A short tail closes the window, if one is open. -/
theorem tryDemoteCupTail_cases (s : PeerSession) (tipLag : U64) :
    s.tryDemoteCupTail tipLag = s ∨ (s.tryDemoteCupTail tipLag).inn = s.inn ∧
      (s.tryDemoteCupTail tipLag).peer.cupActive = false := by
  unfold PeerSession.tryDemoteCupTail
  split
  · exact .inl rfl
  · exact .inr ⟨rfl, rfl⟩

/-- A window that is closed first changes nothing about an effect. -/
theorem PeerSession.Effect.of_closed (hinn : s₁.inn = s.inn) (hclosed : s₁.peer.cupActive = false)
    (h : s₁.Effect C app s') : s.Effect C app s' := by
  cases h with
  | quiet h => exact .closed (h.inn.trans hinn) (h.active.trans hclosed)
  | closed hinn' hclosed' => exact .closed (hinn'.trans hinn) hclosed'
  | opened headH fromH toH eid hinn' hrange hepoch hwindow =>
      rw [hinn] at hinn' hrange hwindow
      exact .opened headH fromH toH eid hinn' hrange hepoch hwindow
  | applied blocks r happly hclosed' => exact .applied blocks r (hinn ▸ happly) hclosed'
  | went rows nextH prevHash blocks hactive =>
      rw [hclosed] at hactive
      cases hactive
  | panicked blocks happly hgone => exact .panicked blocks (hinn ▸ happly) hgone

theorem follow_effect (s : PeerSession) (headH now : U64) (canCup wrote cupReq : Bool) :
    s.Effect C app (s.follow C cfg caps headH now canCup wrote cupReq).s := by
  have hstart : ∀ {p : Bool × SyncOut}, (if cupReq = true then
      s.maybeStartCup C cfg headH now canCup wrote else .ok (false, { s := s })) = .ok p →
        s.Effect C app p.2.s := by
    intro p hp
    split at hp
    · exact maybeStartCup_effect hp
    · obtain rfl := Except.ok.inj hp
      exact .quiet (.refl s)
  unfold PeerSession.follow
  dsimp only
  split
  · exact .quiet (.refl s)
  · rename_i out hstarted
    exact hstart hstarted
  · rename_i out hstarted
    exact (hstart hstarted).then_quiet (askHdr_quiet _ _ _)

theorem onTip_effect (s : PeerSession) (headH finalizedH now : U64) (headHash : String)
    (finalizedHash : Option String) (canCup wrote : Bool) :
    s.Effect C app
      (s.onTip C cfg caps headH headHash finalizedH finalizedHash now canCup wrote).s := by
  have hnoted : s.Quiet (s.noteTip headH headHash) := ⟨rfl, rfl, rfl⟩
  unfold PeerSession.onTip
  dsimp only
  split
  · exact .quiet hnoted
  · apply PeerSession.Effect.of_quiet hnoted
    have hdemoted := tryDemoteCupTail_cases (s.noteTip headH headHash) (headH - s.inn.chain.tipH)
    split
    · rcases hdemoted with hsame | ⟨hinn, hclosed⟩
      · exact .quiet (hsame.symm ▸ .refl _)
      · exact .closed hinn hclosed
    · rcases hdemoted with hsame | ⟨hinn, hclosed⟩
      · rw [hsame]
        exact follow_effect _ _ _ _ _ _
      · exact (follow_effect _ _ _ _ _ _).of_closed hinn hclosed

theorem acceptHdrs_quiet (s : PeerSession) (headers : List SyncHeaderWire) (nextH : U64)
    (wrote : Bool) : s.Quiet (s.acceptHdrs caps headers nextH wrote).s := by
  unfold PeerSession.acceptHdrs
  dsimp only
  refine PeerSession.Quiet.trans ?_ (thenAskBlk_quiet caps _ wrote)
  split
  · exact ⟨rfl, rfl, rfl⟩
  · exact ⟨rfl, rfl, rfl⟩

theorem onHdrBatch_quiet (s : PeerSession) (headers : List SyncHeaderWire) (wrote : Bool) :
    s.Quiet (s.onHdrBatch C caps headers wrote).s := by
  have hanswered : s.Quiet (s.withPeer s.peer.hdrAnswered) := ⟨rfl, rfl, rfl⟩
  unfold PeerSession.onHdrBatch
  split
  · exact .refl s
  · split
    · exact .refl s
    · dsimp only
      split
      · exact hanswered
      · split
        · exact ⟨rfl, rfl, rfl⟩
        · split
          · exact ⟨rfl, rfl, rfl⟩
          · split
            · refine hanswered.trans ⟨rfl, rfl, ?_⟩
              change CupPeer.window (CupPeer.forkMark _ _ _ _ _) = _
              unfold CupPeer.forkMark
              split <;> rfl
            · exact hanswered.trans (acceptHdrs_quiet _ _ _ _)

theorem onBlkBatch_effect (s : PeerSession) (blocks : List SyncBlockWire) (wrote : Bool) :
    s.Effect C app (s.onBlkBatch C app caps blocks wrote).s := by
  unfold PeerSession.onBlkBatch
  split
  · exact .quiet (.refl s)
  · split
    · exact .quiet (.refl s)
    · rename_i hinactive
      have hclosed : s.peer.cupActive = false := Bool.eq_false_iff.mpr hinactive
      dsimp only
      split
      · exact .quiet ⟨rfl, rfl, rfl⟩
      · split
        · exact .quiet ⟨rfl, rfl, rfl⟩
        · rename_i applyRows rest _
          split
          · rename_i inn happly
            have happlied : s.Effect C app (s.blkApplied inn rest) :=
              .applied applyRows _ happly hclosed
            exact (happlied.then_quiet (liveTailPullHdr_quiet _ _)).then_quiet
              (thenAskBlk_quiet _ _ _)
          · rename_i inn happly
            have hrefused : s.Effect C app (s.blkRefused inn rest) :=
              .applied applyRows _ happly hclosed
            exact hrefused.then_quiet (askBlk_quiet _ _)
          · rename_i inn happly
            exact .panicked applyRows happly rfl

theorem onCupChunk_effect (s : PeerSession) (chunk : SyncCatchupChunkWire) (now : U64) :
    s.Effect C app (s.onCupChunk C app cfg chunk now) := by
  unfold PeerSession.onCupChunk
  split
  · exact .closed rfl rfl
  · split
    · exact .quiet (.refl s)
    · rename_i hactive
      split
      · exact .closed rfl rfl
      · split
        · exact .closed rfl rfl
        · rename_i nextH prevHash applyRows hwalk
          split
          · exact .closed rfl rfl
          · split
            · rename_i inn happly
              exact .went _ nextH prevHash applyRows (not_not.mp hactive) hwalk happly rfl
            · rename_i inn happly
              exact .applied applyRows _ happly rfl
            · rename_i inn happly
              exact .panicked applyRows happly rfl

theorem onCupDone_effect (s : PeerSession) (epochId lastH now : U64) (lastHash : String) :
    s.Effect C app (s.onCupDone cfg caps epochId lastH lastHash now).s := by
  unfold PeerSession.onCupDone
  split
  · exact .quiet (.refl s)
  · split
    · exact .closed rfl rfl
    · dsimp only
      split
      · exact .closed rfl rfl
      · exact .closed rfl rfl

theorem onNack_effect (s : PeerSession) (reasonCode : String) (now : U64) :
    s.Effect C app (s.onNack cfg reasonCode now) := by
  unfold PeerSession.onNack
  dsimp only
  split
  · exact .quiet ⟨rfl, rfl, rfl⟩
  · exact .closed rfl rfl

theorem onMsg_effect (s : PeerSession) (canCup : Bool) (now : U64) (wrote : Bool)
    (answer : SyncAnswer) : s.Effect C app (s.onMsg C app cfg caps canCup now wrote answer).s := by
  cases answer with
  | tipAnnounce headH headHash finalizedH finalizedHash => exact onTip_effect s _ _ _ _ _ _ _
  | headersBatch headers => exact .quiet (onHdrBatch_quiet s headers wrote)
  | blocksBatch blocks => exact onBlkBatch_effect s blocks wrote
  | chunk chunk =>
      unfold PeerSession.onMsg
      dsimp only
      split
      · exact onCupChunk_effect s chunk now
      · exact .quiet (.refl s)
  | done epochId lastH lastHash =>
      unfold PeerSession.onMsg
      dsimp only
      split
      · exact onCupDone_effect s _ _ _ _
      · exact .quiet (.refl s)
  | nack reasonCode => exact onNack_effect s reasonCode now

end Effects

/-! ## The chain of the node -/

section Chains

variable {C : Crypto} {app : SyncApp} {inn inn' : Inner} {blk : Block} {blocks : List Block}

theorem Chain.append_tipHash (ch : Chain) (blk : Block) (st : State) :
    (ch.append blk st).tipHash C = hdrHash C blk.hdr := by
  have hlast : (ch.append blk st).blocks.getLast? = some blk := by
    rw [Chain.append_blocks, List.getLast?_drop, if_neg, List.getLast?_concat]
    rw [List.length_append, List.length_singleton]
    have hcap : tailBlockCap = 1000 := rfl
    omega
  rw [Chain.tipHash, hlast]

/-- A block that is accepted is the tip. -/
theorem applyBlk_tip (hok : applyBlk C inn blk = .ok inn') :
    inn'.chain.tipH = blk.hdr.height ∧ inn'.chain.tipHash C = hdrHash C blk.hdr := by
  obtain ⟨st', -, hchain⟩ := applyBlk_chain hok
  rw [hchain]
  exact ⟨Chain.append_tipH _ _ _, Chain.append_tipHash _ _ _⟩

/-- Every snapshot is saved. -/
def SyncApp.SavesAll (app : SyncApp) : Prop :=
  ∀ save, app.autosnapshotBackend = some save → ∀ g, save g = .ok ()

theorem SyncApp.SavesAll.not_saveFails (hsaves : app.SavesAll) : ¬ SaveFails C app inn blocks := by
  rintro ⟨reached, save, err, -, -, hbackend, hresult⟩
  rw [hsaves save hbackend reached] at hresult
  cases hresult

/-- Whatever becomes of a batch, the node goes on by some of its blocks. -/
theorem syncBatch_replays {r : Except SyncFault Unit}
    (happly : app.applyBlkBatch C inn blocks = (r, inn')) :
    ∃ front, applyBlkBatch C inn front = .ok inn' := by
  cases hrun : applyBlks C inn blocks with
  | mk outcome reached =>
      cases outcome with
      | ok u =>
          have hok := applyBlks_ok_iff.mp hrun
          by_cases hsave : SaveFails C app inn blocks
          · rw [applyBlkBatch_unsaved hsave] at happly
            obtain ⟨-, rfl⟩ := Prod.mk.inj happly
            exact ⟨[], rfl⟩
          · rw [applyBlkBatch_saved hok hsave] at happly
            obtain ⟨-, rfl⟩ := Prod.mk.inj happly
            exact ⟨blocks, hok⟩
      | error fault =>
          cases fault with
          | err e =>
              rw [applyBlkBatch_refused hrun] at happly
              obtain ⟨-, rfl⟩ := Prod.mk.inj happly
              exact ⟨[], rfl⟩
          | panic =>
              rw [applyBlkBatch_panicked hrun] at happly
              obtain ⟨-, rfl⟩ := Prod.mk.inj happly
              obtain ⟨front, _, _, -, hfront, -⟩ := applyBlks_error_iff.mp hrun
              exact ⟨front, hfront⟩

/-- A batch that is reported as applied is applied when its snapshot is saved. -/
theorem syncBatch_applied (hsaves : app.SavesAll)
    (happly : app.applyBlkBatch C inn blocks = (.ok (), inn')) :
    applyBlkBatch C inn blocks = .ok inn' := by
  cases hrun : applyBlks C inn blocks with
  | mk outcome reached =>
      cases outcome with
      | ok u =>
          have hok := applyBlks_ok_iff.mp hrun
          rw [applyBlkBatch_saved hok hsaves.not_saveFails] at happly
          obtain ⟨-, rfl⟩ := Prod.mk.inj happly
          exact hok
      | error fault =>
          cases fault with
          | err e =>
              rw [applyBlkBatch_refused hrun] at happly
              cases happly
          | panic =>
              rw [applyBlkBatch_panicked hrun] at happly
              cases happly

end Chains

/-! ## Windows of a run -/

/-- The ends of a window lie in its epoch, and what comes next lies between them or above. -/
structure CupWindow.Sound (w : CupWindow) : Prop where
  epochFrom : epochIdx w.fromH = .ok w.epoch
  epochTo : epochIdx w.toH = .ok w.epoch
  size : w.toH.toNat ≤ w.fromH.toNat + 4095
  from_le : w.fromH.toNat ≤ w.nextH.toNat
  next_le : w.nextH.toNat ≤ w.toH.toNat + 1
  nextMs : w.nextMs = 0#64

/-- What comes next in a window is what comes next on the chain. -/
def CupWindow.AtTip (C : Crypto) (w : CupWindow) (ch : Chain) : Prop :=
  w.nextH = ch.tipH.saturatingAdd 1#64 ∧ w.prevHash = hexEncode (ch.tipHash C)

section Walks

variable {C : Crypto} {fromH toH nextH nextH' : U64} {prevHash prevHash' : String}
  {rows : List (SyncHeaderWire × SyncBlockWire)} {blocks : List Block} {inn inn' : Inner}

/-- A row that is taken has its block, the next height and the hash of its block. -/
theorem walkChunk_cons {row : SyncHeaderWire × SyncBlockWire}
    (hok : walkChunk C fromH toH nextH prevHash (row :: rows) = .ok (nextH', prevHash', blocks)) :
    ∃ blk rest, blocks = blk :: rest ∧ nextH.toNat ≤ toH.toNat ∧
      walkChunk C fromH toH (nextH.saturatingAdd 1#64) (hexEncode (hdrHash C blk.hdr)) rows =
        .ok (nextH', prevHash', rest) := by
  obtain ⟨hdr, row⟩ := row
  rw [walkChunk] at hok
  split at hok
  · cases hok
  · rename_i hlink
    have hheight : hdr.height = nextH := by
      by_contra hne
      exact hlink (.inl hne)
    split at hok
    · cases hok
    · rename_i blk hblk
      split at hok
      · cases hok
      · rename_i hhash
        split at hok
        · cases hok
        · rename_i hrange
          have hle : nextH.toNat ≤ toH.toNat := by
            by_contra hlt
            refine hrange (.inr ?_)
            rw [lt_def, hheight]
            omega
          rw [← not_not.mp hhash] at hok
          cases hrest : walkChunk C fromH toH (nextH.saturatingAdd 1#64)
              (hexEncode (hdrHash C blk.hdr)) rows with
          | error e =>
              rw [hrest] at hok
              cases hok
          | ok p =>
              rw [hrest] at hok
              obtain ⟨rfl, hpair⟩ := Prod.mk.inj (Except.ok.inj hok)
              obtain ⟨rfl, rfl⟩ := Prod.mk.inj hpair
              exact ⟨blk, p.2.2, rfl, hle, hrest⟩

/-- A chunk moves on within the window. -/
theorem walkChunk_next
    (hok : walkChunk C fromH toH nextH prevHash rows = .ok (nextH', prevHash', blocks))
    (hnext : nextH.toNat ≤ toH.toNat + 1) :
    nextH.toNat ≤ nextH'.toNat ∧ nextH'.toNat ≤ toH.toNat + 1 := by
  induction rows generalizing nextH prevHash blocks with
  | nil =>
      obtain ⟨rfl, -⟩ := Prod.mk.inj (Except.ok.inj hok)
      exact ⟨le_rfl, hnext⟩
  | cons row rows ih =>
      obtain ⟨blk, rest, rfl, hle, hrest⟩ := walkChunk_cons hok
      have hone : (1#64 : U64).toNat = 1 := rfl
      have hsucc := toNat_saturatingAdd nextH 1#64
      rw [hone] at hsucc
      obtain ⟨hlow, hhigh⟩ := ih hrest (by omega)
      have hlt := nextH.isLt
      exact ⟨by omega, hhigh⟩

/-- The blocks of a chunk, once applied, end where the chunk ends. -/
theorem walkChunk_atTip
    (hok : walkChunk C fromH toH nextH prevHash rows = .ok (nextH', prevHash', blocks))
    (happly : applyBlkBatch C inn blocks = .ok inn')
    (hnext : nextH = inn.chain.tipH.saturatingAdd 1#64)
    (hprev : prevHash = hexEncode (inn.chain.tipHash C)) :
    nextH' = inn'.chain.tipH.saturatingAdd 1#64 ∧
      prevHash' = hexEncode (inn'.chain.tipHash C) := by
  induction rows generalizing nextH prevHash blocks inn with
  | nil =>
      obtain ⟨rfl, hpair⟩ := Prod.mk.inj (Except.ok.inj hok)
      obtain ⟨rfl, rfl⟩ := Prod.mk.inj hpair
      obtain rfl := Except.ok.inj happly
      exact ⟨hnext, hprev⟩
  | cons row rows ih =>
      obtain ⟨blk, rest, rfl, -, hrest⟩ := walkChunk_cons hok
      obtain ⟨inn₁, hblk, happly⟩ := except_bind_ok_iff.mp happly
      obtain ⟨htip, hhash⟩ := applyBlk_tip hblk
      obtain ⟨st', hreplays, -⟩ := applyBlk_chain hblk
      apply ih hrest happly
      · rw [htip, hreplays.height, hnext]
      · rw [hhash]

end Walks

section Runs

variable {C : Crypto} {app : SyncApp} {cfg : TransportConfig} {caps : SyncCaps} {canCup : Bool}
  {s s' : PeerSession} {labels : List (PeerSession.Event × List SyncAsk)}

theorem opened_sound {headH fromH toH eid : U64} {prevHash : String} {localH : U64}
    (hrange : cupReqRange localH headH = .ok (some (fromH, toH)))
    (hepoch : epochIdx fromH = .ok eid) :
    CupWindow.Sound ⟨true, eid, fromH, toH, fromH, prevHash, 0#64⟩ := by
  obtain ⟨-, -, hfrom, hle, hto, eid', hepoch', hlast⟩ := cupReqRange_inForm hrange
  obtain rfl := Except.ok.inj (hepoch'.symm.trans hepoch)
  exact ⟨hepoch, hlast, by dsimp only; omega, le_rfl, by dsimp only; omega, rfl⟩

/-- An open window of a session that is not gone is sound. -/
def PeerSession.WindowSound (s : PeerSession) : Prop :=
  s.gone = false → s.peer.cupActive = true → s.peer.window.Sound

/-- It stands where the chain does. -/
def PeerSession.WindowAtTip (C : Crypto) (s : PeerSession) : Prop :=
  s.gone = false → s.peer.cupActive = true → s.peer.window.AtTip C s.inn.chain

theorem effect_windowSound (h : s.Effect C app s') (hgone : s.gone = false)
    (hsound : s.WindowSound) : s'.WindowSound := by
  intro hgone' hactive
  cases h with
  | quiet h =>
      rw [h.window]
      exact hsound hgone (h.active.symm.trans hactive)
  | closed hinn hclosed =>
      rw [hclosed] at hactive
      cases hactive
  | opened headH fromH toH eid hinn hrange hepoch hwindow =>
      rw [hwindow]
      exact opened_sound hrange hepoch
  | applied blocks r happly hclosed =>
      rw [hclosed] at hactive
      cases hactive
  | went rows nextH prevHash blocks hopen hwalk happly hwindow =>
      obtain ⟨hfrom, hto, hsize, hlow, hhigh, hms⟩ := hsound hgone hopen
      obtain ⟨hlow', hhigh'⟩ := walkChunk_next hwalk hhigh
      rw [hwindow]
      exact ⟨hfrom, hto, hsize, hlow.trans hlow', hhigh', hms⟩
  | panicked blocks happly hpanic =>
      rw [hpanic] at hgone'
      cases hgone'

theorem effect_windowAtTip (hsaves : app.SavesAll) (h : s.Effect C app s')
    (hgone : s.gone = false) (hat : s.WindowAtTip C) : s'.WindowAtTip C := by
  intro hgone' hactive
  cases h with
  | quiet h =>
      rw [h.window, h.inn]
      exact hat hgone (h.active.symm.trans hactive)
  | closed hinn hclosed =>
      rw [hclosed] at hactive
      cases hactive
  | opened headH fromH toH eid hinn hrange hepoch hwindow =>
      rw [hwindow, hinn]
      exact ⟨(cupReqRange_inForm hrange).1, rfl⟩
  | applied blocks r happly hclosed =>
      rw [hclosed] at hactive
      cases hactive
  | went rows nextH prevHash blocks hopen hwalk happly hwindow =>
      obtain ⟨hnext, hprev⟩ := hat hgone hopen
      rw [hwindow]
      exact walkChunk_atTip hwalk (syncBatch_applied hsaves happly) hnext hprev
  | panicked blocks happly hpanic =>
      rw [hpanic] at hgone'
      cases hgone'

/-- A message goes on from the node by some blocks. -/
theorem effect_replays (h : s.Effect C app s') :
    ∃ blocks, applyBlkBatch C s.inn blocks = .ok s'.inn := by
  cases h with
  | quiet h => exact ⟨[], congrArg Except.ok h.inn.symm⟩
  | closed hinn hclosed => exact ⟨[], congrArg Except.ok hinn.symm⟩
  | opened headH fromH toH eid hinn => exact ⟨[], congrArg Except.ok hinn.symm⟩
  | applied blocks r happly hclosed => exact syncBatch_replays happly
  | went rows nextH prevHash blocks hopen hwalk happly => exact syncBatch_replays happly
  | panicked blocks happly hpanic => exact syncBatch_replays happly

theorem step_windowSound (hsound : s.WindowSound) (event : PeerSession.Event) :
    (s.step C app cfg caps canCup event).s.WindowSound := by
  cases event with
  | other inn => exact hsound
  | msg answer now wrote =>
      unfold PeerSession.step
      dsimp only
      split
      · exact hsound
      · rename_i hgone
        exact effect_windowSound (@onMsg_effect C app cfg caps s canCup now wrote answer)
          (Bool.eq_false_iff.mpr hgone) hsound

theorem run_windowSound {inn : Inner}
    (hrun : Run (PeerSession.Step C app cfg caps canCup) { inn := inn } labels s') :
    s'.WindowSound := by
  refine hrun.invariant ?_ ?_
  · intro s label s' hsound hstep
    rw [hstep.1]
    exact step_windowSound hsound label.1
  · intro _ hactive
    cases hactive

/-- Only messages happen: no other task changes the node. -/
def Alone (labels : List (PeerSession.Event × List SyncAsk)) : Prop :=
  ∀ label ∈ labels, ∃ answer now wrote, label.1 = .msg answer now wrote

/-- Whatever a peer sends, the node goes on only by blocks that replay on its chain, and an open
window lies in one epoch; it stands where the chain does when snapshots are saved. -/
theorem session_replays {inn : Inner}
    (hrun : Run (PeerSession.Step C app cfg caps canCup) { inn := inn } labels s')
    (halone : Alone labels) :
    (∃ blocks, applyBlkBatch C inn blocks = .ok s'.inn) ∧ s'.WindowSound ∧
      (app.SavesAll → s'.WindowAtTip C) := by
  have hfresh : Alone [] → (∃ blocks, applyBlkBatch C inn blocks = .ok inn) ∧
      (app.SavesAll → ({ inn := inn } : PeerSession).WindowAtTip C) := by
    intro _
    refine ⟨⟨[], rfl⟩, ?_⟩
    intro _ _ hactive
    cases hactive
  have hends := hrun.history_invariant (I := fun labels s => Alone labels →
    (∃ blocks, applyBlkBatch C inn blocks = .ok s.inn) ∧ (app.SavesAll → s.WindowAtTip C))
    ?_ hfresh halone
  · exact ⟨hends.1, run_windowSound hrun, hends.2⟩
  · intro labels s label s' ih hstep halone
    obtain ⟨⟨blocks, hblocks⟩, hat⟩ := ih fun l hl => halone l (List.mem_append_left _ hl)
    obtain ⟨answer, now, wrote, hmsg⟩ := halone label (by simp)
    rw [hstep.1, hmsg]
    unfold PeerSession.step
    dsimp only
    split
    · exact ⟨⟨blocks, hblocks⟩, hat⟩
    · rename_i hgone
      have heffect := @onMsg_effect C app cfg caps s canCup now wrote answer
      obtain ⟨more, hmore⟩ := effect_replays heffect
      refine ⟨⟨blocks ++ more, ?_⟩, ?_⟩
      · rw [applyBlkBatch_append, hblocks]
        exact hmore
      · intro hsaves
        exact effect_windowAtTip hsaves heffect (Bool.eq_false_iff.mpr hgone) (hat hsaves)

end Runs

open FarPeer in
/-- The session with the far peer. -/
theorem session_replays_farPeer :
    (∃ blocks, applyBlkBatch MissedPrimary.crypto fresh.inn blocks = .ok afterTip.s.inn) ∧
      afterTip.s.WindowSound ∧ (app.SavesAll → afterTip.s.WindowAtTip MissedPrimary.crypto) := by
  apply session_replays afterTip_run
  intro label hlabel
  obtain rfl := List.mem_singleton.mp hlabel
  exact ⟨_, _, _, rfl⟩

/-! ## Without windows -/

/-- The session as the live sync alone sees it. -/
def PeerSession.live (s : PeerSession) : SyncLive :=
  ⟨s.inn, s.peer.toSyncPeerState⟩

/-- What a message is to the live sync. -/
def SyncAnswer.liveEvent (wrote : Bool) : SyncAnswer → Option SyncEvent
  | .tipAnnounce headH _ _ _ => some (.tip headH)
  | .headersBatch headers => some (.hdrBatch headers wrote)
  | .blocksBatch blocks => some (.blkBatch blocks wrote)
  | .chunk _ => none
  | .done _ _ _ => none
  | .nack _ => some .nack

def PeerSession.Event.live : PeerSession.Event → Option SyncEvent
  | .msg answer _ wrote => answer.liveEvent wrote
  | .other _ => none

section Live

variable {C : Crypto} {app : SyncApp} {cfg : TransportConfig} {caps : SyncCaps}
  {s s' : PeerSession} {labels : List (PeerSession.Event × List SyncAsk)}

theorem followHdrs_eq (headers : List SyncHeaderWire) (nextH : U64) (prevHash : String) :
    followHdrs nextH prevHash headers = (walkHdrs nextH prevHash headers).toOption := by
  induction headers generalizing nextH prevHash with
  | nil => rfl
  | cons hdr rest ih =>
      rw [followHdrs, walkHdrs]
      by_cases hgood : hdr.height = nextH ∧ hdr.prevHash = prevHash
      · rw [if_pos hgood, if_neg (by rw [hgood.1, hgood.2]; simp), ih]
      · rw [if_neg hgood, if_pos (by tauto)]
        rfl

theorem thenAskBlk_live (out : Bool × SyncOut) (wrote : Bool) :
    (PeerSession.thenAskBlk caps out wrote).s.live =
      if out.1 ∧ ¬ wrote then out.2.s.live
      else { out.2.s.live with peer := out.2.s.live.peer.askBlk caps } := by
  unfold PeerSession.thenAskBlk
  split <;> rfl

/-- Without windows a lead is followed by headers. -/
theorem follow_live_headers (s : PeerSession) (headH now : U64) (wrote cupReq : Bool) :
    (s.follow C cfg caps headH now false wrote cupReq).s.live =
        ⟨s.inn, (s.peer.askHdr (s.inn.chain.tipH.saturatingAdd 1#64) caps.hdrHard).2⟩ ∧
      (s.follow C cfg caps headH now false wrote cupReq).s.peer.cupActive = s.peer.cupActive := by
  cases cupReq with
  | false => exact ⟨rfl, rfl⟩
  | true => exact ⟨rfl, rfl⟩

theorem onTip_live (hidle : s.peer.cupActive = false) (headH finalizedH now : U64)
    (headHash : String) (finalizedHash : Option String) (wrote : Bool) :
    (s.onTip C cfg caps headH headHash finalizedH finalizedHash now false wrote).s.live =
        s.live.onTip caps headH ∧
      (s.onTip C cfg caps headH headHash finalizedH finalizedHash now false
        wrote).s.peer.cupActive = false := by
  have hidle' : ¬ (s.noteTip headH headHash).peer.cupActive = true :=
    Bool.eq_false_iff.mp hidle
  have hkept : (s.noteTip headH headHash).tryDemoteCupTail (headH - s.inn.chain.tipH) =
      s.noteTip headH headHash :=
    if_pos (.inr hidle')
  unfold PeerSession.onTip
  dsimp only
  rw [hkept]
  by_cases hbehind : headH < s.inn.chain.tipH
  · have hle : headH ≤ s.live.inn.chain.tipH := BitVec.le_of_lt hbehind
    rw [if_pos hbehind, SyncLive.onTip]
    dsimp only
    rw [if_pos hle]
    exact ⟨rfl, hidle⟩
  · rw [if_neg hbehind]
    by_cases hsame : headH - s.inn.chain.tipH = 0#64
    · have hle : headH ≤ s.live.inn.chain.tipH := by
        have heq : headH = s.inn.chain.tipH := sub_eq_zero.mp hsame
        rw [heq]
        exact BitVec.le_refl _
      rw [if_pos hsame, SyncLive.onTip]
      dsimp only
      rw [if_pos hle]
      exact ⟨rfl, hidle⟩
    · have hle : ¬ headH ≤ s.live.inn.chain.tipH := by
        intro hle
        apply hsame
        have heq : headH = s.inn.chain.tipH := by
          apply BitVec.eq_of_toNat_eq
          rw [lt_def] at hbehind
          rw [le_def] at hle
          exact Nat.le_antisymm hle (Nat.le_of_not_lt hbehind)
        rw [heq, BitVec.sub_self]
      obtain ⟨hlive, hactive⟩ := @follow_live_headers C cfg caps (s.noteTip headH headHash) headH
        now wrote ((s.noteTip headH headHash).peer.cupActive &&
          decide ((s.noteTip headH headHash).peer.cupNextMs ≤ now) ||
            decide (syncCupLagMin ≤ headH - s.inn.chain.tipH))
      rw [if_neg hsame, SyncLive.onTip]
      dsimp only
      rw [if_neg hle]
      exact ⟨hlive, hactive.trans hidle⟩

/-- The part of the peer that the live sync keeps, after an accepted batch of headers. -/
theorem acceptHdrs_live_eq (s : PeerSession) (headers : List SyncHeaderWire) (nextH : U64)
    (wrote : Bool) :
    (s.acceptHdrs caps headers nextH wrote).s.live =
      let st := s.peer.pushRows (headers.map fun hdr => (hdr.height, hdr.hash))
      let (asked, st) :=
        if nextH ≤ st.tipH then st.askHdr nextH (st.waitHdrLim.umax 1#16) else (false, st)
      if asked ∧ ¬ wrote then { s.live with peer := st }
      else { s.live with peer := st.askBlk caps } := by
  obtain ⟨q, hq⟩ : ∃ q, q = (s.withPeer s.peer.forkClear).withSync s.inn
      (s.peer.pushRows (headers.map fun hdr => (hdr.height, hdr.hash))) := ⟨_, rfl⟩
  have haccept : s.acceptHdrs caps headers nextH wrote = PeerSession.thenAskBlk caps
      (if nextH ≤ q.peer.tipH then q.askHdr nextH (q.peer.waitHdrLim.umax 1#16)
      else (false, { s := q })) wrote := by
    rw [hq]
    rfl
  have hpeer : s.peer.pushRows (headers.map fun hdr => (hdr.height, hdr.hash)) =
      q.peer.toSyncPeerState := by
    rw [hq]
    rfl
  have hinn : s.live.inn = q.inn := by
    rw [hq]
    rfl
  rw [haccept, thenAskBlk_live, hpeer]
  dsimp only
  rw [hinn]
  by_cases hmore : nextH ≤ q.peer.tipH
  · simp only [if_pos hmore]
    rfl
  · simp only [if_neg hmore]
    rfl

theorem onHdrBatch_live (hidle : s.peer.cupActive = false) (headers : List SyncHeaderWire)
    (wrote : Bool) :
    (s.onHdrBatch C caps headers wrote).s.live = s.live.onHdrBatch C caps headers wrote := by
  unfold PeerSession.onHdrBatch SyncLive.onHdrBatch
  split
  · rfl
  · rw [if_neg (Bool.eq_false_iff.mp hidle)]
    unfold SyncLive.acceptHdrs
    dsimp only
    have hwait : s.live.peer.waitHdrFrom = s.peer.waitHdrFrom := rfl
    rw [hwait]
    cases s.peer.waitHdrFrom with
    | none => rfl
    | some expH =>
        dsimp only
        by_cases hstart : headers.head?.map SyncHeaderWire.height ≠ some expH ∨
            (s.peer.waitHdrLim.umax 1#16).toNat < headers.length
        · have hstart' : headers.head?.map SyncHeaderWire.height ≠ some expH ∨
              (s.live.peer.waitHdrLim.umax 1#16).toNat < headers.length := hstart
          rw [if_pos hstart, if_pos hstart']
          rfl
        · have hstart' : ¬ (headers.head?.map SyncHeaderWire.height ≠ some expH ∨
              (s.live.peer.waitHdrLim.umax 1#16).toNat < headers.length) := hstart
          rw [if_neg hstart, if_neg hstart']
          by_cases hnext : expH ≠ s.inn.chain.tipH.saturatingAdd 1#64
          · have hnext' : expH ≠ s.live.inn.chain.tipH.saturatingAdd 1#64 := hnext
            rw [if_pos hnext, if_pos hnext']
            rfl
          · have hnext' : ¬ expH ≠ s.live.inn.chain.tipH.saturatingAdd 1#64 := hnext
            have hhash : s.live.inn.chain.tipHash C = s.inn.chain.tipHash C := rfl
            rw [if_neg hnext, if_neg hnext', followHdrs_eq, hhash]
            cases walkHdrs expH (hexEncode (s.inn.chain.tipHash C)) headers with
            | error p =>
                change PeerSession.live (PeerSession.withPeer _ (CupPeer.forkMark _ _ _ _ _)) = _
                unfold CupPeer.forkMark
                split <;> rfl
            | ok nextH =>
                dsimp only [Except.toOption, Option.map_some]
                rw [acceptHdrs_live_eq]
                rfl

theorem liveTailPullHdr_live (hidle : s.peer.cupActive = false) :
    (s.liveTailPullHdr caps).1 = (s.live.peer.liveTailPullHdr caps s.inn.chain.tipH).1 ∧
      (s.liveTailPullHdr caps).2.s.live =
        { s.live with peer := (s.live.peer.liveTailPullHdr caps s.inn.chain.tipH).2 } := by
  have hguard : (s.peer.cupActive = true ∨ s.peer.pendBlk ≠ [] ∨ s.peer.waitBlk ≠ [] ∨
      0#8 < s.peer.inHdr) ↔
        (s.live.peer.pendBlk ≠ [] ∨ s.live.peer.waitBlk ≠ [] ∨ 0#8 < s.live.peer.inHdr) := by
    rw [hidle]
    constructor
    · rintro (hbad | hbusy)
      · cases hbad
      · exact hbusy
    · exact .inr
  unfold PeerSession.liveTailPullHdr SyncPeerState.liveTailPullHdr
  dsimp only
  by_cases hshort : s.peer.tipH.saturatingSub s.inn.chain.tipH = 0#64 ∨
      syncCupTailMax ≤ s.peer.tipH.saturatingSub s.inn.chain.tipH
  · rw [if_pos hshort]
    have hshort' : s.live.peer.tipH.saturatingSub s.inn.chain.tipH = 0#64 ∨
        syncCupTailMax ≤ s.live.peer.tipH.saturatingSub s.inn.chain.tipH := hshort
    rw [if_pos hshort']
    exact ⟨rfl, rfl⟩
  · rw [if_neg hshort]
    have hshort' : ¬ (s.live.peer.tipH.saturatingSub s.inn.chain.tipH = 0#64 ∨
        syncCupTailMax ≤ s.live.peer.tipH.saturatingSub s.inn.chain.tipH) := hshort
    rw [if_neg hshort']
    simp only [hguard]
    split <;> exact ⟨rfl, rfl⟩

theorem onBlkBatch_live (hidle : s.peer.cupActive = false) (blocks : List SyncBlockWire)
    (wrote : Bool) :
    (s.onBlkBatch C app caps blocks wrote).s.live = s.live.onBlkBatch C app caps blocks wrote := by
  unfold PeerSession.onBlkBatch SyncLive.onBlkBatch
  split
  · rfl
  · rw [if_neg (Bool.eq_false_iff.mp hidle)]
    dsimp only
    have hwait : s.live.peer.waitBlk = s.peer.waitBlk := rfl
    have hinn : s.live.inn = s.inn := rfl
    rw [hwait, hinn]
    split
    · rfl
    · cases matchRows C s.peer.waitBlk blocks with
      | error p => rfl
      | ok p =>
          obtain ⟨applyRows, rest⟩ := p
          dsimp only
          cases app.applyBlkBatch C s.inn applyRows with
          | mk outcome inn =>
              cases outcome with
              | ok u =>
                  obtain ⟨hasked, hlive⟩ := @liveTailPullHdr_live caps (s.blkApplied inn rest) hidle
                  dsimp only
                  rw [thenAskBlk_live, hasked, hlive]
                  rfl
              | error fault => cases fault <;> rfl

theorem onBlkBatch_idle (hidle : s.peer.cupActive = false) (blocks : List SyncBlockWire)
    (wrote : Bool) : (s.onBlkBatch C app caps blocks wrote).s.peer.cupActive = false := by
  unfold PeerSession.onBlkBatch
  split
  · exact hidle
  · rw [if_neg (Bool.eq_false_iff.mp hidle)]
    dsimp only
    split
    · exact hidle
    · split
      · exact hidle
      · split
        · exact ((thenAskBlk_quiet _ _ _).active.trans
            (liveTailPullHdr_quiet _ _).active).trans hidle
        · exact hidle
        · exact hidle

theorem onNack_live (hidle : s.peer.cupActive = false) (reasonCode : String) (now : U64) :
    (s.onNack cfg reasonCode now).live = { s.live with peer := s.live.peer.onNack } ∧
      (s.onNack cfg reasonCode now).peer.cupActive = false := by
  have hkept : s.onNack cfg reasonCode now =
      ({ s with peer := s.peer.stalled } : PeerSession).withSync s.inn s.peer.stalled.onNack :=
    if_pos (Bool.eq_false_iff.mp hidle)
  rw [hkept]
  exact ⟨rfl, hidle⟩

/-- Without windows a message does to the session what it does to the live sync. -/
theorem onMsg_live (hidle : s.peer.cupActive = false) (now : U64) (wrote : Bool)
    (answer : SyncAnswer) :
    (s.onMsg C app cfg caps false now wrote answer).s.live =
        ((answer.liveEvent wrote).map (s.live.step C app caps)).getD s.live ∧
      (s.onMsg C app cfg caps false now wrote answer).s.peer.cupActive = false := by
  cases answer with
  | tipAnnounce headH headHash finalizedH finalizedHash => exact onTip_live hidle _ _ _ _ _ _
  | headersBatch headers =>
      exact ⟨onHdrBatch_live hidle headers wrote,
        (onHdrBatch_quiet s headers wrote).active.trans hidle⟩
  | blocksBatch blocks =>
      exact ⟨onBlkBatch_live hidle blocks wrote, onBlkBatch_idle hidle blocks wrote⟩
  | chunk chunk => exact ⟨rfl, hidle⟩
  | done epochId lastH lastHash => exact ⟨rfl, hidle⟩
  | nack reasonCode => exact onNack_live hidle reasonCode now

/-- What the messages of a run are to the live sync. -/
def liveEvents (labels : List (PeerSession.Event × List SyncAsk)) : List SyncEvent :=
  labels.filterMap fun label => label.1.live

theorem liveEvents_snoc (label : PeerSession.Event × List SyncAsk) :
    liveEvents (labels ++ [label]) = liveEvents labels ++ label.1.live.toList := by
  unfold liveEvents
  rw [List.filterMap_append]
  cases hlive : label.1.live with
  | none => simp [hlive]
  | some event => simp [hlive]

theorem syncAfter_append (l : SyncLive) (events more : List SyncEvent) :
    syncAfter C app caps l (events ++ more) =
      syncAfter C app caps (syncAfter C app caps l events) more :=
  List.foldl_append

theorem step_live (hidle : s.peer.cupActive = false) (hgone : s.gone = false) (answer : SyncAnswer)
    (now : U64) (wrote : Bool) :
    let s' := (s.step C app cfg caps false (.msg answer now wrote)).s
    s'.live = syncAfter C app caps s.live (answer.liveEvent wrote).toList ∧
      s'.peer.cupActive = false := by
  have hstep : s.step C app cfg caps false (.msg answer now wrote) =
      s.onMsg C app cfg caps false now wrote answer :=
    if_neg (Bool.eq_false_iff.mp hgone)
  dsimp only
  rw [hstep]
  obtain ⟨hlive, hidle'⟩ := @onMsg_live C app cfg caps s hidle now wrote answer
  refine ⟨hlive.trans ?_, hidle'⟩
  cases answer.liveEvent wrote with
  | none => rfl
  | some event => rfl

/-- Without windows a session is the live sync: in every run it stands where the live sync stands
after the same messages, up to the one at which an apply panicked. -/
theorem session_refines_live {inn : Inner}
    (hrun : Run (PeerSession.Step C app cfg caps false) { inn := inn } labels s')
    (halone : Alone labels) :
    s'.peer.cupActive = false ∧ ∃ n ≤ (liveEvents labels).length,
      s'.live = syncAfter C app caps ⟨inn, {}⟩ ((liveEvents labels).take n) ∧
        (s'.gone = false → n = (liveEvents labels).length) := by
  have hends := hrun.history_invariant (I := fun labels s => Alone labels →
    s.peer.cupActive = false ∧ ∃ n ≤ (liveEvents labels).length,
      s.live = syncAfter C app caps ⟨inn, {}⟩ ((liveEvents labels).take n) ∧
        (s.gone = false → n = (liveEvents labels).length))
    ?_ (fun _ => ⟨rfl, 0, Nat.le_refl 0, rfl, fun _ => rfl⟩) halone
  · exact hends
  · intro labels s label s' ih hstep halone
    obtain ⟨hidle, n, hn, hlive, hall⟩ := ih fun l hl => halone l (List.mem_append_left _ hl)
    obtain ⟨answer, now, wrote, hmsg⟩ := halone label (by simp)
    have hevents : liveEvents (labels ++ [label]) =
        liveEvents labels ++ (answer.liveEvent wrote).toList := by
      rw [liveEvents_snoc, hmsg]
      rfl
    have hlen : (liveEvents (labels ++ [label])).length =
        (liveEvents labels).length + (answer.liveEvent wrote).toList.length := by
      rw [hevents, List.length_append]
    cases hgone : s.gone with
    | true =>
        have hstays : s' = s := by
          rw [hstep.1, hmsg]
          exact congrArg SyncOut.s (if_pos hgone)
        rw [hstays]
        refine ⟨hidle, n, by omega, ?_, ?_⟩
        · rw [hevents, List.take_append_of_le_length hn]
          exact hlive
        · intro hstill
          rw [hgone] at hstill
          cases hstill
    | false =>
        obtain ⟨hnext, hidle'⟩ := @step_live C app cfg caps s hidle hgone answer now wrote
        rw [hstep.1, hmsg]
        refine ⟨hidle', _, Nat.le_refl _, ?_, fun _ => rfl⟩
        rw [hnext, hlive, hall hgone, List.take_length, List.take_length, hevents,
          syncAfter_append]

end Live

open FarPeer in
/-- The far peer announces its tip, and windows are not agreed on. -/
theorem session_refines_live_farPeer :
    let out := fresh.step MissedPrimary.crypto app cfg caps false tip
    out.s.peer.cupActive = false ∧ ∃ n ≤ 1,
      out.s.live = syncAfter MissedPrimary.crypto app caps ⟨fresh.inn, {}⟩
          (([.tip 300#64] : List SyncEvent).take n) ∧
        (out.s.gone = false → n = 1) := by
  have hrun : Run (PeerSession.Step MissedPrimary.crypto app cfg caps false) fresh
      [(tip, (fresh.step MissedPrimary.crypto app cfg caps false tip).asks)]
      (fresh.step MissedPrimary.crypto app cfg caps false tip).s :=
    .single ⟨rfl, rfl⟩
  apply session_refines_live hrun
  intro label hlabel
  obtain rfl := List.mem_singleton.mp hlabel
  exact ⟨_, _, _, rfl⟩


/-! ## Waiting for a window -/

section Waiting

variable {C : Crypto} {app : SyncApp} {cfg : TransportConfig} {caps : SyncCaps}
  {s s' : PeerSession} {labels : List (PeerSession.Event × List SyncAsk)}

/-- What does not speak of the window: headers, blocks, and a tip that is not close. -/
def SyncAnswer.Aside (tipH : U64) : SyncAnswer → Prop
  | .tipAnnounce headH _ _ _ => tipH.toNat + 32 ≤ headH.toNat
  | .headersBatch _ => True
  | .blocksBatch _ => True
  | _ => False

/-- Only such messages happen. -/
def AllAside (tipH : U64) (labels : List (PeerSession.Event × List SyncAsk)) : Prop :=
  ∀ label ∈ labels, ∃ answer now wrote, label.1 = .msg answer now wrote ∧ answer.Aside tipH

theorem headH_sub_toNat {localH headH : U64} (hle : localH.toNat ≤ headH.toNat) :
    (headH - localH).toNat = headH.toNat - localH.toNat :=
  toNat_sub_of_le (le_def.mpr hle)

/-- A tip that is not close does not disturb an open window. -/
theorem onTip_waits (hactive : s.peer.cupActive = true) (hms : s.peer.cupNextMs = 0#64)
    {headH finalizedH now : U64} {headHash : String} {finalizedHash : Option String} {wrote : Bool}
    (hfar : s.inn.chain.tipH.toNat + 32 ≤ headH.toNat) :
    s.onTip C cfg caps headH headHash finalizedH finalizedHash now true wrote =
      { s := s.noteTip headH headHash } := by
  have hlag := @headH_sub_toNat s.inn.chain.tipH headH (by omega)
  have htail : syncCupTailMax.toNat = 32 := rfl
  have hnot : ¬ headH < s.inn.chain.tipH := by
    rw [lt_def]
    omega
  have hfarTail : syncCupTailMax ≤ headH - s.inn.chain.tipH := by
    rw [le_def]
    omega
  have hne : headH - s.inn.chain.tipH ≠ 0#64 := by
    intro hzero
    rw [hzero, BitVec.toNat_ofNat] at hlag
    omega
  have hkept : (s.noteTip headH headHash).tryDemoteCupTail (headH - s.inn.chain.tipH) =
      s.noteTip headH headHash := by
    rw [PeerSession.tryDemoteCupTail, if_pos (.inl hfarTail)]
  have hopen : (s.noteTip headH headHash).peer.cupActive = true := hactive
  have hready : (s.noteTip headH headHash).peer.cupNextMs ≤ now := by
    change s.peer.cupNextMs ≤ now
    rw [hms]
    exact le_def.mpr (Nat.zero_le _)
  have hreq : ((s.noteTip headH headHash).peer.cupActive &&
      decide ((s.noteTip headH headHash).peer.cupNextMs ≤ now) ||
        decide (syncCupLagMin ≤ headH - s.inn.chain.tipH)) = true := by
    rw [hopen, decide_eq_true hready]
    rfl
  unfold PeerSession.onTip
  dsimp only
  rw [if_neg hnot, if_neg hne, hkept, hreq]
  simp [PeerSession.follow, PeerSession.maybeStartCup, hopen]

/-- Headers, blocks and tips that are not close leave everything but the noted tip as it is. -/
theorem onMsg_waits (hactive : s.peer.cupActive = true) (hms : s.peer.cupNextMs = 0#64)
    {answer : SyncAnswer} (haside : answer.Aside s.inn.chain.tipH) (now : U64) (wrote : Bool) :
    s.Quiet (s.onMsg C app cfg caps true now wrote answer).s ∧
      (s.onMsg C app cfg caps true now wrote answer).asks = [] := by
  cases answer with
  | tipAnnounce headH headHash finalizedH finalizedHash =>
      unfold PeerSession.onMsg
      dsimp only
      rw [onTip_waits hactive hms haside]
      exact ⟨⟨rfl, rfl, rfl⟩, rfl⟩
  | headersBatch headers =>
      refine ⟨onHdrBatch_quiet s headers wrote, ?_⟩
      simp only [PeerSession.onMsg, PeerSession.onHdrBatch, hactive, if_true]
      split <;> rfl
  | blocksBatch blocks =>
      simp only [PeerSession.onMsg, PeerSession.onBlkBatch, hactive, if_true]
      split
      · exact ⟨.refl s, rfl⟩
      · exact ⟨.refl s, rfl⟩
  | chunk chunk => cases haside
  | done epochId lastH lastHash => cases haside
  | nack reasonCode => cases haside

variable (C cfg caps) in
/-- Without an open window, a lock or a wait, a lead opens a window and asks for it. -/
theorem follow_opens (hidle : s.peer.cupActive = false)
    (hlock : s.peer.forkLocked s.inn.chain.tipH = false) {headH now : U64}
    (hms : s.peer.cupNextMs ≤ now) (hlead : s.inn.chain.tipH.toNat < headH.toNat) {toH eid : U64}
    (hrange : cupReqRange s.inn.chain.tipH headH =
      .ok (some (s.inn.chain.tipH.saturatingAdd 1#64, toH)))
    (hepoch : epochIdx (s.inn.chain.tipH.saturatingAdd 1#64) = .ok eid) :
    s.follow C cfg caps headH now true true true =
      { s := s.openCup (s.inn.chain.tipH.saturatingAdd 1#64) toH eid
          (hexEncode (s.inn.chain.tipHash C))
        asks := [.catchupReq (s.inn.chain.tipH.saturatingAdd 1#64) toH eid
          (hexEncode (s.inn.chain.tipHash C))] } := by
  have hnot : ¬ headH ≤ s.inn.chain.tipH := by
    rw [le_def]
    omega
  have hwait : ¬ now < s.peer.cupNextMs := by
    rw [lt_def]
    rw [le_def] at hms
    omega
  simp only [PeerSession.follow, PeerSession.maybeStartCup, PeerSession.sendCupReq, hidle, hlock,
    hwait, hnot, hrange, hepoch, if_true, if_false, or_false, bind, Except.bind, pure, Except.pure,
    not_true_eq_false, Bool.false_eq_true]

/-- A tip that is close closes an open window and asks for another one at once. -/
theorem onTip_shortTail (hactive : s.peer.cupActive = true) {headH finalizedH now : U64}
    {headHash : String} {finalizedHash : Option String}
    (hahead : s.inn.chain.tipH.toNat < headH.toNat)
    (hclose : headH.toNat < s.inn.chain.tipH.toNat + 32) (hms : s.peer.cupNextMs = 0#64) :
    ∃ toH eid, (s.onTip C cfg caps headH headHash finalizedH finalizedHash now true true).asks =
      [.catchupReq (s.inn.chain.tipH.saturatingAdd 1#64) toH eid
        (hexEncode (s.inn.chain.tipHash C))] := by
  have hlag := @headH_sub_toNat s.inn.chain.tipH headH (by omega)
  have htail : syncCupTailMax.toNat = 32 := rfl
  have hnot : ¬ headH < s.inn.chain.tipH := by
    rw [lt_def]
    omega
  have hne : headH - s.inn.chain.tipH ≠ 0#64 := by
    intro hzero
    rw [hzero, BitVec.toNat_ofNat] at hlag
    omega
  have hready : s.peer.cupNextMs ≤ now := by
    rw [hms]
    exact le_def.mpr (Nat.zero_le _)
  have hshort : ¬ (syncCupTailMax ≤ headH - s.inn.chain.tipH ∨
      ¬ (s.noteTip headH headHash).peer.cupActive = true) := by
    rintro (hfar | hidle)
    · rw [le_def] at hfar
      omega
    · exact hidle hactive
  have hreq : ((s.noteTip headH headHash).peer.cupActive &&
      decide ((s.noteTip headH headHash).peer.cupNextMs ≤ now) ||
        decide (syncCupLagMin ≤ headH - s.inn.chain.tipH)) = true := by
    have hopen : (s.noteTip headH headHash).peer.cupActive = true := hactive
    have hready' : (s.noteTip headH headHash).peer.cupNextMs ≤ now := hready
    rw [hopen, decide_eq_true hready']
    rfl
  obtain ⟨toH, hrange, -⟩ := cupReqRange_some hahead
  obtain ⟨-, -, -, -, -, eid, hepoch, -⟩ := cupReqRange_inForm hrange
  refine ⟨toH, eid, ?_⟩
  have hclosed : (s.noteTip headH headHash).tryDemoteCupTail (headH - s.inn.chain.tipH) =
      (s.noteTip headH headHash).withPeer { (s.noteTip headH headHash).peer.cupClear with
        cupTry := 0#8, cupNextMs := 0#64 } :=
    if_neg hshort
  have hunlocked : ((s.noteTip headH headHash).withPeer
      { (s.noteTip headH headHash).peer.cupClear with
        cupTry := 0#8, cupNextMs := 0#64 }).peer.forkLocked s.inn.chain.tipH = false := by
    apply decide_eq_false
    rintro ⟨hfork, -⟩
    cases hfork
  unfold PeerSession.onTip
  dsimp only
  rw [if_neg hnot, if_neg hne, hreq, hclosed]
  exact congrArg SyncOut.asks (follow_opens C cfg caps rfl hunlocked (le_def.mpr (Nat.zero_le _)) hahead
    hrange hepoch)

/-- As long as nothing is said about an open window and the peer is not close, no request goes out
and the node stays as it is; a peer that comes close is asked for another window. -/
theorem open_window_waits {inn : Inner} {before : List (PeerSession.Event × List SyncAsk)}
    (hreach : Run (PeerSession.Step C app cfg caps true) { inn := inn } before s)
    (hactive : s.peer.cupActive = true) (hgone : s.gone = false)
    (hrun : Run (PeerSession.Step C app cfg caps true) s labels s')
    (haside : AllAside s.inn.chain.tipH labels) :
    s'.inn = s.inn ∧ s'.peer.window = s.peer.window ∧ (∀ label ∈ labels, label.2 = []) ∧
      ∀ headH finalizedH now headHash finalizedHash,
        s.inn.chain.tipH.toNat < headH.toNat → headH.toNat < s.inn.chain.tipH.toNat + 32 →
        ∃ toH eid,
          (s'.onTip C cfg caps headH headHash finalizedH finalizedHash now true true).asks =
            [.catchupReq (s.inn.chain.tipH.saturatingAdd 1#64) toH eid
              (hexEncode (s.inn.chain.tipHash C))] := by
  have hms : s.peer.cupNextMs = 0#64 := (run_windowSound hreach hgone hactive).nextMs
  have hquiet := hrun.history_invariant (I := fun labels s' => AllAside s.inn.chain.tipH labels →
    s.Quiet s' ∧ ∀ label ∈ labels, label.2 = []) ?_ (fun _ => ⟨.refl s, List.forall_mem_nil _⟩)
    haside
  · obtain ⟨hkept, hasks⟩ := hquiet
    refine ⟨hkept.inn, hkept.window, hasks, ?_⟩
    intro headH finalizedH now headHash finalizedHash hahead hclose
    have hms' : s'.peer.cupNextMs = 0#64 := (congrArg CupWindow.nextMs hkept.window).trans hms
    rw [← hkept.inn] at hahead hclose ⊢
    exact onTip_shortTail (hkept.active.trans hactive) hahead hclose hms'
  · intro labels s₁ label s₂ ih hstep haside
    obtain ⟨hkept, hasks⟩ := ih fun l hl => haside l (List.mem_append_left _ hl)
    obtain ⟨answer, now, wrote, hmsg, hanswer⟩ := haside label (by simp)
    have hms' : s₁.peer.cupNextMs = 0#64 := (congrArg CupWindow.nextMs hkept.window).trans hms
    rw [← hkept.inn] at hanswer
    have hwaits := @onMsg_waits C app cfg caps s₁ (hkept.active.trans hactive) hms' answer hanswer
      now wrote
    obtain ⟨hnext, hlabel⟩ := hstep
    rw [hmsg, PeerSession.step, if_neg (by rw [hkept.gone, hgone]; exact Bool.false_ne_true)]
      at hnext hlabel
    rw [hnext]
    refine ⟨hkept.trans hwaits.1, ?_⟩
    intro l hl
    rcases List.mem_append.mp hl with hold | hnew
    · exact hasks l hold
    · obtain rfl := List.mem_singleton.mp hnew
      rw [hlabel]
      exact hwaits.2

end Waiting

open FarPeer in
/-- The far peer announces the same tip again. -/
theorem open_window_waits_farPeer :
    (afterTip.s.step MissedPrimary.crypto app cfg caps true tip).asks = [] ∧
      (afterTip.s.step MissedPrimary.crypto app cfg caps true tip).s.inn = afterTip.s.inn := by
  have hfar : afterTip.s.inn.chain.tipH.toNat + 32 ≤ (300#64 : U64).toNat := by
    decide
  have haside : AllAside afterTip.s.inn.chain.tipH
      [(tip, (afterTip.s.step MissedPrimary.crypto app cfg caps true tip).asks)] := by
    intro label hlabel
    obtain rfl := List.mem_singleton.mp hlabel
    exact ⟨_, _, _, rfl, hfar⟩
  obtain ⟨hinn, -, hasks, -⟩ := open_window_waits afterTip_run afterTip_active rfl
    (.single ⟨rfl, rfl⟩) haside
  exact ⟨hasks _ (List.mem_singleton_self _), hinn⟩

end Pwm
