import Pwm.Node.SealQueue
import Pwm.Node.Skips
import Pwm.Node.Worker

/-!
# Admission and sealing

The dry run of one transaction on the ledger of the tip against a seal of a
block that has this transaction alone. On a chain whose active set is not empty
the rest of the seal succeeds, so the two differ only where a refund of the next
height reaches the transaction, or where a nonce is used up.
-/

namespace Pwm

open BitVec Attempt MapSum

/-! ## Reachable chains -/

/-- What moves a chain: a seal, a block of a peer, a skipped height. -/
inductive ChainStep (C : Crypto) : Chain → Unit → Chain → Prop
  | sealed {now : U64} {ch ch' : Chain} {entries : List SealEntry}
      (hok : sealEntries C now ch entries = .ok ch') : ChainStep C ch () ch'
  | applied {inn inn' : Inner} {blk : Block} (hok : applyBlk C inn blk = .ok inn') :
      ChainStep C inn.chain () inn'.chain
  | skipped {ch ch' : Chain} {h : U64} (hskip : ch.skipMissedH h = (true, ch')) :
      ChainStep C ch () ch'

section Reachable

variable {C : Crypto} {ch ch' ch₀ : Chain} {u : Unit} {us : List Unit} {cfg : GenCfg}
  {valSks : List SigningKey}

theorem forM_raw (txs : List SignedTx) (height ts : U64) :
    ((txs.map SealEntry.raw).forM fun entry => applyEntry C ch height ts entry) =
      txs.forM fun tx => applyTxWithCtx C ch.cfg tx height ts :=
  List.forM_map

/-- A block of a peer runs as raw entries do. -/
theorem Replays.raw {blk : Block} {st' : State} (h : Replays C ch blk st') :
    ∃ st, ((blk.txs.map SealEntry.raw).forM fun entry =>
        applyEntry C ch blk.hdr.height blk.hdr.ts entry) (ch.beforeTxs blk.hdr.height) = .ok () st ∧
      BlockEnds ch.cfg blk.hdr.height blk.hdr.prodIdx st st' := by
  obtain ⟨st, hrun, hends⟩ := h.run
  exact ⟨st, (congrFun (forM_raw blk.txs _ _) _).trans hrun, hends⟩

theorem step_sealReady (hready : SealReady ch) (hstep : ChainStep C ch u ch') : SealReady ch' := by
  cases hstep with
  | sealed hok => exact hready.step hok
  | applied hok =>
      obtain ⟨st', hreplays, hchain⟩ := applyBlk_chain hok
      obtain ⟨st, hrun, hends⟩ := hreplays.raw
      rw [hchain]
      exact hready.append hrun hends _
  | skipped hskip =>
      obtain ⟨-, rfl⟩ := skipMissedH_ok hskip
      exact ⟨hready.keys, hready.rows, hready.noMinimum, hready.active, hready.inSet⟩

/-- No validator is active, now or after the next roll. -/
def NoneActive (ch : Chain) : Prop :=
  ch.st.activeValidatorIndices = [] ∧ recomputeActiveIdxs ch.cfg ch.st = []

theorem NoneActive.beforeTxs (h : NoneActive ch) (height : U64) :
    (ch.beforeTxs height).activeValidatorIndices = [] := by
  rw [beforeTxs_activeIdxs, rollEpochIfNeeded]
  split
  · exact h.2
  · exact h.1

theorem pickProdIdx_nil (height : U64) : ∃ msg, pickProdIdx height [] = .error msg :=
  ⟨_, rfl⟩

/-- Without an active validator there is no block. -/
theorem step_noneActive (hnone : NoneActive ch) (hstep : ChainStep C ch u ch') :
    NoneActive ch' := by
  cases hstep with
  | sealed hok =>
      obtain ⟨height, _, _, _, _, _, _, hpick, _⟩ := sealEntries_ok hok
      rw [hnone.beforeTxs] at hpick
      cases hpick
  | applied hok =>
      obtain ⟨_, hreplays, _⟩ := applyBlk_chain hok
      have hpick := hreplays.prodIdx
      rw [hnone.beforeTxs] at hpick
      cases hpick
  | skipped hskip =>
      obtain ⟨-, rfl⟩ := skipMissedH_ok hskip
      exact hnone

/-- A reachable chain with an active validator can be sealed on. -/
theorem reachable_sealReady (hboot : Chain.boot cfg valSks = some ch₀)
    (hrun : Run (ChainStep C) ch₀ us ch) (hactive : ch.st.activeValidatorIndices ≠ []) :
    SealReady ch := by
  by_cases hstart : ch₀.st.activeValidatorIndices = []
  · have hnone₀ : NoneActive ch₀ := by
      refine ⟨hstart, ?_⟩
      simp only [Chain.boot, Option.ite_none_right_eq_some, Option.some.injEq] at hboot
      obtain ⟨-, rfl⟩ := hboot
      exact hstart
    have hnone : NoneActive ch :=
      hrun.invariant (fun _ _ _ hnone hstep => step_noneActive hnone hstep) hnone₀
    exact absurd hnone.1 hactive
  · exact hrun.invariant (fun _ _ _ hready hstep => step_sealReady hready hstep)
      (boot_sealReady hboot hstart)

end Reachable

/-! ## One transaction -/

section Admission

variable {C : Crypto} {genCfg : GenCfg} {ch : Chain} {tx : SignedTx} {height ts now : U64}
  {s s' : State} {u : Unit}

/-- What a transaction queues carries its nonce, and is delayed. -/
theorem applyTxImpl_queue (hok : applyTxImpl C genCfg tx height now false s = .ok u s') :
    ∀ row ∈ s'.pendingConservation, row ∈ s.pendingConservation ∨
      (tx.isDelayed C = true ∧ row.nonce = tx.nonce) := by
  obtain ⟨acc, redirTo, _, _, _, _, hbody⟩ := applyTxImpl_ok hok
  intro row hrow
  cases applyBody_pending hbody with
  | queued htx hflag _ _ _ _ _ hqueue =>
      rw [hqueue, pushPending_pendingConservation, initStub_pending] at hrow
      rcases List.mem_append.mp hrow with hold | hnew
      · exact .inl hold
      · obtain rfl := List.mem_singleton.mp hnew
        exact .inr ⟨by simpa [SignedTx.isDelayed, htx] using hflag, rfl⟩
  | dropped hqueue =>
      rw [hqueue, initStub_pending] at hrow
      exact .inl (List.mem_filter.mp hrow).1
  | kept hqueue _ =>
      rw [hqueue, initStub_pending] at hrow
      exact .inl hrow

theorem precheckApplyTip_ok_iff (hnext : ch.tipH.checkedAdd 1#64 = some height) :
    ch.st.precheckApplyTip C tx ch.tipH ts ch.cfg = .ok () ↔
      ∃ st, applyTxWithCtx C ch.cfg tx height ts ch.st = .ok () st := by
  rw [State.precheckApplyTip, State.precheckApplyWithCtx, saturatingAdd_of_checked hnext]
  cases applyTxWithCtx C ch.cfg tx height ts ch.st with
  | ok a st => exact ⟨fun _ => ⟨st, rfl⟩, fun _ => rfl⟩
  | error f st => exact ⟨(nomatch ·), fun ⟨_, h⟩ => nomatch h⟩

/-- A seal of one transaction succeeds when the transaction applies in it. -/
theorem seal_one_iff (hready : SealReady ch) (hctx : ch.nextApplyCtx now = .ok (height, ts))
    (hqueue : ∀ row ∈ ch.st.pendingConservation, row.nonce ≠ BitVec.allOnes 64)
    (hdelayed : tx.isDelayed C = true → tx.nonce ≠ BitVec.allOnes 64) :
    (∃ ch', Chain.seal C now ch [tx] = .ok ch') ↔
      ∃ st, applyTxWithCtx C ch.cfg tx height ts (ch.beforeTxs height) = .ok () st := by
  constructor
  · rintro ⟨ch', hok⟩
    obtain ⟨height', ts', _, _, st, _, hctx', _, hrun, _⟩ := sealEntries_ok hok
    obtain ⟨rfl, rfl⟩ := Prod.mk.inj (Except.ok.inj (hctx.symm.trans hctx'))
    obtain ⟨_, s₁, htx, _⟩ := bind_ok_iff.mp hrun
    exact ⟨s₁, htx⟩
  · rintro ⟨st, htx⟩
    have hrun : ([SealEntry.raw tx].forM fun entry => applyEntry C ch height ts entry)
        (ch.beforeTxs height) = .ok () st :=
      bind_ok_iff.mpr ⟨(), st, htx, rfl⟩
    have hnonces : ∀ row ∈ (st.refundExpLocks height).pendingConservation,
        row.nonce ≠ BitVec.allOnes 64 := by
      intro row hrow
      rw [refundExpLocks_pending] at hrow
      rcases applyTxImpl_queue htx row hrow with hold | ⟨hdelay, hnonce⟩
      · rw [beforeTxs_pending] at hold
        exact hqueue row hold
      · rw [hnonce]
        exact hdelayed hdelay
    obtain ⟨drained, hdrain⟩ := drain_ok_of_nonces hnonces
    exact sealEntries_of_ready hready hctx hrun hdrain

/-- On every reachable chain with an active validator the dry run at the tip accepts a transaction
exactly when a block with this transaction alone can be sealed next. -/
theorem admission_agrees {cfg : GenCfg} {valSks : List SigningKey} {ch₀ : Chain} {us : List Unit}
    (hboot : Chain.boot cfg valSks = some ch₀) (hrun : Run (ChainStep C) ch₀ us ch)
    (hactive : ch.st.activeValidatorIndices ≠ [])
    (hctx : ch.nextApplyCtx now = .ok (height, ts)) (hpast : ch.PastRefunds C height tx)
    (hqueue : ∀ row ∈ ch.st.pendingConservation, row.nonce ≠ BitVec.allOnes 64)
    (hdelayed : tx.isDelayed C = true → tx.nonce ≠ BitVec.allOnes 64) :
    ch.st.precheckApplyTip C tx ch.tipH ts ch.cfg = .ok () ↔
      ∃ ch', Chain.seal C now ch [tx] = .ok ch' := by
  have hready := reachable_sealReady hboot hrun hactive
  have hagree : AgreeAt (Beside _ _) Eq (applyTxWithCtx C ch.cfg tx height ts)
      (applyTxWithCtx C ch.cfg tx height ts) ch.st (ch.beforeTxs height) :=
    applyTxImpl_beside (beside_beforeTxs ch height) hpast ts ts false
  rw [precheckApplyTip_ok_iff (nextApplyCtx_height hctx),
    seal_one_iff hready hctx hqueue hdelayed]
  constructor
  · rintro ⟨st, hok⟩
    obtain ⟨_, st', hok', -⟩ := hagree.of_ok hok
    exact ⟨st', hok'⟩
  · rintro ⟨st', hok'⟩
    obtain ⟨_, st, hok, -⟩ := hagree.symm.of_ok hok'
    exact ⟨st, hok⟩

end Admission

/-- The payment on the boot chain. -/
theorem admission_agrees_payment :
    PolicyRace.chain.st.precheckApplyTip PolicyRace.crypto PolicyRace.payTx PolicyRace.chain.tipH
        PolicyRace.now PolicyRace.chain.cfg = .ok () ↔
      ∃ ch', Chain.seal PolicyRace.crypto PolicyRace.now PolicyRace.chain [PolicyRace.payTx] =
        .ok ch' := by
  refine @admission_agrees PolicyRace.crypto PolicyRace.chain PolicyRace.payTx 1#64 PolicyRace.now
    PolicyRace.now PolicyRace.net [devNetSk] PolicyRace.chain [] (by decide) (.nil _)
    (by decide) rfl ?_ ?_ (by decide)
  · have hdue : PolicyRace.chain.st.dueLocks 1#64 = [] := rfl
    unfold Chain.PastRefunds
    simp [hdue, Unconcerned]
  · intro row hrow
    cases hrow

/-! ## A stake that the refund of the next block pays for

The recipient exports nearly all it has, with a lock of one block. At the next
height the lock is refunded before the transactions run. -/

namespace RefundDue

open PolicyRace

def net : GenCfg :=
  { PolicyRace.net with xshardLockToBlocks := 1#64 }

def start : Chain :=
  { PolicyRace.chain with cfg := net }

def exportTx : SignedTx where
  domainCode := 0x324f#16
  signerPk := recipientRow.pubkey
  derivationIndex := 0#32
  nonce := 0#64
  body := .exportTx (0x4400#16 ++ 0#240) 0x4400#16 900000#128 1#128
  signature := 0x2d7b6bdfa728eb13d82e6cdad0e1b89057b75927e7882e4165d4265711dfae9730bda696c9c2fb694532854f536e8c7e3f312ebff4be365fb23ac8ec220ab009#512

def stakeTx : SignedTx where
  domainCode := 0x324f#16
  signerPk := recipientRow.pubkey
  derivationIndex := 0#32
  nonce := 1#64
  body := .stake 500000#128
  signature := 0x5e561d5f8d3ff3f8a0961c76dac8bbead1a63eb3be7a6537968bcdfdc6c698405e49501174304b4183b97579b72d705f871251512f77593332dd41ae8143e506#512

def crypto : Crypto :=
  .ofTables
    [(devNetRow.pubkey.beBytes 32 ++ (0#32).leBytes 4, devNetRow.acct),
      (recipientRow.pubkey.beBytes 32 ++ (0#32).leBytes 4, recipientRow.acct),
      (exportTx.signingMessage,
        0x07a9de88d33bbc16bcc46a00efa417ed81120107a502c9827671702decc22c70#256),
      ((0x324f#16).leBytes 2 ++
          (0x07a9de88d33bbc16bcc46a00efa417ed81120107a502c9827671702decc22c70#256).beBytes 32 ++
          (0#32).leBytes 4 ++ (0#64).leBytes 8,
        0x26b2a2bf867db0ff057b353e6cbf85c282a7bc57b38c005e962212796542b1bc#256)]
    [⟨SelfDrain.rescuedSk, recipientRow.pubkey, [(exportTx.signingMessage, exportTx.signature),
      (stakeTx.signingMessage, stakeTx.signature)]⟩]

/-- The chain after these blocks. -/
def sealed (ch : Chain) (txs : List SignedTx) : Chain :=
  match Chain.seal crypto now ch txs with
  | .ok ch' => ch'
  | .error _ => ch

end RefundDue

/-- The dry run refuses the stake, and the block that has it alone is sealed. -/
theorem refundDue_disagrees :
    Chain.boot RefundDue.net [devNetSk] = some RefundDue.start ∧
      Run (ChainStep RefundDue.crypto) RefundDue.start [()]
        (RefundDue.sealed RefundDue.start [RefundDue.exportTx]) ∧
      (RefundDue.sealed RefundDue.start [RefundDue.exportTx]).st.activeValidatorIndices ≠ [] ∧
      (RefundDue.sealed RefundDue.start [RefundDue.exportTx]).nextApplyCtx PolicyRace.now =
        .ok (2#64, PolicyRace.now) ∧
      (RefundDue.sealed RefundDue.start [RefundDue.exportTx]).st.precheckApplyTip RefundDue.crypto
          RefundDue.stakeTx 1#64 PolicyRace.now RefundDue.net = .error (.err .insufficient) ∧
      ∃ ch', Chain.seal RefundDue.crypto PolicyRace.now
        (RefundDue.sealed RefundDue.start [RefundDue.exportTx]) [RefundDue.stakeTx] = .ok ch' := by
  refine ⟨by decide, ?_, by decide +kernel, by decide +kernel, by decide +kernel,
    RefundDue.sealed (RefundDue.sealed RefundDue.start [RefundDue.exportTx]) [RefundDue.stakeTx],
    by decide +kernel⟩
  have hsealed : Chain.seal RefundDue.crypto PolicyRace.now RefundDue.start [RefundDue.exportTx] =
      .ok (RefundDue.sealed RefundDue.start [RefundDue.exportTx]) := by
    decide +kernel
  exact Run.single (.sealed hsealed)

end Pwm
