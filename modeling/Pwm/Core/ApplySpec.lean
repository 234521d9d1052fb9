import Pwm.Core.Apply

/-!
# What a successful application says

For each arm: the checks that passed and the state that results. Everything
that is proved about runs of the ledger goes through these statements, and no
later proof unfolds an arm.
-/

namespace Pwm

open BitVec Attempt

/-! ## Fields of a state after an update -/

section Fields

variable (st : State) (id : AccountId) (a : Account) (fee : U128) (lock : CrossShardLock)
  (row : PendingConservationTransfer)

@[simp] theorem putAcc_accounts : (st.putAcc id a).accounts = st.accounts.insert id a := rfl
@[simp] theorem putAcc_feePool : (st.putAcc id a).feePool = st.feePool := rfl
@[simp] theorem putAcc_importedSet : (st.putAcc id a).importedSet = st.importedSet := rfl
@[simp] theorem putAcc_exportedRegistry :
    (st.putAcc id a).exportedRegistry = st.exportedRegistry := rfl
@[simp] theorem putAcc_crossShardLocks :
    (st.putAcc id a).crossShardLocks = st.crossShardLocks := rfl
@[simp] theorem putAcc_pendingConservation :
    (st.putAcc id a).pendingConservation = st.pendingConservation := rfl
@[simp] theorem addFee_accounts : (st.addFee fee).accounts = st.accounts := rfl
@[simp] theorem addFee_feePool : (st.addFee fee).feePool = st.feePool.saturatingAdd fee := rfl
@[simp] theorem addFee_importedSet : (st.addFee fee).importedSet = st.importedSet := rfl
@[simp] theorem addFee_exportedRegistry :
    (st.addFee fee).exportedRegistry = st.exportedRegistry := rfl
@[simp] theorem addFee_crossShardLocks : (st.addFee fee).crossShardLocks = st.crossShardLocks := rfl
@[simp] theorem addFee_pendingConservation :
    (st.addFee fee).pendingConservation = st.pendingConservation := rfl
@[simp] theorem pushLock_accounts : (st.pushLock lock).accounts = st.accounts := rfl
@[simp] theorem pushLock_feePool : (st.pushLock lock).feePool = st.feePool := rfl
@[simp] theorem pushLock_importedSet : (st.pushLock lock).importedSet = st.importedSet := rfl
@[simp] theorem pushLock_exportedRegistry :
    (st.pushLock lock).exportedRegistry = st.exportedRegistry := rfl
@[simp] theorem pushLock_crossShardLocks :
    (st.pushLock lock).crossShardLocks = st.crossShardLocks ++ [lock] := rfl
@[simp] theorem pushLock_pendingConservation :
    (st.pushLock lock).pendingConservation = st.pendingConservation := rfl
@[simp] theorem pushPending_accounts : (st.pushPending row).accounts = st.accounts := rfl
@[simp] theorem pushPending_feePool : (st.pushPending row).feePool = st.feePool := rfl
@[simp] theorem pushPending_importedSet : (st.pushPending row).importedSet = st.importedSet := rfl
@[simp] theorem pushPending_exportedRegistry :
    (st.pushPending row).exportedRegistry = st.exportedRegistry := rfl
@[simp] theorem pushPending_crossShardLocks :
    (st.pushPending row).crossShardLocks = st.crossShardLocks := rfl
@[simp] theorem pushPending_pendingConservation :
    (st.pushPending row).pendingConservation = st.pendingConservation ++ [row] := rfl

end Fields

/-! ## The arms -/

section Arms

variable {C : Crypto} {genCfg : GenCfg} {tx : SignedTx} {h : U64} {id : AccountId} {acc : Account}
  {s s' : State} {u : Unit}

theorem putNextNonce_ok {a : Account} (hok : putNextNonce id a s = .ok u s') :
    ∃ nonce, a.nonce.checkedAdd 1#64 = some nonce ∧ s' = s.putAcc id { a with nonce := nonce } := by
  simp only [putNextNonce, bind_ok_iff, orThrow_ok_iff, modify_ok_iff] at hok
  obtain ⟨nonce, _, ⟨hnonce, rfl⟩, rfl⟩ := hok
  exact ⟨nonce, hnonce, rfl⟩

theorem applyInit_ok {index flags : U32} (hok : applyInit tx h id acc index flags s = .ok u s') :
    acc.initialized = false ∧ ∃ nonce,
      (initRow tx h acc index flags).nonce.checkedAdd 1#64 = some nonce ∧
      s' = s.putAcc id { initRow tx h acc index flags with nonce := nonce } := by
  simp only [applyInit, bind_ok_iff, require_ok_iff] at hok
  obtain ⟨_, _, ⟨hinit, rfl⟩, hput⟩ := hok
  exact ⟨by simpa using hinit, putNextNonce_ok hput⟩

theorem enqueueConservation_ok {dst : AccountId} {amount fee : U128}
    (hok : enqueueConservation C genCfg tx h id dst amount fee s = .ok u s') :
    s.hasPendingConserv id = false ∧ ∃ feePwm, fee.tryFrom 64 = some feePwm ∧
      s' = s.pushPending (conservationRow C genCfg tx h id dst amount feePwm) := by
  simp only [enqueueConservation, bind_ok_iff, get_ok_iff, require_ok_iff, orThrow_ok_iff,
    modify_ok_iff] at hok
  obtain ⟨_, _, ⟨rfl, rfl⟩, _, _, ⟨hpending, rfl⟩, feePwm, _, ⟨hfee, rfl⟩, rfl⟩ := hok
  exact ⟨by simpa using hpending, feePwm, hfee, rfl⟩

/-- The signer's row after a transfer, before any credit. -/
def debitedRow (genCfg : GenCfg) (h : U64) (acc : Account) (balance : U128) (nonce : U64) :
    Account :=
  { touchAcctMrks acc h genCfg with balancePwm := balance, nonce := nonce }

/-- A row with its marks settled and an amount credited. -/
def creditedRow (genCfg : GenCfg) (h : U64) (acc : Account) (amount : U128) : Account :=
  { touchAcctMrks acc h genCfg with balancePwm := acc.balancePwm.saturatingAdd amount }

theorem transferNow_ok {dst : AccountId} {amount fee total : U128}
    (hok : transferNow genCfg h id acc dst amount fee total s = .ok u s') :
    ∃ balance nonce, acc.balancePwm.checkedSub total = some balance ∧
      acc.nonce.checkedAdd 1#64 = some nonce ∧
      ((dst = id ∧ s' = (s.addFee fee).putAcc id
          { debitedRow genCfg h acc balance nonce with
            balancePwm := balance.saturatingAdd amount }) ∨
        (dst ≠ id ∧ ∃ toAcc, s.accounts[dst]? = some toAcc ∧
          s' = ((s.addFee fee).putAcc id (debitedRow genCfg h acc balance nonce)).putAcc dst
            (creditedRow genCfg h toAcc amount))) := by
  simp only [transferNow, bind_ok_iff, orThrow_ok_iff, modify_ok_iff,
    touchAcctMrks_balancePwm, touchAcctMrks_nonce] at hok
  obtain ⟨balance, _, ⟨hbalance, rfl⟩, nonce, _, ⟨hnonce, rfl⟩, _, _, rfl, hok⟩ := hok
  refine ⟨balance, nonce, hbalance, hnonce, ?_⟩
  by_cases hdst : dst = id
  · rw [if_pos hdst] at hok
    exact Or.inl ⟨hdst, (modify_ok_iff.mp hok).symm⟩
  · rw [if_neg hdst] at hok
    simp only [bind_ok_iff, get_ok_iff, orThrow_ok_iff, modify_ok_iff] at hok
    obtain ⟨_, _, ⟨rfl, rfl⟩, toAcc, _, ⟨hto, rfl⟩, rfl⟩ := hok
    exact Or.inr ⟨hdst, toAcc, hto, rfl⟩

theorem requireRecipient_ok {id : AccountId} (hok : requireRecipient s id = .ok ()) :
    ∃ acc, s.accounts[id]? = some acc ∧ acc.initialized = true := by
  unfold requireRecipient at hok
  cases hacc : s.accounts[id]? with
  | none => simp [hacc] at hok
  | some acc =>
      simp only [hacc] at hok
      by_cases hinit : acc.initialized = true
      · exact ⟨acc, rfl, hinit⟩
      · simp [hinit] at hok

theorem applyTransfer_ok {redirTo : Option AccountId} {toId : AccountId} {amount fee : U128}
    (hok : applyTransfer C genCfg tx h id acc redirTo toId amount fee s = .ok u s') :
    acc.initialized = true ∧ ∃ total, amount.checkedAdd fee = some total ∧
      total ≤ acc.balancePwm ∧
      ((conservationFlag id = true ∧
          enqueueConservation C genCfg tx h id (redirTo.getD toId) amount fee s = .ok () s') ∨
        (conservationFlag id = false ∧
          transferNow genCfg h id acc (redirTo.getD toId) amount fee total s = .ok () s')) := by
  simp only [applyTransfer, bind_ok_iff, require_ok_iff, get_ok_iff, orThrow_ok_iff] at hok
  obtain ⟨_, _, ⟨hinit, rfl⟩, _, _, ⟨rfl, rfl⟩, _, s₁, hgate, total, _, ⟨htotal, rfl⟩,
    _, _, ⟨hle, rfl⟩, hok⟩ := hok
  have hs₁ : s = s₁ := by
    rcases onlyIf_ok_iff.mp hgate with ⟨_, hr⟩ | ⟨_, hs⟩
    · exact (liftExcept_ok_iff.mp hr).2
    · exact hs
  subst hs₁
  refine ⟨hinit, total, htotal, hle, ?_⟩
  by_cases hflag : conservationFlag id = true
  · rw [if_pos hflag] at hok
    exact Or.inl ⟨hflag, hok⟩
  · rw [if_neg hflag] at hok
    exact Or.inr ⟨by simpa using hflag, hok⟩

theorem applyStake_ok {amount : U128} (hok : applyStake genCfg h id acc amount s = .ok u s') :
    acc.initialized = true ∧ ∃ balance staked nonce,
      acc.balancePwm.checkedSub amount = some balance ∧
      acc.stakedPwmRaw.checkedAdd amount = some staked ∧
      acc.nonce.checkedAdd 1#64 = some nonce ∧
      s' = s.putAcc id { touchAcctMrks acc h genCfg with
        balancePwm := balance, stakedPwmRaw := staked, nonce := nonce } := by
  simp only [applyStake, bind_ok_iff, require_ok_iff, orThrow_ok_iff, touchAcctMrks_balancePwm,
    touchAcctMrks_stakedPwmRaw] at hok
  obtain ⟨_, _, ⟨hinit, rfl⟩, _, _, ⟨_, rfl⟩, balance, _, ⟨hbalance, rfl⟩, staked, _,
    ⟨hstaked, rfl⟩, hput⟩ := hok
  obtain ⟨nonce, hnonce, rfl⟩ := putNextNonce_ok hput
  exact ⟨hinit, balance, staked, nonce, hbalance, hstaked, hnonce, rfl⟩

theorem applyUnstake_ok {amount : U128} (hok : applyUnstake genCfg h id acc amount s = .ok u s') :
    acc.initialized = true ∧ ∃ balance staked nonce,
      acc.stakedPwmRaw.checkedSub amount = some staked ∧
      acc.balancePwm.checkedAdd amount = some balance ∧
      acc.nonce.checkedAdd 1#64 = some nonce ∧
      s' = s.putAcc id { touchAcctMrks acc h genCfg with
        balancePwm := balance, stakedPwmRaw := staked, nonce := nonce } := by
  simp only [applyUnstake, bind_ok_iff, require_ok_iff, orThrow_ok_iff, touchAcctMrks_balancePwm,
    touchAcctMrks_stakedPwmRaw] at hok
  obtain ⟨_, _, ⟨hinit, rfl⟩, _, _, ⟨_, rfl⟩, staked, _, ⟨hstaked, rfl⟩, balance, _,
    ⟨hbalance, rfl⟩, hput⟩ := hok
  obtain ⟨nonce, hnonce, rfl⟩ := putNextNonce_ok hput
  exact ⟨hinit, balance, staked, nonce, hstaked, hbalance, hnonce, rfl⟩

theorem applyBurnMark_ok {markAmount : U32}
    (hok : applyBurnMark genCfg h id acc markAmount s = .ok u s') :
    acc.initialized = true ∧ ∃ marks nonce,
      (touchAcctMrks acc h genCfg).storedMarks.checkedSub markAmount = some marks ∧
      acc.nonce.checkedAdd 1#64 = some nonce ∧
      s' = s.putAcc id { touchAcctMrks acc h genCfg with
        storedMarks := marks, nonce := nonce } := by
  simp only [applyBurnMark, bind_ok_iff, require_ok_iff, orThrow_ok_iff] at hok
  obtain ⟨_, _, ⟨hinit, rfl⟩, _, _, ⟨_, rfl⟩, marks, _, ⟨hmarks, rfl⟩, hput⟩ := hok
  obtain ⟨nonce, hnonce, rfl⟩ := putNextNonce_ok hput
  exact ⟨hinit, marks, nonce, hmarks, hnonce, rfl⟩

theorem applyClaimIPv4Batch_ok {phase : U8} {batchRoot : Bytes32} {registrySig : Bytes64}
    (hok : applyClaimIPv4Batch C genCfg id acc phase batchRoot registrySig s = .ok u s') :
    acc.initialized = true ∧ ∃ phaseRow nonce, findClaimPhase genCfg phase = .ok phaseRow ∧
      acc.nonce.checkedAdd 1#64 = some nonce ∧
      s' = s.putAcc id { acc with
        balancePwm := acc.balancePwm.saturatingAdd phaseRow.allocation,
        ipv4ClaimedPhase := some phase, nonce := nonce } := by
  simp only [applyClaimIPv4Batch, bind_ok_iff, require_ok_iff, liftExcept_ok_iff, get_ok_iff]
    at hok
  obtain ⟨_, _, ⟨hinit, rfl⟩, _, _, ⟨_, rfl⟩, phaseRow, _, ⟨hphase, rfl⟩, _, _, ⟨rfl, rfl⟩, _, _,
    ⟨_, rfl⟩, hput⟩ := hok
  obtain ⟨nonce, hnonce, rfl⟩ := putNextNonce_ok hput
  exact ⟨hinit, phaseRow, nonce, hphase, hnonce, rfl⟩

theorem applyExport_ok {toId : AccountId} {targetDomain : U16} {amount fee : U128}
    (hok : applyExport C genCfg tx h id acc toId targetDomain amount fee s = .ok u s') :
    acc.initialized = true ∧ ∃ total balance nonce exportId, amount.checkedAdd fee = some total ∧
      acc.balancePwm.checkedSub total = some balance ∧
      acc.nonce.checkedAdd 1#64 = some nonce ∧ tx.exportId C = some exportId ∧
      s' = ((s.addFee fee).recordExport genCfg h id exportId ⟨toId, targetDomain, amount⟩).putAcc id
        { acc with balancePwm := balance, nonce := nonce } := by
  simp only [applyExport, bind_ok_iff, require_ok_iff, orThrow_ok_iff, modify_ok_iff] at hok
  obtain ⟨_, _, ⟨hinit, rfl⟩, _, _, ⟨_, rfl⟩, total, _, ⟨htotal, rfl⟩, _, _, ⟨_, rfl⟩, balance, _,
    ⟨hbalance, rfl⟩, nonce, _, ⟨hnonce, rfl⟩, _, _, rfl, exportId, _, ⟨hid, rfl⟩, rfl⟩ := hok
  exact ⟨hinit, total, balance, nonce, exportId, htotal, hbalance, hnonce, hid, rfl⟩

/-- The registry after an import whose provenance may have to be recorded. -/
def State.registerProvenance (st : State) (insert : Bool) (exportId : Bytes32)
    (prov : ExportProvenance) : State :=
  if insert then { st with exportedRegistry := st.exportedRegistry.insert exportId prov } else st

/-- The last writes of an import: the lock, then the set of imported ids. -/
def State.settleImport (st : State) (exportId : Bytes32) : State :=
  let st := st.releaseLock (st.lockIdx exportId)
  { st with importedSet := st.importedSet.insert exportId }

theorem creditImport_ok {toId : AccountId} {src : Account} {amount : U128}
    (hok : creditImport id toId src amount s = .ok u s') :
    (toId = id ∧ s' = s.putAcc id { src with
        balancePwm := src.balancePwm.saturatingAdd amount }) ∨
      (toId ≠ id ∧ ∃ toAcc, s.accounts[toId]? = some toAcc ∧
        s' = (s.putAcc id src).putAcc toId
          { toAcc with balancePwm := toAcc.balancePwm.saturatingAdd amount }) := by
  by_cases hto : toId = id
  · simp only [creditImport, if_pos hto, modify_ok_iff] at hok
    exact Or.inl ⟨hto, hok.symm⟩
  · simp only [creditImport, if_neg hto, bind_ok_iff, get_ok_iff, orThrow_ok_iff,
      modify_ok_iff] at hok
    obtain ⟨_, _, ⟨rfl, rfl⟩, toAcc, _, ⟨hacc, rfl⟩, rfl⟩ := hok
    exact Or.inr ⟨hto, toAcc, hacc, rfl⟩

/-- The lock that an import looks at is not refunded. -/
def lockNotRefunded (st : State) (exportId : Bytes32) : Prop :=
  ((st.lockIdx exportId).bind fun idx => st.crossShardLocks[idx]?).map CrossShardLock.state ≠
    some .refunded

theorem checkImport_ok {toId : AccountId} {amount : U128} {exportId : Bytes32}
    {p : ExportProvenance × Bool × U128}
    (hok : checkImport tx id acc toId amount exportId s = .ok p s') :
    s = s' ∧ acc.initialized = true ∧ lockNotRefunded s exportId ∧ exportId ∉ s.importedSet ∧
      expectedExport tx s exportId = .ok (p.1, p.2.1) ∧ p.1.amount = amount ∧ p.1.toId = toId := by
  simp only [checkImport, bind_ok_iff, require_ok_iff, get_ok_iff, liftExcept_ok_iff,
    orThrow_ok_iff, pure_ok_iff] at hok
  obtain ⟨_, _, ⟨hinit, rfl⟩, _, _, ⟨_, rfl⟩, _, _, ⟨rfl, rfl⟩, _, _, ⟨hrefunded, rfl⟩, _, _,
    ⟨hfresh, rfl⟩, ⟨expected, insert⟩, _, ⟨hexpected, rfl⟩, _, _, ⟨⟨hamount, hto, _⟩, rfl⟩, _, s₁,
    hgate, fee, _, ⟨_, rfl⟩, _, _, ⟨_, rfl⟩, _, _, ⟨_, rfl⟩, rfl, rfl⟩ := hok
  have hs₁ : s = s₁ := by
    rcases onlyIf_ok_iff.mp hgate with ⟨_, hr⟩ | ⟨_, hs⟩
    · exact (liftExcept_ok_iff.mp hr).2
    · exact hs
  exact ⟨hs₁, hinit, hrefunded, hfresh, hexpected, hamount, hto⟩

theorem applyImport_ok {toId : AccountId} {amount : U128} {exportId : Bytes32}
    (hok : applyImport tx id acc toId amount exportId s = .ok u s') :
    acc.initialized = true ∧ lockNotRefunded s exportId ∧ exportId ∉ s.importedSet ∧
      ∃ expected insert fee balance nonce s₁,
        expectedExport tx s exportId = .ok (expected, insert) ∧
        expected.amount = amount ∧ expected.toId = toId ∧
        acc.balancePwm.checkedSub fee = some balance ∧
        acc.nonce.checkedAdd 1#64 = some nonce ∧
        creditImport id toId { acc with balancePwm := balance, nonce := nonce } amount
          ((s.addFee fee).registerProvenance insert exportId expected) = .ok () s₁ ∧
        s' = s₁.settleImport exportId := by
  rw [applyImport, bind_ok_iff] at hok
  obtain ⟨⟨expected, insert, fee⟩, _, hcheck, hok⟩ := hok
  obtain ⟨rfl, hinit, hrefunded, hfresh, hexpected, hamount, hto⟩ := checkImport_ok hcheck
  simp only [bind_ok_iff, get_ok_iff, orThrow_ok_iff, modify_ok_iff] at hok
  obtain ⟨_, _, ⟨rfl, rfl⟩, balance, _, ⟨hbalance, rfl⟩, _, _, rfl, _, s₂, hprov, nonce, _,
    ⟨hnonce, rfl⟩, _, s₃, hcredit, _, _, rfl, rfl⟩ := hok
  have hs₂ : s₂ = (s.addFee fee).registerProvenance insert exportId expected := by
    rw [State.registerProvenance]
    rcases onlyIf_ok_iff.mp hprov with ⟨hins, hr⟩ | ⟨hins, hs⟩
    · rw [if_pos hins]
      exact (modify_ok_iff.mp hr).symm
    · rw [if_neg hins]
      exact hs.symm
  subst hs₂
  refine ⟨hinit, hrefunded, hfresh, expected, insert, fee, balance, nonce, s₃, hexpected, hamount,
    hto, hbalance, hnonce, hcredit, ?_⟩
  have hlocks : s₃.crossShardLocks = s.crossShardLocks := by
    rcases creditImport_ok hcredit with ⟨_, rfl⟩ | ⟨_, toAcc, _, rfl⟩ <;> cases insert <;> rfl
  have hidx : s₃.lockIdx exportId = s.lockIdx exportId := by
    rw [State.lockIdx, State.lockIdx, hlocks]
  rw [State.settleImport, hidx]

/-- The pending transfers without those of a sender. -/
def State.dropPending (st : State) (sender : AccountId) : State :=
  { st with
    pendingConservation := st.pendingConservation.filter fun row => decide (row.sender ≠ sender) }

theorem eq_zero_of_not_pos {x : U128} (h : ¬ 0#128 < x) : x = 0#128 := by
  bv_omega

/-- A credit of nothing may as well be made. -/
theorem creditIfPos_eq (a : Account) (x : U128) :
    a.creditIfPos x = { a with balancePwm := a.balancePwm.saturatingAdd x } := by
  rw [Account.creditIfPos]
  by_cases h : 0#128 < x
  · rw [if_pos h]
  · rw [if_neg h, eq_zero_of_not_pos h, saturatingAdd_zero]

theorem clearBalance_eq (a : Account) : a.clearBalance = { a with balancePwm := 0#128 } := by
  rw [Account.clearBalance]
  by_cases h : 0#128 < a.balancePwm
  · rw [if_pos h]
  · rw [if_neg h, ← eq_zero_of_not_pos h]

theorem clearStake_eq (a : Account) : a.clearStake = { a with stakedPwmRaw := 0#128 } := by
  rw [Account.clearStake]
  by_cases h : 0#128 < a.stakedPwmRaw
  · rw [if_pos h]
  · rw [if_neg h, ← eq_zero_of_not_pos h]

theorem evacuate_ok {target : AccountId} {a a' : Account}
    (hok : evacuate id target a s = .ok a' s') :
    (target = id ∧ a' = a ∧ s' = s.dropPending id) ∨
      (target ≠ id ∧ ∃ targetAcc, s.accounts[target]? = some targetAcc ∧
        a' = { a with balancePwm := 0#128, stakedPwmRaw := 0#128 } ∧
        s' = (s.dropPending id).putAcc target { targetAcc with balancePwm :=
          (targetAcc.balancePwm.saturatingAdd a.balancePwm).saturatingAdd a.stakedPwmRaw }) := by
  simp only [evacuate, bind_ok_iff, modify_ok_iff] at hok
  obtain ⟨_, _, rfl, hok⟩ := hok
  by_cases htarget : target = id
  · simp only [if_pos htarget, pure_ok_iff] at hok
    exact Or.inl ⟨htarget, hok.1.symm, hok.2.symm⟩
  · simp only [if_neg htarget, bind_ok_iff, get_ok_iff, orThrow_ok_iff, modify_ok_iff,
      pure_ok_iff] at hok
    obtain ⟨_, _, ⟨rfl, rfl⟩, targetAcc, _, ⟨hacc, rfl⟩, _, _, rfl, rfl, rfl⟩ := hok
    refine Or.inr ⟨htarget, targetAcc, hacc, ?_, ?_⟩
    · rw [clearStake_eq, clearBalance_eq]
    · rw [creditIfPos_eq, creditIfPos_eq]
      rfl

theorem applyPolicy_ok {targetAccount : AccountId} {action : PolicyAction} {fee : U128}
    (hok : applyPolicy C genCfg tx h id acc targetAccount action fee s = .ok u s') :
    acc.initialized = true ∧ ∃ a balance a' nonce s₁,
      validatePolAction C s (touchAcctMrks acc h genCfg) action tx = .ok () ∧
      applyPolicyAction (touchAcctMrks acc h genCfg) action h = .ok a ∧
      a.balancePwm.checkedSub fee = some balance ∧
      evacuateIfNamed id (emergencyActTarget action) { a with balancePwm := balance }
        (s.addFee fee) = .ok a' s₁ ∧
      a'.nonce.checkedAdd 1#64 = some nonce ∧ s' = s₁.putAcc id { a' with nonce := nonce } := by
  simp only [applyPolicy, bind_ok_iff, require_ok_iff, get_ok_iff, liftExcept_ok_iff,
    orThrow_ok_iff, modify_ok_iff] at hok
  obtain ⟨_, _, ⟨hinit, rfl⟩, _, _, ⟨_, rfl⟩, _, _, ⟨rfl, rfl⟩, _, _, ⟨hvalid, rfl⟩, a, _,
    ⟨haction, rfl⟩, balance, _, ⟨hbalance, rfl⟩, _, _, rfl, a', s₁, hevac, hput⟩ := hok
  obtain ⟨nonce, hnonce, rfl⟩ := putNextNonce_ok hput
  exact ⟨hinit, a, balance, a', nonce, s₁, hvalid, haction, hbalance, hevac, hnonce, rfl⟩

theorem evacuateIfNamed_ok {target : Option AccountId} {a a' : Account}
    (hok : evacuateIfNamed id target a s = .ok a' s') :
    (target = none ∧ a' = a ∧ s' = s) ∨
      ∃ t, target = some t ∧ evacuate id t a s = .ok a' s' := by
  cases target with
  | none =>
      obtain ⟨ha, hs⟩ := pure_ok_iff.mp hok
      exact Or.inl ⟨rfl, ha.symm, hs.symm⟩
  | some t => exact Or.inr ⟨t, rfl, hok⟩

end Arms

/-! ## One transaction -/

section Apply

variable {C : Crypto} {genCfg : GenCfg} {tx : SignedTx} {h now : U64} {skipPolicy : Bool}
  {s s' : State} {u : Unit}

theorem txPrologue_ok {p : Account × Option AccountId}
    (hok : txPrologue C tx h skipPolicy s = .ok p s') :
    s' = s ∧ ∃ acc, s.accounts[tx.computedAccountId C]? = some acc ∧ acc.nonce = tx.nonce ∧
      p.1 = signerRow acc tx ∧ policyGate C s tx h skipPolicy = .ok p.2 ∧
      ¬ (s.hasPendingConserv (tx.computedAccountId C) ∧ pendingTxConflict tx.body) := by
  simp only [txPrologue, bind_ok_iff, get_ok_iff, orThrow_ok_iff, require_ok_iff,
    liftExcept_ok_iff, pure_ok_iff] at hok
  obtain ⟨_, _, ⟨rfl, rfl⟩, acc, _, ⟨hacc, rfl⟩, _, _, ⟨_, rfl⟩, _, _, ⟨hnonce, rfl⟩, redirTo, _,
    ⟨hgate, rfl⟩, _, _, ⟨hconflict, rfl⟩, rfl, rfl⟩ := hok
  exact ⟨rfl, acc, hacc, hnonce, rfl, hgate, hconflict⟩

/-- A transaction that takes effect passed the prologue on the state with the stub row, and the
arm of its body did the rest. -/
theorem applyTxImpl_ok (hok : applyTxImpl C genCfg tx h now skipPolicy s = .ok u s') :
    ∃ acc redirTo, (initStub C tx s).accounts[tx.computedAccountId C]? = some acc ∧
      acc.nonce = tx.nonce ∧
      policyGate C (initStub C tx s) tx h skipPolicy = .ok redirTo ∧
      ¬ ((initStub C tx s).hasPendingConserv (tx.computedAccountId C) ∧
        pendingTxConflict tx.body) ∧
      applyBody C genCfg tx h (tx.computedAccountId C) (signerRow acc tx) redirTo
        (initStub C tx s) = .ok () s' := by
  simp only [applyTxImpl, bind_ok_iff, liftExcept_ok_iff, modify_ok_iff] at hok
  obtain ⟨_, _, ⟨_, rfl⟩, _, _, rfl, ⟨row, redirTo⟩, s₁, hprologue, hbody⟩ := hok
  obtain ⟨rfl, acc, hacc, hnonce, hrow, hgate, hconflict⟩ := txPrologue_ok hprologue
  subst hrow
  exact ⟨acc, redirTo, hacc, hnonce, hgate, hconflict, hbody⟩

@[simp] theorem signerRow_balancePwm (acc : Account) : (signerRow acc tx).balancePwm =
    acc.balancePwm := by
  unfold signerRow
  split <;> rfl

@[simp] theorem signerRow_stakedPwmRaw (acc : Account) : (signerRow acc tx).stakedPwmRaw =
    acc.stakedPwmRaw := by
  unfold signerRow
  split <;> rfl

@[simp] theorem signerRow_nonce (acc : Account) : (signerRow acc tx).nonce = acc.nonce := by
  unfold signerRow
  split <;> rfl

end Apply

/-! ## Policy actions leave money and nonce alone -/

section Keeps

variable {a b : Account}

/-- The rows agree on balance, stake and nonce. -/
def SameFunds (a b : Account) : Prop :=
  a.balancePwm = b.balancePwm ∧ a.stakedPwmRaw = b.stakedPwmRaw ∧ a.nonce = b.nonce

theorem SameFunds.refl (a : Account) : SameFunds a a := ⟨rfl, rfl, rfl⟩

theorem SameFunds.trans {c : Account} (h₁ : SameFunds a b) (h₂ : SameFunds b c) :
    SameFunds a c :=
  ⟨h₁.1.trans h₂.1, h₁.2.1.trans h₂.2.1, h₁.2.2.trans h₂.2.2⟩

theorem setPolMode_sameFunds (acc : Account) (policy : PolicyKind) (activation : ActivationMode)
    (inclH : U64) : SameFunds (setPolMode acc policy activation inclH) acc := by
  cases activation <;> exact ⟨rfl, rfl, rfl⟩

theorem applyPolicyAction_sameFunds {acc : Account} {action : PolicyAction} {h : U64}
    (hok : applyPolicyAction acc action h = .ok a) : SameFunds a acc := by
  cases action with
  | setPolicy policy activation =>
      obtain rfl := Except.ok.inj hok
      exact setPolMode_sameFunds acc policy activation h
  | activatePolicy policyId activationTarget =>
      simp only [applyPolicyAction] at hok
      split at hok
      · cases hok
      · split at hok
        · split at hok <;> cases hok
        · split at hok
          · obtain rfl := Except.ok.inj hok
            exact SameFunds.refl _
          · split at hok
            · cases hok
            · obtain rfl := Except.ok.inj hok
              exact ⟨rfl, rfl, rfl⟩
  | deactivatePolicy policyId =>
      simp only [applyPolicyAction] at hok
      split at hok
      · cases hok
      · split at hok
        · cases hok
        · split at hok
          · obtain rfl := Except.ok.inj hok
            exact ⟨rfl, rfl, rfl⟩
          · split at hok
            · cases hok
            · obtain rfl := Except.ok.inj hok
              exact ⟨rfl, rfl, rfl⟩

theorem initRow_sameFunds (tx : SignedTx) (h : U64) (acc : Account) (index flags : U32) :
    SameFunds (initRow tx h acc index flags) acc := by
  have hfold : ∀ (rows : List InitPolicyEntry) (c : Account), SameFunds
      (rows.foldl (fun a (row : InitPolicyEntry) => setPolMode a row.policy row.activation h) c)
      c := by
    intro rows
    induction rows with
    | nil => exact SameFunds.refl
    | cons row rest ih =>
        intro c
        exact (ih _).trans (setPolMode_sameFunds c row.policy row.activation h)
  unfold initRow
  cases tx.initV4 with
  | none => exact ⟨rfl, rfl, rfl⟩
  | some ext => exact hfold ext.initialPolicies _

end Keeps

/-! ## Delayed transfers -/

section Drain

variable {genCfg : GenCfg} {h : U64} {row : PendingConservationTransfer} {s s' : State} {u : Unit}

/-- The fee of a pending row as an amount. -/
def PendingConservationTransfer.fee (row : PendingConservationTransfer) : U128 :=
  row.feePwm.setWidth 128

theorem applyDueConservation_ok (hok : applyDueConservation genCfg h row s = .ok u s') :
    ∃ senderAcc dst total balance nonce toAcc,
      s.accounts[row.sender]? = some senderAcc ∧ senderAcc.nonce = row.nonce ∧
      conservationRecipientDst s row.sender row.recipient h = .ok dst ∧
      row.amountPwm.checkedAdd row.fee = some total ∧
      senderAcc.balancePwm.checkedSub total = some balance ∧
      senderAcc.nonce.checkedAdd 1#64 = some nonce ∧ s.accounts[dst]? = some toAcc ∧
      s' = ((s.addFee row.fee).putAcc row.sender
        (debitedRow genCfg h senderAcc balance nonce)).putAcc dst
        (creditedRow genCfg h toAcc row.amountPwm) := by
  simp only [applyDueConservation, bind_ok_iff, get_ok_iff, orThrow_ok_iff, require_ok_iff,
    liftExcept_ok_iff] at hok
  obtain ⟨_, _, ⟨rfl, rfl⟩, senderAcc, _, ⟨hsender, rfl⟩, _, _, ⟨_, rfl⟩, _, _, ⟨hnonce, rfl⟩, _, _,
    ⟨_, rfl⟩, dst, _, ⟨hdst, rfl⟩, _, _, ⟨_, rfl⟩, total, _, ⟨htotal, rfl⟩, _, _, ⟨_, rfl⟩,
    hok⟩ := hok
  simp only [settleConservation, bind_ok_iff, orThrow_ok_iff, modify_ok_iff, get_ok_iff,
    touchAcctMrks_balancePwm, touchAcctMrks_nonce] at hok
  obtain ⟨balance, _, ⟨hbalance, rfl⟩, nonce, _, ⟨hnext, rfl⟩, _, _, rfl, _, _, ⟨rfl, rfl⟩, toAcc, _,
    ⟨hto, rfl⟩, rfl⟩ := hok
  exact ⟨senderAcc, dst, total, balance, nonce, toAcc, hsender, hnonce, hdst, htotal, hbalance,
    hnext, hto, rfl⟩

end Drain

end Pwm
