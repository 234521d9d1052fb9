import Pwm.Ledger.Drain

/-!
# Funds

The funds of a ledger are what it could pay out: balances, stakes and the fee
pool, without the amounts of locks. However a credit saturates, a step raises
them by no more than what it mints, imports or refunds, and an export lowers
them by its amount.
-/

namespace Pwm

open BitVec Attempt MapSum

/-- Balances, stakes and fee pool. -/
def State.funds (s : State) : Nat :=
  sumOf Account.wealth s.accounts + s.feePool.toNat

/-- What an export takes out of its ledger. -/
def SignedTx.exportAmount (tx : SignedTx) : Nat :=
  match tx.body with
  | .exportTx _ _ amount _ => amount.toNat
  | _ => 0

def SignedTx.importAmount (tx : SignedTx) : Nat :=
  match tx.body with
  | .importTx _ amount _ => amount.toNat
  | _ => 0

/-- The allocation that an IPv4 claim asks for. -/
def SignedTx.claimAmount (genCfg : GenCfg) (tx : SignedTx) : Nat :=
  match tx.body with
  | .claimIPv4Batch phase _ _ =>
      match findClaimPhase genCfg phase with
      | .ok row => row.allocation.toNat
      | .error _ => 0
  | _ => 0

/-- What the reward of a block is for its producer, by its row. -/
def rewardPaid (genCfg : GenCfg) (s : State) (prodAcct : AccountId) (h : U64) : Nat :=
  match s.accounts[prodAcct]? with
  | none => 0
  | some a =>
      if genCfg.isLegacyPolicy then genCfg.blockReward.toNat
      else if a.stakedPwmRaw < genCfg.pwmStakeMin then 0
      else ((computeBlockReward genCfg h).saturatingMul 1000000#128 / ppmDenom).toNat

/-- What a step mints: the claim of a transaction or the reward of a block. -/
inductive Mints (genCfg : GenCfg) : State → LedgerLabel → State → Nat → Prop
  | applied (s : State) (tx : SignedTx) (s' : State) :
      Mints genCfg s (.applied tx) s' (tx.claimAmount genCfg)
  | rewarded (s : State) (prodAcct : AccountId) (h : U64) :
      Mints genCfg s .rewarded (rewardBlock genCfg s prodAcct h) (rewardPaid genCfg s prodAcct h)
  | nothing {s : State} {l : LedgerLabel} {s' : State} (happlied : ∀ tx, l ≠ .applied tx)
      (hrewarded : l ≠ .rewarded) : Mints genCfg s l s' 0

namespace LedgerLabel

/-- What a step takes out of its ledger for another one. -/
def leaving : LedgerLabel → Nat
  | .applied tx => tx.exportAmount
  | _ => 0

/-- What a step brings in: an import, or the locks that it refunds. -/
def arriving : LedgerLabel → Nat
  | .applied tx => tx.importAmount
  | .refunded locks => (locks.map fun l => l.amountPwm.toNat).sum
  | _ => 0

end LedgerLabel

/-! ## Sums after a write -/

section Sums

variable {s : State} {id dst : AccountId}

theorem toNat_saturatingAdd_le (x y : U128) : (x.saturatingAdd y).toNat ≤ x.toNat + y.toNat := by
  rw [toNat_saturatingAdd]
  exact Nat.min_le_left _ _

theorem funds_putAcc (s : State) (id : AccountId) (a : Account) :
    (s.putAcc id a).funds + s.wealthOf id = s.funds + a.wealth := by
  have h := sumOf_insert Account.wealth s.accounts id a
  simp only [State.funds, State.wealthOf, putAcc_accounts, putAcc_feePool]
  omega

theorem funds_addFee_le (s : State) (fee : U128) : (s.addFee fee).funds ≤ s.funds + fee.toNat := by
  have h := toNat_saturatingAdd_le s.feePool fee
  simp only [State.funds, addFee_accounts, addFee_feePool]
  omega

/-- A row whose own money is moved inside it. -/
theorem funds_putAcc_same {a : Account} (h : a.wealth = s.wealthOf id) :
    (s.putAcc id a).funds = s.funds := by
  have := funds_putAcc s id a
  omega

/-- Paying a fee out of one row. -/
theorem funds_payFee_le {a : Account} {fee : U128} (hw : a.wealth + fee.toNat ≤ s.wealthOf id) :
    ((s.addFee fee).putAcc id a).funds ≤ s.funds := by
  have hfee := funds_addFee_le s fee
  have hput := funds_putAcc (s.addFee fee) id a
  have hkeep : (s.addFee fee).wealthOf id = s.wealthOf id := rfl
  omega

theorem funds_putAcc_putAcc (s : State) (hne : id ≠ dst) (a b : Account) :
    ((s.putAcc id a).putAcc dst b).funds + s.wealthOf id + s.wealthOf dst =
      s.funds + a.wealth + b.wealth := by
  have h₁ := funds_putAcc s id a
  have h₂ := funds_putAcc (s.putAcc id a) dst b
  rw [wealthOf_putAcc, if_neg hne] at h₂
  omega

/-- Paying out of one row into another and into the pool makes nothing. -/
theorem funds_pay_le {src dstRow acc toAcc : Account} {amount fee total balance : U128}
    (hne : id ≠ dst) (hrow : s.wealthOf id = acc.wealth) (hto : s.accounts[dst]? = some toAcc)
    (htotal : amount.checkedAdd fee = some total)
    (hbalance : acc.balancePwm.checkedSub total = some balance)
    (hsrc : src.balancePwm = balance ∧ src.stakedPwmRaw = acc.stakedPwmRaw)
    (hdst : dstRow.balancePwm = toAcc.balancePwm.saturatingAdd amount ∧
      dstRow.stakedPwmRaw = toAcc.stakedPwmRaw) :
    (((s.addFee fee).putAcc id src).putAcc dst dstRow).funds ≤ s.funds := by
  have htot := checkedAdd_eq_some_iff.mp htotal
  obtain ⟨hle, hbal⟩ := checkedSub_eq_some_iff.mp hbalance
  have hdstw := wealthOf_of_row hto
  have hpay := funds_putAcc_putAcc (s.addFee fee) hne src dstRow
  have hcredit := toNat_saturatingAdd_le toAcc.balancePwm amount
  have hfee := funds_addFee_le s fee
  have hkeep : ∀ j, (s.addFee fee).wealthOf j = s.wealthOf j := fun _ => rfl
  rw [hkeep, hkeep, hrow, hdstw] at hpay
  simp only [Account.wealth, hsrc.1, hsrc.2, hdst.1, hdst.2] at hpay hcredit
  omega

end Sums

/-! ## The arms -/

section Arms

variable {C : Crypto} {genCfg : GenCfg} {tx : SignedTx} {h : U64} {id : AccountId} {acc : Account}
  {s s' : State} {u : Unit}

theorem transferNow_funds {dst : AccountId} {amount fee total : U128}
    (hrow : s.wealthOf id = acc.wealth) (htotal : amount.checkedAdd fee = some total)
    (hok : transferNow genCfg h id acc dst amount fee total s = .ok u s') :
    s'.funds ≤ s.funds := by
  obtain ⟨balance, nonce, hbalance, _, ⟨_, rfl⟩ | ⟨hne, toAcc, hto, rfl⟩⟩ := transferNow_ok hok
  · -- sender and destination are one row
    have htot := checkedAdd_eq_some_iff.mp htotal
    obtain ⟨hle, hbal⟩ := checkedSub_eq_some_iff.mp hbalance
    have hcredit := toNat_saturatingAdd_le balance amount
    refine funds_payFee_le ?_
    rw [hrow]
    simp only [Account.wealth, debitedRow, touchAcctMrks_stakedPwmRaw]
    omega
  · exact funds_pay_le (Ne.symm hne) hrow hto htotal hbalance ⟨rfl, rfl⟩ ⟨rfl, rfl⟩

theorem evacuateIfNamed_funds {target : Option AccountId} {a a' : Account}
    (hok : evacuateIfNamed id target a s = .ok a' s') :
    s'.funds + a'.wealth ≤ s.funds + a.wealth ∧ s'.wealthOf id = s.wealthOf id := by
  rcases evacuateIfNamed_ok hok with ⟨_, rfl, rfl⟩ | ⟨t, _, hevac⟩
  · exact ⟨le_rfl, rfl⟩
  · rcases evacuate_ok hevac with ⟨_, rfl, rfl⟩ | ⟨hne, targetAcc, hacc, rfl, rfl⟩
    · exact ⟨le_rfl, rfl⟩
    · have htarget := wealthOf_of_row hacc
      have hfirst := toNat_saturatingAdd_le targetAcc.balancePwm a.balancePwm
      have hsecond := toNat_saturatingAdd_le (targetAcc.balancePwm.saturatingAdd a.balancePwm)
        a.stakedPwmRaw
      have hput := funds_putAcc (s.dropPending id) t { targetAcc with balancePwm :=
        (targetAcc.balancePwm.saturatingAdd a.balancePwm).saturatingAdd a.stakedPwmRaw }
      have hkeep : (s.dropPending id).wealthOf t = s.wealthOf t := rfl
      have hfunds : (s.dropPending id).funds = s.funds := rfl
      rw [hkeep, hfunds, htarget] at hput
      constructor
      · simp only [Account.wealth, BitVec.toNat_zero] at hput ⊢
        omega
      · rw [wealthOf_putAcc, if_neg hne]
        rfl

theorem applyPolicy_funds {targetAccount : AccountId} {action : PolicyAction} {fee : U128}
    (hrow : s.wealthOf id = acc.wealth)
    (hok : applyPolicy C genCfg tx h id acc targetAccount action fee s = .ok u s') :
    s'.funds ≤ s.funds := by
  obtain ⟨_, a, balance, a', nonce, s₁, _, haction, hbalance, hevac, _, rfl⟩ := applyPolicy_ok hok
  obtain ⟨hle, hbal⟩ := checkedSub_eq_some_iff.mp hbalance
  have ha : a.wealth = acc.wealth :=
    (wealth_of_sameFunds (applyPolicyAction_sameFunds haction)).trans rfl
  have hfee := funds_addFee_le s fee
  have hkeep : (s.addFee fee).wealthOf id = s.wealthOf id := rfl
  have hpaid : ({ a with balancePwm := balance } : Account).wealth + fee.toNat = a.wealth := by
    simp only [Account.wealth]
    omega
  obtain ⟨hsum, hwealth⟩ := evacuateIfNamed_funds hevac
  have hput := funds_putAcc s₁ id { a' with nonce := nonce }
  have hw : ({ a' with nonce := nonce } : Account).wealth = a'.wealth := rfl
  omega

theorem applyExport_funds {toId : AccountId} {targetDomain : U16} {amount fee : U128}
    (hrow : s.wealthOf id = acc.wealth)
    (hok : applyExport C genCfg tx h id acc toId targetDomain amount fee s = .ok u s') :
    s'.funds + amount.toNat ≤ s.funds := by
  obtain ⟨_, total, balance, nonce, exportId, htotal, hbalance, _, _, rfl⟩ := applyExport_ok hok
  have htot := checkedAdd_eq_some_iff.mp htotal
  obtain ⟨hle, hbal⟩ := checkedSub_eq_some_iff.mp hbalance
  obtain ⟨haccounts, hpool, -⟩ := recordExport_view genCfg h id (s.addFee fee) exportId
    ⟨toId, targetDomain, amount⟩
  have hfee := funds_addFee_le s fee
  have hput := funds_putAcc ((s.addFee fee).recordExport genCfg h id exportId
    ⟨toId, targetDomain, amount⟩) id { acc with balancePwm := balance, nonce := nonce }
  have hrecord : ((s.addFee fee).recordExport genCfg h id exportId
      ⟨toId, targetDomain, amount⟩).funds = (s.addFee fee).funds := by
    rw [State.funds, haccounts, hpool, State.funds]
  have hkeep : ((s.addFee fee).recordExport genCfg h id exportId
      ⟨toId, targetDomain, amount⟩).wealthOf id = s.wealthOf id := by
    rw [State.wealthOf, haccounts]
    rfl
  rw [hkeep, hrow, hrecord] at hput
  simp only [Account.wealth] at hput
  omega

theorem creditImport_funds {toId : AccountId} {src : Account} {amount : U128} {fee : Nat}
    (hrow : s.wealthOf id = src.wealth + fee)
    (hok : creditImport id toId src amount s = .ok u s') :
    s'.funds + fee ≤ s.funds + amount.toNat := by
  rcases creditImport_ok hok with ⟨_, rfl⟩ | ⟨hne, toAcc, hto, rfl⟩
  · have hcredit := toNat_saturatingAdd_le src.balancePwm amount
    have hput := funds_putAcc s id { src with balancePwm := src.balancePwm.saturatingAdd amount }
    rw [hrow] at hput
    simp only [Account.wealth] at hput
    omega
  · have hcredit := toNat_saturatingAdd_le toAcc.balancePwm amount
    have htow := wealthOf_of_row hto
    have hput := funds_putAcc_putAcc s (Ne.symm hne) src
      { toAcc with balancePwm := toAcc.balancePwm.saturatingAdd amount }
    rw [hrow, htow] at hput
    simp only [Account.wealth] at hput
    omega

theorem applyImport_funds {toId : AccountId} {amount : U128} {exportId : Bytes32}
    (hrow : s.wealthOf id = acc.wealth)
    (hok : applyImport tx id acc toId amount exportId s = .ok u s') :
    s'.funds ≤ s.funds + amount.toNat := by
  obtain ⟨_, _, _, expected, insert, fee, balance, nonce, s₁, _, _, _, hbalance, _, hcredit, rfl⟩ :=
    applyImport_ok hok
  obtain ⟨hle, hbal⟩ := checkedSub_eq_some_iff.mp hbalance
  have hfee := funds_addFee_le s fee
  have hprov : ((s.addFee fee).registerProvenance insert exportId expected).funds =
      (s.addFee fee).funds := by
    cases insert <;> rfl
  have hpaid : ((s.addFee fee).registerProvenance insert exportId expected).wealthOf id =
      ({ acc with balancePwm := balance, nonce := nonce } : Account).wealth + fee.toNat := by
    have hkeep : ((s.addFee fee).registerProvenance insert exportId expected).wealthOf id =
        s.wealthOf id := by
      cases insert <;> rfl
    rw [hkeep, hrow]
    simp only [Account.wealth]
    omega
  have hsum := creditImport_funds hpaid hcredit
  have hsettle : (s₁.settleImport exportId).funds = s₁.funds := by
    simp only [State.settleImport, State.releaseLock]
    cases s₁.lockIdx exportId <;> rfl
  omega

theorem applyBody_funds {redirTo : Option AccountId} (hrow : s.wealthOf id = acc.wealth)
    (hok : applyBody C genCfg tx h id acc redirTo s = .ok u s') :
    s'.funds + tx.exportAmount ≤ s.funds + tx.claimAmount genCfg + tx.importAmount := by
  rw [applyBody] at hok
  cases hbody : tx.body with
  | init index flags =>
      simp only [hbody, SignedTx.exportAmount, SignedTx.claimAmount, SignedTx.importAmount] at hok ⊢
      obtain ⟨_, nonce, _, rfl⟩ := applyInit_ok hok
      have hkeep := wealth_of_sameFunds (initRow_sameFunds tx h acc index flags)
      refine (funds_putAcc_same ?_).le
      rw [hrow]
      exact hkeep
  | transfer toId amount fee =>
      simp only [hbody, SignedTx.exportAmount, SignedTx.claimAmount, SignedTx.importAmount] at hok ⊢
      obtain ⟨_, total, htotal, _, ⟨_, henq⟩ | ⟨_, hnow⟩⟩ := applyTransfer_ok hok
      · obtain ⟨_, feePwm, _, rfl⟩ := enqueueConservation_ok henq
        exact le_rfl
      · exact transferNow_funds hrow htotal hnow
  | stake amount =>
      simp only [hbody, SignedTx.exportAmount, SignedTx.claimAmount, SignedTx.importAmount] at hok ⊢
      obtain ⟨_, balance, staked, nonce, hbalance, hstaked, _, rfl⟩ := applyStake_ok hok
      obtain ⟨hle, hbal⟩ := checkedSub_eq_some_iff.mp hbalance
      have hstk := checkedAdd_eq_some_iff.mp hstaked
      refine (funds_putAcc_same ?_).le
      rw [hrow]
      simp only [Account.wealth]
      omega
  | unstake amount =>
      simp only [hbody, SignedTx.exportAmount, SignedTx.claimAmount, SignedTx.importAmount] at hok ⊢
      obtain ⟨_, balance, staked, nonce, hstaked, hbalance, _, rfl⟩ := applyUnstake_ok hok
      obtain ⟨hle, hstk⟩ := checkedSub_eq_some_iff.mp hstaked
      have hbal := checkedAdd_eq_some_iff.mp hbalance
      refine (funds_putAcc_same ?_).le
      rw [hrow]
      simp only [Account.wealth]
      omega
  | burnMark markAmount beneficiary =>
      simp only [hbody, SignedTx.exportAmount, SignedTx.claimAmount, SignedTx.importAmount] at hok ⊢
      obtain ⟨_, marks, nonce, _, _, rfl⟩ := applyBurnMark_ok hok
      refine (funds_putAcc_same ?_).le
      rw [hrow]
      rfl
  | claimIPv4Batch phase batchRoot registrySig =>
      simp only [hbody, SignedTx.exportAmount, SignedTx.claimAmount, SignedTx.importAmount] at hok ⊢
      obtain ⟨_, phaseRow, nonce, hphase, _, rfl⟩ := applyClaimIPv4Batch_ok hok
      have hcredit := toNat_saturatingAdd_le acc.balancePwm phaseRow.allocation
      have hput := funds_putAcc s id { acc with
        balancePwm := acc.balancePwm.saturatingAdd phaseRow.allocation,
        ipv4ClaimedPhase := some phase, nonce := nonce }
      rw [hrow] at hput
      simp only [Account.wealth] at hput
      rw [hphase]
      dsimp only
      omega
  | exportTx toId targetDomain amount fee =>
      simp only [hbody, SignedTx.exportAmount, SignedTx.claimAmount, SignedTx.importAmount] at hok ⊢
      exact applyExport_funds hrow hok
  | importTx toId amount exportId =>
      simp only [hbody, SignedTx.exportAmount, SignedTx.claimAmount, SignedTx.importAmount] at hok ⊢
      exact applyImport_funds hrow hok
  | policy targetAccount action fee =>
      simp only [hbody, SignedTx.exportAmount, SignedTx.claimAmount, SignedTx.importAmount] at hok ⊢
      exact applyPolicy_funds hrow hok

theorem initStub_funds (C : Crypto) (tx : SignedTx) (s : State) :
    (initStub C tx s).funds = s.funds := by
  have hsupply := initStub_supply C tx s
  have hheld : (initStub C tx s).held = s.held := by
    rw [State.held, (initStub_crossShard C tx s).1, State.held]
  simp only [State.supply] at hsupply
  simp only [State.funds]
  omega

/-- A transaction that takes effect raises the funds by its claim and its import at most, and its
export has left them. -/
theorem applyTxImpl_funds {now : U64} {skipPolicy : Bool}
    (hok : applyTxImpl C genCfg tx h now skipPolicy s = .ok u s') :
    s'.funds + tx.exportAmount ≤ s.funds + tx.claimAmount genCfg + tx.importAmount := by
  obtain ⟨acc, redirTo, hacc, _, _, _, hbody⟩ := applyTxImpl_ok hok
  have hrow : (initStub C tx s).wealthOf (tx.computedAccountId C) = (signerRow acc tx).wealth := by
    rw [wealthOf_of_row hacc, Account.wealth, Account.wealth, signerRow_balancePwm,
      signerRow_stakedPwmRaw]
  have hsum := applyBody_funds hrow hbody
  rwa [initStub_funds] at hsum

end Arms

/-! ## The other steps -/

section Steps

variable {C : Crypto} {genCfg : GenCfg} {h : U64} {s s' : State} {l : LedgerLabel} {n : Nat}

/-- A row that is changed in place. -/
theorem funds_modify_le (s : State) (id : AccountId) (g : Account → Account)
    (hg : ∀ a, s.accounts[id]? = some a → (g a).wealth ≤ a.wealth + n) :
    ({ s with accounts := s.accounts.modify id g } : State).funds ≤ s.funds + n := by
  have hsum := sumOf_modify Account.wealth s.accounts id g
  simp only [State.funds]
  cases hrow : s.accounts[id]? with
  | none =>
      simp only [valueAt, hrow, Option.elim_none] at hsum
      omega
  | some a =>
      have hput := hg a hrow
      simp only [valueAt, hrow, Option.elim_some] at hsum
      omega

theorem credited_wealth_le (a : Account) (amount : U128) :
    ({ a with balancePwm := a.balancePwm.saturatingAdd amount } : Account).wealth ≤
      a.wealth + amount.toNat := by
  have hcredit := toNat_saturatingAdd_le a.balancePwm amount
  simp only [Account.wealth]
  omega

theorem refundFold_funds (h : U64) (locks : List CrossShardLock) (s : State) :
    (locks.foldl (refundStep h) s).funds ≤ s.funds +
      ((locks.filter fun lock => decide (lock.state = .locked ∧ lock.unlockHeight ≤ h)).map
        fun l => l.amountPwm.toNat).sum := by
  induction locks generalizing s with
  | nil => exact le_rfl
  | cons lock rest ih =>
      have hrest := ih (refundStep h s lock)
      rw [List.foldl_cons]
      by_cases hdue : lock.state = .locked ∧ lock.unlockHeight ≤ h
      · have hnot : ¬ (lock.state ≠ .locked ∨ h < lock.unlockHeight) := by
          simpa [BitVec.not_lt] using hdue
        have hfirst : (refundStep h s lock).funds ≤ s.funds + lock.amountPwm.toNat := by
          rw [refundStep, if_neg hnot]
          exact funds_modify_le s lock.refundAccount _ fun a _ => credited_wealth_le a _
        rw [List.filter_cons_of_pos (by simpa using hdue), List.map_cons, List.sum_cons]
        omega
      · have hskip : lock.state ≠ .locked ∨ h < lock.unlockHeight := by
          by_contra hcon
          exact hdue (by simpa [BitVec.not_lt] using hcon)
        have hfirst : (refundStep h s lock).funds = s.funds := by
          rw [refundStep, if_pos hskip]
          rfl
        rw [List.filter_cons_of_neg (by simpa using hdue)]
        omega

/-- The timeout pass pays out the amounts of the due locks at most. -/
theorem refundExpLocks_funds (s : State) (h : U64) :
    (s.refundExpLocks h).funds ≤
      s.funds + ((s.dueLocks h).map fun l => l.amountPwm.toNat).sum :=
  refundFold_funds h s.crossShardLocks { s with crossShardLocks := [] }

theorem drains_funds {rows : List PendingConservationTransfer} {moves : List DrainMove}
    (hd : Drains genCfg h rows s moves s') (hself : ∀ m ∈ moves, m.dst h ≠ some m.row.sender) :
    s'.funds ≤ s.funds := by
  induction hd with
  | nil => exact le_rfl
  | kept _ ih => exact ih hself
  | @executed row rest s s₁ moves s' hrow _ ih =>
      have hrest := ih fun m hm => hself m (List.mem_cons_of_mem _ hm)
      have hout := hself _ List.mem_cons_self
      obtain ⟨senderAcc, dst, total, balance, nonce, toAcc, hsender, _, hdst, htotal, hbalance, _,
        hto, rfl⟩ := applyDueConservation_ok hrow
      have hne : row.sender ≠ dst := by
        rintro rfl
        apply hout
        rw [DrainMove.dst, hdst]
        rfl
      exact hrest.trans (funds_pay_le hne (wealthOf_of_row hsender) hto htotal hbalance ⟨rfl, rfl⟩
        ⟨rfl, rfl⟩)

theorem rewardBlock_funds (genCfg : GenCfg) (s : State) (prodAcct : AccountId) (h : U64) :
    (rewardBlock genCfg s prodAcct h).funds ≤ s.funds + rewardPaid genCfg s prodAcct h := by
  rw [rewardBlock]
  by_cases hlegacy : genCfg.isLegacyPolicy = true
  · rw [if_pos hlegacy]
    apply funds_modify_le
    intro a hrow
    rw [rewardPaid, hrow]
    dsimp only
    rw [if_pos hlegacy]
    exact credited_wealth_le a _
  · rw [if_neg hlegacy]
    apply funds_modify_le
    intro a hrow
    rw [rewardPaid, hrow]
    dsimp only
    rw [if_neg hlegacy]
    split
    · exact le_rfl
    · exact credited_wealth_le a _

/-- No step raises the funds by more than what it mints and what arrives, and what leaves has
left them. -/
theorem step_funds (hstep : LedgerStep C genCfg s l s') (hmint : Mints genCfg s l s' n)
    (hself : l.NoSelfDrain) : s'.funds + l.leaving ≤ s.funds + n + l.arriving := by
  cases hmint with
  | applied _ _ =>
      cases hstep with
      | applied hok => exact applyTxImpl_funds hok
  | rewarded prodAcct h => exact rewardBlock_funds genCfg s prodAcct h
  | nothing happlied hrewarded =>
      cases hstep with
      | applied hok => exact absurd rfl (happlied _)
      | rewarded prodAcct h => exact absurd rfl hrewarded
      | failed herr =>
          rcases applyTxImpl_error C genCfg herr with rfl | rfl
          · exact le_rfl
          · exact (initStub_funds C _ s).le
      | refunded h => exact refundExpLocks_funds s h
      | drained hok =>
          have hle := drains_funds (drains_of_ok hok) hself
          exact hle
      | epoch h =>
          unfold rollEpochIfNeeded
          split <;> exact le_rfl
      | evidence hok =>
          obtain ⟨log, rfl⟩ := appendEvidence_accounts hok
          exact le_rfl

end Steps

end Pwm
