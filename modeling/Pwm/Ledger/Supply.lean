import Pwm.Ledger.Settlement

/-!
# Supply

The supply of a ledger is what the accounts hold and stake, the fee pool and
the amounts of the held locks. A transaction that takes effect in a reachable
state changes it by its mint only.
-/

namespace Pwm

open Attempt MapSum

/-- What an account owns: balance and stake. -/
def Account.wealth (a : Account) : Nat :=
  a.balancePwm.toNat + a.stakedPwmRaw.toNat

/-- What a lock holds for its sender. -/
def CrossShardLock.held (l : CrossShardLock) : Nat :=
  if l.state = .locked then l.amountPwm.toNat else 0

namespace State

def wealthOf (s : State) (id : AccountId) : Nat :=
  valueAt Account.wealth s.accounts id

def held (s : State) : Nat :=
  (s.crossShardLocks.map CrossShardLock.held).sum

/-- Balances, stakes, fee pool and held locks. -/
def supply (s : State) : Nat :=
  sumOf Account.wealth s.accounts + s.feePool.toNat + s.held

/-- A lock of this id is held. -/
def HoldsLock (s : State) (exportId : Bytes32) : Prop :=
  ∃ l ∈ s.crossShardLocks, l.exportId = exportId ∧ l.state = .locked

instance (s : State) (exportId : Bytes32) : Decidable (s.HoldsLock exportId) :=
  inferInstanceAs (Decidable (∃ l ∈ s.crossShardLocks, l.exportId = exportId ∧ l.state = .locked))

end State

/-- The amount that a transaction creates: the allocation of an IPv4 claim, and an import for
which no lock is held here. -/
def mintOf (genCfg : GenCfg) (s : State) (tx : SignedTx) : Nat :=
  match tx.body with
  | .claimIPv4Batch phase _ _ =>
      match findClaimPhase genCfg phase with
      | .ok row => row.allocation.toNat
      | .error _ => 0
  | .importTx _ amount exportId => if s.HoldsLock exportId then 0 else amount.toNat
  | _ => 0

/-! ## Sums after a write -/

section Sums

variable {s s' : State} {id dst : AccountId}

theorem wealthOf_of_row {a : Account} (h : s.accounts[id]? = some a) : s.wealthOf id = a.wealth := by
  simp [State.wealthOf, valueAt, h]

theorem wealth_of_sameFunds {a b : Account} (h : SameFunds a b) : a.wealth = b.wealth := by
  rw [Account.wealth, h.1, h.2.1, Account.wealth]

theorem wealthOf_le (s : State) (id : AccountId) :
    s.wealthOf id + s.feePool.toNat + s.held ≤ s.supply := by
  have h := valueAt_le_sumOf Account.wealth s.accounts id
  simp only [State.wealthOf, State.supply]
  omega

theorem wealthOf_add_le (hne : id ≠ dst) :
    s.wealthOf id + s.wealthOf dst + s.feePool.toNat + s.held ≤ s.supply := by
  have h := valueAt_add_valueAt_le Account.wealth s.accounts hne
  simp only [State.wealthOf, State.supply]
  omega

theorem supply_putAcc (s : State) (id : AccountId) (a : Account) :
    (s.putAcc id a).supply + s.wealthOf id = s.supply + a.wealth := by
  have h := sumOf_insert Account.wealth s.accounts id a
  simp only [State.supply, State.held, State.wealthOf, putAcc_accounts, putAcc_feePool,
    putAcc_crossShardLocks]
  omega

theorem wealthOf_putAcc (s : State) (id j : AccountId) (a : Account) :
    (s.putAcc id a).wealthOf j = if id = j then a.wealth else s.wealthOf j :=
  valueAt_insert _ _ _ _ _

theorem supply_putAcc_putAcc (s : State) (hne : id ≠ dst) (a b : Account) :
    ((s.putAcc id a).putAcc dst b).supply + s.wealthOf id + s.wealthOf dst =
      s.supply + a.wealth + b.wealth := by
  have h₁ := supply_putAcc s id a
  have h₂ := supply_putAcc (s.putAcc id a) dst b
  rw [wealthOf_putAcc, if_neg hne] at h₂
  omega

theorem supply_addFee {fee : U128} (hfit : s.feePool.toNat + fee.toNat < 2 ^ 128) :
    (s.addFee fee).supply = s.supply + fee.toNat := by
  have h := BitVec.toNat_saturatingAdd_of_fits hfit
  simp only [State.supply, State.held, addFee_accounts, addFee_feePool, addFee_crossShardLocks, h]
  omega

/-- A row whose own money is moved inside it. -/
theorem supply_putAcc_same {a : Account} (h : a.wealth = s.wealthOf id) :
    (s.putAcc id a).supply = s.supply := by
  have := supply_putAcc s id a
  omega

/-- Paying a fee out of one row. -/
theorem supply_payFee {a : Account} {fee : U128} (hw : a.wealth + fee.toNat = s.wealthOf id)
    (hfit : s.supply < 2 ^ 128) : ((s.addFee fee).putAcc id a).supply = s.supply := by
  have hown := wealthOf_le s id
  have hfee : (s.addFee fee).supply = s.supply + fee.toNat := by
    apply supply_addFee
    omega
  have hput := supply_putAcc (s.addFee fee) id a
  have hkeep : (s.addFee fee).wealthOf id = s.wealthOf id := rfl
  omega

/-- Paying `amount` to another account and `fee` to the pool, when both have room. -/
theorem supply_pay {src dstRow acc toAcc : Account} {amount fee total balance : U128}
    (hne : id ≠ dst) (hrow : s.wealthOf id = acc.wealth) (hto : s.accounts[dst]? = some toAcc)
    (htotal : amount.checkedAdd fee = some total)
    (hbalance : acc.balancePwm.checkedSub total = some balance)
    (hsrc : src.balancePwm = balance ∧ src.stakedPwmRaw = acc.stakedPwmRaw)
    (hdst : dstRow.balancePwm = toAcc.balancePwm.saturatingAdd amount ∧
      dstRow.stakedPwmRaw = toAcc.stakedPwmRaw)
    (hpool : s.feePool.toNat + fee.toNat < 2 ^ 128)
    (hroom : toAcc.balancePwm.toNat + amount.toNat < 2 ^ 128) :
    (((s.addFee fee).putAcc id src).putAcc dst dstRow).supply = s.supply := by
  have htot := BitVec.checkedAdd_eq_some_iff.mp htotal
  obtain ⟨hle, hbal⟩ := BitVec.checkedSub_eq_some_iff.mp hbalance
  have hdstw := wealthOf_of_row hto
  have hpay := supply_putAcc_putAcc (s.addFee fee) hne src dstRow
  have hcredit := BitVec.toNat_saturatingAdd_of_fits hroom
  have hfee := supply_addFee hpool
  have hkeep : ∀ j, (s.addFee fee).wealthOf j = s.wealthOf j := fun _ => rfl
  rw [hkeep, hkeep, hrow, hdstw, hfee] at hpay
  simp only [Account.wealth, hsrc.1, hsrc.2, hdst.1, hdst.2] at hpay hcredit
  omega

end Sums

/-! ## The arms that keep the supply -/

section Arms

variable {C : Crypto} {genCfg : GenCfg} {tx : SignedTx} {h : U64} {id : AccountId} {acc : Account}
  {s s' : State} {u : Unit}

theorem transferNow_supply {dst : AccountId} {amount fee total : U128}
    (hrow : s.wealthOf id = acc.wealth) (htotal : amount.checkedAdd fee = some total)
    (hfit : s.supply < 2 ^ 128)
    (hok : transferNow genCfg h id acc dst amount fee total s = .ok u s') :
    s'.supply = s.supply := by
  obtain ⟨balance, nonce, hbalance, _, ⟨_, rfl⟩ | ⟨hne, toAcc, hto, rfl⟩⟩ := transferNow_ok hok
  · -- sender and destination are one row: only the fee leaves it
    have htot := BitVec.checkedAdd_eq_some_iff.mp htotal
    obtain ⟨hle, hbal⟩ := BitVec.checkedSub_eq_some_iff.mp hbalance
    have hcredit : (balance.saturatingAdd amount).toNat = balance.toNat + amount.toNat := by
      apply BitVec.toNat_saturatingAdd_of_fits
      have := acc.balancePwm.isLt
      omega
    refine supply_payFee ?_ hfit
    rw [hrow]
    simp only [Account.wealth, hcredit, debitedRow, touchAcctMrks_stakedPwmRaw]
    omega
  · -- what leaves the sender has room in the pool and in the other row
    have htot := BitVec.checkedAdd_eq_some_iff.mp htotal
    obtain ⟨hle, hbal⟩ := BitVec.checkedSub_eq_some_iff.mp hbalance
    have hsum := wealthOf_add_le (s := s) (Ne.symm hne)
    have hdstw := wealthOf_of_row hto
    simp only [Account.wealth] at hrow hdstw
    refine supply_pay (Ne.symm hne) ?_ hto htotal hbalance ⟨rfl, rfl⟩ ⟨rfl, rfl⟩ ?_ ?_
    · exact hrow
    · omega
    · omega

theorem applyStake_supply {amount : U128} (hrow : s.wealthOf id = acc.wealth)
    (hok : applyStake genCfg h id acc amount s = .ok u s') : s'.supply = s.supply := by
  obtain ⟨_, balance, staked, nonce, hbalance, hstaked, _, rfl⟩ := applyStake_ok hok
  obtain ⟨hle, hbal⟩ := BitVec.checkedSub_eq_some_iff.mp hbalance
  have hstk := BitVec.checkedAdd_eq_some_iff.mp hstaked
  apply supply_putAcc_same
  rw [hrow]
  simp only [Account.wealth]
  omega

theorem applyUnstake_supply {amount : U128} (hrow : s.wealthOf id = acc.wealth)
    (hok : applyUnstake genCfg h id acc amount s = .ok u s') : s'.supply = s.supply := by
  obtain ⟨_, balance, staked, nonce, hstaked, hbalance, _, rfl⟩ := applyUnstake_ok hok
  obtain ⟨hle, hstk⟩ := BitVec.checkedSub_eq_some_iff.mp hstaked
  have hbal := BitVec.checkedAdd_eq_some_iff.mp hbalance
  apply supply_putAcc_same
  rw [hrow]
  simp only [Account.wealth]
  omega

theorem applyClaimIPv4Batch_supply {phase : U8} {batchRoot : Bytes32} {registrySig : Bytes64}
    (hrow : s.wealthOf id = acc.wealth)
    (hok : applyClaimIPv4Batch C genCfg id acc phase batchRoot registrySig s = .ok u s') :
    ∃ row, findClaimPhase genCfg phase = .ok row ∧
      (s.supply + row.allocation.toNat < 2 ^ 128 →
        s'.supply = s.supply + row.allocation.toNat) := by
  obtain ⟨_, phaseRow, nonce, hphase, _, rfl⟩ := applyClaimIPv4Batch_ok hok
  refine ⟨phaseRow, hphase, fun hfit => ?_⟩
  have hown := wealthOf_le s id
  have hcredit : (acc.balancePwm.saturatingAdd phaseRow.allocation).toNat =
      acc.balancePwm.toNat + phaseRow.allocation.toNat := by
    apply BitVec.toNat_saturatingAdd_of_fits
    simp only [Account.wealth] at hrow
    omega
  have hput := supply_putAcc s id { acc with
    balancePwm := acc.balancePwm.saturatingAdd phaseRow.allocation,
    ipv4ClaimedPhase := some phase, nonce := nonce }
  rw [hrow] at hput
  simp only [Account.wealth, hcredit] at hput
  omega

theorem evacuateIfNamed_supply {target : Option AccountId} {a a' : Account}
    (hfit : s.supply + a.wealth < 2 ^ 128 + s.wealthOf id)
    (hok : evacuateIfNamed id target a s = .ok a' s') :
    s'.supply + a'.wealth = s.supply + a.wealth ∧ s'.wealthOf id = s.wealthOf id := by
  rcases evacuateIfNamed_ok hok with ⟨_, rfl, rfl⟩ | ⟨t, _, hevac⟩
  · exact ⟨rfl, rfl⟩
  · rcases evacuate_ok hevac with ⟨_, rfl, rfl⟩ | ⟨hne, targetAcc, hacc, rfl, rfl⟩
    · exact ⟨rfl, rfl⟩
    · have hsum := wealthOf_add_le (s := s) (Ne.symm hne)
      have htarget := wealthOf_of_row hacc
      have hfirst : (targetAcc.balancePwm.saturatingAdd a.balancePwm).toNat =
          targetAcc.balancePwm.toNat + a.balancePwm.toNat := by
        apply BitVec.toNat_saturatingAdd_of_fits
        simp only [Account.wealth] at hfit htarget
        omega
      have hsecond : ((targetAcc.balancePwm.saturatingAdd a.balancePwm).saturatingAdd
          a.stakedPwmRaw).toNat =
          targetAcc.balancePwm.toNat + a.balancePwm.toNat + a.stakedPwmRaw.toNat := by
        rw [BitVec.toNat_saturatingAdd_of_fits, hfirst]
        rw [hfirst]
        simp only [Account.wealth] at hfit htarget
        omega
      have hput := supply_putAcc (s.dropPending id) t { targetAcc with balancePwm :=
        (targetAcc.balancePwm.saturatingAdd a.balancePwm).saturatingAdd a.stakedPwmRaw }
      have hkeep : (s.dropPending id).wealthOf t = s.wealthOf t := rfl
      have hsupply : (s.dropPending id).supply = s.supply := rfl
      rw [hkeep, hsupply, htarget] at hput
      constructor
      · simp only [Account.wealth, hsecond, BitVec.toNat_zero] at hput ⊢
        omega
      · rw [wealthOf_putAcc, if_neg hne]
        rfl

theorem applyPolicy_supply {targetAccount : AccountId} {action : PolicyAction} {fee : U128}
    (hrow : s.wealthOf id = acc.wealth) (hfit : s.supply < 2 ^ 128)
    (hok : applyPolicy C genCfg tx h id acc targetAccount action fee s = .ok u s') :
    s'.supply = s.supply := by
  obtain ⟨_, a, balance, a', nonce, s₁, _, haction, hbalance, hevac, _, rfl⟩ := applyPolicy_ok hok
  obtain ⟨hle, hbal⟩ := BitVec.checkedSub_eq_some_iff.mp hbalance
  have ha : a.wealth = acc.wealth :=
    (wealth_of_sameFunds (applyPolicyAction_sameFunds haction)).trans rfl
  have hown := wealthOf_le s id
  have hfee : (s.addFee fee).supply = s.supply + fee.toNat := by
    apply supply_addFee
    simp only [Account.wealth] at ha hrow
    omega
  have hkeep : (s.addFee fee).wealthOf id = s.wealthOf id := rfl
  have hpaid : ({ a with balancePwm := balance } : Account).wealth + fee.toNat = a.wealth := by
    simp only [Account.wealth]
    omega
  obtain ⟨hsum, hwealth⟩ := evacuateIfNamed_supply (by omega) hevac
  have hput := supply_putAcc s₁ id { a' with nonce := nonce }
  have hw : ({ a' with nonce := nonce } : Account).wealth = a'.wealth := rfl
  omega

theorem applyExport_supply {toId : AccountId} {targetDomain : U16} {amount fee : U128}
    (hrow : s.wealthOf id = acc.wealth) (hfit : s.supply < 2 ^ 128)
    (hnew : ∀ exportId, tx.exportId C = some exportId → s.lockIdx exportId = none)
    (hok : applyExport C genCfg tx h id acc toId targetDomain amount fee s = .ok u s') :
    s'.supply = s.supply := by
  obtain ⟨_, total, balance, nonce, exportId, htotal, hbalance, _, hid, rfl⟩ := applyExport_ok hok
  have htot := BitVec.checkedAdd_eq_some_iff.mp htotal
  obtain ⟨hle, hbal⟩ := BitVec.checkedSub_eq_some_iff.mp hbalance
  have hown := wealthOf_le s id
  obtain ⟨haccounts, hpool, _, _, hlocks⟩ := recordExport_view genCfg h id (s.addFee fee) exportId
    ⟨toId, targetDomain, amount⟩
  have hidx : (s.addFee fee).lockIdx exportId = none := hnew exportId hid
  rw [hidx, Option.isNone_none, if_pos rfl] at hlocks
  have hrecord : ((s.addFee fee).recordExport genCfg h id exportId
      ⟨toId, targetDomain, amount⟩).supply = (s.addFee fee).supply + amount.toNat := by
    have hheld : (exportLock genCfg h id exportId amount targetDomain).held = amount.toNat := rfl
    simp only [State.supply, State.held, haccounts, hpool, hlocks, List.map_append,
      List.sum_append, List.map_cons, List.map_nil, List.sum_cons, List.sum_nil, hheld]
    omega
  have hfee : (s.addFee fee).supply = s.supply + fee.toNat := by
    apply supply_addFee
    simp only [Account.wealth] at hrow
    omega
  have hput := supply_putAcc ((s.addFee fee).recordExport genCfg h id exportId
    ⟨toId, targetDomain, amount⟩) id { acc with balancePwm := balance, nonce := nonce }
  have hkeep : ((s.addFee fee).recordExport genCfg h id exportId
      ⟨toId, targetDomain, amount⟩).wealthOf id = s.wealthOf id := by
    rw [State.wealthOf, haccounts]
    rfl
  rw [hkeep, hrow, hrecord, hfee] at hput
  simp only [Account.wealth] at hput
  omega

theorem creditImport_supply {toId : AccountId} {src : Account} {amount : U128} {fee : Nat}
    (hrow : s.wealthOf id = src.wealth + fee)
    (hfit : ∀ j, s.wealthOf j + amount.toNat < 2 ^ 128)
    (hok : creditImport id toId src amount s = .ok u s') :
    s'.supply + fee = s.supply + amount.toNat := by
  rcases creditImport_ok hok with ⟨_, rfl⟩ | ⟨hne, toAcc, hto, rfl⟩
  · have hroom := hfit id
    have hcredit : (src.balancePwm.saturatingAdd amount).toNat =
        src.balancePwm.toNat + amount.toNat := by
      apply BitVec.toNat_saturatingAdd_of_fits
      simp only [Account.wealth] at hrow
      omega
    have hput := supply_putAcc s id { src with balancePwm := src.balancePwm.saturatingAdd amount }
    rw [hrow] at hput
    simp only [Account.wealth, hcredit] at hput
    omega
  · have hroom := hfit toId
    have htow := wealthOf_of_row hto
    have hcredit : (toAcc.balancePwm.saturatingAdd amount).toNat =
        toAcc.balancePwm.toNat + amount.toNat := by
      apply BitVec.toNat_saturatingAdd_of_fits
      simp only [Account.wealth] at htow
      omega
    have hput := supply_putAcc_putAcc s (Ne.symm hne) src
      { toAcc with balancePwm := toAcc.balancePwm.saturatingAdd amount }
    rw [hrow, htow] at hput
    simp only [Account.wealth, hcredit] at hput
    omega

end Arms

/-! ## Releasing a lock -/

theorem sum_map_modify {α : Type} (f : α → Nat) (g : α → α) (xs : List α) (i : Nat) {a : α}
    (h : xs[i]? = some a) : ((xs.modify i g).map f).sum + f a = (xs.map f).sum + f (g a) := by
  induction xs generalizing i with
  | nil => cases h
  | cons x rest ih =>
      cases i with
      | zero =>
          obtain rfl : x = a := by simpa using h
          simp only [List.modify_zero_cons, List.map_cons, List.sum_cons]
          omega
      | succ i =>
          have := ih i (by simpa using h)
          simp only [List.modify_succ_cons, List.map_cons, List.sum_cons]
          omega

/-- Settling an import takes the amount of a held lock out of the supply. -/
theorem settleImport_supply {s : State} {exportId : Bytes32} {idx : Nat} {lock : CrossShardLock}
    (hidx : s.lockIdx exportId = some idx) (hlock : s.crossShardLocks[idx]? = some lock)
    (hheld : lock.state = .locked) :
    (s.settleImport exportId).supply + lock.amountPwm.toNat = s.supply := by
  have hrelease : ({ lock with state := .released } : CrossShardLock).held = 0 := rfl
  have hlocked : lock.held = lock.amountPwm.toNat := if_pos hheld
  have hsum := sum_map_modify CrossShardLock.held
    (fun lock => if lock.state = .locked then { lock with state := .released } else lock)
    s.crossShardLocks idx hlock
  simp only [hheld, if_true, hrelease, hlocked] at hsum
  simp only [State.settleImport, State.releaseLock, hidx, State.supply, State.held]
  omega

theorem settleImport_supply_none {s : State} {exportId : Bytes32}
    (hidx : s.lockIdx exportId = none) : (s.settleImport exportId).supply = s.supply := by
  simp only [State.settleImport, State.releaseLock, hidx, State.supply, State.held]

/-! ## What holds of exports in a reachable state -/

/-- The exports among the transactions, as the byte strings that are hashed for their ids. -/
def exportHashInputs (C : Crypto) (txs : Set SignedTx) : Set (List U8) :=
  { bytes | ∃ tx ∈ txs, (tx.exportId C).isSome ∧
    (bytes = tx.signingMessage ∨ bytes = tx.exportIdBytes C) }

/-- Exports with one id come from one account and carry one nonce. -/
theorem export_unique {C : Crypto} {txs : Set SignedTx} (hC : C.CollisionFree (exportHashInputs C txs))
    {tx tx' : SignedTx} (htx : tx ∈ txs) (htx' : tx' ∈ txs) {exportId : Bytes32}
    (hid : tx.exportId C = some exportId) (hid' : tx'.exportId C = some exportId) :
    tx.computedAccountId C = tx'.computedAccountId C ∧ tx.nonce = tx'.nonce := by
  have hsome : (tx.exportId C).isSome := by simp [hid]
  have hsome' : (tx'.exportId C).isSome := by simp [hid']
  have hhash : ∀ t : SignedTx, t.exportId C = some exportId →
      C.blake3 (t.exportIdBytes C) = exportId := by
    intro t ht
    cases hbody : t.body <;> simp [SignedTx.exportId, hbody] at ht
    exact ht
  have hbytes : tx.exportIdBytes C = tx'.exportIdBytes C :=
    hC ⟨tx, htx, hsome, Or.inr rfl⟩ ⟨tx', htx', hsome', Or.inr rfl⟩
      ((hhash tx hid).trans (hhash tx' hid').symm)
  have hmsg : tx.signingMessage = tx'.signingMessage :=
    hC ⟨tx, htx, hsome, Or.inl rfl⟩ ⟨tx', htx', hsome', Or.inl rfl⟩
      (SignedTx.txHash_of_exportIdBytes C hbytes)
  obtain ⟨hpk, hindex, hnonce⟩ := SignedTx.header_of_signingMessage hmsg
  exact ⟨by rw [SignedTx.computedAccountId, hpk, hindex, SignedTx.computedAccountId], hnonce⟩

/-- Locks come from exports whose nonce is used up, a held lock that was not imported has its
amount in the registry, and the registry knows only ids that were imported or have a lock. -/
structure ExportsRecorded (C : Crypto) (txs : Set SignedTx) (s : State) : Prop where
  origin : ∀ l ∈ s.crossShardLocks, ∃ tx ∈ txs, tx.exportId C = some l.exportId ∧
    tx.nonce.toNat < s.nonceOf (tx.computedAccountId C)
  registered : ∀ l ∈ s.crossShardLocks, l.state = .locked → l.exportId ∉ s.importedSet →
    ∃ prov, s.exportedRegistry[l.exportId]? = some prov ∧ prov.amount = l.amountPwm
  known : ∀ id prov, s.exportedRegistry[id]? = some prov →
    id ∈ s.importedSet ∨ ∃ l ∈ s.crossShardLocks, l.exportId = id
  settled : ∀ l ∈ s.crossShardLocks, l.state ≠ .locked → l.exportId ∈ s.importedSet

section Recorded

variable {C : Crypto} {genCfg : GenCfg} {txs : Set SignedTx} {s s' : State}

theorem exportsRecorded_genesis (h : IsGenesis genCfg s) : ExportsRecorded C txs s := by
  obtain ⟨hlocks, _, hregistry, _⟩ := genesis_fields h
  refine ⟨?_, ?_, ?_, ?_⟩
  · simp [hlocks]
  · simp [hlocks]
  · simp [hregistry]
  · simp [hlocks]

theorem ExportsRecorded.of_same (hI : ExportsRecorded C txs s) (hsame : SameCrossShard s s')
    (hnonce : ∀ j, s.nonceOf j ≤ s'.nonceOf j) : ExportsRecorded C txs s' := by
  obtain ⟨hl, hi, hr⟩ := hsame
  refine ⟨?_, ?_, ?_, ?_⟩
  · rw [hl]
    intro l hmem
    obtain ⟨tx, htx, hid, hlt⟩ := hI.origin l hmem
    exact ⟨tx, htx, hid, hlt.trans_le (hnonce _)⟩
  · rw [hl, hi, hr]
    exact hI.registered
  · rw [hl, hi, hr]
    exact hI.known
  · rw [hl, hi]
    exact hI.settled

/-- The id of an export with the nonce of its account has no lock yet. -/
theorem ExportsRecorded.no_lock (hI : ExportsRecorded C txs s)
    (hC : C.CollisionFree (exportHashInputs C txs)) {tx : SignedTx} (htx : tx ∈ txs)
    (hnonce : s.nonceOf (tx.computedAccountId C) = tx.nonce.toNat) {exportId : Bytes32}
    (hid : tx.exportId C = some exportId) : s.lockIdx exportId = none := by
  rw [lockIdx_isNone_iff]
  rintro l hmem rfl
  obtain ⟨tx', htx', hid', hlt⟩ := hI.origin l hmem
  obtain ⟨hacc, hsame⟩ := export_unique hC htx htx' hid hid'
  rw [← hacc, ← hsame] at hlt
  omega

theorem exportsRecorded_export (hI : ExportsRecorded C txs s)
    (hC : C.CollisionFree (exportHashInputs C txs)) {tx : SignedTx} (htx : tx ∈ txs)
    (hnonce : s.nonceOf (tx.computedAccountId C) = tx.nonce.toNat)
    (hnext : BumpsNonce (tx.computedAccountId C) s s') {exportId : Bytes32} {toId : AccountId}
    {targetDomain : U16} {amount : U128} {h : U64} (hid : tx.exportId C = some exportId)
    (himported : s'.importedSet = s.importedSet)
    (hregistry : s'.exportedRegistry =
      s.exportedRegistry.insertIfNew exportId ⟨toId, targetDomain, amount⟩)
    (hlocks : s'.crossShardLocks =
      if (s.lockIdx exportId).isNone then
        s.crossShardLocks ++
          [exportLock genCfg h (tx.computedAccountId C) exportId amount targetDomain]
      else s.crossShardLocks) : ExportsRecorded C txs s' := by
  have hnone := hI.no_lock hC htx hnonce hid
  rw [hnone, Option.isNone_none, if_pos rfl] at hlocks
  have hmem : ∀ l ∈ s'.crossShardLocks, l ∈ s.crossShardLocks ∨
      l = exportLock genCfg h (tx.computedAccountId C) exportId amount targetDomain := by
    intro l hl
    rw [hlocks, List.mem_append, List.mem_singleton] at hl
    exact hl
  have hget : ∀ id, s'.exportedRegistry[id]? =
      if exportId = id ∧ exportId ∉ s.exportedRegistry then some ⟨toId, targetDomain, amount⟩
      else s.exportedRegistry[id]? := by
    intro id
    rw [hregistry, Std.ExtTreeMap.getElem?_insertIfNew]
    simp only [Std.LawfulEqCmp.compare_eq_iff_eq]
  refine ⟨?_, ?_, ?_, ?_⟩
  · intro l hl
    rcases hmem l hl with hl | rfl
    · obtain ⟨tx', htx', hid', hlt⟩ := hI.origin l hl
      exact ⟨tx', htx', hid', hlt.trans_le (hnext.le _)⟩
    · refine ⟨tx, htx, hid, ?_⟩
      rw [hnext, if_pos rfl, hnonce]
      exact Nat.lt_succ_self _
  · intro l hl hheld hout
    rw [himported] at hout
    rw [hget]
    rcases hmem l hl with hl | rfl
    · obtain ⟨prov, hprov, hamount⟩ := hI.registered l hl hheld hout
      refine ⟨prov, ?_, hamount⟩
      rw [if_neg]
      · exact hprov
      · rintro ⟨rfl, _⟩
        exact lockIdx_isNone_iff.mp hnone l hl rfl
    · -- an old entry of this id would have been imported or have a lock
      have hnew : exportId ∉ s.exportedRegistry := by
        intro hin
        obtain ⟨prov, hprov⟩ := Option.isSome_iff_exists.mp
          (Std.ExtTreeMap.isSome_getElem?_iff_mem.mpr hin)
        rcases hI.known exportId prov hprov with himp | ⟨l, hl, hlid⟩
        · exact hout himp
        · exact lockIdx_isNone_iff.mp hnone l hl hlid
      exact ⟨_, if_pos ⟨rfl, hnew⟩, rfl⟩
  · intro id prov hprov
    rw [hget] at hprov
    rw [himported, hlocks]
    split at hprov
    · rename_i hnew
      exact Or.inr ⟨_, List.mem_append_right _ (List.mem_singleton.mpr rfl), hnew.1⟩
    · rcases hI.known id prov hprov with himp | ⟨l, hl, hlid⟩
      · exact Or.inl himp
      · exact Or.inr ⟨l, List.mem_append_left _ hl, hlid⟩
  · intro l hl hne
    rw [himported]
    rcases hmem l hl with hl | rfl
    · exact hI.settled l hl hne
    · exact absurd rfl hne

theorem exportsRecorded_import (hI : ExportsRecorded C txs s)
    (hnonce : ∀ j, s.nonceOf j ≤ s'.nonceOf j) {tx : SignedTx} {exportId : Bytes32}
    {expected : ExportProvenance} {insert : Bool}
    (hexpected : expectedExport tx s exportId = .ok (expected, insert))
    (himported : s'.importedSet = s.importedSet.insert exportId)
    (hregistry : s'.exportedRegistry =
      if insert then s.exportedRegistry.insert exportId expected else s.exportedRegistry)
    (hlocks : s'.crossShardLocks = (s.releaseLock (s.lockIdx exportId)).crossShardLocks) :
    ExportsRecorded C txs s' := by
  have hin : ∀ id, id ∈ s'.importedSet ↔ exportId = id ∨ id ∈ s.importedSet := by
    intro id
    rw [himported]
    exact mem_insert_importedSet
  have hget : ∀ id, id ≠ exportId → s'.exportedRegistry[id]? = s.exportedRegistry[id]? := by
    intro id hne
    rw [hregistry]
    cases insert with
    | false => rfl
    | true =>
        rw [if_pos rfl, Std.ExtTreeMap.getElem?_insert, if_neg]
        rw [Std.LawfulEqCmp.compare_eq_iff_eq]
        exact Ne.symm hne
  refine ⟨?_, ?_, ?_, ?_⟩
  · intro l hl
    rw [hlocks] at hl
    obtain ⟨old, hold, hcase⟩ := mem_releaseLock hl
    have hsame : l.exportId = old.exportId := by
      rcases hcase with rfl | ⟨_, rfl⟩ <;> rfl
    obtain ⟨tx', htx', hid', hlt⟩ := hI.origin old hold
    exact ⟨tx', htx', by rw [hsame, hid'], hlt.trans_le (hnonce _)⟩
  · intro l hl hheld hout
    rw [hin, not_or] at hout
    rw [hlocks] at hl
    obtain ⟨old, hold, rfl | ⟨_, rfl⟩⟩ := mem_releaseLock hl
    · rw [hget _ (Ne.symm hout.1)]
      exact hI.registered l hold hheld hout.2
    · cases hheld
  · intro id prov hprov
    rw [hin]
    by_cases hid : id = exportId
    · exact Or.inl (Or.inl hid.symm)
    · rw [hget id hid] at hprov
      rcases hI.known id prov hprov with himp | ⟨l, hl, hlid⟩
      · exact Or.inl (Or.inr himp)
      · -- the ids of the locks stay
        have hids : id ∈ s'.crossShardLocks.map CrossShardLock.exportId := by
          rw [hlocks, releaseLock_ids]
          exact List.mem_map.mpr ⟨l, hl, hlid⟩
        obtain ⟨l', hl', hlid'⟩ := List.mem_map.mp hids
        exact Or.inr ⟨l', hl', hlid'⟩
  · intro l hl hne
    rw [hin]
    rw [hlocks] at hl
    cases hidx : s.lockIdx exportId with
    | none =>
        rw [hidx] at hl
        exact Or.inr (hI.settled l hl hne)
    | some idx =>
        obtain ⟨lock, hlock, hid⟩ := lockIdx_some hidx
        rw [hidx] at hl
        obtain ⟨i, hi, rfl⟩ := List.mem_iff_getElem.mp hl
        simp only [State.releaseLock] at hi hne ⊢
        rw [List.length_modify] at hi
        rw [List.getElem_modify] at hne ⊢
        by_cases hii : idx = i
        · subst hii
          obtain ⟨_, hat⟩ := List.getElem?_eq_some_iff.mp hlock
          rw [if_pos rfl, hat]
          refine Or.inl ?_
          split <;> exact hid.symm
        · rw [if_neg hii] at hne ⊢
          exact Or.inr (hI.settled _ (List.getElem_mem hi) hne)

theorem exportsRecorded_refund (hI : ExportsRecorded C txs s) (h : U64) :
    ExportsRecorded C txs (s.refundExpLocks h) := by
  obtain ⟨hlocks, hregistry, _, himported⟩ := refundExpLocks_view s h
  refine ⟨?_, ?_, ?_, ?_⟩
  · intro l hl
    rw [hlocks] at hl
    obtain ⟨old, hold, rfl⟩ := List.mem_map.mp hl
    obtain ⟨tx, htx, hid, hlt⟩ := hI.origin old hold
    exact ⟨tx, htx, by rw [refundedLock_id, hid], by rwa [refundExpLocks_nonceOf]⟩
  · intro l hl hheld hout
    rw [hlocks] at hl
    obtain ⟨old, hold, rfl⟩ := List.mem_map.mp hl
    obtain ⟨hsame, _⟩ := refundedLock_locked hheld
    rw [hsame] at hheld hout ⊢
    rw [hregistry]
    exact hI.registered old hold hheld fun hin => hout ((himported _).mpr (Or.inl hin))
  · intro id prov hprov
    rw [hregistry] at hprov
    rcases hI.known id prov hprov with himp | ⟨l, hl, hlid⟩
    · exact Or.inl ((himported id).mpr (Or.inl himp))
    · refine Or.inr ⟨refundedLock h l, ?_, by rw [refundedLock_id, hlid]⟩
      rw [hlocks]
      exact List.mem_map.mpr ⟨l, hl, rfl⟩
  · intro l hl hne
    rw [hlocks] at hl
    obtain ⟨old, hold, rfl⟩ := List.mem_map.mp hl
    rw [himported, refundedLock_id]
    by_cases hdue : old.state = .locked ∧ old.unlockHeight ≤ h
    · exact Or.inr ⟨old, List.mem_filter.mpr ⟨hold, by simpa using hdue⟩, rfl⟩
    · rw [refundedLock, if_neg hdue] at hne
      exact Or.inl (hI.settled old hold hne)

theorem exportsRecorded_step {l : LedgerLabel} (hC : C.CollisionFree (exportHashInputs C txs))
    (hI : ExportsRecorded C txs s) (hstep : StepWithin C genCfg txs s l s') :
    ExportsRecorded C txs s' := by
  obtain ⟨hstep, hwithin⟩ := hstep
  have hle := step_nonceOf_le hstep
  rcases step_crossShard hstep with ⟨tx, rfl, heff⟩ | ⟨h, _, rfl⟩ | ⟨_, _, hsame⟩
  · obtain ⟨hnonce, hspec⟩ := step_applied_nonces hstep
    cases heff with
    | exported hbody hid himported hregistry hlocks =>
        rw [SignedTx.isDelayed, hbody] at hspec
        exact exportsRecorded_export hI hC (hwithin _ rfl) hnonce hspec hid himported hregistry
          hlocks
    | imported hbody _ _ hexpected _ himported hregistry hlocks =>
        exact exportsRecorded_import hI hle hexpected himported hregistry hlocks
    | other _ _ hsame => exact hI.of_same hsame hle
  · exact exportsRecorded_refund hI h
  · exact hI.of_same hsame hle

end Recorded

/-! ## One transaction -/

section Apply

variable {C : Crypto} {genCfg : GenCfg} {txs : Set SignedTx} {tx : SignedTx} {h now : U64}
  {skipPolicy : Bool} {id : AccountId} {acc : Account} {s s' : State} {u : Unit}

/-- A lock of an id that is not imported is held, and for the amount of the import. -/
theorem ExportsRecorded.lock_of_import (hI : ExportsRecorded C txs s) {exportId : Bytes32}
    {expected : ExportProvenance} {insert : Bool} (hfresh : exportId ∉ s.importedSet)
    (hexpected : expectedExport tx s exportId = .ok (expected, insert)) {l : CrossShardLock}
    (hl : l ∈ s.crossShardLocks) (hid : l.exportId = exportId) :
    l.state = .locked ∧ l.amountPwm = expected.amount := by
  subst hid
  have hheld : l.state = .locked := by
    by_contra hne
    exact hfresh (hI.settled l hl hne)
  obtain ⟨prov, hprov, hamount⟩ := hI.registered l hl hheld hfresh
  refine ⟨hheld, ?_⟩
  rw [expectedExport, hprov] at hexpected
  cases hdecl : tx.importProvenance with
  | none =>
      simp only [hdecl, Except.ok.injEq, Prod.mk.injEq] at hexpected
      rw [← hexpected.1, hamount]
  | some decl =>
      simp only [hdecl] at hexpected
      split at hexpected
      · cases hexpected
      · simp only [Except.ok.injEq, Prod.mk.injEq] at hexpected
        rw [← hexpected.1, hamount]

theorem held_le_of_mem {l : CrossShardLock} (hl : l ∈ s.crossShardLocks)
    (hheld : l.state = .locked) : l.amountPwm.toNat ≤ s.held := by
  have hlocked : l.held = l.amountPwm.toNat := if_pos hheld
  rw [← hlocked]
  exact List.single_le_sum (fun _ _ => Nat.zero_le _) _ (List.mem_map_of_mem hl)

/-- An import creates its amount unless it takes it from a held lock. -/
theorem applyImport_supply {toId : AccountId} {amount : U128} {exportId : Bytes32}
    (hI : ExportsRecorded C txs s) (hrow : s.wealthOf id = acc.wealth)
    (hfit : s.supply + (if s.HoldsLock exportId then 0 else amount.toNat) < 2 ^ 128)
    (hok : applyImport tx id acc toId amount exportId s = .ok u s') :
    s'.supply = s.supply + if s.HoldsLock exportId then 0 else amount.toNat := by
  obtain ⟨_, _, hfresh, expected, insert, fee, balance, nonce, s₁, hexpected, hamount, _, hbalance,
    _, hcredit, rfl⟩ := applyImport_ok hok
  obtain ⟨hle, hbal⟩ := BitVec.checkedSub_eq_some_iff.mp hbalance
  have hown := wealthOf_le s id
  have hfee : (s.addFee fee).supply = s.supply + fee.toNat := by
    apply supply_addFee
    simp only [Account.wealth] at hrow
    omega
  have hprov : ((s.addFee fee).registerProvenance insert exportId expected).supply =
      s.supply + fee.toNat := by
    rw [← hfee]
    cases insert <;> rfl
  have hkeep : ∀ j, ((s.addFee fee).registerProvenance insert exportId expected).wealthOf j =
      s.wealthOf j := by
    intro j
    cases insert <;> rfl
  have hpaid : s.wealthOf id =
      ({ acc with balancePwm := balance, nonce := nonce } : Account).wealth + fee.toNat := by
    rw [hrow]
    simp only [Account.wealth]
    omega
  have hlocks : s₁.crossShardLocks = s.crossShardLocks := by
    rw [(creditImport_crossShard hcredit).1]
    cases insert <;> rfl
  have hidx : s₁.lockIdx exportId = s.lockIdx exportId := by
    rw [State.lockIdx, State.lockIdx, hlocks]
  cases hlock : s.lockIdx exportId with
  | none =>
      have hnone : ¬ s.HoldsLock exportId := by
        rintro ⟨l, hl, hid, _⟩
        exact lockIdx_isNone_iff.mp hlock l hl hid
      rw [if_neg hnone] at hfit ⊢
      have hsum := creditImport_supply ((hkeep id).trans hpaid)
        (fun j => by rw [hkeep]; have := wealthOf_le s j; omega) hcredit
      rw [settleImport_supply_none (hidx.trans hlock)]
      omega
  | some idx =>
      obtain ⟨lock, hat, hid⟩ := lockIdx_some hlock
      have hmem := List.mem_of_getElem? hat
      obtain ⟨hheld, hsame⟩ := hI.lock_of_import hfresh hexpected hmem hid
      rw [if_pos ⟨lock, hmem, hid, hheld⟩] at hfit ⊢
      rw [hamount] at hsame
      have hroom := held_le_of_mem hmem hheld
      rw [hsame] at hroom
      have hsum := creditImport_supply ((hkeep id).trans hpaid)
        (fun j => by rw [hkeep]; have := wealthOf_le s j; omega) hcredit
      have hrelease := settleImport_supply (hidx.trans hlock) (hlocks ▸ hat) hheld
      rw [hsame] at hrelease
      omega

theorem initStub_supply (C : Crypto) (tx : SignedTx) (s : State) :
    (initStub C tx s).supply = s.supply := by
  cases hbody : tx.body with
  | init index flags =>
      cases hrow : s.accounts[tx.computedAccountId C]? with
      | some acc => simp [initStub, hbody, hrow]
      | none =>
          simp only [initStub, hbody, hrow, Option.isSome_none, Bool.false_eq_true, if_false]
          apply supply_putAcc_same
          simp [State.wealthOf, valueAt, hrow]
          rfl
  | _ => simp [initStub, hbody]

theorem mintOf_initStub (s : State) : mintOf genCfg (initStub C tx s) tx = mintOf genCfg s tx := by
  cases hbody : tx.body <;> simp only [initStub, hbody, mintOf]

theorem applyBody_supply {redirTo : Option AccountId} (hI : ExportsRecorded C txs s)
    (hnew : ∀ exportId, tx.exportId C = some exportId → s.lockIdx exportId = none)
    (hrow : s.wealthOf id = acc.wealth) (hfit : s.supply + mintOf genCfg s tx < 2 ^ 128)
    (hok : applyBody C genCfg tx h id acc redirTo s = .ok u s') :
    s'.supply = s.supply + mintOf genCfg s tx := by
  rw [applyBody] at hok
  cases hbody : tx.body with
  | init index flags =>
      simp only [hbody, mintOf, Nat.add_zero] at hok ⊢
      obtain ⟨_, nonce, _, rfl⟩ := applyInit_ok hok
      apply supply_putAcc_same
      have hkeep := wealth_of_sameFunds (initRow_sameFunds tx h acc index flags)
      rw [hrow]
      exact hkeep
  | transfer toId amount fee =>
      simp only [hbody, mintOf, Nat.add_zero] at hok hfit ⊢
      obtain ⟨_, total, htotal, _, ⟨_, henq⟩ | ⟨_, hnow⟩⟩ := applyTransfer_ok hok
      · obtain ⟨_, feePwm, _, rfl⟩ := enqueueConservation_ok henq
        rfl
      · exact transferNow_supply hrow htotal hfit hnow
  | stake amount =>
      simp only [hbody, mintOf, Nat.add_zero] at hok ⊢
      exact applyStake_supply hrow hok
  | unstake amount =>
      simp only [hbody, mintOf, Nat.add_zero] at hok ⊢
      exact applyUnstake_supply hrow hok
  | burnMark markAmount beneficiary =>
      simp only [hbody, mintOf, Nat.add_zero] at hok ⊢
      obtain ⟨_, marks, nonce, _, _, rfl⟩ := applyBurnMark_ok hok
      apply supply_putAcc_same
      rw [hrow]
      rfl
  | claimIPv4Batch phase batchRoot registrySig =>
      simp only [hbody, mintOf] at hok hfit ⊢
      obtain ⟨row, hphase, hsum⟩ := applyClaimIPv4Batch_supply hrow hok
      simp only [hphase] at hfit ⊢
      exact hsum hfit
  | exportTx toId targetDomain amount fee =>
      simp only [hbody, mintOf, Nat.add_zero] at hok hfit ⊢
      exact applyExport_supply hrow hfit hnew hok
  | importTx toId amount exportId =>
      simp only [hbody, mintOf] at hok hfit ⊢
      exact applyImport_supply hI hrow hfit hok
  | policy targetAccount action fee =>
      simp only [hbody, mintOf, Nat.add_zero] at hok hfit ⊢
      exact applyPolicy_supply hrow hfit hok

theorem applyTxImpl_supply (hI : ExportsRecorded C txs s)
    (hC : C.CollisionFree (exportHashInputs C txs)) (htx : tx ∈ txs)
    (hfit : s.supply + mintOf genCfg s tx < 2 ^ 128)
    (hok : applyTxImpl C genCfg tx h now skipPolicy s = .ok u s') :
    s'.supply = s.supply + mintOf genCfg s tx := by
  obtain ⟨hnonce, _⟩ := applyTxImpl_nonces hok
  obtain ⟨acc, redirTo, hacc, _, _, _, hbody⟩ := applyTxImpl_ok hok
  have hstub : ExportsRecorded C txs (initStub C tx s) :=
    hI.of_same (initStub_crossShard C tx s) fun j => (initStub_nonceOf s j).ge
  have hnew : ∀ exportId, tx.exportId C = some exportId →
      (initStub C tx s).lockIdx exportId = none := by
    intro exportId hid
    rw [State.lockIdx, (initStub_crossShard C tx s).1]
    exact hI.no_lock hC htx hnonce hid
  have hrow : (initStub C tx s).wealthOf (tx.computedAccountId C) = (signerRow acc tx).wealth := by
    rw [wealthOf_of_row hacc, Account.wealth, Account.wealth, signerRow_balancePwm,
      signerRow_stakedPwmRaw]
  have hroom : (initStub C tx s).supply + mintOf genCfg (initStub C tx s) tx < 2 ^ 128 := by
    rwa [initStub_supply, mintOf_initStub]
  have hsum := applyBody_supply hstub hnew hrow hroom hbody
  rwa [initStub_supply, mintOf_initStub] at hsum

/-- In every reachable state, a transaction that takes effect changes the supply by its mint. -/
theorem applyTx_supply {ctxCfg : GenCfg} (hs : Reachable C genCfg txs s)
    (hC : C.CollisionFree (exportHashInputs C txs)) (htx : tx ∈ txs)
    (hfit : s.supply + mintOf ctxCfg s tx < 2 ^ 128)
    (hok : applyTxWithCtx C ctxCfg tx h now s = .ok () s' ∨
      applyPrecheckedTx C ctxCfg tx h now s = .ok () s') :
    s'.supply = s.supply + mintOf ctxCfg s tx := by
  have hI : ExportsRecorded C txs s :=
    hs.invariant (fun _ => exportsRecorded_genesis) fun _ _ _ hI hstep =>
      exportsRecorded_step hC hI hstep
  rcases hok with hok | hok
  · exact applyTxImpl_supply hI hC htx hfit hok
  · exact applyTxImpl_supply hI hC htx hfit hok

end Apply

/-- An import whose lock is held: nothing is created. -/
theorem applyTx_supply_exportFirst :
    EarlyImport.importSecond.supply = EarlyImport.exportFirst.supply +
      mintOf EarlyImport.net EarlyImport.exportFirst EarlyImport.importTx := by
  have h₁ : applyTxWithCtx EarlyImport.crypto EarlyImport.net EarlyImport.exportTx 1#64 0#64
      EarlyImport.net.state0 = .ok () EarlyImport.exportFirst := by
    decide +kernel
  have h₂ : applyTxWithCtx EarlyImport.crypto EarlyImport.net EarlyImport.importTx 2#64 0#64
      EarlyImport.exportFirst = .ok () EarlyImport.importSecond := by
    decide +kernel
  have hreach : Reachable EarlyImport.crypto EarlyImport.net
      {EarlyImport.exportTx, EarlyImport.importTx} EarlyImport.exportFirst := by
    refine ⟨EarlyImport.net.state0, [.applied EarlyImport.exportTx], ⟨_, rfl⟩,
      (Run.nil _).snoc ⟨.applied h₁, ?_⟩⟩
    rintro tx heq
    cases heq
    exact Or.inl rfl
  have hinputs : ∀ bytes ∈ exportHashInputs EarlyImport.crypto
      {EarlyImport.exportTx, EarlyImport.importTx},
      bytes = EarlyImport.exportTx.signingMessage ∨
        bytes = EarlyImport.exportTx.exportIdBytes EarlyImport.crypto := by
    rintro bytes ⟨tx, rfl | rfl, hsome, hbytes⟩
    · exact hbytes
    · cases hsome
  have hne : EarlyImport.crypto.blake3 EarlyImport.exportTx.signingMessage ≠
      EarlyImport.crypto.blake3 (EarlyImport.exportTx.exportIdBytes EarlyImport.crypto) := by
    decide
  have hC : EarlyImport.crypto.CollisionFree (exportHashInputs EarlyImport.crypto
      {EarlyImport.exportTx, EarlyImport.importTx}) := by
    intro a ha b hb hab
    rcases hinputs a ha with rfl | rfl <;> rcases hinputs b hb with rfl | rfl
    · rfl
    · exact absurd hab hne
    · exact absurd hab.symm hne
    · rfl
  exact applyTx_supply hreach hC (Or.inr rfl) (by decide +kernel) (Or.inl h₂)

end Pwm
