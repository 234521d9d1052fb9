import Pwm.Ledger.Settlement

/-!
# What others can do to an account row

A transaction changes the row of its signer; every other row may only be
credited and have its marks settled. The same holds of the timeout pass, the
drains of other senders and the rewards.
-/

namespace Pwm

open BitVec Attempt MapSum

/-- The second row is the first with a balance at least as large and other marks. -/
structure Credited (a a' : Account) : Prop where
  balance : a.balancePwm.toNat ≤ a'.balancePwm.toNat
  rest : a' = { a with
    balancePwm := a'.balancePwm, storedMarks := a'.storedMarks, marksLastBlock := a'.marksLastBlock }

namespace Credited

variable {a a' a'' : Account}

theorem refl (a : Account) : Credited a a := ⟨le_rfl, rfl⟩

theorem trans (h₁ : Credited a a') (h₂ : Credited a' a'') : Credited a a'' := by
  refine ⟨h₁.balance.trans h₂.balance, ?_⟩
  rw [h₂.rest, h₁.rest]

theorem saturatingAdd (a : Account) (amount : U128) :
    Credited a { a with balancePwm := a.balancePwm.saturatingAdd amount } :=
  ⟨le_saturatingAdd _ _, rfl⟩

theorem creditedRow (genCfg : GenCfg) (h : U64) (a : Account) (amount : U128) :
    Credited a (creditedRow genCfg h a amount) :=
  ⟨le_saturatingAdd _ _, rfl⟩

theorem initialized (h : Credited a a') : a'.initialized = a.initialized := by rw [h.rest]
theorem finalized (h : Credited a a') : a'.finalized = a.finalized := by rw [h.rest]
theorem nonce (h : Credited a a') : a'.nonce = a.nonce := by rw [h.rest]
theorem staked (h : Credited a a') : a'.stakedPwmRaw = a.stakedPwmRaw := by rw [h.rest]
theorem rescue (h : Credited a a') : a'.rescueAddress = a.rescueAddress := by rw [h.rest]
theorem active (h : Credited a a') : a'.activePolicies = a.activePolicies := by rw [h.rest]
theorem dormant (h : Credited a a') : a'.dormantPolicies = a.dormantPolicies := by rw [h.rest]
theorem deferred (h : Credited a a') : a'.deferredPolicies = a.deferredPolicies := by rw [h.rest]

end Credited

/-- The row of an account is absent in both states, or at most credited. -/
def RowKept (j : AccountId) (s s' : State) : Prop :=
  Option.Rel Credited s.accounts[j]? s'.accounts[j]?

section RowKept

variable {j id : AccountId} {s s₁ s' : State} {a a' : Account}

theorem getElem?_putAcc (s : State) (id j : AccountId) (a : Account) :
    (s.putAcc id a).accounts[j]? = if id = j then some a else s.accounts[j]? :=
  getElem?_insert_eq _ _ _ _

theorem rowKept_of_eq (h : s'.accounts[j]? = s.accounts[j]?) : RowKept j s s' := by
  rw [RowKept, h]
  cases s.accounts[j]? with
  | none => exact .none
  | some a => exact .some (Credited.refl a)

theorem rowKept_of_accounts (h : s'.accounts = s.accounts) : RowKept j s s' :=
  rowKept_of_eq (by rw [h])

theorem RowKept.trans (h₁ : RowKept j s s₁) (h₂ : RowKept j s₁ s') : RowKept j s s' := by
  unfold RowKept at *
  cases hs : s.accounts[j]? with
  | none =>
      rw [hs] at h₁
      cases hm : s₁.accounts[j]? with
      | none => rwa [hm] at h₂
      | some b => simp [hm] at h₁
  | some a =>
      rw [hs] at h₁
      cases hm : s₁.accounts[j]? with
      | none => simp [hm] at h₁
      | some b =>
          rw [hm] at h₁ h₂
          cases hs' : s'.accounts[j]? with
          | none => simp [hs'] at h₂
          | some c =>
              rw [hs'] at h₂
              exact .some ((Option.rel_some_some.mp h₁).trans (Option.rel_some_some.mp h₂))

/-- The row after, when there was one before. -/
theorem RowKept.row (h : RowKept j s s') (ha : s.accounts[j]? = some a) :
    ∃ a', s'.accounts[j]? = some a' ∧ Credited a a' := by
  rw [RowKept, ha] at h
  cases hs' : s'.accounts[j]? with
  | none => simp [hs'] at h
  | some a' =>
      rw [hs'] at h
      exact ⟨a', rfl, Option.rel_some_some.mp h⟩

/-- The row before, when there is one after. -/
theorem RowKept.row_before (h : RowKept j s s') (ha' : s'.accounts[j]? = some a') :
    ∃ a, s.accounts[j]? = some a ∧ Credited a a' := by
  rw [RowKept, ha'] at h
  cases hs : s.accounts[j]? with
  | none => simp [hs] at h
  | some a =>
      rw [hs] at h
      exact ⟨a, rfl, Option.rel_some_some.mp h⟩

theorem putAcc_putAcc (s : State) (id : AccountId) (a b : Account) :
    (s.putAcc id a).putAcc id b = s.putAcc id b := by
  have hrows : (s.accounts.insert id a).insert id b = s.accounts.insert id b := by
    apply Std.ExtTreeMap.ext_getElem?
    intro j
    rw [getElem?_insert_eq, getElem?_insert_eq, getElem?_insert_eq]
    split <;> rfl
  simp only [State.putAcc, hrows]

theorem rowKept_putAcc_ne (h : id ≠ j) : RowKept j s (s.putAcc id a) :=
  rowKept_of_eq (by rw [getElem?_putAcc, if_neg h])

/-- Writing back a row that was credited. -/
theorem rowKept_putAcc (ha : s.accounts[id]? = some a) (hcredit : Credited a a') :
    RowKept j s (s.putAcc id a') := by
  by_cases hid : id = j
  · subst hid
    rw [RowKept, ha, getElem?_putAcc, if_pos rfl]
    exact .some hcredit
  · exact rowKept_putAcc_ne hid

/-- Updating a row in place by a credit. -/
theorem rowKept_modify {m : AccountMap} {f : Account → Account} (hs : s.accounts = m)
    (hs' : s'.accounts = m.modify id f) (hf : ∀ a, Credited a (f a)) : RowKept j s s' := by
  rw [RowKept, hs, hs', Std.ExtTreeMap.getElem?_modify]
  split
  · rename_i hc
    obtain rfl := Std.LawfulEqCmp.eq_of_compare hc
    cases m[id]? with
    | none => exact .none
    | some a => exact .some (hf a)
  · cases m[j]? with
    | none => exact .none
    | some a => exact .some (Credited.refl a)

end RowKept

/-! ## One transaction -/

section Arms

variable {C : Crypto} {genCfg : GenCfg} {tx : SignedTx} {h now : U64} {id j : AccountId}
  {acc : Account} {s s' : State} {u : Unit}

theorem transferNow_rowKept {dst : AccountId} {amount fee total : U128} (hj : id ≠ j)
    (hok : transferNow genCfg h id acc dst amount fee total s = .ok u s') : RowKept j s s' := by
  obtain ⟨balance, nonce, _, _, ⟨_, rfl⟩ | ⟨hne, toAcc, hto, rfl⟩⟩ := transferNow_ok hok
  · exact (rowKept_of_accounts rfl).trans (rowKept_putAcc_ne hj)
  · have hdebit : RowKept j s
        ((s.addFee fee).putAcc id (debitedRow genCfg h acc balance nonce)) :=
      (rowKept_of_accounts rfl).trans (rowKept_putAcc_ne hj)
    refine hdebit.trans (rowKept_putAcc ?_ (.creditedRow genCfg h toAcc amount))
    rwa [getElem?_putAcc, if_neg (Ne.symm hne)]

theorem creditImport_rowKept {toId : AccountId} {src : Account} {amount : U128} (hj : id ≠ j)
    (hok : creditImport id toId src amount s = .ok u s') : RowKept j s s' := by
  obtain ⟨_, rfl⟩ | ⟨hne, toAcc, hto, rfl⟩ := creditImport_ok hok
  · exact rowKept_putAcc_ne hj
  · have hdebit : RowKept j s (s.putAcc id src) := rowKept_putAcc_ne hj
    refine hdebit.trans (rowKept_putAcc ?_ (.saturatingAdd toAcc amount))
    rwa [getElem?_putAcc, if_neg (Ne.symm hne)]

/-- An evacuation credits the target and writes no other row. -/
theorem evacuateIfNamed_rowKept {target : Option AccountId} {a a' : Account}
    (hok : evacuateIfNamed id target a s = .ok a' s') : RowKept j s s' := by
  obtain ⟨_, _, rfl⟩ | ⟨t, _, hevac⟩ := evacuateIfNamed_ok hok
  · exact rowKept_of_eq rfl
  · obtain ⟨_, _, rfl⟩ | ⟨_, targetAcc, hacc, _, rfl⟩ := evacuate_ok hevac
    · exact rowKept_of_accounts rfl
    · have hrow : (s.dropPending id).accounts[t]? = some targetAcc := hacc
      have hcredit := (Credited.saturatingAdd targetAcc a.balancePwm).trans
        (Credited.saturatingAdd _ a.stakedPwmRaw)
      exact (rowKept_of_accounts rfl).trans (rowKept_putAcc hrow hcredit)

theorem recordExport_accounts (genCfg : GenCfg) (h : U64) (id : AccountId) (s : State)
    (exportId : Bytes32) (prov : ExportProvenance) :
    (s.recordExport genCfg h id exportId prov).accounts = s.accounts :=
  (recordExport_view genCfg h id s exportId prov).1

theorem settleImport_accounts (s : State) (exportId : Bytes32) :
    (s.settleImport exportId).accounts = s.accounts := by
  unfold State.settleImport State.releaseLock
  cases s.lockIdx exportId <;> rfl

theorem registerProvenance_accounts (s : State) (insert : Bool) (exportId : Bytes32)
    (prov : ExportProvenance) : (s.registerProvenance insert exportId prov).accounts = s.accounts := by
  cases insert <;> rfl

theorem applyBody_rowKept {redirTo : Option AccountId} (hj : id ≠ j)
    (hok : applyBody C genCfg tx h id acc redirTo s = .ok u s') : RowKept j s s' := by
  unfold applyBody at hok
  cases hbody : tx.body with
  | init index flags =>
      simp only [hbody] at hok
      obtain ⟨_, nonce, _, rfl⟩ := applyInit_ok hok
      exact rowKept_putAcc_ne hj
  | transfer toId amount fee =>
      simp only [hbody] at hok
      obtain ⟨_, total, _, _, ⟨_, hqueue⟩ | ⟨_, hnow⟩⟩ := applyTransfer_ok hok
      · obtain ⟨_, feePwm, _, rfl⟩ := enqueueConservation_ok hqueue
        exact rowKept_of_accounts rfl
      · exact transferNow_rowKept hj hnow
  | stake amount =>
      simp only [hbody] at hok
      obtain ⟨_, balance, staked, nonce, _, _, _, rfl⟩ := applyStake_ok hok
      exact rowKept_putAcc_ne hj
  | unstake amount =>
      simp only [hbody] at hok
      obtain ⟨_, balance, staked, nonce, _, _, _, rfl⟩ := applyUnstake_ok hok
      exact rowKept_putAcc_ne hj
  | burnMark markAmount beneficiary =>
      simp only [hbody] at hok
      obtain ⟨_, marks, nonce, _, _, rfl⟩ := applyBurnMark_ok hok
      exact rowKept_putAcc_ne hj
  | claimIPv4Batch phase batchRoot registrySig =>
      simp only [hbody] at hok
      obtain ⟨_, phaseRow, nonce, _, _, rfl⟩ := applyClaimIPv4Batch_ok hok
      exact rowKept_putAcc_ne hj
  | exportTx toId targetDomain amount fee =>
      simp only [hbody] at hok
      obtain ⟨_, total, balance, nonce, exportId, _, _, _, _, rfl⟩ := applyExport_ok hok
      have hrecord : RowKept j s
          ((s.addFee fee).recordExport genCfg h id exportId ⟨toId, targetDomain, amount⟩) :=
        rowKept_of_accounts (recordExport_accounts genCfg h id (s.addFee fee) exportId _)
      exact hrecord.trans (rowKept_putAcc_ne hj)
  | importTx toId amount exportId =>
      simp only [hbody] at hok
      obtain ⟨_, _, _, expected, insert, fee, balance, nonce, s₁, _, _, _, _, _, hcredit, rfl⟩ :=
        applyImport_ok hok
      have hstart : RowKept j s ((s.addFee fee).registerProvenance insert exportId expected) :=
        rowKept_of_accounts (registerProvenance_accounts _ _ _ _)
      exact (hstart.trans (creditImport_rowKept hj hcredit)).trans
        (rowKept_of_accounts (settleImport_accounts _ _))
  | policy targetAccount action fee =>
      simp only [hbody] at hok
      obtain ⟨_, a, balance, a', nonce, s₁, _, _, _, hevac, _, rfl⟩ := applyPolicy_ok hok
      have hstart : RowKept j s (s.addFee fee) := rowKept_of_accounts rfl
      exact (hstart.trans (evacuateIfNamed_rowKept hevac)).trans (rowKept_putAcc_ne hj)

theorem initStub_rowKept (s : State) (hj : tx.computedAccountId C ≠ j) :
    RowKept j s (initStub C tx s) := by
  unfold initStub
  cases tx.body with
  | init index flags =>
      dsimp only
      split
      · exact rowKept_of_eq rfl
      · exact rowKept_putAcc_ne hj
  | _ => exact rowKept_of_eq rfl

/-- The stub row is only for an account without one. -/
theorem initStub_of_row {a : Account} (ha : s.accounts[tx.computedAccountId C]? = some a) :
    initStub C tx s = s := by
  unfold initStub
  cases tx.body with
  | init index flags =>
      dsimp only
      rw [ha]
      exact if_pos rfl
  | _ => rfl

theorem applyTxImpl_rowKept {skipPolicy : Bool} (hj : tx.computedAccountId C ≠ j)
    (hok : applyTxImpl C genCfg tx h now skipPolicy s = .ok u s') : RowKept j s s' := by
  obtain ⟨acc, redirTo, _, _, _, _, hbody⟩ := applyTxImpl_ok hok
  exact (initStub_rowKept s hj).trans (applyBody_rowKept hj hbody)

end Arms

/-! ## Steps -/

/-- The accounts whose own transactions or delayed transfers are tried in a step. -/
def LedgerLabel.actors (C : Crypto) : LedgerLabel → List AccountId
  | .applied tx => [tx.computedAccountId C]
  | .failed tx => [tx.computedAccountId C]
  | .drained _ moves => moves.map fun m => m.row.sender
  | _ => []

section Steps

variable {C : Crypto} {genCfg : GenCfg} {j : AccountId} {s s' : State} {l : LedgerLabel} {u : Unit}

theorem applyDueConservation_rowKept {h : U64} {row : PendingConservationTransfer}
    (hj : row.sender ≠ j) (hok : applyDueConservation genCfg h row s = .ok u s') :
    RowKept j s s' := by
  obtain ⟨senderAcc, dst, total, balance, nonce, toAcc, _, _, _, _, _, _, hto, rfl⟩ :=
    applyDueConservation_ok hok
  have hdebit : RowKept j s ((s.addFee row.fee).putAcc row.sender
      (debitedRow genCfg h senderAcc balance nonce)) :=
    (rowKept_of_accounts rfl).trans (rowKept_putAcc_ne hj)
  by_cases hdst : dst = row.sender
  · exact hdebit.trans (rowKept_putAcc_ne (hdst ▸ hj))
  · refine hdebit.trans (rowKept_putAcc ?_ (.creditedRow genCfg h toAcc row.amountPwm))
    rwa [getElem?_putAcc, if_neg (Ne.symm hdst)]

theorem drains_rowKept {h : U64} {rows : List PendingConservationTransfer}
    {moves : List DrainMove} (hd : Drains genCfg h rows s moves s')
    (hj : ∀ m ∈ moves, m.row.sender ≠ j) : RowKept j s s' := by
  induction hd with
  | nil => exact rowKept_of_eq rfl
  | kept _ ih => exact (rowKept_of_accounts rfl).trans (ih hj)
  | executed hrow _ ih =>
      have hfirst := applyDueConservation_rowKept (hj _ List.mem_cons_self) hrow
      exact hfirst.trans (ih fun m hm => hj m (List.mem_cons_of_mem _ hm))

theorem refundExpLocks_rowKept (s : State) (h : U64) : RowKept j s (s.refundExpLocks h) := by
  have hfold : ∀ (locks : List CrossShardLock) (st : State),
      RowKept j st (locks.foldl (refundStep h) st) := by
    intro locks
    induction locks with
    | nil => exact fun _ => rowKept_of_eq rfl
    | cons lock rest ih =>
        intro st
        refine RowKept.trans ?_ (ih _)
        unfold refundStep
        split
        · exact rowKept_of_accounts rfl
        · exact rowKept_modify rfl rfl fun a => .saturatingAdd a lock.amountPwm
  have hstart : RowKept j s { s with crossShardLocks := [] } := rowKept_of_accounts rfl
  exact hstart.trans (hfold s.crossShardLocks _)

theorem rewardBlock_rowKept (s : State) (prodAcct : AccountId) (h : U64) :
    RowKept j s (rewardBlock genCfg s prodAcct h) := by
  unfold rewardBlock
  split
  · exact rowKept_modify rfl rfl fun a => .saturatingAdd a _
  · refine rowKept_modify rfl rfl fun a => ?_
    split
    · exact .refl a
    · exact .saturatingAdd a _

/-- A step leaves the row of an account that does not act in it, or credits it. -/
theorem step_rowKept (hstep : LedgerStep C genCfg s l s') (hj : j ∉ l.actors C) :
    RowKept j s s' := by
  cases hstep with
  | applied hok => exact applyTxImpl_rowKept (by simpa [LedgerLabel.actors, eq_comm] using hj) hok
  | failed herr =>
      rcases applyTxImpl_error C genCfg herr with rfl | rfl
      · exact rowKept_of_eq rfl
      · exact initStub_rowKept s (by simpa [LedgerLabel.actors, eq_comm] using hj)
  | refunded h => exact refundExpLocks_rowKept s h
  | drained hok =>
      have hstart : RowKept j s { s with pendingConservation := [] } := rowKept_of_accounts rfl
      refine hstart.trans (drains_rowKept (drains_of_ok hok) fun m hm hsender => hj ?_)
      exact List.mem_map.mpr ⟨m, hm, hsender⟩
  | rewarded prodAcct h => exact rewardBlock_rowKept s prodAcct h
  | epoch h =>
      unfold rollEpochIfNeeded
      split
      · exact rowKept_of_accounts rfl
      · exact rowKept_of_eq rfl
  | evidence hok =>
      obtain ⟨log, rfl⟩ := appendEvidence_accounts hok
      exact rowKept_of_accounts rfl

/-- A failed transaction changes no row that there is. -/
theorem step_failed_rowKept {tx : SignedTx} (hstep : LedgerStep C genCfg s (.failed tx) s')
    {a : Account} (ha : s.accounts[j]? = some a) : RowKept j s s' := by
  by_cases hj : tx.computedAccountId C = j
  · cases hstep with
    | failed herr =>
        rw [← hj] at ha
        rcases applyTxImpl_error C genCfg herr with rfl | rfl
        · exact rowKept_of_eq rfl
        · rw [initStub_of_row ha]
          exact rowKept_of_eq rfl
  · exact step_rowKept hstep (by simpa [LedgerLabel.actors, eq_comm] using hj)

end Steps

/-- A row of genesis: a funded account without stake and policies. -/
theorem genesis_row {genCfg : GenCfg} {s : State} (hgen : IsGenesis genCfg s) {j : AccountId}
    {a : Account} (ha : s.accounts[j]? = some a) :
    ∃ r : GRow, ∃ marks,
      a = { Account.genesisFunded r.pubkey r.derIdx r.bal with storedMarks := marks } := by
  obtain ⟨activeIdxs, rfl⟩ := hgen
  have hfold : ∀ (rows : List GRow) (st : State),
      (∀ a, st.accounts[j]? = some a → ∃ r : GRow, ∃ marks,
        a = { Account.genesisFunded r.pubkey r.derIdx r.bal with storedMarks := marks }) →
      ∀ a, (rows.foldl (fun st r =>
        let acc := { Account.genesisFunded r.pubkey r.derIdx r.bal with
          storedMarks := asMarksU32 (r.bal / pwmRawScale) }
        { st with accounts := st.accounts.insert r.acct acc }) st).accounts[j]? = some a →
        ∃ r : GRow, ∃ marks,
          a = { Account.genesisFunded r.pubkey r.derIdx r.bal with storedMarks := marks } := by
    intro rows
    induction rows with
    | nil => exact fun _ h => h
    | cons r rest ih =>
        intro st hst
        refine ih _ fun a ha => ?_
        rw [getElem?_insert_eq] at ha
        split at ha
        · exact ⟨r, _, (Option.some.inj ha).symm⟩
        · exact hst a ha
  exact hfold genCfg.funding.accounts {} (by simp) a ha

end Pwm
