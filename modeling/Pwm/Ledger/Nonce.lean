import Pwm.Ledger.Steps
import Pwm.Lib.MapSum
import Pwm.Lib.Sequence

/-!
# Nonces over runs of the ledger

A transaction takes effect when it is applied, or, for a delayed transfer,
when it is drained. As long as no drain credits a transfer to its own sender,
the effects of an account carry the consecutive nonces that the account goes
through.
-/

namespace Pwm

open BitVec Attempt MapSum

/-- The nonce of an account, zero when it has no row. -/
def State.nonceOf (st : State) (id : AccountId) : Nat :=
  valueAt (fun a : Account => a.nonce.toNat) st.accounts id

theorem nonceOf_of_row {s : State} {id : AccountId} {a : Account}
    (h : s.accounts[id]? = some a) : s.nonceOf id = a.nonce.toNat := by
  simp [State.nonceOf, valueAt, h]

theorem nonceOf_congr {s s' : State} (h : s'.accounts = s.accounts) (j : AccountId) :
    s'.nonceOf j = s.nonceOf j := by
  rw [State.nonceOf, h, State.nonceOf]

theorem nonceOf_putAcc (s : State) (id j : AccountId) (a : Account) :
    (s.putAcc id a).nonceOf j = if id = j then a.nonce.toNat else s.nonceOf j :=
  valueAt_insert _ _ _ _ _

/-- Writing a row back with the nonce it had. -/
theorem nonceOf_putAcc_same {s : State} {id : AccountId} {a : Account}
    (h : a.nonce.toNat = s.nonceOf id) (j : AccountId) :
    (s.putAcc id a).nonceOf j = s.nonceOf j := by
  rw [nonceOf_putAcc]
  split
  · rename_i hj
    rw [h, hj]
  · rfl

theorem checkedAdd_one {w : Nat} {x y : BitVec w} (hw : 0 < w)
    (h : x.checkedAdd 1#w = some y) : y.toNat = x.toNat + 1 := by
  have hone : (1#w).toNat = 1 := by
    rw [toNat_ofNat]
    exact Nat.mod_eq_of_lt (Nat.one_lt_two_pow (by omega))
  have hy := checkedAdd_eq_some_iff.mp h
  omega

/-- The nonce of one account is raised by one, and no other. -/
def BumpsNonce (id : AccountId) (s s' : State) : Prop :=
  ∀ j, s'.nonceOf j = s.nonceOf j + if id = j then 1 else 0

theorem bumpsNonce_putAcc {s : State} {id : AccountId} {a : Account} {old nonce : U64}
    (hrow : s.nonceOf id = old.toNat) (hnext : old.checkedAdd 1#64 = some nonce)
    (ha : a.nonce = nonce) : BumpsNonce id s (s.putAcc id a) := by
  intro j
  rw [nonceOf_putAcc]
  split
  · rename_i hj
    subst hj
    rw [ha, checkedAdd_one (by omega) hnext, hrow]
  · rfl

theorem BumpsNonce.then_same {id : AccountId} {s s₁ s' : State} (h : BumpsNonce id s s₁)
    (hsame : ∀ j, s'.nonceOf j = s₁.nonceOf j) : BumpsNonce id s s' := by
  intro j
  rw [hsame j, h j]

theorem BumpsNonce.after_same {id : AccountId} {s s₁ s' : State}
    (hsame : ∀ j, s₁.nonceOf j = s.nonceOf j) (h : BumpsNonce id s₁ s') : BumpsNonce id s s' := by
  intro j
  rw [h j, hsame j]

/-! ## One transaction -/

/-- A transfer of an account with the conservation flag only joins the queue. -/
def SignedTx.isDelayed (C : Crypto) (tx : SignedTx) : Bool :=
  match tx.body with
  | .transfer _ _ _ => conservationFlag (tx.computedAccountId C)
  | _ => false

section Arms

variable {C : Crypto} {genCfg : GenCfg} {tx : SignedTx} {h : U64} {id : AccountId} {acc : Account}
  {s s' : State} {u : Unit}

theorem putNextNonce_bumps {a : Account} (hrow : s.nonceOf id = a.nonce.toNat)
    (hok : putNextNonce id a s = .ok u s') : BumpsNonce id s s' := by
  obtain ⟨nonce, hnonce, rfl⟩ := putNextNonce_ok hok
  exact bumpsNonce_putAcc hrow hnonce rfl

theorem transferNow_bumps {dst : AccountId} {amount fee total : U128}
    (hrow : s.nonceOf id = acc.nonce.toNat)
    (hok : transferNow genCfg h id acc dst amount fee total s = .ok u s') :
    BumpsNonce id s s' := by
  obtain ⟨balance, nonce, _, hnonce, ⟨_, rfl⟩ | ⟨hne, toAcc, hto, rfl⟩⟩ := transferNow_ok hok
  · exact bumpsNonce_putAcc (s := s.addFee fee) hrow hnonce rfl
  · have hdebit : BumpsNonce id s
        ((s.addFee fee).putAcc id (debitedRow genCfg h acc balance nonce)) :=
      bumpsNonce_putAcc (s := s.addFee fee) hrow hnonce rfl
    refine hdebit.then_same fun j => nonceOf_putAcc_same ?_ j
    rw [nonceOf_putAcc, if_neg (Ne.symm hne)]
    exact (nonceOf_of_row hto).symm

theorem creditImport_bumps {toId : AccountId} {src : Account} {old : U64} {amount : U128}
    (hrow : s.nonceOf id = old.toNat) (hnext : old.checkedAdd 1#64 = some src.nonce)
    (hok : creditImport id toId src amount s = .ok u s') : BumpsNonce id s s' := by
  rcases creditImport_ok hok with ⟨_, rfl⟩ | ⟨hne, toAcc, hto, rfl⟩
  · exact bumpsNonce_putAcc hrow hnext rfl
  · refine (bumpsNonce_putAcc hrow hnext rfl).then_same fun j => ?_
    refine nonceOf_putAcc_same ?_ j
    rw [nonceOf_putAcc, if_neg (Ne.symm hne)]
    exact (nonceOf_of_row hto).symm

/-- An evacuation moves money only. -/
theorem evacuateIfNamed_nonces {target : Option AccountId} {a a' : Account}
    (hok : evacuateIfNamed id target a s = .ok a' s') :
    a'.nonce = a.nonce ∧ ∀ j, s'.nonceOf j = s.nonceOf j := by
  rcases evacuateIfNamed_ok hok with ⟨_, rfl, rfl⟩ | ⟨t, _, hevac⟩
  · exact ⟨rfl, fun _ => rfl⟩
  · rcases evacuate_ok hevac with ⟨_, rfl, rfl⟩ | ⟨_, targetAcc, hacc, rfl, rfl⟩
    · exact ⟨rfl, fun _ => rfl⟩
    · refine ⟨rfl, fun j => ?_⟩
      have hrow : (s.dropPending id).nonceOf t = targetAcc.nonce.toNat := nonceOf_of_row hacc
      refine Eq.trans (nonceOf_putAcc_same ?_ j) (nonceOf_congr rfl j)
      exact hrow.symm

theorem recordExport_nonceOf (genCfg : GenCfg) (h : U64) (id : AccountId) (s : State)
    (exportId : Bytes32) (prov : ExportProvenance) (j : AccountId) :
    (s.recordExport genCfg h id exportId prov).nonceOf j = s.nonceOf j := by
  apply nonceOf_congr
  unfold State.recordExport
  simp only
  split <;> rfl

theorem settleImport_nonceOf (s : State) (exportId : Bytes32) (j : AccountId) :
    (s.settleImport exportId).nonceOf j = s.nonceOf j := by
  apply nonceOf_congr
  unfold State.settleImport State.releaseLock
  cases s.lockIdx exportId <;> rfl

theorem registerProvenance_nonceOf (s : State) (insert : Bool) (exportId : Bytes32)
    (prov : ExportProvenance) (j : AccountId) :
    (s.registerProvenance insert exportId prov).nonceOf j = s.nonceOf j := by
  cases insert <;> rfl

theorem applyBody_nonces {redirTo : Option AccountId}
    (hid : id = tx.computedAccountId C) (hrow : s.nonceOf id = acc.nonce.toNat)
    (hok : applyBody C genCfg tx h id acc redirTo s = .ok u s') :
    if tx.isDelayed C then ∀ j, s'.nonceOf j = s.nonceOf j else BumpsNonce id s s' := by
  subst hid
  rw [applyBody] at hok
  cases hbody : tx.body with
  | init index flags =>
      simp only [hbody, SignedTx.isDelayed, Bool.false_eq_true, if_false] at hok ⊢
      obtain ⟨_, nonce, hnonce, rfl⟩ := applyInit_ok hok
      refine bumpsNonce_putAcc ?_ hnonce rfl
      rw [hrow, (initRow_sameFunds tx h acc index flags).2.2]
  | transfer toId amount fee =>
      simp only [hbody, SignedTx.isDelayed] at hok ⊢
      obtain ⟨_, total, _, _, ⟨hflag, henq⟩ | ⟨hflag, hnow⟩⟩ := applyTransfer_ok hok
      · rw [if_pos hflag]
        obtain ⟨_, feePwm, _, rfl⟩ := enqueueConservation_ok henq
        exact fun j => rfl
      · rw [if_neg (by simp [hflag])]
        exact transferNow_bumps hrow hnow
  | stake amount =>
      simp only [hbody, SignedTx.isDelayed, Bool.false_eq_true, if_false] at hok ⊢
      obtain ⟨_, balance, staked, nonce, _, _, hnonce, rfl⟩ := applyStake_ok hok
      exact bumpsNonce_putAcc hrow hnonce rfl
  | unstake amount =>
      simp only [hbody, SignedTx.isDelayed, Bool.false_eq_true, if_false] at hok ⊢
      obtain ⟨_, balance, staked, nonce, _, _, hnonce, rfl⟩ := applyUnstake_ok hok
      exact bumpsNonce_putAcc hrow hnonce rfl
  | burnMark markAmount beneficiary =>
      simp only [hbody, SignedTx.isDelayed, Bool.false_eq_true, if_false] at hok ⊢
      obtain ⟨_, marks, nonce, _, hnonce, rfl⟩ := applyBurnMark_ok hok
      exact bumpsNonce_putAcc hrow hnonce rfl
  | claimIPv4Batch phase batchRoot registrySig =>
      simp only [hbody, SignedTx.isDelayed, Bool.false_eq_true, if_false] at hok ⊢
      obtain ⟨_, phaseRow, nonce, _, hnonce, rfl⟩ := applyClaimIPv4Batch_ok hok
      exact bumpsNonce_putAcc hrow hnonce rfl
  | exportTx toId targetDomain amount fee =>
      simp only [hbody, SignedTx.isDelayed, Bool.false_eq_true, if_false] at hok ⊢
      obtain ⟨_, total, balance, nonce, exportId, _, _, hnonce, _, rfl⟩ := applyExport_ok hok
      have hsame := recordExport_nonceOf genCfg h (tx.computedAccountId C) (s.addFee fee) exportId
        ⟨toId, targetDomain, amount⟩
      refine BumpsNonce.after_same hsame (bumpsNonce_putAcc ?_ hnonce rfl)
      rw [hsame]
      exact hrow
  | importTx toId amount exportId =>
      simp only [hbody, SignedTx.isDelayed, Bool.false_eq_true, if_false] at hok ⊢
      obtain ⟨_, _, _, expected, insert, fee, balance, nonce, s₁, _, _, _, _, hnonce, hcredit,
        rfl⟩ := applyImport_ok hok
      have hprov := registerProvenance_nonceOf (s.addFee fee) insert exportId expected
      have hbump : BumpsNonce (tx.computedAccountId C)
          ((s.addFee fee).registerProvenance insert exportId expected) s₁ := by
        apply creditImport_bumps _ hnonce hcredit
        rw [hprov]
        exact hrow
      exact (hbump.after_same hprov).then_same (settleImport_nonceOf s₁ exportId)
  | policy targetAccount action fee =>
      simp only [hbody, SignedTx.isDelayed, Bool.false_eq_true, if_false] at hok ⊢
      obtain ⟨_, a, balance, a', nonce, s₁, _, haction, _, hevac, hnonce, rfl⟩ := applyPolicy_ok hok
      obtain ⟨hsame, hnonces⟩ := evacuateIfNamed_nonces hevac
      refine BumpsNonce.after_same hnonces (bumpsNonce_putAcc ?_ hnonce rfl)
      rw [hnonces, hsame, (applyPolicyAction_sameFunds haction).2.2]
      exact hrow

end Arms

section Apply

variable {C : Crypto} {genCfg : GenCfg} {tx : SignedTx} {h now : U64} {skipPolicy : Bool}
  {s s' : State} {u : Unit}

theorem initStub_nonceOf (s : State) (j : AccountId) :
    (initStub C tx s).nonceOf j = s.nonceOf j := by
  cases hbody : tx.body with
  | init index flags =>
      cases hrow : s.accounts[tx.computedAccountId C]? with
      | some acc => simp [initStub, hbody, hrow]
      | none =>
          have hzero : s.nonceOf (tx.computedAccountId C) = 0 := by
            simp [State.nonceOf, valueAt, hrow]
          simp only [initStub, hbody, hrow, Option.isSome_none, Bool.false_eq_true, if_false]
          refine nonceOf_putAcc_same ?_ j
          exact hzero.symm
  | _ => simp [initStub, hbody]

/-- A transaction that is applied carries the nonce of its account, and raises it unless it is
only queued. -/
theorem applyTxImpl_nonces (hok : applyTxImpl C genCfg tx h now skipPolicy s = .ok u s') :
    s.nonceOf (tx.computedAccountId C) = tx.nonce.toNat ∧
      if tx.isDelayed C then ∀ j, s'.nonceOf j = s.nonceOf j
      else BumpsNonce (tx.computedAccountId C) s s' := by
  obtain ⟨acc, redirTo, hacc, hnonce, _, _, hbody⟩ := applyTxImpl_ok hok
  have hstub : ∀ j, (initStub C tx s).nonceOf j = s.nonceOf j := initStub_nonceOf s
  have hrow : (initStub C tx s).nonceOf (tx.computedAccountId C) = acc.nonce.toNat :=
    nonceOf_of_row hacc
  have hspec := applyBody_nonces rfl (by rw [hrow, signerRow_nonce]) hbody
  refine ⟨by rw [← hstub, hrow, hnonce], ?_⟩
  by_cases hdelay : tx.isDelayed C = true
  · rw [if_pos hdelay] at hspec ⊢
    exact fun j => (hspec j).trans (hstub j)
  · rw [if_neg hdelay] at hspec ⊢
    exact hspec.after_same hstub

/-- A drained transfer carries the nonce of its sender, and raises it unless the credit overwrites
the debited row. -/
theorem applyDueConservation_nonces {row : PendingConservationTransfer}
    (hok : applyDueConservation genCfg h row s = .ok u s') :
    s.nonceOf row.sender = row.nonce.toNat ∧
      if (DrainMove.mk s row s').dst h = some row.sender then ∀ j, s'.nonceOf j = s.nonceOf j
      else BumpsNonce row.sender s s' := by
  obtain ⟨senderAcc, dst, total, balance, nonce, toAcc, hsender, hnonce, hdst, _, _, hnext, hto,
    rfl⟩ := applyDueConservation_ok hok
  have hrow : s.nonceOf row.sender = senderAcc.nonce.toNat := nonceOf_of_row hsender
  refine ⟨by rw [hrow, hnonce], ?_⟩
  simp only [DrainMove.dst, hdst, Except.toOption, Option.some.injEq]
  have hdebit : BumpsNonce row.sender s ((s.addFee row.fee).putAcc row.sender
      (debitedRow genCfg h senderAcc balance nonce)) :=
    bumpsNonce_putAcc (s := s.addFee row.fee) hrow hnext rfl
  have hold : (creditedRow genCfg h toAcc row.amountPwm).nonce.toNat = s.nonceOf dst :=
    (nonceOf_of_row hto).symm
  by_cases hself : dst = row.sender
  · rw [if_pos hself]
    intro j
    rw [nonceOf_putAcc]
    split
    · rename_i hj
      rw [hold, hj]
    · rename_i hj
      rw [hdebit j, if_neg (hself ▸ hj), Nat.add_zero]
  · rw [if_neg hself]
    refine hdebit.then_same fun j => nonceOf_putAcc_same ?_ j
    rw [hold, hdebit dst, if_neg (Ne.symm hself), Nat.add_zero]

end Apply

/-! ## Steps -/

/-- The signed transactions that take effect in a step, by account and nonce. -/
def LedgerLabel.effects (C : Crypto) : LedgerLabel → List (AccountId × Nat)
  | .applied tx =>
      if tx.isDelayed C then [] else [(tx.computedAccountId C, tx.nonce.toNat)]
  | .drained _ moves => moves.map fun m => (m.row.sender, m.row.nonce.toNat)
  | _ => []

/-- No move of a drain credits its own sender. -/
def LedgerLabel.NoSelfDrain : LedgerLabel → Prop
  | .drained h moves => ∀ m ∈ moves, m.dst h ≠ some m.row.sender
  | _ => True

section Steps

open Sequence

variable {C : Crypto} {genCfg : GenCfg} {s s' : State} {l : LedgerLabel}

theorem drains_consecutive {h : U64} {rows : List PendingConservationTransfer}
    {moves : List DrainMove} (hd : Drains genCfg h rows s moves s')
    (hclean : ∀ m ∈ moves, m.dst h ≠ some m.row.sender) :
    Consecutive s.nonceOf (moves.map fun m => (m.row.sender, m.row.nonce.toNat)) s'.nonceOf := by
  induction hd with
  | nil => exact consecutive_nil fun _ => rfl
  | kept _ ih => exact ih hclean
  | executed hrow _ ih =>
      obtain ⟨hnonce, hspec⟩ := applyDueConservation_nonces hrow
      rw [if_neg (hclean _ List.mem_cons_self)] at hspec
      have hfirst := consecutive_singleton hspec
      rw [hnonce] at hfirst
      exact hfirst.append (ih fun m hm => hclean m (List.mem_cons_of_mem _ hm))

theorem refundExpLocks_nonceOf (s : State) (h : U64) (j : AccountId) :
    (s.refundExpLocks h).nonceOf j = s.nonceOf j := by
  have hfold : ∀ (locks : List CrossShardLock) (st : State),
      (locks.foldl (refundStep h) st).nonceOf j = st.nonceOf j := by
    intro locks
    induction locks with
    | nil => exact fun _ => rfl
    | cons lock rest ih =>
        intro st
        rw [List.foldl_cons, ih, refundStep]
        split
        · rfl
        · exact valueAt_modify (fun a : Account => a.nonce.toNat) st.accounts lock.refundAccount j
            fun _ => rfl
  exact hfold s.crossShardLocks _

theorem rewardBlock_nonceOf (s : State) (prodAcct : AccountId) (h : U64) (j : AccountId) :
    (rewardBlock genCfg s prodAcct h).nonceOf j = s.nonceOf j := by
  unfold rewardBlock
  split
  · exact valueAt_modify (fun a : Account => a.nonce.toNat) _ _ _ fun _ => rfl
  · refine valueAt_modify (fun a : Account => a.nonce.toNat) _ _ _ fun a => ?_
    split <;> rfl

theorem appendEvidence_accounts {h : U64} {idx : U16} {ty : EvidenceType}
    {payload recordId : Bytes32} {reporter : Option AccountId}
    (hok : appendEvidence C h idx ty payload reporter s = .ok recordId s') :
    ∃ log, s' = { s with evidenceLog := log } := by
  simp only [appendEvidence, bind_ok_iff, get_ok_iff, require_ok_iff, modify_ok_iff,
    pure_ok_iff] at hok
  obtain ⟨_, _, ⟨rfl, rfl⟩, _, _, ⟨_, rfl⟩, _, _, rfl, _, rfl⟩ := hok
  exact ⟨_, rfl⟩

/-- The effects of one step carry the nonces that it moves the accounts through. -/
theorem step_consecutive (hstep : LedgerStep C genCfg s l s') (hclean : l.NoSelfDrain) :
    Consecutive s.nonceOf (l.effects C) s'.nonceOf := by
  cases hstep with
  | applied hok =>
      rename_i tx h now skipPolicy
      obtain ⟨hnonce, hspec⟩ := applyTxImpl_nonces hok
      rw [LedgerLabel.effects]
      by_cases hdelay : tx.isDelayed C = true
      · rw [if_pos hdelay] at hspec ⊢
        exact consecutive_nil hspec
      · rw [if_neg hdelay] at hspec ⊢
        rw [← hnonce]
        exact consecutive_singleton hspec
  | failed herr =>
      refine consecutive_nil fun j => ?_
      rcases applyTxImpl_error C genCfg herr with rfl | rfl
      · rfl
      · exact initStub_nonceOf s j
  | refunded h => exact consecutive_nil (refundExpLocks_nonceOf s h)
  | drained hok =>
      have hmoves := drains_consecutive (drains_of_ok hok) hclean
      exact hmoves
  | rewarded prodAcct h => exact consecutive_nil (rewardBlock_nonceOf s prodAcct h)
  | epoch h =>
      refine consecutive_nil fun j => nonceOf_congr ?_ j
      unfold rollEpochIfNeeded
      split <;> rfl
  | evidence hok =>
      obtain ⟨log, rfl⟩ := appendEvidence_accounts hok
      exact consecutive_nil fun _ => rfl

theorem BumpsNonce.le {id : AccountId} (h : BumpsNonce id s s') (j : AccountId) :
    s.nonceOf j ≤ s'.nonceOf j := by
  rw [h j]
  exact Nat.le_add_right _ _

theorem applyDueConservation_nonceOf_le {h : U64} {row : PendingConservationTransfer}
    (hok : applyDueConservation genCfg h row s = .ok () s') (j : AccountId) :
    s.nonceOf j ≤ s'.nonceOf j := by
  obtain ⟨_, hspec⟩ := applyDueConservation_nonces hok
  split at hspec
  · exact (hspec j).ge
  · exact hspec.le j

theorem drains_nonceOf_le {h : U64} {rows : List PendingConservationTransfer}
    {moves : List DrainMove} (hd : Drains genCfg h rows s moves s') (j : AccountId) :
    s.nonceOf j ≤ s'.nonceOf j := by
  induction hd with
  | nil => exact Nat.le_refl _
  | kept _ ih => exact ih
  | executed hrow _ ih => exact (applyDueConservation_nonceOf_le hrow j).trans ih

theorem step_applied_nonces {tx : SignedTx} (hstep : LedgerStep C genCfg s (.applied tx) s') :
    s.nonceOf (tx.computedAccountId C) = tx.nonce.toNat ∧
      if tx.isDelayed C then ∀ j, s'.nonceOf j = s.nonceOf j
      else BumpsNonce (tx.computedAccountId C) s s' := by
  cases hstep with
  | applied hok => exact applyTxImpl_nonces hok

/-- Nonces never decrease, not even when a drain credits its own sender. -/
theorem step_nonceOf_le (hstep : LedgerStep C genCfg s l s') (j : AccountId) :
    s.nonceOf j ≤ s'.nonceOf j := by
  cases l with
  | drained h moves =>
      cases hstep with
      | drained hok => exact drains_nonceOf_le (drains_of_ok hok) j
  | _ => exact Consecutive.le (step_consecutive hstep trivial) j

/-! ## Runs -/

/-- A step in which no drain credits its own sender. -/
def CleanStep (C : Crypto) (genCfg : GenCfg) (s : State) (l : LedgerLabel) (s' : State) : Prop :=
  LedgerStep C genCfg s l s' ∧ l.NoSelfDrain

/-- Replay protection. Between any two states of a run, each account's nonce has risen by the
number of its transactions that took effect in between, and no transaction took effect twice in
the whole run. -/
theorem replay_protection {s₀ s₁ s₂ : State} {ls₁ ls₂ : List LedgerLabel}
    (hrun₁ : Run (CleanStep C genCfg) s₀ ls₁ s₁) (hrun₂ : Run (CleanStep C genCfg) s₁ ls₂ s₂) :
    (∀ id, s₁.nonceOf id ≤ s₂.nonceOf id ∧
      s₂.nonceOf id = s₁.nonceOf id +
        (ofKey (ls₂.flatMap (LedgerLabel.effects C)) id).length) ∧
      ((ls₁ ++ ls₂).flatMap (LedgerLabel.effects C)).Nodup := by
  have hstep : ∀ s l s', CleanStep C genCfg s l s' →
      Consecutive s.nonceOf (l.effects C) s'.nonceOf :=
    fun s l s' h => step_consecutive h.1 h.2
  constructor
  · intro id
    have hcount := (consecutive_of_run hstep hrun₂ id).2
    exact ⟨by omega, hcount⟩
  · exact (consecutive_of_run hstep (hrun₁.append hrun₂)).nodup

end Steps

/-! ## A transfer that comes back to its sender

The devnet account carries the conservation flag. It sends to an account whose
rescue address it is, and that account activates its emergency redirect before
the transfer is drained. -/

namespace SelfDrain

def rescuedId : AccountId :=
  0x324f041ab4f0c2699073236011659e94abd14d94324a7f66d53c5ae21bf22bbd#256

def rescuedPk : Bytes32 :=
  0x1a4f8c1fe80e871be0fcccada6595f9a900d30299a1abcdf4556833805872561#256

def rescuedSk : SigningKey :=
  0xd62b5783f472352773cae582ad1658fc40bd95cae7b49b0c051b1c86fd7bbb97#256

def initTx : SignedTx where
  domainCode := 0x324f#16
  signerPk := rescuedPk
  derivationIndex := 0#32
  nonce := 0#64
  body := .init 0#32 0#32
  initV4 := some
    { ownerKind := "person", ownerDisplayName := "B", ownerCountryHint := "CY",
      companyMetadataCommitment :=
        0x1111111111111111111111111111111111111111111111111111111111111111#256,
      externalVerificationRef := "", requestedDomainLo := 0x4f#8,
      rescueAddress := some devNetRow.acct,
      initialPolicies := [⟨.routingEmergencyRedirect, .dormant⟩], cosignPolicy := none }
  signature := 0x8be5462b718e35b23568d09245f36cd0e512c24dbbf9504e4fb9a77e8f0a4ad28ab66c216f93b4e9cca2fa84e945db7d05c242f63ee722ef313e38ef43f7920b#512

def transferTx : SignedTx where
  domainCode := 0x32bc#16
  signerPk := devNetRow.pubkey
  derivationIndex := 0#32
  nonce := 0#64
  body := .transfer rescuedId 10#128 1#128
  signature := 0x43f16a52c22c108e5bdc4893528556945f9bf6c9d4bac88744df9f2debddcf99f91729b2c0849b3c3def2d2683e56cfd9850e9998e80ad2e04490f00233f620d#512

def activateTx : SignedTx where
  domainCode := 0x324f#16
  signerPk := rescuedPk
  derivationIndex := 0#32
  nonce := 1#64
  body := .policy rescuedId (.activatePolicy 1#8 (some devNetRow.acct)) 0#128
  cosigns := [⟨devNetRow.pubkey, .rescue,
    0xe4ec7032ebb988a877a0149054299785b0b10d5f283425f91a352648cac6f0a92ddb1ff9442e4c165dc1889b82094363263366143bdcb582fd950d7a9e82d703#512⟩]
  signature := 0x7915f9e5c4c3a6e42e6a4045fa31d762d93f690b4eab76fc715a41f524963fdee6c4ed9e39050d1ed750cf2f3a453df2c8eff5aeaa373a64ab949d4af6bbcf09#512

def crypto : Crypto :=
  .ofTables
    [(devNetRow.pubkey.beBytes 32 ++ (0#32).leBytes 4, devNetRow.acct),
      (rescuedPk.beBytes 32 ++ (0#32).leBytes 4, rescuedId),
      (transferTx.signingMessage,
        0xb4e5188431e6f57bf4d4395020be274b49de7113f8facee5b7d184bbefc8234e#256)]
    [⟨devNetSk, devNetRow.pubkey, [(transferTx.signingMessage, transferTx.signature),
        (activateTx.signingMessage, 0xe4ec7032ebb988a877a0149054299785b0b10d5f283425f91a352648cac6f0a92ddb1ff9442e4c165dc1889b82094363263366143bdcb582fd950d7a9e82d703#512)]⟩,
      ⟨rescuedSk, rescuedPk, [(initTx.signingMessage, initTx.signature),
        (activateTx.signingMessage, activateTx.signature)]⟩]

def afterInit : State := endState (applyTxWithCtx crypto devNet initTx 1#64 0#64 devNet.state0)
def afterTransfer : State := endState (applyTxWithCtx crypto devNet transferTx 1#64 0#64 afterInit)
def afterActivate : State :=
  endState (applyTxWithCtx crypto devNet activateTx 2#64 0#64 afterTransfer)
def afterDrain : State := endState (drainConservationAtHeight devNet 86401#64 afterActivate)
def afterReplay : State :=
  endState (applyTxWithCtx crypto devNet transferTx 86402#64 0#64 afterDrain)
def afterSecondDrain : State := endState (drainConservationAtHeight devNet 172802#64 afterReplay)

def labels : List LedgerLabel :=
  [.applied initTx, .applied transferTx, .applied activateTx,
    .drained 86401#64 (drainMoves devNet 86401#64 afterActivate), .applied transferTx,
    .drained 172802#64 (drainMoves devNet 172802#64 afterReplay)]

theorem init_applied :
    applyTxWithCtx crypto devNet initTx 1#64 0#64 devNet.state0 = .ok () afterInit := by
  decide +kernel

theorem transfer_applied :
    applyTxWithCtx crypto devNet transferTx 1#64 0#64 afterInit = .ok () afterTransfer := by
  decide +kernel

theorem activate_applied :
    applyTxWithCtx crypto devNet activateTx 2#64 0#64 afterTransfer = .ok () afterActivate := by
  decide +kernel

theorem run_afterActivate :
    Run (LedgerStep crypto devNet) devNet.state0
      [.applied initTx, .applied transferTx, .applied activateTx] afterActivate :=
  (((Run.nil _).snoc (.applied init_applied)).snoc (.applied transfer_applied)).snoc
    (.applied activate_applied)

theorem run_labels :
    Run (LedgerStep crypto devNet) devNet.state0 labels afterSecondDrain := by
  have h₁ : drainConservationAtHeight devNet 86401#64 afterActivate = .ok () afterDrain := by
    decide +kernel
  have h₂ : applyTxWithCtx crypto devNet transferTx 86402#64 0#64 afterDrain =
      .ok () afterReplay := by
    decide +kernel
  have h₃ : drainConservationAtHeight devNet 172802#64 afterReplay = .ok () afterSecondDrain := by
    decide +kernel
  exact ((run_afterActivate.snoc (.drained h₁)).snoc (.applied h₂)).snoc (.drained h₃)

end SelfDrain

/-- The drained transfer takes effect twice, and the nonce of its sender never moves. -/
theorem selfDrain_replays :
    ∃ s ls, Run (LedgerStep SelfDrain.crypto devNet) devNet.state0 ls s ∧
      ¬ (ls.flatMap (LedgerLabel.effects SelfDrain.crypto)).Nodup ∧
      s.nonceOf devNetRow.acct = 0 := by
  refine ⟨SelfDrain.afterSecondDrain, SelfDrain.labels, SelfDrain.run_labels, ?_, ?_⟩ <;>
    decide +kernel

theorem replay_protection_selfDrain_prefix :
    (∀ id, devNet.state0.nonceOf id ≤ SelfDrain.afterActivate.nonceOf id ∧
      SelfDrain.afterActivate.nonceOf id = devNet.state0.nonceOf id +
        (Sequence.ofKey (([.applied SelfDrain.initTx, .applied SelfDrain.transferTx,
          .applied SelfDrain.activateTx] : List LedgerLabel).flatMap
            (LedgerLabel.effects SelfDrain.crypto)) id).length) ∧
      (([] ++ [.applied SelfDrain.initTx, .applied SelfDrain.transferTx,
        .applied SelfDrain.activateTx] : List LedgerLabel).flatMap
          (LedgerLabel.effects SelfDrain.crypto)).Nodup := by
  have hstep : ∀ s l s', LedgerStep SelfDrain.crypto devNet s l s' →
      l ∈ ([.applied SelfDrain.initTx, .applied SelfDrain.transferTx,
        .applied SelfDrain.activateTx] : List LedgerLabel) →
      CleanStep SelfDrain.crypto devNet s l s' := by
    intro s l s' h hl
    refine ⟨h, ?_⟩
    rcases List.mem_cons.mp hl with rfl | hl
    · trivial
    · rcases List.mem_cons.mp hl with rfl | hl
      · trivial
      · rw [List.mem_singleton.mp hl]
        trivial
  exact replay_protection (.nil _) (SelfDrain.run_afterActivate.mono_labels hstep)

end Pwm
