import Pwm.Ledger.Rows
import Pwm.Node.Worker

/-!
# The queue of delayed transfers

A transfer of an account with the conservation flag waits in the queue. While
it waits, its sender cannot spend, finalize or raise its nonce without the
transfer leaving the queue, so that a drain finds the sender able to pay.
-/

namespace Pwm

open BitVec Attempt MapSum

/-! ## What a transaction does to the queue -/

/-- An applied body queues a transfer, drops the transfers of its signer, or leaves the queue
alone and is then not one that a waiting signer may send. -/
inductive PendingEffect (C : Crypto) (genCfg : GenCfg) (tx : SignedTx) (h : U64) (id : AccountId)
    (acc : Account) (redirTo : Option AccountId) (s s' : State) : Prop
  | queued {toId : AccountId} {amount fee total : U128} {feePwm : U64}
      (hbody : tx.body = .transfer toId amount fee) (hflag : conservationFlag id = true)
      (hnone : s.hasPendingConserv id = false) (hinit : acc.initialized = true)
      (htotal : amount.checkedAdd fee = some total) (hle : total ≤ acc.balancePwm)
      (hfee : fee.tryFrom 64 = some feePwm)
      (hqueue : s' = s.pushPending
        (conservationRow C genCfg tx h id (redirTo.getD toId) amount feePwm))
  | dropped (hqueue : s'.pendingConservation =
      s.pendingConservation.filter fun row => decide (row.sender ≠ id))
  | kept (hqueue : s'.pendingConservation = s.pendingConservation)
      (hbody : pendingTxConflict tx.body = true ∨ conservationFlag id = false)

section Arms

variable {C : Crypto} {genCfg : GenCfg} {tx : SignedTx} {h now : U64} {id : AccountId}
  {acc : Account} {s s' : State} {u : Unit}

theorem transferNow_pending {dst : AccountId} {amount fee total : U128}
    (hok : transferNow genCfg h id acc dst amount fee total s = .ok u s') :
    s'.pendingConservation = s.pendingConservation := by
  obtain ⟨balance, nonce, _, _, ⟨_, rfl⟩ | ⟨_, toAcc, _, rfl⟩⟩ := transferNow_ok hok
  · rfl
  · rfl

theorem creditImport_pending {toId : AccountId} {src : Account} {amount : U128}
    (hok : creditImport id toId src amount s = .ok u s') :
    s'.pendingConservation = s.pendingConservation := by
  obtain ⟨_, rfl⟩ | ⟨_, toAcc, _, rfl⟩ := creditImport_ok hok
  · rfl
  · rfl

theorem recordExport_pending (s : State) (exportId : Bytes32) (prov : ExportProvenance) :
    (s.recordExport genCfg h id exportId prov).pendingConservation = s.pendingConservation := by
  unfold State.recordExport
  dsimp only
  split <;> rfl

theorem settleImport_pending (s : State) (exportId : Bytes32) :
    (s.settleImport exportId).pendingConservation = s.pendingConservation := by
  unfold State.settleImport State.releaseLock
  cases s.lockIdx exportId <;> rfl

theorem registerProvenance_pending (s : State) (insert : Bool) (exportId : Bytes32)
    (prov : ExportProvenance) :
    (s.registerProvenance insert exportId prov).pendingConservation = s.pendingConservation := by
  cases insert <;> rfl

theorem initStub_pending (C : Crypto) (tx : SignedTx) (s : State) :
    (initStub C tx s).pendingConservation = s.pendingConservation := by
  unfold initStub
  cases tx.body with
  | init index flags =>
      dsimp only
      split <;> rfl
  | _ => rfl

/-- The one policy action that a waiting account may send names its rescue address. -/
theorem validatePolAction_target {a : Account} {action : PolicyAction}
    (hok : validatePolAction C s a action tx = .ok ()) (hallowed : pendingPolAllowed action = true) :
    ∃ target, emergencyActTarget action = some target ∧ a.rescueAddress = some target := by
  unfold validatePolAction at hok
  split at hok
  · cases hok
  · cases action with
    | activatePolicy policyId activationTarget =>
        have hid : policyId = PolicyKind.routingEmergencyRedirect.policyId := by
          simpa [pendingPolAllowed] using hallowed
        subst hid
        simp only [PolicyKind.fromPolicyId_policyId] at hok
        cases hrescue : a.rescueAddress with
        | none => simp [hrescue] at hok
        | some rescueId =>
            cases activationTarget with
            | none => simp [hrescue] at hok
            | some target =>
                simp only [hrescue] at hok
                split at hok
                · cases hok
                · rename_i htarget
                  refine ⟨target, by simp [emergencyActTarget], ?_⟩
                  rw [Classical.not_not.mp htarget]
    | setPolicy policy activation => simp [pendingPolAllowed] at hallowed
    | deactivatePolicy policyId => simp [pendingPolAllowed] at hallowed

theorem evacuateIfNamed_pending {target : Option AccountId} {a a' : Account}
    (hok : evacuateIfNamed id target a s = .ok a' s') :
    s'.pendingConservation = if target.isSome then
      s.pendingConservation.filter fun row => decide (row.sender ≠ id)
    else s.pendingConservation := by
  obtain ⟨rfl, _, rfl⟩ | ⟨t, rfl, hevac⟩ := evacuateIfNamed_ok hok
  · rfl
  · obtain ⟨_, _, rfl⟩ | ⟨_, targetAcc, _, _, rfl⟩ := evacuate_ok hevac
    · rfl
    · rfl

/-- A policy action drops the transfers of its account when it names a target to evacuate to. -/
theorem applyPolicy_pending {targetAccount : AccountId} {action : PolicyAction} {fee : U128}
    (hok : applyPolicy C genCfg tx h id acc targetAccount action fee s = .ok u s') :
    s'.pendingConservation = if (emergencyActTarget action).isSome then
      s.pendingConservation.filter fun row => decide (row.sender ≠ id)
    else s.pendingConservation := by
  obtain ⟨_, a, balance, a', nonce, s₁, _, _, _, hevac, _, rfl⟩ := applyPolicy_ok hok
  rw [putAcc_pendingConservation, evacuateIfNamed_pending hevac, addFee_pendingConservation]

theorem applyBody_pending {redirTo : Option AccountId}
    (hok : applyBody C genCfg tx h id acc redirTo s = .ok u s') :
    PendingEffect C genCfg tx h id acc redirTo s s' := by
  unfold applyBody at hok
  cases hbody : tx.body with
  | init index flags =>
      simp only [hbody] at hok
      obtain ⟨_, nonce, _, rfl⟩ := applyInit_ok hok
      exact .kept rfl (.inl (by rw [hbody]; rfl))
  | transfer toId amount fee =>
      simp only [hbody] at hok
      obtain ⟨hinit, total, htotal, hle, ⟨hflag, hqueue⟩ | ⟨hflag, hnow⟩⟩ := applyTransfer_ok hok
      · obtain ⟨hnone, feePwm, hfee, rfl⟩ := enqueueConservation_ok hqueue
        exact .queued hbody hflag hnone hinit htotal hle hfee rfl
      · exact .kept (transferNow_pending hnow) (.inr hflag)
  | stake amount =>
      simp only [hbody] at hok
      obtain ⟨_, balance, staked, nonce, _, _, _, rfl⟩ := applyStake_ok hok
      exact .kept rfl (.inl (by rw [hbody]; rfl))
  | unstake amount =>
      simp only [hbody] at hok
      obtain ⟨_, balance, staked, nonce, _, _, _, rfl⟩ := applyUnstake_ok hok
      exact .kept rfl (.inl (by rw [hbody]; rfl))
  | burnMark markAmount beneficiary =>
      simp only [hbody] at hok
      obtain ⟨_, marks, nonce, _, _, rfl⟩ := applyBurnMark_ok hok
      exact .kept rfl (.inl (by rw [hbody]; rfl))
  | claimIPv4Batch phase batchRoot registrySig =>
      simp only [hbody] at hok
      obtain ⟨_, phaseRow, nonce, _, _, rfl⟩ := applyClaimIPv4Batch_ok hok
      exact .kept rfl (.inl (by rw [hbody]; rfl))
  | exportTx toId targetDomain amount fee =>
      simp only [hbody] at hok
      obtain ⟨_, total, balance, nonce, exportId, _, _, _, _, rfl⟩ := applyExport_ok hok
      refine .kept ?_ (.inl (by rw [hbody]; rfl))
      rw [putAcc_pendingConservation, recordExport_pending, addFee_pendingConservation]
  | importTx toId amount exportId =>
      simp only [hbody] at hok
      obtain ⟨_, _, _, expected, insert, fee, balance, nonce, s₁, _, _, _, _, _, hcredit, rfl⟩ :=
        applyImport_ok hok
      refine .kept ?_ (.inl (by rw [hbody]; rfl))
      rw [settleImport_pending, creditImport_pending hcredit, registerProvenance_pending,
        addFee_pendingConservation]
  | policy targetAccount action fee =>
      simp only [hbody] at hok
      have hqueue := applyPolicy_pending hok
      obtain ⟨_, a, balance, a', nonce, s₁, hvalid, _⟩ := applyPolicy_ok hok
      cases htarget : emergencyActTarget action with
      | some target =>
          rw [htarget] at hqueue
          exact .dropped hqueue
      | none =>
          rw [htarget] at hqueue
          refine .kept hqueue (.inl ?_)
          rw [hbody, pendingTxConflict, Bool.not_eq_true', Bool.eq_false_iff]
          intro hallowed
          obtain ⟨target, hsome, _⟩ := validatePolAction_target hvalid hallowed
          rw [htarget] at hsome
          cases hsome

end Arms

/-! ## Waiting transfers can be paid -/

/-- The sender of a row is live, still has the nonce of the row and can pay for it. -/
structure RowBacked (s : State) (row : PendingConservationTransfer) : Prop where
  flag : conservationFlag row.sender = true
  sender : ∃ a, s.accounts[row.sender]? = some a ∧ a.initialized = true ∧ a.finalized = false ∧
    a.nonce = row.nonce ∧ row.amountPwm.toNat + row.feePwm.toNat ≤ a.balancePwm.toNat

/-- The senders of the rows are distinct, and every row can be paid. -/
structure QueueInv (s : State) (rows : List PendingConservationTransfer) : Prop where
  senders : (rows.map PendingConservationTransfer.sender).Nodup
  backed : ∀ row ∈ rows, RowBacked s row

/-- The invariant of the pending transfers of a ledger. -/
def PendingInv (s : State) : Prop :=
  QueueInv s s.pendingConservation

section Queue

variable {s s' : State} {row : PendingConservationTransfer}
  {rows : List PendingConservationTransfer}

/-- A credit of the sender does not hurt. -/
theorem RowBacked.kept (hrow : RowBacked s row) (hkept : RowKept row.sender s s') :
    RowBacked s' row := by
  obtain ⟨a, ha, hinit, hfinal, hnonce, hpay⟩ := hrow.sender
  obtain ⟨a', ha', hcredit⟩ := hkept.row ha
  refine ⟨hrow.flag, a', ha', ?_, ?_, ?_, hpay.trans hcredit.balance⟩
  · rw [hcredit.initialized, hinit]
  · rw [hcredit.finalized, hfinal]
  · rw [hcredit.nonce, hnonce]

theorem QueueInv.kept (hinv : QueueInv s rows) (hkept : ∀ row ∈ rows, RowKept row.sender s s') :
    QueueInv s' rows :=
  ⟨hinv.senders, fun row hrow => (hinv.backed row hrow).kept (hkept row hrow)⟩

theorem QueueInv.sublist {rows' : List PendingConservationTransfer} (hinv : QueueInv s rows)
    (hsub : rows'.Sublist rows) : QueueInv s rows' :=
  ⟨hinv.senders.sublist (hsub.map _), fun row hrow => hinv.backed row (hsub.subset hrow)⟩

theorem QueueInv.snoc (hinv : QueueInv s rows) (hrow : RowBacked s row)
    (hnew : ∀ r ∈ rows, r.sender ≠ row.sender) : QueueInv s (rows ++ [row]) := by
  refine ⟨?_, ?_⟩
  · rw [List.map_append, List.nodup_append]
    refine ⟨hinv.senders, List.nodup_singleton _, ?_⟩
    intro x hx y hy hxy
    obtain ⟨r, hr, rfl⟩ := List.mem_map.mp hx
    obtain rfl := List.mem_singleton.mp hy
    exact hnew r hr hxy
  · intro r hr
    rcases List.mem_append.mp hr with hr | hr
    · exact hinv.backed r hr
    · rw [List.mem_singleton.mp hr]
      exact hrow

/-- Putting a row back keeps the whole queue. -/
theorem QueueInv.pushPending {rest : List PendingConservationTransfer}
    (hinv : QueueInv s (s.pendingConservation ++ row :: rest)) :
    QueueInv (s.pushPending row) ((s.pushPending row).pendingConservation ++ rest) := by
  rw [pushPending_pendingConservation, List.append_assoc, List.singleton_append]
  exact hinv.kept fun r _ => rowKept_of_accounts rfl

/-- The rows beside one of a queue have other senders. -/
theorem QueueInv.sender_ne {before after : List PendingConservationTransfer}
    (hinv : QueueInv s (before ++ row :: after)) {r : PendingConservationTransfer}
    (hr : r ∈ before ++ after) : row.sender ≠ r.sender := by
  have hnodup := hinv.senders
  rw [List.map_append, List.map_cons] at hnodup
  have hnot := (List.nodup_middle.mp hnodup).notMem
  intro heq
  refine hnot ?_
  rw [heq, ← List.map_append]
  exact List.mem_map_of_mem hr

end Queue

/-! ## The drain -/

/-- An attempt of a drain that gave an error. -/
structure DrainFail where
  pre : State
  row : PendingConservationTransfer
  err : TxError

/-- The failed attempts made for these rows, in order. -/
def drainRowsFails (genCfg : GenCfg) (h : U64) :
    List PendingConservationTransfer → State → List DrainFail
  | [], _ => []
  | row :: rest, st =>
      if h < row.executeAtHeight then drainRowsFails genCfg h rest (st.pushPending row)
      else match applyDueConservation genCfg h row st with
      | .ok _ st' => drainRowsFails genCfg h rest st'
      | .error (.err e) st' => ⟨st, row, e⟩ :: drainRowsFails genCfg h rest (st'.pushPending row)
      | .error .panic _ => []

/-- The failed attempts of a drain at this height. -/
def drainFails (genCfg : GenCfg) (h : U64) (s : State) : List DrainFail :=
  drainRowsFails genCfg h s.pendingConservation { s with pendingConservation := [] }

/-- The error is about the account that the row would be credited to. -/
def DrainFail.OnRecipientSide (h : U64) (f : DrainFail) : Prop :=
  conservationRecipientDst f.pre f.row.sender f.row.recipient h = .error f.err ∨
    ∃ dst, conservationRecipientDst f.pre f.row.sender f.row.recipient h = .ok dst ∧
      requireRecipient f.pre dst = .error f.err

section Drain

variable {genCfg : GenCfg} {h : U64} {s s' : State} {row : PendingConservationTransfer}
  {rows : List PendingConservationTransfer} {u : Unit}

/-- The checks of the sender pass for a row that can be paid. -/
theorem applyDueConservation_error {e : TxError} (hrow : RowBacked s row)
    (herr : applyDueConservation genCfg h row s = .error (.err e) s') :
    DrainFail.OnRecipientSide h ⟨s, row, e⟩ := by
  obtain ⟨a, ha, hinit, hfinal, hnonce, hpay⟩ := hrow.sender
  have hfits := a.balancePwm.isLt
  have hfee : (row.feePwm.setWidth 128 : U128).toNat = row.feePwm.toNat := by
    rw [toNat_setWidth]
    exact Nat.mod_eq_of_lt (row.feePwm.isLt.trans (by decide))
  simp only [applyDueConservation, bind_error_iff, get_ok_iff, get_error_iff,
    orThrow_ok_iff, orThrow_error_iff, require_ok_iff, require_error_iff, liftExcept_ok_iff,
    liftExcept_error_iff, false_or] at herr
  obtain ⟨_, _, ⟨rfl, rfl⟩, herr⟩ := herr
  rcases herr with ⟨hnone, _⟩ | ⟨_, _, ⟨ha', rfl⟩, herr⟩
  · rw [ha] at hnone
    cases hnone
  obtain rfl := Option.some.inj (ha.symm.trans ha')
  rcases herr with ⟨hnot, _⟩ | ⟨_, _, ⟨_, rfl⟩, herr⟩
  · exact absurd hinit hnot
  rcases herr with ⟨hnot, _⟩ | ⟨_, _, ⟨_, rfl⟩, herr⟩
  · exact absurd hnonce hnot
  rcases herr with ⟨hnot, _⟩ | ⟨_, _, ⟨_, rfl⟩, herr⟩
  · simp [hfinal] at hnot
  rcases herr with ⟨d, hdst, hd, _⟩ | ⟨dst, _, ⟨hdst, rfl⟩, herr⟩
  · obtain rfl := Fault.err.inj hd
    exact .inl hdst
  rcases herr with ⟨d, hrequire, hd, _⟩ | ⟨_, _, ⟨_, rfl⟩, herr⟩
  · obtain rfl := Fault.err.inj hd
    exact .inr ⟨dst, hdst, hrequire⟩
  rcases herr with ⟨hnone, _⟩ | ⟨total, _, ⟨htotal, rfl⟩, herr⟩
  · rw [checkedAdd_eq_none_iff, hfee] at hnone
    omega
  have htotal := checkedAdd_eq_some_iff.mp htotal
  rcases herr with ⟨hnot, _⟩ | ⟨_, _, ⟨_, rfl⟩, herr⟩
  · rw [BitVec.le_def] at hnot
    omega
  · refine absurd ⟨e, rfl⟩ (?_ : ¬ Fault.IsErr (.err e))
    refine NeverFails.bind (neverFails_orThrow _ not_isErr_panic) (fun balance => ?_) _ _ _ herr
    refine .bind (neverFails_orThrow _ not_isErr_panic) fun nonce => ?_
    refine .bind (neverFails_modify _) fun _ => ?_
    refine .bind neverFails_get fun st => ?_
    exact .bind (neverFails_orThrow _ not_isErr_panic) fun toAcc => neverFails_modify _

/-- The one panic: the sender has used its last nonce. -/
theorem applyDueConservation_panic
    (herr : applyDueConservation genCfg h row s = .error .panic s') :
    row.nonce = BitVec.allOnes 64 := by
  simp only [applyDueConservation, bind_error_iff, get_ok_iff, get_error_iff, orThrow_ok_iff,
    orThrow_error_iff, require_ok_iff, require_error_iff, liftExcept_ok_iff, liftExcept_error_iff,
    reduceCtorEq, false_and, and_false, exists_false, false_or] at herr
  obtain ⟨_, _, ⟨rfl, rfl⟩, a, _, ⟨_, rfl⟩, _, _, ⟨_, rfl⟩, _, _, ⟨hnonce, rfl⟩, _, _, ⟨_, rfl⟩,
    dst, _, ⟨_, rfl⟩, _, _, ⟨hrequire, rfl⟩, total, _, ⟨_, rfl⟩, _, _, ⟨hle, rfl⟩, herr⟩ := herr
  obtain ⟨toAcc, hto, _⟩ := requireRecipient_ok hrequire
  simp only [settleConservation, bind_error_iff, orThrow_ok_iff, orThrow_error_iff, get_ok_iff,
    get_error_iff, modify_ok_iff, modify_error_iff, touchAcctMrks_balancePwm,
    touchAcctMrks_nonce, false_or, and_false, exists_false, or_false] at herr
  rcases herr with ⟨hnone, _⟩ | ⟨balance, _, ⟨_, rfl⟩, herr⟩
  · rw [checkedSub_eq_none_iff] at hnone
    rw [BitVec.le_def] at hle
    omega
  rcases herr with ⟨hlast, _⟩ | ⟨nonce, _, ⟨_, rfl⟩, herr⟩
  · rw [checkedAdd_eq_none_iff, hnonce, BitVec.toNat_ofNat] at hlast
    apply BitVec.eq_of_toNat_eq
    rw [BitVec.toNat_allOnes]
    have hbound := row.nonce.isLt
    omega
  · obtain ⟨_, _, rfl, _, _, ⟨rfl, rfl⟩, hnone, _⟩ := herr
    rw [addFee_accounts, hto] at hnone
    cases hnone

theorem applyDueConservation_pending
    (hok : applyDueConservation genCfg h row s = .ok u s') :
    s'.pendingConservation = s.pendingConservation := by
  obtain ⟨senderAcc, dst, total, balance, nonce, toAcc, _, _, _, _, _, _, _, rfl⟩ :=
    applyDueConservation_ok hok
  rfl

theorem drainRow_panic (herr : drainRow genCfg h row s = .error .panic s') :
    row.nonce = BitVec.allOnes 64 := by
  unfold drainRow at herr
  split at herr
  · cases herr
  · cases happly : applyDueConservation genCfg h row s with
    | ok _ s₁ => simp [happly] at herr
    | error fault s₁ =>
        cases fault with
        | err e => simp [happly] at herr
        | panic => exact applyDueConservation_panic happly

/-- A drain panics only at a row with the last nonce. -/
theorem drainConservationAtHeight_panic
    (herr : drainConservationAtHeight genCfg h s = .error .panic s') :
    ∃ row ∈ s.pendingConservation, row.nonce = BitVec.allOnes 64 := by
  have hrows : ∀ (rows : List PendingConservationTransfer) (st : State),
      (rows.forM fun row => drainRow genCfg h row) st = .error .panic s' →
      ∃ row ∈ rows, row.nonce = BitVec.allOnes 64 := by
    intro rows
    induction rows with
    | nil =>
        intro st herr
        cases pure_error_iff.mp herr
    | cons row rest ih =>
        intro st herr
        rcases bind_error_iff.mp herr with hrow | ⟨_, st₁, _, hrest⟩
        · exact ⟨row, List.mem_cons_self, drainRow_panic hrow⟩
        · obtain ⟨r, hr, hlast⟩ := ih st₁ hrest
          exact ⟨r, List.mem_cons_of_mem _ hr, hlast⟩
  simp only [drainConservationAtHeight, bind_error_iff, get_error_iff, get_ok_iff, modify_ok_iff,
    modify_error_iff, false_or] at herr
  obtain ⟨_, _, ⟨rfl, rfl⟩, _, _, rfl, herr⟩ := herr
  exact hrows _ _ herr

/-- An executed row leaves a queue that can be paid. -/
theorem queueInv_executed {before after : List PendingConservationTransfer}
    (hinv : QueueInv s (before ++ row :: after))
    (hok : applyDueConservation genCfg h row s = .ok u s') : QueueInv s' (before ++ after) := by
  have hrest : QueueInv s (before ++ after) :=
    hinv.sublist (List.Sublist.append_left (List.sublist_cons_self row after) before)
  exact hrest.kept fun r hr => applyDueConservation_rowKept (hinv.sender_ne hr) hok

/-- The rows put back and the rows still to come make up a queue that can be paid. -/
theorem drains_queueInv {moves : List DrainMove} (hd : Drains genCfg h rows s moves s')
    (hinv : QueueInv s (s.pendingConservation ++ rows)) : PendingInv s' := by
  induction hd with
  | nil => simpa [PendingInv] using hinv
  | kept _ ih => exact ih hinv.pushPending
  | executed hrow _ ih =>
      refine ih ?_
      rw [applyDueConservation_pending hrow]
      exact queueInv_executed hinv hrow

theorem drainRowsFails_recipient (hinv : QueueInv s (s.pendingConservation ++ rows)) :
    ∀ f ∈ drainRowsFails genCfg h rows s, f.OnRecipientSide h := by
  induction rows generalizing s with
  | nil =>
      intro f hf
      cases hf
  | cons row rest ih =>
      have hpush := hinv.pushPending
      rw [drainRowsFails]
      by_cases hdue : h < row.executeAtHeight
      · rw [if_pos hdue]
        exact ih hpush
      · rw [if_neg hdue]
        cases happly : applyDueConservation genCfg h row s with
        | ok _ s₁ =>
            refine ih ?_
            rw [applyDueConservation_pending happly]
            exact queueInv_executed hinv happly
        | error fault s₁ =>
            cases fault with
            | panic =>
                intro f hf
                cases hf
            | err e =>
                obtain rfl := failsClean_applyDueConservation row s _ s₁ happly ⟨e, rfl⟩
                intro f hf
                rcases List.mem_cons.mp hf with rfl | hf
                · exact applyDueConservation_error
                    (hinv.backed row (List.mem_append_right _ List.mem_cons_self)) happly
                · exact ih hpush f hf

end Drain

/-! ## One transaction -/

section Apply

variable {C : Crypto} {genCfg : GenCfg} {tx : SignedTx} {h now : U64} {skipPolicy : Bool}
  {s s' : State} {u : Unit}

theorem hasPendingConserv_iff {id : AccountId} :
    s.hasPendingConserv id = true ↔ ∃ row ∈ s.pendingConservation, row.sender = id := by
  simp [State.hasPendingConserv]

/-- An application keeps the queue payable, when it queues nothing for a finalized account. -/
theorem applyTxImpl_pendingInv (hinv : PendingInv s)
    (hlive : tx.isDelayed C = true → ∀ a, s.accounts[tx.computedAccountId C]? = some a →
      a.finalized = false)
    (hok : applyTxImpl C genCfg tx h now skipPolicy s = .ok u s') : PendingInv s' := by
  obtain ⟨acc, redirTo, hacc, hnonce, _, hconflict, hbody⟩ := applyTxImpl_ok hok
  have hkept : ∀ row : PendingConservationTransfer, row.sender ≠ tx.computedAccountId C →
      RowKept row.sender s s' :=
    fun row hne => applyTxImpl_rowKept (Ne.symm hne) hok
  unfold PendingInv at *
  cases applyBody_pending hbody with
  | queued htransfer hflag hnone hinit htotal hle hfee hqueue =>
      rename_i toId amount fee total feePwm
      have hstub : initStub C tx s = s := by
        rw [initStub, htransfer]
      rw [hstub] at hacc hnone hqueue
      have hnew : ∀ row ∈ s.pendingConservation, row.sender ≠ tx.computedAccountId C := by
        intro row hrow hsender
        have hpending := hasPendingConserv_iff.mpr ⟨row, hrow, hsender⟩
        rw [hnone] at hpending
        cases hpending
      have hold := hinv.kept fun row hrow => hkept row (hnew row hrow)
      rw [hqueue] at hold ⊢
      refine hold.snoc ⟨hflag, acc, hacc, ?_, ?_, hnonce, ?_⟩ hnew
      · rw [signerRow] at hinit
        split at hinit
        · assumption
        · assumption
      · exact hlive (by simp [SignedTx.isDelayed, htransfer, hflag]) acc hacc
      · rw [signerRow_balancePwm, BitVec.le_def] at hle
        have htotal := checkedAdd_eq_some_iff.mp htotal
        have hfee := (tryFrom_eq_some_iff.mp hfee)
        simp only [conservationRow]
        omega
  | dropped hqueue =>
      rw [initStub_pending] at hqueue
      rw [hqueue]
      refine (hinv.sublist List.filter_sublist).kept fun row hrow => hkept row ?_
      simpa using (List.mem_filter.mp hrow).2
  | kept hqueue hallowed =>
      rw [initStub_pending] at hqueue
      rw [hqueue]
      refine hinv.kept fun row hrow => hkept row fun hsender => ?_
      have hpending : (initStub C tx s).hasPendingConserv (tx.computedAccountId C) = true := by
        rw [hasPendingConserv_iff, initStub_pending]
        exact ⟨row, hrow, hsender⟩
      rcases hallowed with hconfl | hflag
      · exact hconflict ⟨hpending, hconfl⟩
      · have hrowflag := (hinv.backed row hrow).flag
        rw [hsender, hflag] at hrowflag
        cases hrowflag

/-- The policies hold back a transfer of a finalized account. -/
theorem policyGate_not_finalized {redirTo : Option AccountId} {a : Account}
    (hgate : policyGate C s tx h false = .ok redirTo)
    (ha : s.accounts[tx.computedAccountId C]? = some a) :
    ¬ (a.finalized = true ∧ isFinalizedBlocked tx.body a = true) := by
  intro hblocked
  have heval : s.evaluatePolicy C tx h = .reject .policyAccountFinalized := by
    simp only [State.evaluatePolicy, ha]
    exact if_pos hblocked
  rw [policyGate, heval] at hgate
  cases hgate

/-- A policy-checked application queues nothing for a finalized account. -/
theorem applyTxWithCtx_live {a : Account} (hdelay : tx.isDelayed C = true)
    (hok : applyTxWithCtx C genCfg tx h now s = .ok u s')
    (ha : s.accounts[tx.computedAccountId C]? = some a) : a.finalized = false := by
  obtain ⟨acc, redirTo, hacc, _, hgate, _, _⟩ := applyTxImpl_ok hok
  rw [initStub_of_row ha] at hgate
  have hblocked : isFinalizedBlocked tx.body a = true := by
    cases htx : tx.body with
    | transfer toId amount fee => rfl
    | _ => simp [SignedTx.isDelayed, htx] at hdelay
  rw [Bool.eq_false_iff]
  exact fun hfinal => policyGate_not_finalized hgate ha ⟨hfinal, hblocked⟩

end Apply

section Steps

variable {C : Crypto} {genCfg : GenCfg} {s s' : State} {l : LedgerLabel}

theorem refundExpLocks_pending (s : State) (h : U64) :
    (s.refundExpLocks h).pendingConservation = s.pendingConservation := by
  have hfold : ∀ (locks : List CrossShardLock) (st : State),
      (locks.foldl (refundStep h) st).pendingConservation = st.pendingConservation := by
    intro locks
    induction locks with
    | nil => exact fun _ => rfl
    | cons lock rest ih =>
        intro st
        rw [List.foldl_cons, ih, refundStep]
        split <;> rfl
  exact hfold s.crossShardLocks _

theorem rewardBlock_pending (genCfg : GenCfg) (s : State) (prodAcct : AccountId) (h : U64) :
    (rewardBlock genCfg s prodAcct h).pendingConservation = s.pendingConservation := by
  unfold rewardBlock
  split <;> rfl

theorem rollEpochIfNeeded_pending (genCfg : GenCfg) (s : State) (h : U64) :
    (rollEpochIfNeeded genCfg s h).pendingConservation = s.pendingConservation := by
  unfold rollEpochIfNeeded
  split <;> rfl

/-- Only applied transactions and drains change the queue. -/
theorem step_pending_same (hstep : LedgerStep C genCfg s l s') (happlied : ∀ tx, l ≠ .applied tx)
    (hdrained : ∀ h moves, l ≠ .drained h moves) :
    s'.pendingConservation = s.pendingConservation := by
  cases hstep with
  | applied hok => exact absurd rfl (happlied _)
  | failed herr =>
      rcases applyTxImpl_error C genCfg herr with rfl | rfl
      · rfl
      · exact initStub_pending C _ s
  | refunded h => exact refundExpLocks_pending s h
  | drained hok => exact absurd rfl (hdrained _ _)
  | rewarded prodAcct h => exact rewardBlock_pending genCfg s prodAcct h
  | epoch h => exact rollEpochIfNeeded_pending genCfg s h
  | evidence hok =>
      obtain ⟨log, rfl⟩ := appendEvidence_accounts hok
      rfl

end Steps

/-! ## Accounts that a worker has seen -/

/-- The account has gone past this nonce, or has it and is not finalized. -/
def LiveAt (j : AccountId) (n : Nat) (s : State) : Prop :=
  ∃ a, s.accounts[j]? = some a ∧ n ≤ a.nonce.toNat ∧ (a.finalized = true → n < a.nonce.toNat)

section LiveAt

variable {C : Crypto} {genCfg : GenCfg} {j : AccountId} {n : Nat} {s s' : State} {l : LedgerLabel}
  {u : Unit}

theorem LiveAt.kept (hlive : LiveAt j n s) (hkept : RowKept j s s') : LiveAt j n s' := by
  obtain ⟨a, ha, hle, hlt⟩ := hlive
  obtain ⟨a', ha', hcredit⟩ := hkept.row ha
  refine ⟨a', ha', ?_, ?_⟩
  · rwa [hcredit.nonce]
  · rwa [hcredit.nonce, hcredit.finalized]

/-- An account that went past the nonce. -/
theorem liveAt_of_lt (hlt : n < s.nonceOf j) : LiveAt j n s := by
  cases ha : s.accounts[j]? with
  | none => simp [State.nonceOf, valueAt, ha] at hlt
  | some a =>
      rw [nonceOf_of_row ha] at hlt
      exact ⟨a, ha, hlt.le, fun _ => hlt⟩

theorem LiveAt.le_nonceOf (hlive : LiveAt j n s) : n ≤ s.nonceOf j := by
  obtain ⟨a, ha, hle, _⟩ := hlive
  rwa [nonceOf_of_row ha]

/-- A delayed transfer writes no row. -/
theorem applyTxImpl_delayed {tx : SignedTx} {h now : U64} {skipPolicy : Bool}
    (hdelay : tx.isDelayed C = true)
    (hok : applyTxImpl C genCfg tx h now skipPolicy s = .ok u s') : s'.accounts = s.accounts := by
  obtain ⟨acc, redirTo, _, _, _, _, hbody⟩ := applyTxImpl_ok hok
  cases htx : tx.body with
  | transfer toId amount fee =>
      simp only [SignedTx.isDelayed, htx] at hdelay
      simp only [applyBody, htx] at hbody
      obtain ⟨_, total, _, _, ⟨_, hqueue⟩ | ⟨hflag, _⟩⟩ := applyTransfer_ok hbody
      · obtain ⟨_, feePwm, _, rfl⟩ := enqueueConservation_ok hqueue
        rw [pushPending_accounts, initStub, htx]
      · rw [hdelay] at hflag
        cases hflag
  | _ => simp [SignedTx.isDelayed, htx] at hdelay

theorem applyTxImpl_liveAt {tx : SignedTx} {h now : U64} {skipPolicy : Bool}
    (hlive : LiveAt j n s) (hok : applyTxImpl C genCfg tx h now skipPolicy s = .ok u s') :
    LiveAt j n s' := by
  by_cases hj : tx.computedAccountId C = j
  · subst hj
    obtain ⟨_, hbump⟩ := applyTxImpl_nonces hok
    by_cases hdelay : tx.isDelayed C = true
    · exact hlive.kept (rowKept_of_accounts (applyTxImpl_delayed hdelay hok))
    · rw [if_neg hdelay] at hbump
      have hraise := hbump (tx.computedAccountId C)
      rw [if_pos rfl] at hraise
      exact liveAt_of_lt (by have := hlive.le_nonceOf; omega)
  · exact hlive.kept (applyTxImpl_rowKept hj hok)

theorem applyDueConservation_liveAt {h : U64} {row : PendingConservationTransfer}
    (hlive : LiveAt j n s) (hok : applyDueConservation genCfg h row s = .ok u s') :
    LiveAt j n s' := by
  by_cases hj : row.sender = j
  · subst hj
    obtain ⟨a, ha, hle, hlt⟩ := hlive
    obtain ⟨senderAcc, dst, total, balance, nonce, toAcc, hsender, _, _, _, _, hnext, hto, rfl⟩ :=
      applyDueConservation_ok hok
    obtain rfl := Option.some.inj (ha.symm.trans hsender)
    by_cases hdst : dst = row.sender
    · -- the credit overwrites the debited row
      subst hdst
      obtain rfl := Option.some.inj (ha.symm.trans hto)
      exact ⟨creditedRow genCfg h a row.amountPwm, by rw [getElem?_putAcc, if_pos rfl], hle, hlt⟩
    · have hraise := checkedAdd_one (by omega) hnext
      refine ⟨debitedRow genCfg h a balance nonce, ?_, ?_, ?_⟩
      · rw [getElem?_putAcc, if_neg hdst, getElem?_putAcc, if_pos rfl]
      · change n ≤ nonce.toNat
        omega
      · intro _
        change n < nonce.toNat
        omega
  · exact hlive.kept (applyDueConservation_rowKept hj hok)

theorem drains_liveAt {h : U64} {rows : List PendingConservationTransfer}
    {moves : List DrainMove} (hd : Drains genCfg h rows s moves s') (hlive : LiveAt j n s) :
    LiveAt j n s' := by
  induction hd with
  | nil => exact hlive
  | kept _ ih => exact ih hlive
  | executed hrow _ ih => exact ih (applyDueConservation_liveAt hlive hrow)

/-- An account is finalized only by raising its nonce. -/
theorem step_liveAt (hstep : LedgerStep C genCfg s l s') (hlive : LiveAt j n s) :
    LiveAt j n s' := by
  cases l with
  | applied tx =>
      cases hstep with
      | applied hok => exact applyTxImpl_liveAt hlive hok
  | failed tx =>
      obtain ⟨a, ha, _⟩ := id hlive
      exact hlive.kept (step_failed_rowKept hstep ha)
  | drained h moves =>
      cases hstep with
      | drained hok => exact drains_liveAt (drains_of_ok hok) hlive
  | _ => exact hlive.kept (step_rowKept hstep List.not_mem_nil)

end LiveAt

/-- A worker passed the transaction on after checking it against one of these states. -/
def PassedOn (C : Crypto) (past : List State) (tx : SignedTx) : Prop :=
  ∃ ctx now entry, ctx.snapshot ∈ past ∧ (∃ st, ctx.hotIndex = buildMap st) ∧
    precheckClient C ctx tx now = .ok entry

section PassedOn

variable {C : Crypto} {tx : SignedTx}

/-- The hot row of an account shows its conservation flag. -/
theorem hotSafe_conservationFlag {st : State} {id : AccountId} {hot : AccountHot}
    (hrow : (buildMap st)[id]? = some hot) (hsafe : hotSafe hot = true) :
    conservationFlag id = false := by
  rw [buildMap, Std.ExtTreeMap.getElem?_map] at hrow
  obtain ⟨a, _, rfl⟩ := Option.map_eq_some_iff.mp hrow
  simp only [hotSafe, accountHot] at hsafe
  have hflags := (of_decide_eq_true hsafe).1
  have hflag : addressFlags id &&& conservation = 0#32 := by grind
  simp [conservationFlag, hflag]

/-- The short check is not for senders with the flag. -/
theorem precheckHot_conservationFlag {ctx : WorkerCtx} {st : State}
    {r : Except WorkerFault Unit} (hindex : ctx.hotIndex = buildMap st)
    (hhot : precheckHot C ctx tx = some r) :
    conservationFlag (tx.computedAccountId C) = false := by
  unfold precheckHot at hhot
  split at hhot
  · split at hhot
    · rename_i sender recipient hsender hrecipient
      split at hhot
      · cases hhot
      · rename_i hsafe
        rw [hindex] at hsender
        refine hotSafe_conservationFlag hsender ?_
        simpa using (not_or.mp hsafe).1
    · cases hhot
  · cases hhot

/-- The sender of a delayed transfer that a worker passed on was not finalized, and had the nonce
of the transfer. -/
theorem PassedOn.liveAt {past : List State} (hpassed : PassedOn C past tx)
    (hdelay : tx.isDelayed C = true) :
    ∃ p ∈ past, LiveAt (tx.computedAccountId C) tx.nonce.toNat p := by
  obtain ⟨ctx, now, entry, hpast, ⟨st, hindex⟩, hok⟩ := hpassed
  refine ⟨ctx.snapshot, hpast, ?_⟩
  obtain ⟨_, hcheck, _⟩ := precheckClient_ok C ctx tx hok
  cases htx : tx.body with
  | transfer toId amount fee =>
      simp only [SignedTx.isDelayed, htx] at hdelay
      have hfull : precheckFull C ctx tx now = .ok () := by
        have hhot : precheckHot C ctx tx = none := by
          cases hhot : precheckHot C ctx tx with
          | none => rfl
          | some r =>
              have hflag := precheckHot_conservationFlag hindex hhot
              rw [hdelay] at hflag
              cases hflag
        rwa [hhot, Option.getD_none] at hcheck
      obtain ⟨hpolicy, nextTs, s', hrun⟩ := precheckFull_ok C ctx tx hfull (by rw [htx]; rfl)
      obtain ⟨a, redirTo, ha, hnonce, hgate, _, _⟩ := applyTxImpl_ok hrun
      have hstub : initStub C tx ctx.snapshot = ctx.snapshot := by
        rw [initStub, htx]
      rw [hstub] at ha hgate
      refine ⟨a, ha, by rw [hnonce], fun hfinal => ?_⟩
      exact absurd ⟨hfinal, by rw [htx]; rfl⟩ (policyGate_not_finalized hgate ha)
  | _ => simp [SignedTx.isDelayed, htx] at hdelay

end PassedOn

/-! ## Runs -/

/-- A ledger with the states it went through. -/
structure Visited where
  st : State
  past : List State

/-- A step in which an applied transaction had its policies checked, by the application itself or
by a worker on one of the states that the ledger went through. -/
inductive CheckedStep (C : Crypto) (genCfg : GenCfg) : Visited → LedgerLabel → Visited → Prop
  | step {v : Visited} {l : LedgerLabel} {s' : State} (hstep : LedgerStep C genCfg v.st l s')
      (hchecked : ∀ tx, l = .applied tx →
        (∃ h now, applyTxWithCtx C genCfg tx h now v.st = .ok () s') ∨
          PassedOn C (v.st :: v.past) tx ∧
            ∃ h now, applyPrecheckedTx C genCfg tx h now v.st = .ok () s') :
      CheckedStep C genCfg v l ⟨s', v.st :: v.past⟩

section Runs

variable {C : Crypto} {genCfg : GenCfg}

theorem checkedStep_applied {tx : SignedTx} {h now : U64} {s s' : State}
    (hok : applyTxWithCtx C genCfg tx h now s = .ok () s') (past : List State) :
    CheckedStep C genCfg ⟨s, past⟩ (.applied tx) ⟨s', s :: past⟩ := by
  have hchecked : ∀ tx', LedgerLabel.applied tx = .applied tx' →
      ∃ h now, applyTxWithCtx C genCfg tx' h now s = .ok () s' := by
    intro tx' htx
    obtain rfl := LedgerLabel.applied.inj htx
    exact ⟨h, now, hok⟩
  exact .step (.applied hok) fun tx' htx => .inl (hchecked tx' htx)

/-- The queue can be paid, and no account was finalized without raising its nonce. -/
structure VisitedInv (v : Visited) : Prop where
  queue : PendingInv v.st
  live : ∀ p ∈ v.past, ∀ j n, LiveAt j n p → LiveAt j n v.st

theorem checkedStep_inv {v v' : Visited} {l : LedgerLabel} (hinv : VisitedInv v)
    (hstep : CheckedStep C genCfg v l v') : VisitedInv v' := by
  obtain ⟨hstep, hchecked⟩ := hstep
  have hpast : ∀ p ∈ v.st :: v.past, ∀ j n, LiveAt j n p → LiveAt j n v.st := by
    intro p hp
    rcases List.mem_cons.mp hp with rfl | hp
    · exact fun _ _ hlive => hlive
    · exact hinv.live p hp
  refine ⟨?_, fun p hp j n hlive => step_liveAt hstep (hpast p hp j n hlive)⟩
  cases l with
  | applied tx =>
      rcases hchecked tx rfl with ⟨h, now, hok⟩ | ⟨hpassed, h, now, hok⟩
      · exact applyTxImpl_pendingInv hinv.queue (fun hdelay _ => applyTxWithCtx_live hdelay hok) hok
      · refine applyTxImpl_pendingInv hinv.queue (fun hdelay a ha => ?_) hok
        obtain ⟨p, hp, hlive⟩ := hpassed.liveAt hdelay
        obtain ⟨a', ha', _, hlt⟩ := hpast p hp _ _ hlive
        obtain rfl := Option.some.inj (ha.symm.trans ha')
        have hnonce := (applyTxImpl_nonces hok).1
        rw [nonceOf_of_row ha] at hnonce
        by_contra hfinal
        have hpassed := hlt (by simpa using hfinal)
        omega
  | drained h moves =>
      cases hstep with
      | drained hok =>
          refine drains_queueInv (drains_of_ok hok) ?_
          exact hinv.queue.kept fun row _ => rowKept_of_accounts rfl
  | failed tx =>
      have hqueue := step_pending_same hstep (by simp) (by simp)
      unfold PendingInv
      rw [hqueue]
      refine hinv.queue.kept fun row hrow => ?_
      obtain ⟨a, ha, _⟩ := (hinv.queue.backed row hrow).sender
      exact step_failed_rowKept hstep ha
  | _ =>
      have hqueue := step_pending_same hstep (by simp) (by simp)
      unfold PendingInv
      rw [hqueue]
      exact hinv.queue.kept fun row _ => step_rowKept hstep List.not_mem_nil

/-- In every run from genesis whose transactions had their policies checked, the waiting transfers
have distinct live senders that can pay for them. A drain then fails only on the side of the
recipient, and it panics only when a sender has used its last nonce. -/
theorem pending_payable {s₀ s : State} {past : List State} {ls : List LedgerLabel}
    (hgen : IsGenesis genCfg s₀) (hrun : Run (CheckedStep C genCfg) ⟨s₀, []⟩ ls ⟨s, past⟩) :
    PendingInv s ∧ ∀ h, (∀ f ∈ drainFails genCfg h s, f.OnRecipientSide h) ∧
      ∀ s', drainConservationAtHeight genCfg h s = .error .panic s' →
        ∃ row ∈ s.pendingConservation, row.nonce = BitVec.allOnes 64 := by
  have hinv : VisitedInv ⟨s, past⟩ := by
    refine hrun.invariant (fun _ _ _ hinv hstep => checkedStep_inv hinv hstep) ⟨?_, ?_⟩
    · obtain ⟨_, _, _, hempty⟩ := genesis_fields hgen
      unfold PendingInv
      rw [hempty]
      exact ⟨List.nodup_nil, fun row hrow => by cases hrow⟩
    · intro p hp
      cases hp
  have hqueue : PendingInv s := hinv.queue
  refine ⟨hqueue, fun h => ⟨?_, fun s' herr => drainConservationAtHeight_panic herr⟩⟩
  refine drainRowsFails_recipient ?_
  exact hqueue.kept fun row _ => rowKept_of_accounts rfl

end Runs

/-- A run that leaves a transfer in the queue. -/
theorem pending_payable_afterTransfer :
    SelfDrain.afterTransfer.pendingConservation ≠ [] ∧ PendingInv SelfDrain.afterTransfer ∧
      ∀ h, (∀ f ∈ drainFails devNet h SelfDrain.afterTransfer, f.OnRecipientSide h) ∧
        ∀ s', drainConservationAtHeight devNet h SelfDrain.afterTransfer = .error .panic s' →
          ∃ row ∈ SelfDrain.afterTransfer.pendingConservation, row.nonce = BitVec.allOnes 64 := by
  have hrun : Run (CheckedStep SelfDrain.crypto devNet) ⟨devNet.state0, []⟩
      [.applied SelfDrain.initTx, .applied SelfDrain.transferTx]
      ⟨SelfDrain.afterTransfer, [SelfDrain.afterInit, devNet.state0]⟩ := by
    exact ((Run.nil _).snoc (checkedStep_applied SelfDrain.init_applied _)).snoc
      (checkedStep_applied SelfDrain.transfer_applied _)
  have hgen : IsGenesis devNet devNet.state0 := ⟨devNet.state0.activeValidatorIndices, rfl⟩
  have hpayable := pending_payable hgen hrun
  exact ⟨by decide +kernel, hpayable⟩

end Pwm
