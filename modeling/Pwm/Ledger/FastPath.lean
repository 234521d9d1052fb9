import Pwm.Ledger.Frozen

/-!
# The prechecked path

Where the plain path applies a transaction, the prechecked path applies the
same body without the decision of the policies. The two differ only on a
transfer that the policies redirect to another account.
-/

namespace Pwm

open BitVec Attempt

section FastPath

variable {C : Crypto} {genCfg : GenCfg} {tx : SignedTx} {h now : U64} {s s' : State} {u : Unit}
  {id : AccountId} {acc : Account}

/-- The structural checks that passed with the signature pass without it. -/
theorem validateShapeNoSig_of_validateTxShape (hok : validateTxShape C tx = .ok ()) :
    validateShapeNoSig C tx = .ok () := by
  rw [validateTxShape, validateTxShapeInner] at hok
  by_cases hsig : tx.verifySig C = true
  · simpa [validateShapeNoSig, validateTxShapeInner, hsig] using hok
  · simp [hsig] at hok
    cases hok

/-- No account transfers to itself. -/
theorem validateTxShape_transfer {toId : AccountId} {amount fee : U128}
    (hok : validateTxShape C tx = .ok ()) (hbody : tx.body = .transfer toId amount fee) :
    toId ≠ tx.computedAccountId C := by
  intro hself
  have hok := validateShapeNoSig_of_validateTxShape hok
  rw [validateShapeNoSig, validateTxShapeInner] at hok
  by_cases hdomain : domainOfAccountId (tx.computedAccountId C) = tx.domainCode
  · simp [hbody, hself, hdomain] at hok
    cases hok
  · simp [hdomain] at hok
    cases hok

/-- Where the plain path succeeds, the prechecked path comes to the arm of the body with the same
row, and no redirect. -/
theorem applyPrecheckedTx_body (hok : applyTxWithCtx C genCfg tx h now s = .ok u s') :
    ∃ acc redirTo, validateTxShape C tx = .ok () ∧
      (initStub C tx s).accounts[tx.computedAccountId C]? = some acc ∧
      policyGate C (initStub C tx s) tx h false = .ok redirTo ∧
      applyBody C genCfg tx h (tx.computedAccountId C) (signerRow acc tx) redirTo
        (initStub C tx s) = .ok () s' ∧
      ∀ s₁, applyPrecheckedTx C genCfg tx h now s = .ok () s₁ ↔
        applyBody C genCfg tx h (tx.computedAccountId C) (signerRow acc tx) none
          (initStub C tx s) = .ok () s₁ := by
  simp only [applyTxWithCtx, applyTxImpl, txPrologue, bind_ok_iff, liftExcept_ok_iff, modify_ok_iff,
    get_ok_iff, orThrow_ok_iff, require_ok_iff, pure_ok_iff] at hok
  obtain ⟨_, _, ⟨hshape, rfl⟩, _, _, rfl, _, _, ⟨_, _, ⟨rfl, rfl⟩, acc, _, ⟨hacc, rfl⟩, _, _,
    ⟨hsigner, rfl⟩, _, _, ⟨hnonce, rfl⟩, redirTo, _, ⟨hgate, rfl⟩, _, _, ⟨hpending, rfl⟩, rfl,
    rfl⟩, hbody⟩ := hok
  refine ⟨acc, redirTo, hshape, hacc, hgate, hbody, fun s₁ => ?_⟩
  constructor
  · intro hfast
    obtain ⟨acc', redirTo', hacc', _, hgate', _, hbody'⟩ := applyTxImpl_ok hfast
    obtain rfl := Option.some.inj (hacc.symm.trans hacc')
    obtain rfl := Except.ok.inj hgate'
    exact hbody'
  · intro hbody'
    simp only [applyPrecheckedTx, applyTxImpl, txPrologue, bind_ok_iff, liftExcept_ok_iff,
      modify_ok_iff, get_ok_iff, orThrow_ok_iff, require_ok_iff, pure_ok_iff]
    exact ⟨(), s, ⟨validateShapeNoSig_of_validateTxShape hshape, rfl⟩, (), _, rfl, _, _,
      ⟨_, _, ⟨rfl, rfl⟩, acc, _, ⟨hacc, rfl⟩, (), _, ⟨hsigner, rfl⟩, (), _, ⟨hnonce, rfl⟩, none, _,
        ⟨rfl, rfl⟩, (), _, ⟨hpending, rfl⟩, rfl, rfl⟩, hbody'⟩

/-- Only the destination of a transfer depends on the decision of the policies. -/
theorem applyBody_redirTo {redirTo : Option AccountId}
    (hsame : ∀ toId amount fee, tx.body = .transfer toId amount fee → redirTo.getD toId = toId) :
    applyBody C genCfg tx h id acc redirTo = applyBody C genCfg tx h id acc none := by
  unfold applyBody
  cases hbody : tx.body with
  | transfer toId amount fee =>
      simp only [applyTransfer]
      rw [hsame toId amount fee hbody, Option.getD_none]
  | _ => rfl

/-- A credit that leaves the row of an account as it is. -/
def CreditIdle (genCfg : GenCfg) (h : U64) (s : State) (amount : U128) (id : AccountId) : Prop :=
  ∀ a, s.accounts[id]? = some a → creditedRow genCfg h a amount = a

/-- A row written over itself. -/
theorem putAcc_of_row {a : Account} (ha : s.accounts[id]? = some a) : s.putAcc id a = s := by
  have hrows : s.accounts.insert id a = s.accounts := by
    apply Std.ExtTreeMap.ext_getElem?
    intro j
    have hget := getElem?_putAcc s id j a
    rw [putAcc_accounts] at hget
    rw [hget]
    by_cases hj : id = j
    · subst hj
      rw [if_pos rfl, ha]
    · rw [if_neg hj]
  simp only [State.putAcc, hrows]

theorem transferNow_run {dst : AccountId} {amount fee total balance : U128} {nonce : U64}
    {toAcc : Account} (hbalance : acc.balancePwm.checkedSub total = some balance)
    (hnonce : acc.nonce.checkedAdd 1#64 = some nonce) (hdst : dst ≠ id)
    (hto : s.accounts[dst]? = some toAcc) :
    transferNow genCfg h id acc dst amount fee total s =
      .ok () (((s.addFee fee).putAcc id (debitedRow genCfg h acc balance nonce)).putAcc dst
        (creditedRow genCfg h toAcc amount)) := by
  simp only [transferNow, bind_ok_iff, orThrow_ok_iff, modify_ok_iff, touchAcctMrks_balancePwm,
    touchAcctMrks_nonce, if_neg hdst, get_ok_iff]
  exact ⟨balance, s, ⟨hbalance, rfl⟩, nonce, s, ⟨hnonce, rfl⟩, (), _, rfl, _, _, ⟨rfl, rfl⟩, toAcc,
    _, ⟨hto, rfl⟩, rfl⟩

/-- A credit that saturates to the balance left by its own debit is a credit of nothing. -/
theorem amount_zero_of_idle {amount fee total balance paid : U128}
    (htotal : amount.checkedAdd fee = some total) (hbalance : paid.checkedSub total = some balance)
    (hidle : balance.saturatingAdd amount = balance) : amount = 0#128 := by
  have hsum := checkedAdd_eq_some_iff.mp htotal
  obtain ⟨hle, hleft⟩ := checkedSub_eq_some_iff.mp hbalance
  have hsat := congrArg BitVec.toNat hidle
  rw [toNat_saturatingAdd] at hsat
  have hpaid := paid.isLt
  apply BitVec.eq_of_toNat_eq
  rw [BitVec.toNat_ofNat]
  omega

/-- A redirected transfer that writes nothing to either destination. -/
structure RedirectIdle (genCfg : GenCfg) (h : U64) (s : State) (id toId dst : AccountId)
    (amount : U128) : Prop where
  now : conservationFlag id = false
  named : CreditIdle genCfg h s amount toId
  other : dst ≠ id → CreditIdle genCfg h s amount dst
  self : dst = id → amount = 0#128

section Transfer

variable {toId dst : AccountId} {amount fee : U128}

/-- What a transfer to an initialised recipient does, once the checks have passed. -/
theorem applyTransfer_named {total : U128} {toAcc : Account} (hinit : acc.initialized = true)
    (htotal : amount.checkedAdd fee = some total) (hle : total ≤ acc.balancePwm)
    (hrow : s.accounts[toId]? = some toAcc) (hto : toAcc.initialized = true)
    (hflag : conservationFlag id = false) {s₁ : State}
    (hok : transferNow genCfg h id acc toId amount fee total s = .ok () s₁) :
    applyTransfer C genCfg tx h id acc none toId amount fee s = .ok () s₁ := by
  have hrecipient : requireRecipient s toId = .ok () := by
    simp only [requireRecipient, hrow, if_pos hto]
  simp only [applyTransfer, bind_ok_iff, require_ok_iff, get_ok_iff, orThrow_ok_iff,
    Option.getD_none]
  refine ⟨(), s, ⟨hinit, rfl⟩, s, s, ⟨rfl, rfl⟩, (), s, ?_, total, s, ⟨htotal, rfl⟩, (), s,
    ⟨hle, rfl⟩, ?_⟩
  · rw [onlyIf_ok_iff]
    by_cases hself : toId = id
    · exact .inr ⟨not_not_intro hself, rfl⟩
    · exact .inl ⟨hself, liftExcept_ok_iff.mpr ⟨hrecipient, rfl⟩⟩
  · rw [hflag, if_neg Bool.false_ne_true]
    exact hok

/-- The state after the named credit is the state after the debit and the credit of the sender. -/
theorem named_eq_self_iff {toAcc : Account} {total balance : U128} {nonce : U64} (hto : toId ≠ id)
    (hrow : s.accounts[toId]? = some toAcc) (htotal : amount.checkedAdd fee = some total)
    (hbalance : acc.balancePwm.checkedSub total = some balance) :
    ((s.addFee fee).putAcc id (debitedRow genCfg h acc balance nonce)).putAcc toId
        (creditedRow genCfg h toAcc amount) =
      (s.addFee fee).putAcc id { debitedRow genCfg h acc balance nonce with
        balancePwm := balance.saturatingAdd amount } ↔
      amount = 0#128 ∧ creditedRow genCfg h toAcc amount = toAcc := by
  constructor
  · intro hsame
    have hself := congrArg (fun st : State => st.accounts[id]?) hsame
    have hnamed := congrArg (fun st : State => st.accounts[toId]?) hsame
    simp only [getElem?_putAcc, if_neg hto, if_neg hto.symm, if_true, addFee_accounts, hrow,
      Option.some.injEq] at hself hnamed
    exact ⟨amount_zero_of_idle htotal hbalance (congrArg Account.balancePwm hself).symm, hnamed⟩
  · rintro ⟨rfl, hcredit⟩
    rw [hcredit, saturatingAdd_zero]
    refine putAcc_of_row ?_
    rw [getElem?_putAcc, if_neg hto.symm, addFee_accounts, hrow]

/-- The state after the named credit is the state after the credit of another account. -/
theorem named_eq_other_iff {deb toAcc dstAcc : Account} (hto : toId ≠ id) (hdst : dst ≠ toId)
    (hne : dst ≠ id) (hrow : s.accounts[toId]? = some toAcc)
    (hdstrow : s.accounts[dst]? = some dstAcc) :
    ((s.addFee fee).putAcc id deb).putAcc toId (creditedRow genCfg h toAcc amount) =
        ((s.addFee fee).putAcc id deb).putAcc dst (creditedRow genCfg h dstAcc amount) ↔
      creditedRow genCfg h toAcc amount = toAcc ∧ creditedRow genCfg h dstAcc amount = dstAcc := by
  constructor
  · intro hsame
    have hnamed := congrArg (fun st : State => st.accounts[toId]?) hsame
    have hother := congrArg (fun st : State => st.accounts[dst]?) hsame
    simp only [getElem?_putAcc, if_neg hdst, if_neg hdst.symm, if_neg hto.symm, if_neg hne.symm,
      if_true, addFee_accounts, hrow, hdstrow, Option.some.injEq] at hnamed hother
    exact ⟨hnamed, hother.symm⟩
  · rintro ⟨hnamed, hother⟩
    rw [hnamed, hother]
    calc ((s.addFee fee).putAcc id deb).putAcc toId toAcc = (s.addFee fee).putAcc id deb := by
          refine putAcc_of_row ?_
          rw [getElem?_putAcc, if_neg hto.symm, addFee_accounts, hrow]
      _ = ((s.addFee fee).putAcc id deb).putAcc dst dstAcc := by
          refine (putAcc_of_row ?_).symm
          rw [getElem?_putAcc, if_neg hne.symm, addFee_accounts, hdstrow]

/-- A credit idle on an account is idle on its row. -/
theorem creditIdle_iff {a : Account} (ha : s.accounts[id]? = some a) :
    CreditIdle genCfg h s amount id ↔ creditedRow genCfg h a amount = a := by
  constructor
  · exact fun hall => hall a ha
  · intro hone b hb
    obtain rfl := Option.some.inj (ha.symm.trans hb)
    exact hone

/-- A transfer that the policies redirected to another account comes out the same without the
redirect only if it writes nothing to either destination. -/
theorem redirected_transfer_iff {toAcc : Account} (hto : toId ≠ id) (hdst : dst ≠ toId)
    (hrow : s.accounts[toId]? = some toAcc) (hinit : toAcc.initialized = true)
    (hplain : applyTransfer C genCfg tx h id acc (some dst) toId amount fee s = .ok u s') :
    applyTransfer C genCfg tx h id acc none toId amount fee s = .ok () s' ↔
      RedirectIdle genCfg h s id toId dst amount := by
  obtain ⟨haccinit, total, htotal, hle, ⟨hflag, hqueue⟩ | ⟨hflag, hnow⟩⟩ := applyTransfer_ok hplain
  · obtain ⟨_, feePwm, _, rfl⟩ := enqueueConservation_ok hqueue
    constructor
    · intro hfast
      obtain ⟨_, _, _, _, ⟨_, hqueue'⟩ | ⟨hnoflag, _⟩⟩ := applyTransfer_ok hfast
      · obtain ⟨_, feePwm', _, hsame⟩ := enqueueConservation_ok hqueue'
        have hrows := congrArg State.pendingConservation hsame
        have hrecipient := congrArg PendingConservationTransfer.recipient
          (List.singleton_inj.mp (List.append_cancel_left hrows))
        exact absurd hrecipient hdst
      · rw [hflag] at hnoflag
        cases hnoflag
    · intro hidle
      rw [hidle.now] at hflag
      cases hflag
  · rw [Option.getD_some] at hnow
    obtain ⟨balance, nonce, hbalance, hnonce, hcase⟩ := transferNow_ok hnow
    have hfast : applyTransfer C genCfg tx h id acc none toId amount fee s =
        .ok () (((s.addFee fee).putAcc id (debitedRow genCfg h acc balance nonce)).putAcc toId
          (creditedRow genCfg h toAcc amount)) :=
      applyTransfer_named haccinit htotal hle hrow hinit hflag
        (transferNow_run hbalance hnonce hto hrow)
    rw [hfast, EStateM.Result.ok.injEq, eq_self_iff_true, true_and]
    obtain ⟨rfl, rfl⟩ | ⟨hne, dstAcc, hdstrow, rfl⟩ := hcase
    · refine (named_eq_self_iff hto hrow htotal hbalance).trans ?_
      rw [← creditIdle_iff hrow]
      constructor
      · rintro ⟨hzero, hidle⟩
        exact ⟨hflag, hidle, fun hne => absurd rfl hne, fun _ => hzero⟩
      · exact fun hidle => ⟨hidle.self rfl, hidle.named⟩
    · rw [named_eq_other_iff hto hdst hne hrow hdstrow, ← creditIdle_iff hrow,
        ← creditIdle_iff hdstrow]
      constructor
      · rintro ⟨hnamed, hother⟩
        exact ⟨hflag, hnamed, fun _ => hother, fun heq => absurd heq hne⟩
      · exact fun hidle => ⟨hidle.named, hidle.other hne⟩

end Transfer

/-- Only transfers are redirected, by the policies of an initialised recipient. -/
theorem evaluatePolicy_redirect {dst : AccountId}
    (hredirect : s.evaluatePolicy C tx h = .redirect dst) :
    ∃ toId amount fee a, tx.body = .transfer toId amount fee ∧ s.accounts[toId]? = some a ∧
      a.initialized = true := by
  simp only [State.evaluatePolicy] at hredirect
  cases hsender : s.accounts[tx.computedAccountId C]? with
  | none => simp [hsender] at hredirect
  | some senderAcc =>
      simp only [hsender] at hredirect
      split_ifs at hredirect
      cases hbody : tx.body with
      | transfer toId amount fee =>
          simp only [hbody] at hredirect
          cases hrow : s.initializedAcc toId with
          | none => simp [hrow] at hredirect
          | some a =>
              obtain ⟨ha, hinit⟩ := Option.filter_eq_some_iff.mp hrow
              exact ⟨toId, amount, fee, a, rfl, ha, hinit⟩
      | policy targetAccount action fee =>
          simp only [hbody] at hredirect
          split at hredirect
          · split_ifs at hredirect
          · cases hredirect
      | _ => simp [hbody] at hredirect

/-- Where the plain path ends in a state, the prechecked path ends in the same state, unless the
policies redirect a transfer to another account than the one it names; then it does so only when the
transfer writes nothing to either account. -/
theorem prechecked_agrees_iff (hok : applyTxWithCtx C genCfg tx h now s = .ok () s') :
    applyPrecheckedTx C genCfg tx h now s = .ok () s' ↔
      ∀ toId amount fee dst, tx.body = .transfer toId amount fee →
        s.evaluatePolicy C tx h = .redirect dst → dst ≠ toId →
          RedirectIdle genCfg h s (tx.computedAccountId C) toId dst amount := by
  obtain ⟨acc, redirTo, hshape, _, hgate, hbody, hfast⟩ := applyPrecheckedTx_body hok
  rw [hfast]
  have hstub : ∀ toId amount fee, tx.body = .transfer toId amount fee → initStub C tx s = s := by
    intro toId amount fee htx
    rw [initStub, htx]
  by_cases hredirect : ∃ toId amount fee dst, tx.body = .transfer toId amount fee ∧
      s.evaluatePolicy C tx h = .redirect dst ∧ dst ≠ toId
  · obtain ⟨toId, amount, fee, dst, htx, hpolicy, hdst⟩ := hredirect
    rw [hstub toId amount fee htx] at hgate hbody ⊢
    simp only [policyGate, hpolicy, Bool.false_eq_true, if_false] at hgate
    obtain rfl := Except.ok.inj hgate
    simp only [applyBody, htx] at hbody ⊢
    obtain ⟨toId', amount', fee', toAcc, htx', hrow, hinit⟩ := evaluatePolicy_redirect hpolicy
    obtain ⟨rfl, rfl, rfl⟩ := TxBody.transfer.inj (htx.symm.trans htx')
    rw [redirected_transfer_iff (validateTxShape_transfer hshape htx) hdst hrow hinit hbody]
    constructor
    · rintro hidle toId' amount' fee' dst' heq hpolicy' _
      obtain ⟨rfl, rfl, rfl⟩ := TxBody.transfer.inj heq
      obtain rfl := PolicyDecision.redirect.inj (hpolicy.symm.trans hpolicy')
      exact hidle
    · exact fun hall => hall toId amount fee dst rfl hpolicy hdst
  · have hsame : ∀ toId amount fee, tx.body = .transfer toId amount fee →
        redirTo.getD toId = toId := by
      intro toId amount fee htx
      rw [hstub toId amount fee htx, policyGate, if_neg Bool.false_ne_true] at hgate
      cases hpolicy : s.evaluatePolicy C tx h with
      | reject e => simp [hpolicy] at hgate
      | allow =>
          rw [hpolicy] at hgate
          rw [← Except.ok.inj hgate, Option.getD_none]
      | redirect dst =>
          rw [hpolicy] at hgate
          rw [← Except.ok.inj hgate, Option.getD_some]
          by_contra hdst
          exact hredirect ⟨toId, amount, fee, dst, htx, hpolicy, hdst⟩
    rw [applyBody_redirTo hsame] at hbody
    constructor
    · intro _ toId amount fee dst htx hpolicy hdst
      exact absurd ⟨toId, amount, fee, dst, htx, hpolicy, hdst⟩ hredirect
    · exact fun _ => hbody

end FastPath

/-! ## A redirected transfer -/

namespace Redirected

/-- The recipient has activated its redirect to the devnet account. -/
def afterActivate : State :=
  endState (applyTxWithCtx SelfDrain.crypto devNet SelfDrain.activateTx 2#64 0#64
    SelfDrain.afterInit)

def afterPlain : State :=
  endState (applyTxWithCtx SelfDrain.crypto devNet SelfDrain.transferTx 3#64 0#64 afterActivate)

def afterFast : State :=
  endState (applyPrecheckedTx SelfDrain.crypto devNet SelfDrain.transferTx 3#64 0#64 afterActivate)

end Redirected

/-- Both paths queue the transfer: the plain one to the rescue address, the prechecked one to the
finalized account. -/
theorem prechecked_drops_redirect :
    Run (PolicyStep SelfDrain.crypto devNet) devNet.state0
        [.applied SelfDrain.initTx, .applied SelfDrain.activateTx] Redirected.afterActivate ∧
      Redirected.afterActivate.evaluatePolicy SelfDrain.crypto SelfDrain.transferTx 3#64 =
        .redirect devNetRow.acct ∧
      applyTxWithCtx SelfDrain.crypto devNet SelfDrain.transferTx 3#64 0#64
        Redirected.afterActivate = .ok () Redirected.afterPlain ∧
      applyPrecheckedTx SelfDrain.crypto devNet SelfDrain.transferTx 3#64 0#64
        Redirected.afterActivate = .ok () Redirected.afterFast ∧
      Redirected.afterPlain.pendingConservation.map PendingConservationTransfer.recipient =
        [devNetRow.acct] ∧
      Redirected.afterFast.pendingConservation.map PendingConservationTransfer.recipient =
        [SelfDrain.rescuedId] ∧
      Redirected.afterPlain ≠ Redirected.afterFast := by
  have hactivate : applyTxWithCtx SelfDrain.crypto devNet SelfDrain.activateTx 2#64 0#64
      SelfDrain.afterInit = .ok () Redirected.afterActivate := by
    decide +kernel
  have hrun := ((Run.nil _).snoc (policyStep_applied SelfDrain.init_applied)).snoc
    (policyStep_applied hactivate)
  refine ⟨hrun, ?_⟩
  refine ⟨?_, ?_, ?_, ?_, ?_, ?_⟩ <;> decide +kernel

/-- A transfer that is not redirected takes both paths to the same state. -/
theorem prechecked_agrees_unredirected :
    applyPrecheckedTx SelfDrain.crypto devNet SelfDrain.transferTx 1#64 0#64 SelfDrain.afterInit =
      .ok () SelfDrain.afterTransfer := by
  refine (prechecked_agrees_iff SelfDrain.transfer_applied).mpr ?_
  intro toId amount fee dst _ hredirect
  have hallow : SelfDrain.afterInit.evaluatePolicy SelfDrain.crypto SelfDrain.transferTx 1#64 =
      .allow := by
    decide +kernel
  rw [hallow] at hredirect
  cases hredirect

end Pwm
