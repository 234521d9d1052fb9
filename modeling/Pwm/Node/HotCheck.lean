import Pwm.Ledger.FastPath
import Pwm.Ledger.OwnIds
import Pwm.Node.Worker

/-!
# The short check of a transfer

Between accounts without flags and policies the worker checks a transfer on
the published rows alone. Both checks pass the same transfers, but for those
that would raise the largest nonce: there the dry run of the full check traps.
-/

namespace Pwm

open Attempt

section Rows

variable {C : Crypto} {st : State} {tx : SignedTx} {id toId : AccountId} {amount fee : U128}
  {acc sender recipient : Account} {h : U64}

/-- What a hot row without flags and policies says of its account. -/
structure Plain (id : AccountId) (acc : Account) : Prop where
  active : acc.activePolicies = 0#16
  deferred : acc.deferredPolicies = []
  finalized : acc.finalized = false
  cosign : cosignNonDis id = false
  conservation : conservationFlag id = false

theorem and_eq_zero_of_or {x a b : U32} (h : x &&& (a ||| b) = 0#32) :
    x &&& a = 0#32 ∧ x &&& b = 0#32 := by
  rw [BitVec.and_or_distrib_left] at h
  exact BitVec.or_eq_zero_iff.mp h

theorem plain_of_hotSafe (hsafe : hotSafe (accountHot id acc) = true) : Plain id acc := by
  simp only [hotSafe, accountHot, decide_eq_true_eq, BitVec.or_eq_zero_iff] at hsafe
  obtain ⟨⟨-, hflags⟩, hpolicies⟩ := hsafe
  obtain ⟨hcosign, hconservation⟩ := and_eq_zero_of_or hflags
  split at hpolicies
  · exact absurd hpolicies (by decide)
  · rename_i hnone
    simp only [not_or, not_not, Bool.not_eq_true] at hnone
    obtain ⟨hactive, -, hdeferred, hfinalized, -⟩ := hnone
    constructor
    · exact hactive
    · exact hdeferred
    · exact hfinalized
    · rw [cosignNonDis, hcosign, decide_eq_false (not_not_intro rfl)]
    · rw [conservationFlag, hconservation, decide_eq_false (not_not_intro rfl)]

theorem Plain.inactive (hplain : Plain id acc) (policy : PolicyKind) (h : U64) :
    policyIsActiveAt acc policy h = false := by
  rw [policyIsActiveAt, hplain.active, hplain.deferred]
  simp

/-- The policies let a transfer between plain accounts pass at every height. -/
theorem evaluatePolicy_plain (hbody : tx.body = .transfer toId amount fee)
    (hsender : st.accounts[tx.computedAccountId C]? = some sender)
    (hrecipient : st.accounts[toId]? = some recipient)
    (hplain : Plain (tx.computedAccountId C) sender) (hplain' : Plain toId recipient) (h : U64) :
    st.evaluatePolicy C tx h = .allow := by
  have hrecipientPolicy : ∀ senderId, recipientPolicy st senderId toId recipient h = .allow := by
    intro senderId
    simp [recipientPolicy, hplain'.finalized, hplain'.inactive]
  simp only [State.evaluatePolicy, hsender, hplain.finalized, hplain.cosign, hbody,
    Bool.false_eq_true, false_and, if_false]
  cases hinit : st.initializedAcc toId with
  | none => rfl
  | some acc =>
      rw [State.initializedAcc, hrecipient] at hinit
      obtain ⟨hacc, -⟩ := Option.filter_eq_some_iff.mp hinit
      rw [← Option.some.inj hacc]
      exact hrecipientPolicy _

theorem checkHotTransfer_ok_iff {nonce : U64} {sender recipient : AccountHot} :
    checkHotTransfer nonce amount fee sender recipient = .ok () ↔
      sender.initialized = true ∧ recipient.initialized = true ∧ nonce = sender.nonce ∧
        ∃ total, amount.checkedAdd fee = some total ∧ total ≤ sender.balance := by
  unfold checkHotTransfer
  by_cases hsender : sender.initialized = true
  · by_cases hrecipient : recipient.initialized = true
    · by_cases hnonce : nonce = sender.nonce
      · cases htotal : amount.checkedAdd fee with
        | none => simp [hsender, hrecipient, hnonce]
        | some total => simp [hsender, hrecipient, hnonce, BitVec.not_lt]
      · simp [hsender, hrecipient, hnonce]
    · simp [hsender, hrecipient]
  · simp [hsender]

/-- A transfer between initialised accounts, with the next nonce of the sender and within its
balance. -/
def TransferInOrder (C : Crypto) (st : State) (tx : SignedTx) : Prop :=
  ∃ toId amount fee sender recipient total, tx.body = .transfer toId amount fee ∧
    st.accounts[tx.computedAccountId C]? = some sender ∧ st.accounts[toId]? = some recipient ∧
    sender.initialized = true ∧ recipient.initialized = true ∧ tx.nonce = sender.nonce ∧
    amount.checkedAdd fee = some total ∧ total ≤ sender.balancePwm

/-- The key behind the sender's row is the one that signed, when both have the same address. -/
def NoKeyCollision (C : Crypto) (st : State) (tx : SignedTx) : Prop :=
  ∀ acc : Account, st.accounts[tx.computedAccountId C]? = some acc →
    accountIdFromParts C acc.signingPubkey acc.derivationIndex = tx.computedAccountId C →
      acc.signingPubkey = tx.signerPk ∧ acc.derivationIndex = tx.derivationIndex

theorem applyTransfer_recipient {genCfg : GenCfg} {s s' : State} {u : Unit}
    (hok : applyTransfer C genCfg tx h id acc none toId amount fee s = .ok u s')
    (hto : toId ≠ id) : requireRecipient s toId = .ok () := by
  simp only [applyTransfer, bind_ok_iff, require_ok_iff, get_ok_iff] at hok
  obtain ⟨_, _, ⟨_, rfl⟩, _, _, ⟨rfl, rfl⟩, _, s₁, hgate, _⟩ := hok
  rcases onlyIf_ok_iff.mp hgate with ⟨_, hrecipient⟩ | ⟨hself, _⟩
  · exact (liftExcept_ok_iff.mp hrecipient).1
  · exact absurd hto hself

/-- A transfer between plain accounts takes effect when it is in order, its nonce can be raised
and the key is the signer's. -/
theorem applyTxWithCtx_plain_iff {genCfg : GenCfg} {now : U64} {s : State}
    (hbody : tx.body = .transfer toId amount fee) (hshape : validateTxShape C tx = .ok ())
    (hown : s.OwnIds C) (hkeys : NoKeyCollision C s tx)
    (hsender : s.accounts[tx.computedAccountId C]? = some sender)
    (hrecipient : s.accounts[toId]? = some recipient)
    (hplain : Plain (tx.computedAccountId C) sender) (hplain' : Plain toId recipient) :
    (∃ s', applyTxWithCtx C genCfg tx h now s = .ok () s') ↔
      TransferInOrder C s tx ∧ tx.nonce ≠ BitVec.allOnes 64 := by
  have hto := validateTxShape_transfer hshape hbody
  have hstub : initStub C tx s = s := by simp only [initStub, hbody]
  have hgate : policyGate C s tx h false = .ok none := by
    simp [policyGate, evaluatePolicy_plain hbody hsender hrecipient hplain hplain' h]
  constructor
  · rintro ⟨s', hok⟩
    obtain ⟨acc, redirTo, hacc, hnonce, hgate', -, hrun⟩ := applyTxImpl_ok hok
    rw [hstub] at hacc hgate' hrun
    obtain rfl := Option.some.inj (hsender.symm.trans hacc)
    obtain rfl := Except.ok.inj (hgate.symm.trans hgate')
    rw [applyBody, hbody] at hrun
    have hrow := applyTransfer_recipient hrun hto
    obtain ⟨hinit, total, htotal, hle, hmove⟩ := applyTransfer_ok hrun
    have hready : sender.initialized = true := by
      by_contra hnot
      simp [signerRow, hnot] at hinit
    have hready' : recipient.initialized = true := by
      by_contra hnot
      simp [requireRecipient, hrecipient, hnot] at hrow
    rw [signerRow_balancePwm] at hle
    refine ⟨⟨toId, amount, fee, sender, recipient, total, hbody, hsender, hrecipient, hready, hready',
      hnonce.symm, htotal, hle⟩, fun hmax => ?_⟩
    rcases hmove with ⟨hflag, -⟩ | ⟨-, hnow⟩
    · have hboth := hflag.symm.trans hplain.conservation
      cases hboth
    · obtain ⟨_, nonce, -, hnext, -⟩ := transferNow_ok hnow
      rw [signerRow_nonce, hnonce, hmax] at hnext
      cases hnext
  · rintro ⟨⟨toId', amount', fee', sender', recipient', total, hbody', hsender', hrecipient', hready,
      hready', hnonce, htotal, hle⟩, hmax⟩
    obtain ⟨rfl, rfl, rfl⟩ := TxBody.transfer.inj (hbody.symm.trans hbody')
    obtain rfl := Option.some.inj (hsender.symm.trans hsender')
    obtain rfl := Option.some.inj (hrecipient.symm.trans hrecipient')
    have hkey := hkeys sender hsender (hown _ _ hsender hready)
    have hsigner : signerRow sender tx = sender := if_pos hready
    obtain ⟨balance, hbalance⟩ : ∃ balance, sender.balancePwm.checkedSub total = some balance :=
      ⟨_, if_pos hle⟩
    obtain ⟨nonce, hnext⟩ : ∃ nonce, sender.nonce.checkedAdd 1#64 = some nonce := by
      rw [← hnonce]
      cases hadd : tx.nonce.checkedAdd 1#64 with
      | some nonce => exact ⟨nonce, rfl⟩
      | none =>
          have hover := BitVec.checkedAdd_eq_none_iff.mp hadd
          have hone : (1#64 : U64).toNat = 1 := rfl
          have hlt := tx.nonce.isLt
          refine absurd (BitVec.eq_of_toNat_eq ?_) hmax
          rw [BitVec.toNat_allOnes]
          omega
    obtain ⟨s₁, hmove⟩ : ∃ s₁, applyTransfer C genCfg tx h (tx.computedAccountId C) sender none
        toId amount fee s = .ok () s₁ :=
      ⟨_, applyTransfer_named hready htotal hle hrecipient hready' hplain.conservation
        (transferNow_run hbalance hnext hto hrecipient)⟩
    refine ⟨s₁, ?_⟩
    simp only [applyTxWithCtx, applyTxImpl, txPrologue, bind_ok_iff, liftExcept_ok_iff, modify_ok_iff,
      get_ok_iff, orThrow_ok_iff, require_ok_iff, pure_ok_iff]
    refine ⟨(), s, ⟨hshape, rfl⟩, (), s, hstub, (sender, none), s, ⟨s, s, ⟨rfl, rfl⟩, sender, s,
      ⟨hsender, rfl⟩, (), s, ⟨fun _ => hkey, rfl⟩, (), s, ⟨hnonce.symm, rfl⟩, none, s, ⟨hgate, rfl⟩,
      (), s, ⟨?_, rfl⟩, by rw [hsigner], rfl⟩, ?_⟩
    · rw [hbody]
      simp [pendingTxConflict]
    · rw [applyBody, hbody]
      exact hmove

end Rows

/-! ## The two checks -/

section Checks

variable {C : Crypto} {ctx : WorkerCtx} {tx : SignedTx} {d : Except WorkerFault Unit}
  {now : Except String U64}

/-- When the short check decides, it has read the rows of two plain accounts. -/
theorem precheckHot_some (hindex : ctx.hotIndex = buildMap ctx.snapshot)
    (hhot : precheckHot C ctx tx = some d) :
    ∃ toId amount fee sender recipient, tx.body = .transfer toId amount fee ∧
      ctx.snapshot.accounts[tx.computedAccountId C]? = some sender ∧
      ctx.snapshot.accounts[toId]? = some recipient ∧
      Plain (tx.computedAccountId C) sender ∧ Plain toId recipient ∧
      d = checkHotTransfer tx.nonce amount fee (accountHot (tx.computedAccountId C) sender)
        (accountHot toId recipient) := by
  unfold precheckHot at hhot
  cases hbody : tx.body with
  | transfer toId amount fee =>
      rw [hbody, hindex] at hhot
      dsimp only at hhot
      rw [buildMap, Std.ExtTreeMap.getElem?_map, Std.ExtTreeMap.getElem?_map] at hhot
      cases hsender : ctx.snapshot.accounts[tx.computedAccountId C]? with
      | none => simp [hsender] at hhot
      | some sender =>
          cases hrecipient : ctx.snapshot.accounts[toId]? with
          | none => simp [hsender, hrecipient] at hhot
          | some recipient =>
              rw [hsender, hrecipient] at hhot
              simp only [Option.map_some] at hhot
              split at hhot
              · cases hhot
              · rename_i hsafe
                obtain ⟨hsafe, hsafe'⟩ := not_or.mp hsafe
                exact ⟨toId, amount, fee, sender, recipient, rfl, rfl, hrecipient,
                  plain_of_hotSafe (not_not.mp hsafe), plain_of_hotSafe (not_not.mp hsafe'),
                  (Option.some.inj hhot).symm⟩
  | _ => simp [hbody] at hhot

theorem precheckHot_ok_iff (hindex : ctx.hotIndex = buildMap ctx.snapshot)
    (hhot : precheckHot C ctx tx = some d) :
    d = .ok () ↔ TransferInOrder C ctx.snapshot tx := by
  obtain ⟨toId, amount, fee, sender, recipient, hbody, hsender, hrecipient, -, -, rfl⟩ :=
    precheckHot_some hindex hhot
  rw [checkHotTransfer_ok_iff]
  constructor
  · rintro ⟨hready, hready', hnonce, total, htotal, hle⟩
    exact ⟨toId, amount, fee, sender, recipient, total, hbody, hsender, hrecipient, hready, hready',
      hnonce, htotal, hle⟩
  · rintro ⟨toId', amount', fee', sender', recipient', total, hbody', hsender', hrecipient', hready,
      hready', hnonce, htotal, hle⟩
    obtain ⟨rfl, rfl, rfl⟩ := TxBody.transfer.inj (hbody.symm.trans hbody')
    obtain rfl := Option.some.inj (hsender.symm.trans hsender')
    obtain rfl := Option.some.inj (hrecipient.symm.trans hrecipient')
    exact ⟨hready, hready', hnonce, total, htotal, hle⟩

/-- The full check of a transfer between plain accounts. -/
theorem precheckFull_plain_iff (hindex : ctx.hotIndex = buildMap ctx.snapshot)
    (hshape : validateTxShape C tx = .ok ()) (hown : ctx.snapshot.OwnIds C)
    (hkeys : NoKeyCollision C ctx.snapshot tx) (hhot : precheckHot C ctx tx = some d) :
    precheckFull C ctx tx now = .ok () ↔
      TransferInOrder C ctx.snapshot tx ∧ tx.nonce ≠ BitVec.allOnes 64 ∧ ∃ nextTs, now = .ok nextTs := by
  obtain ⟨toId, amount, fee, sender, recipient, hbody, hsender, hrecipient, hplain, hplain', -⟩ :=
    precheckHot_some hindex hhot
  have hallow := evaluatePolicy_plain hbody hsender hrecipient hplain hplain' ctx.tipHeight
  have hinit : isInit tx.body = false := by
    rw [hbody]
    rfl
  constructor
  · intro hok
    obtain ⟨-, nextTs, s', hrun⟩ := precheckFull_ok C ctx tx hok hinit
    obtain ⟨horder, hmax⟩ := (applyTxWithCtx_plain_iff hbody hshape hown hkeys hsender hrecipient
      hplain hplain').mp ⟨s', hrun⟩
    refine ⟨horder, hmax, ?_⟩
    cases now with
    | ok nextTs => exact ⟨nextTs, rfl⟩
    | error msg => simp [precheckFull, hallow] at hok
  · rintro ⟨horder, hmax, nextTs, rfl⟩
    obtain ⟨s', hrun⟩ := (applyTxWithCtx_plain_iff hbody hshape hown hkeys hsender hrecipient
      hplain hplain').mpr ⟨horder, hmax⟩
    simp only [precheckFull, hallow, ne_eq, not_true_eq_false, and_false, if_false,
      State.precheckApplyWithCtx]
    rw [hrun]

/-- Both checks pass the same transfers, except one in order whose nonce is the largest or that
comes when the clock cannot be read. -/
theorem precheckHot_agrees_iff (hindex : ctx.hotIndex = buildMap ctx.snapshot)
    (hshape : validateTxShape C tx = .ok ()) (hown : ctx.snapshot.OwnIds C)
    (hkeys : NoKeyCollision C ctx.snapshot tx) (hhot : precheckHot C ctx tx = some d) :
    (d = .ok () ↔ precheckFull C ctx tx now = .ok ()) ↔
      ¬ (TransferInOrder C ctx.snapshot tx ∧
        (tx.nonce = BitVec.allOnes 64 ∨ ∃ msg, now = .error msg)) := by
  rw [precheckHot_ok_iff hindex hhot, precheckFull_plain_iff hindex hshape hown hkeys hhot]
  constructor
  · rintro hagree ⟨horder, hmax | ⟨msg, rfl⟩⟩
    · exact (hagree.mp horder).2.1 hmax
    · obtain ⟨-, -, nextTs, hnow⟩ := hagree.mp horder
      cases hnow
  · intro hnot
    constructor
    · intro horder
      refine ⟨horder, fun hmax => hnot ⟨horder, .inl hmax⟩, ?_⟩
      cases now with
      | ok nextTs => exact ⟨nextTs, rfl⟩
      | error msg => exact absurd ⟨horder, .inr ⟨msg, rfl⟩⟩ hnot
    · exact fun hfull => hfull.1

end Checks

/-! ## The last nonce -/

namespace LargestNonce

open SelfDrain (rescuedId rescuedPk rescuedSk)

/-- Another address of the same key. -/
def otherId : AccountId :=
  0x32b2b09a2028f6d54e0369b13c56cbb37f02cbdce74e34f49f3f95723cae7a67#256

def state (nonce : U64) : State where
  accounts :=
    ((∅ : AccountMap).insert rescuedId
      { Account.genesisFunded rescuedPk 0#32 1000#128 with nonce := nonce }).insert otherId
      (Account.genesisFunded rescuedPk 7#32 0#128)

def ctx (nonce : U64) : WorkerCtx where
  snapshot := state nonce
  hotIndex := buildMap (state nonce)
  tipHeight := 1#64
  cfg := devNet

def transferTx (nonce : U64) (signature : Bytes64) : SignedTx where
  domainCode := 0x324f#16
  signerPk := rescuedPk
  derivationIndex := 0#32
  nonce := nonce
  body := .transfer otherId 10#128 1#128
  signature := signature

def firstTx : SignedTx := transferTx 0#64
  0xb08bc40785f6bea3e5e7d5e7a60bccd275c9da7bde8900a7ef9b28256026bab172c3bb6459f35d9bf98d22c480b2d4cdfa857ed2ece53c2e1567892aac15c80a#512

def lastTx : SignedTx := transferTx (BitVec.allOnes 64)
  0xb87ef9327d952553856b0a3a9ed5cf974b6dcbc144ee4f79bb228cbc59be42656e33d715341ea53dbda6784abd67651b403e3aa9744a6fe1d813a8b45a80c207#512

def crypto : Crypto :=
  .ofTables
    [(rescuedPk.beBytes 32 ++ (0#32).leBytes 4, rescuedId),
      (rescuedPk.beBytes 32 ++ (7#32).leBytes 4, otherId)]
    [⟨rescuedSk, rescuedPk, [(firstTx.signingMessage, firstTx.signature),
      (lastTx.signingMessage, lastTx.signature)]⟩]

theorem accounts_some {nonce : U64} {id : AccountId} {acc : Account}
    (hacc : (state nonce).accounts[id]? = some acc) :
    acc.signingPubkey = rescuedPk ∧
      (id = otherId ∧ acc.derivationIndex = 7#32 ∨ id = rescuedId ∧ acc.derivationIndex = 0#32) := by
  rw [state, Std.ExtTreeMap.getElem?_insert, Std.ExtTreeMap.getElem?_insert] at hacc
  split at hacc
  · rename_i hid
    obtain rfl := Option.some.inj hacc
    exact ⟨rfl, .inl ⟨(Std.LawfulEqCmp.eq_of_compare hid).symm, rfl⟩⟩
  · split at hacc
    · rename_i hid
      obtain rfl := Option.some.inj hacc
      exact ⟨rfl, .inr ⟨(Std.LawfulEqCmp.eq_of_compare hid).symm, rfl⟩⟩
    · cases hacc

theorem ownIds (nonce : U64) : (state nonce).OwnIds crypto := by
  intro id acc hacc _
  obtain ⟨hkey, ⟨rfl, hindex⟩ | ⟨rfl, hindex⟩⟩ := accounts_some hacc
  · rw [hkey, hindex]
    decide
  · rw [hkey, hindex]
    decide

theorem computedId (nonce : U64) (signature : Bytes64) :
    (transferTx nonce signature).computedAccountId crypto = rescuedId := by
  simp only [SignedTx.computedAccountId, transferTx]
  decide

theorem noKeyCollision (nonce : U64) (signature : Bytes64) :
    NoKeyCollision crypto (state nonce) (transferTx nonce signature) := by
  intro acc hacc _
  rw [computedId] at hacc
  obtain ⟨hkey, ⟨hid, -⟩ | ⟨-, hindex⟩⟩ := accounts_some hacc
  · exact absurd hid (by decide)
  · exact ⟨hkey, hindex⟩

end LargestNonce

/-- The short check passes a transfer with the largest nonce; the dry run of the full one traps. -/
theorem lastNonce_disagrees :
    validateTxShape LargestNonce.crypto LargestNonce.lastTx = .ok () ∧
      precheckHot LargestNonce.crypto (LargestNonce.ctx (BitVec.allOnes 64)) LargestNonce.lastTx =
        some (.ok ()) ∧
      precheckFull LargestNonce.crypto (LargestNonce.ctx (BitVec.allOnes 64)) LargestNonce.lastTx
        (.ok 0#64) = .error .panic := by
  refine ⟨?_, ?_, ?_⟩
  · decide +kernel
  · decide
  · decide +kernel

/-- Both checks pass the first transfer. -/
theorem firstNonce_agrees :
    precheckFull LargestNonce.crypto (LargestNonce.ctx 0#64) LargestNonce.firstTx (.ok 0#64) = .ok () := by
  have hshape : validateTxShape LargestNonce.crypto LargestNonce.firstTx = .ok () := by
    decide +kernel
  have hhot : precheckHot LargestNonce.crypto (LargestNonce.ctx 0#64) LargestNonce.firstTx =
      some (.ok ()) := by
    decide
  have hagree := (@precheckHot_agrees_iff LargestNonce.crypto (LargestNonce.ctx 0#64) LargestNonce.firstTx
    (.ok ()) (.ok 0#64) rfl hshape (LargestNonce.ownIds 0#64) (LargestNonce.noKeyCollision 0#64 _)
    hhot).mpr ?_
  · exact hagree.mp rfl
  · rintro ⟨-, hmax | ⟨msg, hmsg⟩⟩
    · exact absurd hmax (by decide)
    · cases hmsg

end Pwm
