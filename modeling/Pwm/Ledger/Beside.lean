import Pwm.Lib.TwoRuns
import Pwm.Ledger.Epochs
import Pwm.Ledger.Pending
import Pwm.Ledger.Rows
import Pwm.Ledger.Settlement

/-!
# Ledgers that differ in refunds

A dry run on the ledger of the tip and the run inside a seal start from two
ledgers: the seal has rolled the epoch and refunded the locks that are due.
Transactions whose signers are refunded nothing, and which import no export
that is refunded, cannot tell the two apart.
-/

namespace Pwm

open BitVec Attempt

/-! ## Rows and locks side by side -/

/-- Two rows that differ in nothing but their balance and marks. -/
def SameStanding (a b : Account) : Prop :=
  b = { a with
    balancePwm := b.balancePwm, storedMarks := b.storedMarks, marksLastBlock := b.marksLastBlock }

namespace SameStanding

variable {a b : Account}

theorem refl (a : Account) : SameStanding a a := rfl

theorem initialized (h : SameStanding a b) : a.initialized = b.initialized := by rw [h]
theorem signingPubkey (h : SameStanding a b) : a.signingPubkey = b.signingPubkey := by rw [h]

theorem policyIsActiveAt (h : SameStanding a b) (policy : PolicyKind) (height : U64) :
    policyIsActiveAt a policy height = policyIsActiveAt b policy height := by
  rw [h]
  rfl

theorem with_balance (h : SameStanding a b) (x y : U128) :
    SameStanding { a with balancePwm := x } { b with balancePwm := y } := by
  rw [h]
  rfl

theorem touch (h : SameStanding a b) (height : U64) (genCfg : GenCfg) :
    SameStanding (touchAcctMrks a height genCfg) (touchAcctMrks b height genCfg) := by
  rw [h]
  rfl

end SameStanding

/-- Two locks of one export, in one state unless the export is set apart. -/
def LockBeside (D : Bytes32 → Prop) (a b : CrossShardLock) : Prop :=
  a.exportId = b.exportId ∧ (¬ D a.exportId → a.state = b.state)

/-- Two ledgers that differ in the funds of accounts outside of `P`, in how the exports in `D`
are settled, and in what no transaction reads. -/
structure Beside (P : AccountId → Prop) (D : Bytes32 → Prop) (s t : State) : Prop where
  rows : ∀ j : AccountId, Option.Rel SameStanding s.accounts[j]? t.accounts[j]?
  own : ∀ j : AccountId, P j → s.accounts[j]? = t.accounts[j]?
  registry : s.exportedRegistry = t.exportedRegistry
  imported : ∀ id : Bytes32, ¬ D id → (id ∈ s.importedSet ↔ id ∈ t.importedSet)
  locks : List.Forall₂ (LockBeside D) s.crossShardLocks t.crossShardLocks
  pending : s.pendingConservation = t.pendingConservation

section Beside

variable {P : AccountId → Prop} {D : Bytes32 → Prop} {s t : State} {id : AccountId}

theorem optionRel_sameStanding (o : Option Account) : Option.Rel SameStanding o o := by
  cases o with
  | none => exact .none
  | some a => exact .some (SameStanding.refl a)

namespace Beside

theorem refl (P : AccountId → Prop) (D : Bytes32 → Prop) (s : State) : Beside P D s s where
  rows _ := optionRel_sameStanding _
  own _ _ := rfl
  registry := rfl
  imported _ _ := Iff.rfl
  locks := List.forall₂_same.mpr fun _ _ => ⟨rfl, fun _ => rfl⟩
  pending := rfl

theorem putAcc (h : Beside P D s t) {a b : Account} (hab : SameStanding a b)
    (hown : P id → a = b) : Beside P D (s.putAcc id a) (t.putAcc id b) where
  rows j := by
    rw [getElem?_putAcc, getElem?_putAcc]
    split
    · exact .some hab
    · exact h.rows j
  own j hj := by
    rw [getElem?_putAcc, getElem?_putAcc]
    split
    · rename_i hid
      rw [hown (hid ▸ hj)]
    · exact h.own j hj
  registry := h.registry
  imported := h.imported
  locks := h.locks
  pending := h.pending

/-- The same row is written in both. -/
theorem putSame (h : Beside P D s t) (id : AccountId) (a : Account) :
    Beside P D (s.putAcc id a) (t.putAcc id a) :=
  h.putAcc (SameStanding.refl a) fun _ => rfl

theorem addFee (h : Beside P D s t) (fee : U128) : Beside P D (s.addFee fee) (t.addFee fee) :=
  ⟨h.rows, h.own, h.registry, h.imported, h.locks, h.pending⟩

theorem hasPendingConserv (h : Beside P D s t) (id : AccountId) :
    s.hasPendingConserv id = t.hasPendingConserv id := by
  rw [State.hasPendingConserv, State.hasPendingConserv, h.pending]

theorem pushPending (h : Beside P D s t) (row : PendingConservationTransfer) :
    Beside P D (s.pushPending row) (t.pushPending row) :=
  ⟨h.rows, h.own, h.registry, h.imported, h.locks, by
    rw [pushPending_pendingConservation, pushPending_pendingConservation, h.pending]⟩

theorem lockIdx (h : Beside P D s t) (exportId : Bytes32) :
    s.lockIdx exportId = t.lockIdx exportId :=
  findIdx?_of_forall₂ h.locks fun a b hab => by rw [hab.1]

theorem row_cases (h : Beside P D s t) (j : AccountId) :
    (s.accounts[j]? = none ∧ t.accounts[j]? = none) ∨
      ∃ a b, s.accounts[j]? = some a ∧ t.accounts[j]? = some b ∧ SameStanding a b :=
  optionRel_cases (h.rows j)

/-- A lock that is not set apart is in one state in both. -/
theorem lockState (h : Beside P D s t) {exportId : Bytes32} (hD : ¬ D exportId) :
    ((s.lockIdx exportId).bind fun idx => s.crossShardLocks[idx]?).map CrossShardLock.state =
      ((t.lockIdx exportId).bind fun idx => t.crossShardLocks[idx]?).map CrossShardLock.state := by
  rw [← h.lockIdx]
  cases hidx : s.lockIdx exportId with
  | none => rfl
  | some idx =>
      rw [Option.bind_some, Option.bind_some]
      obtain ⟨hs, ht⟩ | ⟨a, b, hs, ht, hab⟩ := optionRel_cases (getElem?_of_forall₂ h.locks idx)
      · rw [hs, ht]
      · obtain ⟨hlt, hfound, -⟩ := List.findIdx?_eq_some_iff_getElem.mp hidx
        obtain rfl : s.crossShardLocks[idx] = a := by
          rwa [List.getElem?_eq_getElem hlt, Option.some.injEq] at hs
        rw [decide_eq_true_iff] at hfound
        rw [hs, ht, Option.map_some, Option.map_some, hab.2 (hfound ▸ hD)]

theorem recordExport (h : Beside P D s t) (genCfg : GenCfg) (height : U64) (id : AccountId)
    (exportId : Bytes32) (prov : ExportProvenance) :
    Beside P D (s.recordExport genCfg height id exportId prov)
      (t.recordExport genCfg height id exportId prov) := by
  have hreg : Beside P D
      { s with exportedRegistry := s.exportedRegistry.insertIfNew exportId prov }
      { t with exportedRegistry := t.exportedRegistry.insertIfNew exportId prov } :=
    ⟨h.rows, h.own, by rw [h.registry], h.imported, h.locks, h.pending⟩
  have hidx := hreg.lockIdx exportId
  unfold State.recordExport
  simp only [hidx]
  split
  · refine ⟨hreg.rows, hreg.own, hreg.registry, hreg.imported, ?_, hreg.pending⟩
    exact List.rel_append hreg.locks (.cons ⟨rfl, fun _ => rfl⟩ .nil)
  · exact hreg

theorem registerProvenance (h : Beside P D s t) (exportId : Bytes32) (prov : ExportProvenance) :
    Beside P D { s with exportedRegistry := s.exportedRegistry.insert exportId prov }
      { t with exportedRegistry := t.exportedRegistry.insert exportId prov } :=
  ⟨h.rows, h.own, by rw [h.registry], h.imported, h.locks, h.pending⟩

theorem releaseLock (h : Beside P D s t) (idx : Option Nat) :
    Beside P D (s.releaseLock idx) (t.releaseLock idx) := by
  cases idx with
  | none => exact h
  | some idx =>
      refine ⟨h.rows, h.own, h.registry, h.imported, modify_of_forall₂ h.locks ?_ idx, h.pending⟩
      rintro a b ⟨hid, hstate⟩
      by_cases hD : D a.exportId
      · refine ⟨?_, fun hnot => absurd hD ?_⟩
        · split <;> split <;> exact hid
        · split at hnot <;> exact hnot
      · rw [hstate hD]
        split
        · exact ⟨hid, fun _ => rfl⟩
        · exact ⟨hid, hstate⟩

theorem insertImported (h : Beside P D s t) (exportId : Bytes32) :
    Beside P D { s with importedSet := s.importedSet.insert exportId }
      { t with importedSet := t.importedSet.insert exportId } := by
  refine ⟨h.rows, h.own, h.registry, fun id hid => ?_, h.locks, h.pending⟩
  rw [mem_insert_importedSet, mem_insert_importedSet, h.imported id hid]

theorem dropPending (h : Beside P D s t) (sender : AccountId) :
    Beside P D (s.dropPending sender) (t.dropPending sender) :=
  ⟨h.rows, h.own, h.registry, h.imported, h.locks, by
    rw [State.dropPending, State.dropPending, h.pending]⟩

/-- The two rows of an account, which are one where the account is kept apart. -/
theorem ownRow (h : Beside P D s t) (j : AccountId) :
    Option.Rel (fun a b => SameStanding a b ∧ (P j → a = b)) s.accounts[j]? t.accounts[j]? := by
  obtain ⟨hs, ht⟩ | ⟨a, b, hs, ht, hab⟩ := h.row_cases j
  · rw [hs, ht]
    exact .none
  · have hown := h.own j
    rw [hs, ht] at hown ⊢
    exact .some ⟨hab, fun hj => Option.some.inj (hown hj)⟩

theorem initializedAcc_cases (h : Beside P D s t) (j : AccountId) :
    (s.initializedAcc j = none ∧ t.initializedAcc j = none) ∨
      ∃ a b, s.initializedAcc j = some a ∧ t.initializedAcc j = some b ∧ SameStanding a b := by
  unfold State.initializedAcc
  obtain ⟨hs, ht⟩ | ⟨a, b, hs, ht, hab⟩ := h.row_cases j
  · rw [hs, ht]
    exact .inl ⟨rfl, rfl⟩
  · rw [hs, ht, Option.filter_some, Option.filter_some, hab.initialized]
    cases b.initialized with
    | true => exact .inr ⟨a, b, rfl, rfl, hab⟩
    | false => exact .inl ⟨rfl, rfl⟩

theorem recipientKey (h : Beside P D s t) (j : AccountId) :
    (s.initializedAcc j).map Account.signingPubkey =
      (t.initializedAcc j).map Account.signingPubkey := by
  obtain ⟨hs, ht⟩ | ⟨a, b, hs, ht, hab⟩ := h.initializedAcc_cases j
  · rw [hs, ht]
  · rw [hs, ht, Option.map_some, Option.map_some, hab.signingPubkey]

theorem requireRecipient (h : Beside P D s t) (j : AccountId) :
    requireRecipient s j = requireRecipient t j := by
  unfold Pwm.requireRecipient
  obtain ⟨hs, ht⟩ | ⟨a, b, hs, ht, hab⟩ := h.row_cases j
  · rw [hs, ht]
  · rw [hs, ht]
    simp only [hab.initialized]

end Beside

/-! ## Policies see no funds -/

variable {C : Crypto} {genCfg : GenCfg} {tx : SignedTx} {height now : U64}

theorem evalEmergRedirect_beside (h : Beside P D s t) {a b : Account} (hab : SameStanding a b)
    (senderId : AccountId) : evalEmergRedirect s senderId a = evalEmergRedirect t senderId b := by
  have hrescue : a.rescueAddress = b.rescueAddress := by rw [hab]
  unfold evalEmergRedirect
  rw [hrescue]
  cases b.rescueAddress with
  | none => rfl
  | some rescueId =>
      obtain ⟨hs, ht⟩ | ⟨_, _, hs, ht, hrow⟩ := h.row_cases rescueId
      · simp only [hs, ht]
      · simp only [hs, ht, hrow.initialized]

theorem recipientPolicy_beside (h : Beside P D s t) {a b : Account} (hab : SameStanding a b)
    (senderId toId : AccountId) :
    recipientPolicy s senderId toId a height = recipientPolicy t senderId toId b height := by
  have hredirect := evalEmergRedirect_beside h hab senderId
  have hfinalized : a.finalized = b.finalized := by rw [hab]
  unfold recipientPolicy
  simp only [hab.policyIsActiveAt, hfinalized, hredirect]

theorem evaluatePolicy_beside (h : Beside P D s t) (hid : P (tx.computedAccountId C)) :
    s.evaluatePolicy C tx height = t.evaluatePolicy C tx height := by
  unfold State.evaluatePolicy
  simp only [h.own _ hid]
  cases t.accounts[tx.computedAccountId C]? with
  | none => rfl
  | some senderAcc =>
      cases hbody : tx.body with
      | transfer toId amount fee =>
          obtain ⟨hs, ht⟩ | ⟨a, b, hs, ht, hab⟩ := h.initializedAcc_cases toId
          · simp only [hs, ht]
          · simp only [hs, ht, recipientPolicy_beside h hab]
      | policy targetAccount action fee =>
          obtain ⟨hs, ht⟩ | ⟨a, b, hs, ht, hab⟩ := h.row_cases targetAccount
          · simp only [hs, ht]
          · simp only [hs, ht, hab.policyIsActiveAt]
      | _ => rfl

theorem policyGate_beside (h : Beside P D s t) (hid : P (tx.computedAccountId C))
    (skipPolicy : Bool) :
    policyGate C s tx height skipPolicy = policyGate C t tx height skipPolicy := by
  unfold policyGate
  rw [evaluatePolicy_beside h hid]

theorem validatePolAction_beside (h : Beside P D s t) (acc : Account) (action : PolicyAction) :
    validatePolAction C s acc action tx = validatePolAction C t acc action tx := by
  unfold validatePolAction
  simp only [h.recipientKey]

/-! ## The arms -/

section Arms

variable {acc : Account}

theorem putNextNonce_beside (h : Beside P D s t) (a : Account) :
    AgreeAt (Beside P D) Eq (putNextNonce id a) (putNextNonce id a) s t := by
  refine (agreeAt_orThrow (optionRel_eq _) h).bind ?_
  rintro nonce _ s' t' rfl h'
  exact agreeAt_modify (h'.putSame id _)

theorem enqueueConservation_beside (h : Beside P D s t) (dst : AccountId) (amount fee : U128) :
    AgreeAt (Beside P D) Eq (enqueueConservation C genCfg tx height id dst amount fee)
      (enqueueConservation C genCfg tx height id dst amount fee) s t := by
  refine agreeAt_get_bind ?_
  refine (agreeAt_require (by rw [h.hasPendingConserv]) h).bind ?_
  rintro _ _ s' t' - h'
  refine (agreeAt_orThrow (optionRel_eq _) h').bind ?_
  rintro feePwm _ s' t' rfl h'
  exact agreeAt_modify (h'.pushPending _)

/-- Both credit the row of an account that is not the signer's. -/
theorem credit_beside (h : Beside P D s t) (src : Account) (dst : AccountId) (e : Fault)
    {credit : Account → Account} (hcredit : ∀ a b, SameStanding a b →
      SameStanding (credit a) (credit b)) :
    AgreeAt (Beside P D) Eq
      (do
        let st ← get
        let toAcc ← orThrow (st.accounts[dst]?) e
        modify fun st => (st.putAcc id src).putAcc dst (credit toAcc))
      (do
        let st ← get
        let toAcc ← orThrow (st.accounts[dst]?) e
        modify fun st => (st.putAcc id src).putAcc dst (credit toAcc)) s t := by
  refine agreeAt_get_bind ?_
  refine (agreeAt_orThrow (h.ownRow dst) h).bind ?_
  rintro a b s' t' ⟨hab, hdst⟩ h'
  refine agreeAt_modify ((h'.putSame id src).putAcc (hcredit a b hab) fun hp => ?_)
  rw [hdst hp]

theorem transferNow_beside (h : Beside P D s t) (dst : AccountId) (amount fee total : U128) :
    AgreeAt (Beside P D) Eq (transferNow genCfg height id acc dst amount fee total)
      (transferNow genCfg height id acc dst amount fee total) s t := by
  refine (agreeAt_orThrow (optionRel_eq _) h).bind ?_
  rintro balance _ s' t' rfl h'
  refine (agreeAt_orThrow (optionRel_eq _) h').bind ?_
  rintro nonce _ s' t' rfl h'
  refine (agreeAt_modify (h'.addFee fee)).bind ?_
  rintro _ _ s' t' - h'
  by_cases hdst : dst = id
  · simp only [if_pos hdst]
    exact agreeAt_modify (h'.putSame id _)
  · simp only [if_neg hdst]
    exact credit_beside h' _ dst .panic fun a b hab =>
      (hab.touch height genCfg).with_balance _ _

theorem applyInit_beside (h : Beside P D s t) (index flags : U32) :
    AgreeAt (Beside P D) Eq (applyInit tx height id acc index flags)
      (applyInit tx height id acc index flags) s t := by
  refine (agreeAt_require Iff.rfl h).bind ?_
  rintro _ _ s' t' - h'
  exact putNextNonce_beside h' _

theorem applyTransfer_beside (h : Beside P D s t) (redirTo : Option AccountId) (toId : AccountId)
    (amount fee : U128) :
    AgreeAt (Beside P D) Eq (applyTransfer C genCfg tx height id acc redirTo toId amount fee)
      (applyTransfer C genCfg tx height id acc redirTo toId amount fee) s t := by
  refine (agreeAt_require Iff.rfl h).bind ?_
  rintro _ _ s' t' - h'
  refine agreeAt_get_bind ?_
  refine (agreeAt_onlyIf Iff.rfl h' (agreeAt_liftExcept (h'.requireRecipient _) h')).bind ?_
  rintro _ _ s' t' - h'
  refine (agreeAt_orThrow (optionRel_eq _) h').bind ?_
  rintro total _ s' t' rfl h'
  refine (agreeAt_require Iff.rfl h').bind ?_
  rintro _ _ s' t' - h'
  by_cases hflag : conservationFlag id = true
  · simp only [if_pos hflag]
    exact enqueueConservation_beside h' _ _ _
  · simp only [if_neg hflag]
    exact transferNow_beside h' _ _ _ _

theorem applyStake_beside (h : Beside P D s t) (amount : U128) :
    AgreeAt (Beside P D) Eq (applyStake genCfg height id acc amount)
      (applyStake genCfg height id acc amount) s t := by
  refine (agreeAt_require Iff.rfl h).bind ?_
  rintro _ _ s' t' - h'
  refine (agreeAt_require Iff.rfl h').bind ?_
  rintro _ _ s' t' - h'
  refine (agreeAt_orThrow (optionRel_eq _) h').bind ?_
  rintro balance _ s' t' rfl h'
  refine (agreeAt_orThrow (optionRel_eq _) h').bind ?_
  rintro staked _ s' t' rfl h'
  exact putNextNonce_beside h' _

theorem applyUnstake_beside (h : Beside P D s t) (amount : U128) :
    AgreeAt (Beside P D) Eq (applyUnstake genCfg height id acc amount)
      (applyUnstake genCfg height id acc amount) s t := by
  refine (agreeAt_require Iff.rfl h).bind ?_
  rintro _ _ s' t' - h'
  refine (agreeAt_require Iff.rfl h').bind ?_
  rintro _ _ s' t' - h'
  refine (agreeAt_orThrow (optionRel_eq _) h').bind ?_
  rintro staked _ s' t' rfl h'
  refine (agreeAt_orThrow (optionRel_eq _) h').bind ?_
  rintro balance _ s' t' rfl h'
  exact putNextNonce_beside h' _

theorem applyBurnMark_beside (h : Beside P D s t) (markAmount : U32) :
    AgreeAt (Beside P D) Eq (applyBurnMark genCfg height id acc markAmount)
      (applyBurnMark genCfg height id acc markAmount) s t := by
  refine (agreeAt_require Iff.rfl h).bind ?_
  rintro _ _ s' t' - h'
  refine (agreeAt_require Iff.rfl h').bind ?_
  rintro _ _ s' t' - h'
  refine (agreeAt_orThrow (optionRel_eq _) h').bind ?_
  rintro marks _ s' t' rfl h'
  exact putNextNonce_beside h' _

theorem applyClaimIPv4Batch_beside (h : Beside P D s t) (phase : U8) (batchRoot : Bytes32)
    (registrySig : Bytes64) :
    AgreeAt (Beside P D) Eq (applyClaimIPv4Batch C genCfg id acc phase batchRoot registrySig)
      (applyClaimIPv4Batch C genCfg id acc phase batchRoot registrySig) s t := by
  refine (agreeAt_require Iff.rfl h).bind ?_
  rintro _ _ s' t' - h'
  refine (agreeAt_require Iff.rfl h').bind ?_
  rintro _ _ s' t' - h'
  refine (agreeAt_liftExcept rfl h').bind ?_
  rintro phaseRow _ s' t' rfl h'
  refine agreeAt_get_bind ?_
  refine (agreeAt_liftExcept ?_ h').bind ?_
  · unfold verifyClaimSig
    rw [h'.recipientKey]
  rintro _ _ s' t' - h'
  exact putNextNonce_beside h' _

theorem applyExport_beside (h : Beside P D s t) (toId : AccountId) (targetDomain : U16)
    (amount fee : U128) :
    AgreeAt (Beside P D) Eq (applyExport C genCfg tx height id acc toId targetDomain amount fee)
      (applyExport C genCfg tx height id acc toId targetDomain amount fee) s t := by
  refine (agreeAt_require Iff.rfl h).bind ?_
  rintro _ _ s' t' - h'
  refine (agreeAt_require Iff.rfl h').bind ?_
  rintro _ _ s' t' - h'
  refine (agreeAt_orThrow (optionRel_eq _) h').bind ?_
  rintro total _ s' t' rfl h'
  refine (agreeAt_require Iff.rfl h').bind ?_
  rintro _ _ s' t' - h'
  refine (agreeAt_orThrow (optionRel_eq _) h').bind ?_
  rintro balance _ s' t' rfl h'
  refine (agreeAt_orThrow (optionRel_eq _) h').bind ?_
  rintro nonce _ s' t' rfl h'
  refine (agreeAt_modify (h'.addFee fee)).bind ?_
  rintro _ _ s' t' - h'
  refine (agreeAt_orThrow (optionRel_eq _) h').bind ?_
  rintro exportId _ s' t' rfl h'
  exact agreeAt_modify ((h'.recordExport _ _ _ _ _).putSame id _)

theorem checkImport_beside (h : Beside P D s t) (toId : AccountId) (amount : U128)
    {exportId : Bytes32} (hD : ¬ D exportId) :
    AgreeAt (Beside P D) Eq (checkImport tx id acc toId amount exportId)
      (checkImport tx id acc toId amount exportId) s t := by
  refine (agreeAt_require Iff.rfl h).bind ?_
  rintro _ _ s' t' - h'
  refine (agreeAt_require Iff.rfl h').bind ?_
  rintro _ _ s' t' - h'
  refine agreeAt_get_bind ?_
  refine (agreeAt_require (by rw [h'.lockState hD]) h').bind ?_
  rintro _ _ s₁ t₁ - h₁
  refine (agreeAt_require (not_congr (h'.imported exportId hD)) h₁).bind ?_
  rintro _ _ s₁ t₁ - h₁
  refine (agreeAt_liftExcept (expectedExport_congr h'.registry exportId) h₁).bind ?_
  rintro ⟨expected, insert⟩ _ s₁ t₁ rfl h₁
  refine (agreeAt_require Iff.rfl h₁).bind ?_
  rintro _ _ s₁ t₁ - h₁
  refine (agreeAt_onlyIf Iff.rfl h₁ (agreeAt_liftExcept (h'.requireRecipient toId) h₁)).bind ?_
  rintro _ _ s₁ t₁ - h₁
  refine (agreeAt_orThrow (optionRel_eq _) h₁).bind ?_
  rintro fee _ s₁ t₁ rfl h₁
  refine (agreeAt_require Iff.rfl h₁).bind ?_
  rintro _ _ s₁ t₁ - h₁
  refine (agreeAt_require Iff.rfl h₁).bind ?_
  rintro _ _ s₁ t₁ - h₁
  exact agreeAt_pure rfl h₁

theorem creditImport_beside (h : Beside P D s t) (toId : AccountId) (src : Account)
    (amount : U128) :
    AgreeAt (Beside P D) Eq (creditImport id toId src amount) (creditImport id toId src amount)
      s t := by
  unfold creditImport
  by_cases hto : toId = id
  · simp only [if_pos hto]
    exact agreeAt_modify (h.putSame id _)
  · simp only [if_neg hto]
    exact credit_beside h src toId .panic fun a b hab => hab.with_balance _ _

theorem applyImport_beside (h : Beside P D s t) (toId : AccountId) (amount : U128)
    {exportId : Bytes32} (hD : ¬ D exportId) :
    AgreeAt (Beside P D) Eq (applyImport tx id acc toId amount exportId)
      (applyImport tx id acc toId amount exportId) s t := by
  refine (checkImport_beside h toId amount hD).bind ?_
  rintro ⟨expected, insert, fee⟩ _ s' t' rfl h'
  refine agreeAt_get_bind ?_
  have hidx := h'.lockIdx exportId
  refine (agreeAt_orThrow (optionRel_eq _) h').bind ?_
  rintro balance _ s₁ t₁ rfl h₁
  refine (agreeAt_modify (h₁.addFee fee)).bind ?_
  rintro _ _ s₁ t₁ - h₁
  refine (agreeAt_onlyIf Iff.rfl h₁ (agreeAt_modify (h₁.registerProvenance exportId expected))).bind
    ?_
  rintro _ _ s₁ t₁ - h₁
  refine (agreeAt_orThrow (optionRel_eq _) h₁).bind ?_
  rintro nonce _ s₁ t₁ rfl h₁
  refine (creditImport_beside h₁ toId _ amount).bind ?_
  rintro _ _ s₁ t₁ - h₁
  refine (agreeAt_modify ?_).bind ?_
  · rw [hidx]
    exact h₁.releaseLock _
  rintro _ _ s₁ t₁ - h₁
  exact agreeAt_modify (h₁.insertImported exportId)

theorem evacuateIfNamed_beside (h : Beside P D s t) (target : Option AccountId) (a : Account) :
    AgreeAt (Beside P D) Eq (evacuateIfNamed id target a) (evacuateIfNamed id target a) s t := by
  cases target with
  | none => exact agreeAt_pure rfl h
  | some target =>
      refine (agreeAt_modify (h.dropPending id)).bind ?_
      rintro _ _ s' t' - h'
      by_cases htarget : target = id
      · simp only [if_pos htarget]
        exact agreeAt_pure rfl h'
      · simp only [if_neg htarget]
        refine agreeAt_get_bind ?_
        refine (agreeAt_orThrow (h'.ownRow target) h').bind ?_
        rintro b c s₁ t₁ ⟨hbc, hown⟩ h₁
        refine (agreeAt_modify (h₁.putAcc ?_ fun hp => ?_)).bind ?_
        · rw [creditIfPos_eq, creditIfPos_eq, creditIfPos_eq, creditIfPos_eq]
          exact hbc.with_balance _ _
        · rw [hown hp]
        rintro _ _ s₁ t₁ - h₁
        exact agreeAt_pure rfl h₁

theorem applyPolicy_beside (h : Beside P D s t) (targetAccount : AccountId) (action : PolicyAction)
    (fee : U128) :
    AgreeAt (Beside P D) Eq (applyPolicy C genCfg tx height id acc targetAccount action fee)
      (applyPolicy C genCfg tx height id acc targetAccount action fee) s t := by
  refine (agreeAt_require Iff.rfl h).bind ?_
  rintro _ _ s' t' - h'
  refine (agreeAt_require Iff.rfl h').bind ?_
  rintro _ _ s' t' - h'
  refine agreeAt_get_bind ?_
  refine (agreeAt_liftExcept (validatePolAction_beside h' _ action) h').bind ?_
  rintro _ _ s' t' - h'
  refine (agreeAt_liftExcept rfl h').bind ?_
  rintro a _ s' t' rfl h'
  refine (agreeAt_orThrow (optionRel_eq _) h').bind ?_
  rintro balance _ s' t' rfl h'
  refine (agreeAt_modify (h'.addFee fee)).bind ?_
  rintro _ _ s' t' - h'
  refine (evacuateIfNamed_beside h' _ _).bind ?_
  rintro a' _ s' t' rfl h'
  exact putNextNonce_beside h' a'

end Arms

/-! ## One transaction -/

/-- The signer is not refunded, and the export of an import is not settled apart. -/
def Unconcerned (C : Crypto) (P : AccountId → Prop) (D : Bytes32 → Prop) (tx : SignedTx) : Prop :=
  P (tx.computedAccountId C) ∧
    ∀ toId amount exportId, tx.body = .importTx toId amount exportId → ¬ D exportId

theorem applyBody_beside (h : Beside P D s t) (htx : Unconcerned C P D tx) (acc : Account)
    (redirTo : Option AccountId) :
    AgreeAt (Beside P D) Eq (applyBody C genCfg tx height id acc redirTo)
      (applyBody C genCfg tx height id acc redirTo) s t := by
  unfold applyBody
  cases hbody : tx.body with
  | init index flags => exact applyInit_beside h index flags
  | transfer toId amount fee => exact applyTransfer_beside h redirTo toId amount fee
  | stake amount => exact applyStake_beside h amount
  | unstake amount => exact applyUnstake_beside h amount
  | burnMark markAmount beneficiary => exact applyBurnMark_beside h markAmount
  | claimIPv4Batch phase batchRoot registrySig =>
      exact applyClaimIPv4Batch_beside h phase batchRoot registrySig
  | exportTx toId targetDomain amount fee => exact applyExport_beside h toId targetDomain amount fee
  | importTx toId amount exportId =>
      exact applyImport_beside h toId amount (htx.2 toId amount exportId hbody)
  | policy targetAccount action fee => exact applyPolicy_beside h targetAccount action fee

theorem initStub_beside (h : Beside P D s t) (hid : P (tx.computedAccountId C)) :
    Beside P D (initStub C tx s) (initStub C tx t) := by
  unfold initStub
  cases tx.body with
  | init index flags =>
      simp only [h.own _ hid]
      split
      · exact h
      · exact h.putSame _ _
  | _ => exact h

theorem txPrologue_beside (h : Beside P D s t) (hid : P (tx.computedAccountId C))
    (skipPolicy : Bool) :
    AgreeAt (Beside P D) Eq (txPrologue C tx height skipPolicy) (txPrologue C tx height skipPolicy)
      s t := by
  have hrow : Option.Rel Eq s.accounts[tx.computedAccountId C]?
      t.accounts[tx.computedAccountId C]? := by
    rw [h.own _ hid]
    exact optionRel_eq _
  refine agreeAt_get_bind ?_
  refine (agreeAt_orThrow hrow h).bind ?_
  rintro acc _ s' t' rfl h'
  refine (agreeAt_require Iff.rfl h').bind ?_
  rintro _ _ s' t' - h'
  refine (agreeAt_require Iff.rfl h').bind ?_
  rintro _ _ s' t' - h'
  refine (agreeAt_liftExcept (policyGate_beside h hid skipPolicy) h').bind ?_
  rintro redirTo _ s' t' rfl h'
  refine (agreeAt_require (by rw [h.hasPendingConserv]) h').bind ?_
  rintro _ _ s' t' - h'
  exact agreeAt_pure rfl h'

/-- A transaction that is not concerned does the same on both ledgers. -/
theorem applyTxImpl_beside (h : Beside P D s t) (htx : Unconcerned C P D tx) (now now' : U64)
    (skipPolicy : Bool) :
    AgreeAt (Beside P D) Eq (applyTxImpl C genCfg tx height now skipPolicy)
      (applyTxImpl C genCfg tx height now' skipPolicy) s t := by
  refine (agreeAt_liftExcept rfl h).bind ?_
  rintro _ _ s' t' - h'
  refine (agreeAt_modify (initStub_beside h' htx.1)).bind ?_
  rintro _ _ s' t' - h'
  refine (txPrologue_beside h' htx.1 skipPolicy).bind ?_
  rintro ⟨acc, redirTo⟩ _ s' t' rfl h'
  exact applyBody_beside h' htx acc redirTo

/-! ## Rolled and refunded ledgers -/

theorem refundStep_row (height : U64) (st : State) (lock : CrossShardLock) {j : AccountId}
    (hj : lock.state = .locked ∧ lock.unlockHeight ≤ height → lock.refundAccount ≠ j) :
    (refundStep height st lock).accounts[j]? = st.accounts[j]? := by
  unfold refundStep
  split
  · rfl
  · rename_i hdue
    have hne := hj (by simpa [BitVec.not_lt] using hdue)
    simp [Std.ExtTreeMap.getElem?_modify, hne]

/-- The pass leaves the rows of accounts that no due lock refunds. -/
theorem refundExpLocks_row (s : State) (height : U64) {j : AccountId}
    (hj : ∀ lock ∈ s.dueLocks height, lock.refundAccount ≠ j) :
    (s.refundExpLocks height).accounts[j]? = s.accounts[j]? := by
  have hfold : ∀ (locks : List CrossShardLock) (st : State),
      (∀ lock ∈ locks, lock.state = .locked ∧ lock.unlockHeight ≤ height →
        lock.refundAccount ≠ j) →
      (locks.foldl (refundStep height) st).accounts[j]? = st.accounts[j]? := by
    intro locks
    induction locks with
    | nil => exact fun _ _ => rfl
    | cons lock rest ih =>
        intro st hlocks
        rw [List.foldl_cons, ih _ fun l hl => hlocks l (List.mem_cons_of_mem _ hl)]
        exact refundStep_row height st lock (hlocks lock List.mem_cons_self)
  refine hfold s.crossShardLocks _ fun lock hlock hdue => hj lock ?_
  exact List.mem_filter.mpr ⟨hlock, decide_eq_true hdue⟩

/-- The ledger beside its own refunds. -/
theorem beside_refundExpLocks (s : State) (height : U64)
    (hP : ∀ lock ∈ s.dueLocks height, ¬ P lock.refundAccount)
    (hD : ∀ lock ∈ s.dueLocks height, D lock.exportId) :
    Beside P D s (s.refundExpLocks height) := by
  obtain ⟨hlocks, hregistry, -, himported⟩ := refundExpLocks_view s height
  refine ⟨fun j => ?_, fun j hj => ?_, hregistry.symm, fun id hid => ?_, ?_,
    (refundExpLocks_pending s height).symm⟩
  · obtain ⟨hs, ht⟩ | ⟨a, b, hs, ht, hab⟩ := optionRel_cases (refundExpLocks_rowKept s height)
    · rw [hs, ht]
      exact .none
    · rw [hs, ht]
      exact .some hab.rest
  · refine (refundExpLocks_row s height fun lock hlock heq => ?_).symm
    exact hP lock hlock (heq ▸ hj)
  · rw [himported]
    constructor
    · exact .inl
    · rintro (hmem | ⟨lock, hlock, rfl⟩)
      · exact hmem
      · exact absurd (hD lock hlock) hid
  · rw [hlocks]
    refine List.forall₂_map_right_iff.mpr (List.forall₂_same.mpr fun lock hlock => ?_)
    refine ⟨(refundedLock_id height lock).symm, fun hid => ?_⟩
    unfold refundedLock
    split
    · rename_i hdue
      exact absurd (hD lock (List.mem_filter.mpr ⟨hlock, decide_eq_true hdue⟩)) hid
    · rfl

/-- A roll of the epoch changes nothing that a transaction reads. -/
theorem Beside.of_roll {genCfg : GenCfg} {height : U64}
    (h : Beside P D (rollEpochIfNeeded genCfg s height) t) : Beside P D s t := by
  unfold rollEpochIfNeeded at h
  split at h
  · exact ⟨h.rows, h.own, h.registry, h.imported, h.locks, h.pending⟩
  · exact h

end Beside

end Pwm
