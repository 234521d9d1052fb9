import Pwm.Ledger.Nonce

/-!
# Settling exports inside one ledger

An export id is settled by an import or by the refund of its lock. The view of
a step given here is what it does to the locks, the set of imported ids and
the registry of exports; from it follows that an id is settled once, as long
as no export takes an id that was already imported.
-/

namespace Pwm

open Attempt

/-! ## The cross-shard view of a step -/

/-- Nothing about locks, imported ids and the registry changed. -/
def SameCrossShard (s s' : State) : Prop :=
  s'.crossShardLocks = s.crossShardLocks ∧ s'.importedSet = s.importedSet ∧
    s'.exportedRegistry = s.exportedRegistry

theorem SameCrossShard.refl (s : State) : SameCrossShard s s := ⟨rfl, rfl, rfl⟩

theorem mem_insert_importedSet {m : IdSet} {id j : Bytes32} :
    j ∈ m.insert id ↔ id = j ∨ j ∈ m := by
  rw [Std.ExtTreeSet.mem_insert, Std.LawfulEqCmp.compare_eq_iff_eq]

theorem lockIdx_isNone_iff {s : State} {exportId : Bytes32} :
    s.lockIdx exportId = none ↔ ∀ l ∈ s.crossShardLocks, l.exportId ≠ exportId := by
  simp [State.lockIdx, List.findIdx?_eq_none_iff]

/-- The effect of a recorded export. -/
theorem recordExport_view (genCfg : GenCfg) (h : U64) (id : AccountId) (s : State)
    (exportId : Bytes32) (prov : ExportProvenance) :
    let s' := s.recordExport genCfg h id exportId prov
    s'.accounts = s.accounts ∧ s'.feePool = s.feePool ∧ s'.importedSet = s.importedSet ∧
      s'.exportedRegistry = s.exportedRegistry.insertIfNew exportId prov ∧
      s'.crossShardLocks =
        if (s.lockIdx exportId).isNone then
          s.crossShardLocks ++ [exportLock genCfg h id exportId prov.amount prov.targetDomain]
        else s.crossShardLocks := by
  have hidx : State.lockIdx { s with
      exportedRegistry := s.exportedRegistry.insertIfNew exportId prov } exportId =
      s.lockIdx exportId := rfl
  simp only [State.recordExport, hidx]
  by_cases hnone : (s.lockIdx exportId).isNone = true
  · simp [hnone]
  · simp [hnone]

/-- The lock found first for an id, when there is one. -/
theorem lockIdx_some {s : State} {exportId : Bytes32} {idx : Nat}
    (h : s.lockIdx exportId = some idx) :
    ∃ lock, s.crossShardLocks[idx]? = some lock ∧ lock.exportId = exportId := by
  obtain ⟨hlt, hp, _⟩ := List.findIdx?_eq_some_iff_getElem.mp h
  exact ⟨s.crossShardLocks[idx], List.getElem?_eq_getElem hlt, by simpa using hp⟩

/-- After an import every lock is one of before, the one of this id no longer held. -/
theorem mem_releaseLock {s : State} {idx : Option Nat} {l' : CrossShardLock}
    (h : l' ∈ (s.releaseLock idx).crossShardLocks) :
    ∃ l ∈ s.crossShardLocks, l' = l ∨
      l.state = .locked ∧ l' = { l with state := .released } := by
  cases idx with
  | none => exact ⟨l', h, Or.inl rfl⟩
  | some idx =>
      obtain ⟨i, hi, rfl⟩ := List.mem_iff_getElem.mp h
      simp only [State.releaseLock] at hi ⊢
      rw [List.length_modify] at hi
      refine ⟨s.crossShardLocks[i], List.getElem_mem hi, ?_⟩
      rw [List.getElem_modify]
      split
      · split
        · rename_i hl
          exact Or.inr ⟨hl, rfl⟩
        · exact Or.inl rfl
      · exact Or.inl rfl

theorem releaseLock_ids (s : State) (idx : Option Nat) :
    (s.releaseLock idx).crossShardLocks.map CrossShardLock.exportId =
      s.crossShardLocks.map CrossShardLock.exportId := by
  cases idx with
  | none => rfl
  | some idx =>
      apply List.ext_getElem?
      intro i
      simp only [State.releaseLock, List.getElem?_map, List.getElem?_modify]
      cases s.crossShardLocks[i]? with
      | none => rfl
      | some l =>
          simp only [Option.map_eq_map, Option.map_some]
          split
          · split <;> rfl
          · rfl

/-- What an applied transaction does to locks, imported ids and the registry. -/
inductive CrossShardEffect (C : Crypto) (genCfg : GenCfg) (tx : SignedTx) (s s' : State) : Prop
  | exported {toId targetDomain amount fee exportId h}
      (hbody : tx.body = .exportTx toId targetDomain amount fee)
      (hid : tx.exportId C = some exportId)
      (himported : s'.importedSet = s.importedSet)
      (hregistry : s'.exportedRegistry =
        s.exportedRegistry.insertIfNew exportId ⟨toId, targetDomain, amount⟩)
      (hlocks : s'.crossShardLocks =
        if (s.lockIdx exportId).isNone then
          s.crossShardLocks ++
            [exportLock genCfg h (tx.computedAccountId C) exportId amount targetDomain]
        else s.crossShardLocks)
  | imported {toId amount exportId expected insert}
      (hbody : tx.body = .importTx toId amount exportId)
      (hfresh : exportId ∉ s.importedSet)
      (hlive : lockNotRefunded s exportId)
      (hexpected : expectedExport tx s exportId = .ok (expected, insert))
      (hamount : expected.amount = amount)
      (himported : s'.importedSet = s.importedSet.insert exportId)
      (hregistry : s'.exportedRegistry =
        if insert then s.exportedRegistry.insert exportId expected else s.exportedRegistry)
      (hlocks : s'.crossShardLocks = (s.releaseLock (s.lockIdx exportId)).crossShardLocks)
  | other (hexport : ∀ toId targetDomain amount fee,
        tx.body ≠ .exportTx toId targetDomain amount fee)
      (himport : ∀ toId amount exportId, tx.body ≠ .importTx toId amount exportId)
      (hsame : SameCrossShard s s')

section Arms

variable {C : Crypto} {genCfg : GenCfg} {tx : SignedTx} {h : U64} {id : AccountId} {acc : Account}
  {s s' : State} {u : Unit}

theorem transferNow_crossShard {dst : AccountId} {amount fee total : U128}
    (hok : transferNow genCfg h id acc dst amount fee total s = .ok u s') :
    SameCrossShard s s' := by
  obtain ⟨balance, nonce, _, _, ⟨_, rfl⟩ | ⟨_, toAcc, _, rfl⟩⟩ := transferNow_ok hok <;>
    exact ⟨rfl, rfl, rfl⟩

theorem evacuateIfNamed_crossShard {target : Option AccountId} {a a' : Account}
    (hok : evacuateIfNamed id target a s = .ok a' s') : SameCrossShard s s' := by
  rcases evacuateIfNamed_ok hok with ⟨_, _, rfl⟩ | ⟨t, _, hevac⟩
  · exact SameCrossShard.refl _
  · rcases evacuate_ok hevac with ⟨_, _, rfl⟩ | ⟨_, targetAcc, _, _, rfl⟩ <;>
      exact ⟨rfl, rfl, rfl⟩

theorem creditImport_crossShard {toId : AccountId} {src : Account} {amount : U128}
    (hok : creditImport id toId src amount s = .ok u s') : SameCrossShard s s' := by
  rcases creditImport_ok hok with ⟨_, rfl⟩ | ⟨_, toAcc, _, rfl⟩ <;> exact ⟨rfl, rfl, rfl⟩

theorem applyBody_crossShard {redirTo : Option AccountId}
    (hok : applyBody C genCfg tx h (tx.computedAccountId C) acc redirTo s = .ok u s') :
    CrossShardEffect C genCfg tx s s' := by
  rw [applyBody] at hok
  cases hbody : tx.body with
  | init index flags =>
      simp only [hbody] at hok
      obtain ⟨_, nonce, _, rfl⟩ := applyInit_ok hok
      exact .other (by simp [hbody]) (by simp [hbody]) ⟨rfl, rfl, rfl⟩
  | transfer toId amount fee =>
      simp only [hbody] at hok
      refine .other (by simp [hbody]) (by simp [hbody]) ?_
      obtain ⟨_, total, _, _, ⟨_, henq⟩ | ⟨_, hnow⟩⟩ := applyTransfer_ok hok
      · obtain ⟨_, feePwm, _, rfl⟩ := enqueueConservation_ok henq
        exact ⟨rfl, rfl, rfl⟩
      · exact transferNow_crossShard hnow
  | stake amount =>
      simp only [hbody] at hok
      obtain ⟨_, balance, staked, nonce, _, _, _, rfl⟩ := applyStake_ok hok
      exact .other (by simp [hbody]) (by simp [hbody]) ⟨rfl, rfl, rfl⟩
  | unstake amount =>
      simp only [hbody] at hok
      obtain ⟨_, balance, staked, nonce, _, _, _, rfl⟩ := applyUnstake_ok hok
      exact .other (by simp [hbody]) (by simp [hbody]) ⟨rfl, rfl, rfl⟩
  | burnMark markAmount beneficiary =>
      simp only [hbody] at hok
      obtain ⟨_, marks, nonce, _, _, rfl⟩ := applyBurnMark_ok hok
      exact .other (by simp [hbody]) (by simp [hbody]) ⟨rfl, rfl, rfl⟩
  | claimIPv4Batch phase batchRoot registrySig =>
      simp only [hbody] at hok
      obtain ⟨_, phaseRow, nonce, _, _, rfl⟩ := applyClaimIPv4Batch_ok hok
      exact .other (by simp [hbody]) (by simp [hbody]) ⟨rfl, rfl, rfl⟩
  | exportTx toId targetDomain amount fee =>
      simp only [hbody] at hok
      obtain ⟨_, total, balance, nonce, exportId, _, _, _, hid, rfl⟩ := applyExport_ok hok
      obtain ⟨_, _, himported, hregistry, hlocks⟩ := recordExport_view genCfg h
        (tx.computedAccountId C) (s.addFee fee) exportId ⟨toId, targetDomain, amount⟩
      exact .exported hbody hid himported hregistry hlocks
  | importTx toId amount exportId =>
      simp only [hbody] at hok
      obtain ⟨_, hlive, hfresh, expected, insert, fee, balance, nonce, s₁, hexpected, hamount, _, _,
        _, hcredit, rfl⟩ := applyImport_ok hok
      obtain ⟨hlocks, himported, hregistry⟩ := creditImport_crossShard hcredit
      have hidx : s₁.lockIdx exportId = s.lockIdx exportId := by
        rw [State.lockIdx, hlocks]
        cases insert <;> rfl
      refine .imported hbody hfresh hlive hexpected hamount ?_ ?_ ?_
      · simp only [State.settleImport, State.releaseLock]
        cases s₁.lockIdx exportId <;> rw [himported] <;> cases insert <;> rfl
      · have hset : (s₁.settleImport exportId).exportedRegistry = s₁.exportedRegistry := by
          simp only [State.settleImport, State.releaseLock]
          cases s₁.lockIdx exportId <;> rfl
        rw [hset, hregistry]
        cases insert <;> rfl
      · have hset : (s₁.settleImport exportId).crossShardLocks =
            (s₁.releaseLock (s₁.lockIdx exportId)).crossShardLocks := rfl
        rw [hset, hidx]
        cases s.lockIdx exportId with
        | none =>
            rw [State.releaseLock, State.releaseLock, hlocks]
            cases insert <;> rfl
        | some idx =>
            simp only [State.releaseLock]
            rw [hlocks]
            cases insert <;> rfl
  | policy targetAccount action fee =>
      simp only [hbody] at hok
      obtain ⟨_, a, balance, a', nonce, s₁, _, _, _, hevac, _, rfl⟩ := applyPolicy_ok hok
      obtain ⟨hlocks, himported, hregistry⟩ := evacuateIfNamed_crossShard hevac
      exact .other (by simp [hbody]) (by simp [hbody]) ⟨hlocks, himported, hregistry⟩

end Arms

theorem initStub_crossShard (C : Crypto) (tx : SignedTx) (s : State) :
    SameCrossShard s (initStub C tx s) := by
  unfold initStub
  cases tx.body with
  | init index flags =>
      simp only
      split <;> exact ⟨rfl, rfl, rfl⟩
  | _ => exact SameCrossShard.refl s

theorem expectedExport_congr {tx : SignedTx} {s s' : State}
    (h : s'.exportedRegistry = s.exportedRegistry) (exportId : Bytes32) :
    expectedExport tx s' exportId = expectedExport tx s exportId := by
  rw [expectedExport, expectedExport, h]

/-- The view does not see the stub row. -/
theorem CrossShardEffect.before_same {C : Crypto} {genCfg : GenCfg} {tx : SignedTx}
    {s s₁ s' : State} (hsame : SameCrossShard s s₁)
    (heff : CrossShardEffect C genCfg tx s₁ s') : CrossShardEffect C genCfg tx s s' := by
  obtain ⟨hl, hi, hr⟩ := hsame
  have hidx : ∀ exportId, s₁.lockIdx exportId = s.lockIdx exportId := by
    intro exportId
    rw [State.lockIdx, State.lockIdx, hl]
  have hrelease : ∀ idx, (s₁.releaseLock idx).crossShardLocks =
      (s.releaseLock idx).crossShardLocks := by
    intro idx
    cases idx with
    | none => exact hl
    | some idx =>
        simp only [State.releaseLock]
        rw [hl]
  cases heff with
  | exported hbody hid himported hregistry hlocks =>
      rw [hidx, hl] at hlocks
      rw [hr] at hregistry
      exact .exported hbody hid (himported.trans hi) hregistry hlocks
  | imported hbody hfresh hlive hexpected hamount himported hregistry hlocks =>
      rw [lockNotRefunded, hidx, hl] at hlive
      rw [expectedExport_congr hr] at hexpected
      rw [hi] at himported hfresh
      rw [hr] at hregistry
      rw [hidx, hrelease] at hlocks
      exact .imported hbody hfresh hlive hexpected hamount himported hregistry hlocks
  | other hexport himport hsame' =>
      obtain ⟨hl', hi', hr'⟩ := hsame'
      exact .other hexport himport ⟨hl'.trans hl, hi'.trans hi, hr'.trans hr⟩

theorem applyTxImpl_crossShard {C : Crypto} {genCfg : GenCfg} {tx : SignedTx} {h now : U64}
    {skipPolicy : Bool} {s s' : State} {u : Unit}
    (hok : applyTxImpl C genCfg tx h now skipPolicy s = .ok u s') :
    CrossShardEffect C genCfg tx s s' := by
  obtain ⟨acc, redirTo, _, _, _, _, hbody⟩ := applyTxImpl_ok hok
  exact (applyBody_crossShard hbody).before_same (initStub_crossShard C tx s)

theorem applyDueConservation_crossShard {genCfg : GenCfg} {h : U64}
    {row : PendingConservationTransfer} {s s' : State} {u : Unit}
    (hok : applyDueConservation genCfg h row s = .ok u s') : SameCrossShard s s' := by
  obtain ⟨senderAcc, dst, total, balance, nonce, toAcc, _, _, _, _, _, _, _, rfl⟩ :=
    applyDueConservation_ok hok
  exact ⟨rfl, rfl, rfl⟩

theorem drains_crossShard {genCfg : GenCfg} {h : U64} {rows : List PendingConservationTransfer}
    {s s' : State} {moves : List DrainMove} (hd : Drains genCfg h rows s moves s') :
    SameCrossShard s s' := by
  induction hd with
  | nil => exact SameCrossShard.refl _
  | kept _ ih => exact ⟨ih.1, ih.2.1, ih.2.2⟩
  | executed hrow _ ih =>
      obtain ⟨hl, hi, hr⟩ := applyDueConservation_crossShard hrow
      exact ⟨ih.1.trans hl, ih.2.1.trans hi, ih.2.2.trans hr⟩

/-! ### The timeout pass -/

/-- A lock after the timeout pass. -/
def refundedLock (h : U64) (lock : CrossShardLock) : CrossShardLock :=
  if lock.state = .locked ∧ lock.unlockHeight ≤ h then { lock with state := .refunded } else lock

theorem refundFold_view (h : U64) (locks : List CrossShardLock) (st : State) :
    let st' := locks.foldl (refundStep h) st
    st'.crossShardLocks = st.crossShardLocks ++ locks.map (refundedLock h) ∧
      st'.exportedRegistry = st.exportedRegistry ∧ st'.feePool = st.feePool ∧
      ∀ id, id ∈ st'.importedSet ↔ id ∈ st.importedSet ∨
        ∃ l ∈ locks, (l.state = .locked ∧ l.unlockHeight ≤ h) ∧ l.exportId = id := by
  induction locks generalizing st with
  | nil => simp
  | cons lock rest ih =>
      obtain ⟨hlocks, hregistry, hfee, himported⟩ := ih (refundStep h st lock)
      simp only [List.foldl_cons]
      by_cases hdue : lock.state = .locked ∧ lock.unlockHeight ≤ h
      · have hnot : ¬ (lock.state ≠ .locked ∨ h < lock.unlockHeight) := by
          simpa [BitVec.not_lt] using hdue
        rw [refundStep, if_neg hnot] at hlocks hregistry hfee himported
        rw [refundStep, if_neg hnot]
        refine ⟨?_, hregistry, hfee, fun id => ?_⟩
        · rw [hlocks]
          simp [refundedLock, hdue]
        · rw [himported]
          simp only [pushLock_importedSet, mem_insert_importedSet, List.mem_cons,
            exists_eq_or_imp]
          tauto
      · have hskip : lock.state ≠ .locked ∨ h < lock.unlockHeight := by
          by_contra hcon
          exact hdue (by simpa [BitVec.not_lt] using hcon)
        rw [refundStep, if_pos hskip] at hlocks hregistry hfee himported
        rw [refundStep, if_pos hskip]
        refine ⟨?_, hregistry, hfee, fun id => ?_⟩
        · rw [hlocks]
          simp [refundedLock, hdue]
        · rw [himported]
          simp only [pushLock_importedSet, List.mem_cons, exists_eq_or_imp]
          tauto

/-- The timeout pass refunds the due locks and takes their ids as imported. -/
theorem refundExpLocks_view (s : State) (h : U64) :
    (s.refundExpLocks h).crossShardLocks = s.crossShardLocks.map (refundedLock h) ∧
      (s.refundExpLocks h).exportedRegistry = s.exportedRegistry ∧
      (s.refundExpLocks h).feePool = s.feePool ∧
      ∀ id, id ∈ (s.refundExpLocks h).importedSet ↔
        id ∈ s.importedSet ∨ ∃ l ∈ s.dueLocks h, l.exportId = id := by
  obtain ⟨hlocks, hregistry, hfee, himported⟩ :=
    refundFold_view h s.crossShardLocks { s with crossShardLocks := [] }
  refine ⟨hlocks.trans (List.nil_append _), hregistry, hfee, fun id => ?_⟩
  rw [State.refundExpLocks, himported]
  simp [State.dueLocks, and_assoc]

theorem refundedLock_id (h : U64) (lock : CrossShardLock) :
    (refundedLock h lock).exportId = lock.exportId := by
  unfold refundedLock
  split <;> rfl

/-- A lock that is still held after the pass was not due. -/
theorem refundedLock_locked {h : U64} {lock : CrossShardLock}
    (hl : (refundedLock h lock).state = .locked) :
    refundedLock h lock = lock ∧ ¬ (lock.state = .locked ∧ lock.unlockHeight ≤ h) := by
  unfold refundedLock at hl ⊢
  by_cases hdue : lock.state = .locked ∧ lock.unlockHeight ≤ h
  · simp [hdue] at hl
  · exact ⟨if_neg hdue, hdue⟩

/-! ## One settlement per export -/

/-- The export ids that a step settles. -/
def LedgerLabel.settled : LedgerLabel → List Bytes32
  | .applied tx =>
      match tx.body with
      | .importTx _ _ exportId => [exportId]
      | _ => []
  | .refunded locks => locks.map CrossShardLock.exportId
  | _ => []

/-- The lock ids are distinct, and a held lock is not imported. -/
structure Unsettled (s : State) : Prop where
  ids : (s.crossShardLocks.map CrossShardLock.exportId).Nodup
  fresh : ∀ l ∈ s.crossShardLocks, l.state = .locked → l.exportId ∉ s.importedSet

/-- An export that is applied takes an id that was not imported, or one that has its lock. -/
def ExportsFresh (C : Crypto) (s : State) : LedgerLabel → Prop
  | .applied tx => ∀ exportId, tx.exportId C = some exportId →
      exportId ∉ s.importedSet ∨ (s.lockIdx exportId).isSome
  | _ => True

section Steps

variable {C : Crypto} {genCfg : GenCfg} {s s' : State} {l : LedgerLabel}

/-- The three ways in which a step bears on cross-shard data. -/
theorem step_crossShard (hstep : LedgerStep C genCfg s l s') :
    (∃ tx, l = .applied tx ∧ CrossShardEffect C genCfg tx s s') ∨
      (∃ h, l = .refunded (s.dueLocks h) ∧ s' = s.refundExpLocks h) ∨
      ((∀ tx, l ≠ .applied tx) ∧ l.settled = [] ∧ SameCrossShard s s') := by
  cases hstep with
  | applied hok => exact Or.inl ⟨_, rfl, applyTxImpl_crossShard hok⟩
  | failed herr =>
      refine Or.inr (Or.inr ⟨by simp, rfl, ?_⟩)
      rcases applyTxImpl_error C genCfg herr with rfl | rfl
      · exact SameCrossShard.refl _
      · exact initStub_crossShard C _ s
  | refunded h => exact Or.inr (Or.inl ⟨h, rfl, rfl⟩)
  | drained hok =>
      obtain ⟨hl, hi, hr⟩ := drains_crossShard (drains_of_ok hok)
      exact Or.inr (Or.inr ⟨by simp, rfl, hl, hi, hr⟩)
  | rewarded prodAcct h =>
      refine Or.inr (Or.inr ⟨by simp, rfl, ?_⟩)
      unfold rewardBlock
      split <;> exact ⟨rfl, rfl, rfl⟩
  | epoch h =>
      refine Or.inr (Or.inr ⟨by simp, rfl, ?_⟩)
      unfold rollEpochIfNeeded
      split <;> exact ⟨rfl, rfl, rfl⟩
  | evidence hok =>
      obtain ⟨log, rfl⟩ := appendEvidence_accounts hok
      exact Or.inr (Or.inr ⟨by simp, rfl, rfl, rfl, rfl⟩)

/-- Imported ids stay imported. -/
theorem step_importedSet_mono (hstep : LedgerStep C genCfg s l s') {id : Bytes32}
    (hid : id ∈ s.importedSet) : id ∈ s'.importedSet := by
  rcases step_crossShard hstep with ⟨tx, _, heff⟩ | ⟨h, _, rfl⟩ | ⟨_, _, _, hi, _⟩
  · cases heff with
    | exported _ _ himported _ _ => rwa [himported]
    | imported _ _ _ _ _ himported _ _ =>
        rw [himported]
        exact mem_insert_importedSet.mpr (Or.inr hid)
    | other _ _ hsame => rwa [hsame.2.1]
  · exact ((refundExpLocks_view s h).2.2.2 id).mpr (Or.inl hid)
  · rwa [hi]

/-- After an import no lock of its id is held, when the ids are distinct. -/
theorem releaseLock_not_held {exportId : Bytes32}
    (hids : (s.crossShardLocks.map CrossShardLock.exportId).Nodup) {l' : CrossShardLock}
    (hmem : l' ∈ (s.releaseLock (s.lockIdx exportId)).crossShardLocks)
    (hheld : l'.state = .locked) : l' ∈ s.crossShardLocks ∧ l'.exportId ≠ exportId := by
  cases hidx : s.lockIdx exportId with
  | none =>
      rw [hidx] at hmem
      exact ⟨hmem, lockIdx_isNone_iff.mp hidx l' hmem⟩
  | some idx =>
      obtain ⟨lock, hlock, hid⟩ := lockIdx_some hidx
      rw [hidx] at hmem
      obtain ⟨i, hi, rfl⟩ := List.mem_iff_getElem.mp hmem
      simp only [State.releaseLock] at hi hheld ⊢
      rw [List.length_modify] at hi
      rw [List.getElem_modify] at hheld ⊢
      by_cases hii : idx = i
      · subst hii
        rw [if_pos rfl] at hheld
        split at hheld
        · cases hheld
        · rename_i hne
          exact absurd hheld hne
      · rw [if_neg hii] at hheld ⊢
        refine ⟨List.getElem_mem hi, fun heq => hii ?_⟩
        obtain ⟨hlt, hget⟩ := List.getElem?_eq_some_iff.mp hlock
        have hmap : (s.crossShardLocks.map CrossShardLock.exportId)[idx]? =
            (s.crossShardLocks.map CrossShardLock.exportId)[i]? := by
          rw [List.getElem?_map, List.getElem?_map, hlock, List.getElem?_eq_getElem hi]
          simp only [Option.map_some, hid, heq]
        exact (List.getElem?_inj (by simpa using hlt) hids).mp hmap

/-- One step keeps the invariant and settles only ids that were not imported. -/
theorem unsettled_step (hI : Unsettled s) (hstep : LedgerStep C genCfg s l s')
    (hfresh : ExportsFresh C s l) :
    Unsettled s' ∧ l.settled.Nodup ∧ ∀ id ∈ l.settled, id ∉ s.importedSet ∧ id ∈ s'.importedSet := by
  rcases step_crossShard hstep with ⟨tx, rfl, heff⟩ | ⟨h, rfl, rfl⟩ | ⟨_, hnone, hl, hi, _⟩
  · cases heff with
    | @exported toId targetDomain amount fee exportId h hbody hid himported _ hlocks =>
        have hsettled : (LedgerLabel.applied tx).settled = [] := by
          simp [LedgerLabel.settled, hbody]
        refine ⟨?_, by simp [hsettled], by simp [hsettled]⟩
        by_cases hnone : s.lockIdx exportId = none
        · rw [hnone, Option.isNone_none, if_pos rfl] at hlocks
          have hnew := lockIdx_isNone_iff.mp hnone
          constructor
          · rw [hlocks, List.map_append, List.nodup_append]
            refine ⟨hI.ids, by simp, ?_⟩
            simp only [List.map_cons, List.map_nil, List.mem_singleton, List.mem_map]
            rintro _ ⟨l, hl, rfl⟩ _ rfl
            exact hnew l hl
          · intro l hl hheld
            rw [himported]
            rw [hlocks, List.mem_append, List.mem_singleton] at hl
            rcases hl with hl | rfl
            · exact hI.fresh l hl hheld
            · rcases hfresh exportId hid with hout | hsome
              · exact hout
              · rw [hnone] at hsome
                cases hsome
        · rw [if_neg (by simpa using hnone)] at hlocks
          exact ⟨by rw [hlocks]; exact hI.ids, by rw [hlocks, himported]; exact hI.fresh⟩
    | @imported toId amount exportId expected insert hbody hout _ _ _ himported _ hlocks =>
        have hsettled : (LedgerLabel.applied tx).settled = [exportId] := by
          simp [LedgerLabel.settled, hbody]
        refine ⟨⟨?_, ?_⟩, by simp [hsettled], ?_⟩
        · rw [hlocks, releaseLock_ids]
          exact hI.ids
        · intro l hl hheld
          rw [hlocks] at hl
          obtain ⟨hold, hne⟩ := releaseLock_not_held hI.ids hl hheld
          rw [himported, mem_insert_importedSet]
          rintro (heq | hin)
          · exact hne heq.symm
          · exact hI.fresh l hold hheld hin
        · intro id hmem
          rw [hsettled, List.mem_singleton] at hmem
          subst hmem
          exact ⟨hout, himported ▸ mem_insert_importedSet.mpr (Or.inl rfl)⟩
    | other hexport himport hsame =>
        obtain ⟨hl, hi, _⟩ := hsame
        have hsettled : (LedgerLabel.applied tx).settled = [] := by
          cases hbody : tx.body with
          | importTx toId amount exportId => exact absurd hbody (himport _ _ _)
          | _ => simp [LedgerLabel.settled, hbody]
        refine ⟨⟨by rw [hl]; exact hI.ids, by rw [hl, hi]; exact hI.fresh⟩, ?_, ?_⟩ <;>
          simp [hsettled]
  · obtain ⟨hlocks, _, _, himported⟩ := refundExpLocks_view s h
    refine ⟨⟨?_, ?_⟩, ?_, ?_⟩
    · rw [hlocks, List.map_map]
      simpa [Function.comp_def, refundedLock_id] using hI.ids
    · intro l hl hheld
      rw [hlocks] at hl
      obtain ⟨old, hold, rfl⟩ := List.mem_map.mp hl
      obtain ⟨hsame, hdue⟩ := refundedLock_locked hheld
      rw [hsame] at hheld ⊢
      rw [himported]
      rintro (hin | ⟨d, hd, hid⟩)
      · exact hI.fresh old hold hheld hin
      · -- a due lock with the same id is this lock
        obtain ⟨hdmem, hdp⟩ := List.mem_filter.mp hd
        have heq : d = old := List.inj_on_of_nodup_map hI.ids hdmem hold hid
        subst heq
        exact hdue (by simpa using hdp)
    · exact hI.ids.sublist (List.filter_sublist.map _)
    · intro id hmem
      obtain ⟨d, hd, rfl⟩ := List.mem_map.mp hmem
      obtain ⟨hdmem, hdp⟩ := List.mem_filter.mp hd
      have hheld : d.state = .locked := (by simpa using hdp : _ ∧ _).1
      exact ⟨hI.fresh d hdmem hheld, (himported d.exportId).mpr (Or.inr ⟨d, hd, rfl⟩)⟩
  · refine ⟨⟨by rw [hl]; exact hI.ids, by rw [hl, hi]; exact hI.fresh⟩, ?_, ?_⟩ <;> simp [hnone]

/-- A step whose exports are fresh. -/
def FreshStep (C : Crypto) (genCfg : GenCfg) (s : State) (l : LedgerLabel) (s' : State) : Prop :=
  LedgerStep C genCfg s l s' ∧ ExportsFresh C s l

/-- Over a run from a state without locks, every export id is settled at most once, by an import
or by a refund, and no held lock is imported. -/
theorem settled_once {s₀ : State} {ls : List LedgerLabel} (h₀ : s₀.crossShardLocks = [])
    (hrun : Run (FreshStep C genCfg) s₀ ls s) :
    (ls.flatMap LedgerLabel.settled).Nodup ∧
      ∀ l ∈ s.crossShardLocks, l.state = .locked → l.exportId ∉ s.importedSet := by
  have hinv : Unsettled s ∧ (ls.flatMap LedgerLabel.settled).Nodup ∧
      ∀ id ∈ ls.flatMap LedgerLabel.settled, id ∈ s.importedSet := by
    refine hrun.history_invariant
      (I := fun ls s => Unsettled s ∧ (ls.flatMap LedgerLabel.settled).Nodup ∧
        ∀ id ∈ ls.flatMap LedgerLabel.settled, id ∈ s.importedSet) ?_ ?_
    · rintro ls s l s' ⟨hI, hnodup, himp⟩ ⟨hstep, hfresh⟩
      obtain ⟨hI', hl, hset⟩ := unsettled_step hI hstep hfresh
      rw [List.flatMap_append, List.flatMap_singleton]
      refine ⟨hI', List.nodup_append.mpr ⟨hnodup, hl, ?_⟩, ?_⟩
      · rintro a ha b hb rfl
        exact (hset a hb).1 (himp a ha)
      · intro id hid
        rcases List.mem_append.mp hid with hid | hid
        · exact step_importedSet_mono hstep (himp id hid)
        · exact (hset id hid).2
    · refine ⟨⟨by simp [h₀], by simp [h₀]⟩, by simp, by simp⟩
  exact ⟨hinv.2.1, hinv.1.fresh⟩

end Steps

/-! ## An import that comes before its export -/

namespace EarlyImport

/-- A funded account of another domain than the devnet account. -/
def importerRow : GRow where
  acct := 0x9f9d0805f38c7f070947a3aed98d065d46516f1c410a4dc8c26874aa8e63b034#256
  pubkey := 0x2a209eaf72e3c8dadf7bd0839d56b8d03c2fd7daa77a5327a1ec4a57b7d6bdbb#256
  derIdx := 0#32
  bal := 1000000#128

def importerSk : SigningKey :=
  0xce58c375d7569ea03100443602180ae4cd1d0ec1f13ddd731392ed83e6822c1c#256

/-- The devnet with the second account funded as well. -/
def net : GenCfg :=
  { devNet with funding := ⟨[devNetRow, importerRow]⟩, accounts := [devNetRow, importerRow] }

def exportTx : SignedTx where
  domainCode := 0x32bc#16
  signerPk := devNetRow.pubkey
  derivationIndex := 0#32
  nonce := 0#64
  body := .exportTx importerRow.acct 0x9f9d#16 500#128 1#128
  signature := 0x7f4c6054401b3346f9478374a5a1b51fd760a7397eb5104a2b7348e8cf0918852200799f3b9335253b8f43fd7552599c7121c2975b01e8f70597781845286604#512

def exportTxHash : Bytes32 :=
  0x9c4a715f53325b3ebc3d0d1ee7155ac4acccca6a48691547fa2f73d5de21adbc#256

def exportId : Bytes32 :=
  0x73351d68f01f5082ee71e45fd5d77365078e4ad8cabaece1c25f889d6f6d5333#256

def importTx : SignedTx where
  domainCode := 0x9f9d#16
  signerPk := importerRow.pubkey
  derivationIndex := 0#32
  nonce := 0#64
  body := .importTx importerRow.acct 500#128 exportId
  importFee := some 10000#128
  importProvenance := some ⟨importerRow.acct, 0x9f9d#16, 500#128⟩
  signature := 0xf81e740a32c6b280ef7becaff55a9d67b2f022f5e29b89ca93b0e8cf1149246aaa5a981d3b8f3d428eae688d8b8cc4237305cff3f1d43bcd3739b4b834849a02#512

def crypto : Crypto :=
  .ofTables
    [(devNetRow.pubkey.beBytes 32 ++ (0#32).leBytes 4, devNetRow.acct),
      (importerRow.pubkey.beBytes 32 ++ (0#32).leBytes 4, importerRow.acct),
      (exportTx.signingMessage, exportTxHash),
      (exportTx.domainCode.leBytes 2 ++ exportTxHash.beBytes 32 ++
        SignedTx.exportOutputIndex.leBytes 4 ++ exportTx.nonce.leBytes 8, exportId)]
    [⟨devNetSk, devNetRow.pubkey, [(exportTx.signingMessage, exportTx.signature)]⟩,
      ⟨importerSk, importerRow.pubkey, [(importTx.signingMessage, importTx.signature)]⟩]

def afterImport : State := endState (applyTxWithCtx crypto net importTx 1#64 0#64 net.state0)
def afterExport : State := endState (applyTxWithCtx crypto net exportTx 1#64 0#64 afterImport)

theorem run_afterExport :
    Run (LedgerStep crypto net) net.state0 [.applied importTx, .applied exportTx] afterExport := by
  have h₁ : applyTxWithCtx crypto net importTx 1#64 0#64 net.state0 = .ok () afterImport := by
    decide +kernel
  have h₂ : applyTxWithCtx crypto net exportTx 1#64 0#64 afterImport = .ok () afterExport := by
    decide +kernel
  exact ((Run.nil _).snoc (.applied h₁)).snoc (.applied h₂)

/-- The ordinary order: the export first, then the import of its id. -/
def exportFirst : State := endState (applyTxWithCtx crypto net exportTx 1#64 0#64 net.state0)
def importSecond : State := endState (applyTxWithCtx crypto net importTx 2#64 0#64 exportFirst)

end EarlyImport

/-- The import of an id that is exported later: its lock is held although the id is imported, and
the timeout settles the id a second time. -/
theorem earlyImport_settles_twice :
    EarlyImport.net.state0.crossShardLocks = [] ∧
      ∃ s ls s', Run (LedgerStep EarlyImport.crypto EarlyImport.net) EarlyImport.net.state0 ls s ∧
        (∃ l ∈ s.crossShardLocks, l.state = .locked ∧ l.exportId ∈ s.importedSet) ∧
        LedgerStep EarlyImport.crypto EarlyImport.net s (.refunded (s.dueLocks 604801#64)) s' ∧
        ¬ ((ls ++ [LedgerLabel.refunded (s.dueLocks 604801#64)]).flatMap LedgerLabel.settled).Nodup := by
  refine ⟨by decide, EarlyImport.afterExport, _, _, EarlyImport.run_afterExport, ?_,
    LedgerStep.refunded EarlyImport.afterExport 604801#64, ?_⟩ <;>
    decide +kernel

theorem settled_once_exportFirst :
    (([.applied EarlyImport.exportTx, .applied EarlyImport.importTx] : List LedgerLabel).flatMap
        LedgerLabel.settled).Nodup ∧
      ∀ l ∈ EarlyImport.importSecond.crossShardLocks, l.state = .locked →
        l.exportId ∉ EarlyImport.importSecond.importedSet := by
  have h₁ : applyTxWithCtx EarlyImport.crypto EarlyImport.net EarlyImport.exportTx 1#64 0#64
      EarlyImport.net.state0 = .ok () EarlyImport.exportFirst := by
    decide +kernel
  have h₂ : applyTxWithCtx EarlyImport.crypto EarlyImport.net EarlyImport.importTx 2#64 0#64
      EarlyImport.exportFirst = .ok () EarlyImport.importSecond := by
    decide +kernel
  have hfresh₁ : ExportsFresh EarlyImport.crypto EarlyImport.net.state0
      (.applied EarlyImport.exportTx) := by
    intro exportId _
    refine Or.inl ?_
    rw [show EarlyImport.net.state0.importedSet = ∅ by decide]
    exact Std.ExtTreeSet.not_mem_empty
  have hfresh₂ : ExportsFresh EarlyImport.crypto EarlyImport.exportFirst
      (.applied EarlyImport.importTx) := by
    intro exportId hid
    cases hid
  exact settled_once (by decide)
    (((Run.nil _).snoc ⟨.applied h₁, hfresh₁⟩).snoc ⟨.applied h₂, hfresh₂⟩)

end Pwm
