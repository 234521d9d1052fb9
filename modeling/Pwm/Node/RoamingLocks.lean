import Pwm.Ledger.Settlement
import Pwm.Lib.RowTable
import Pwm.Node.RoamingPool

/-!
# Locks and statuses of the roaming intents

The lock of a source is the locking intent of it as long as no status is set
on an intent whose source has gone on to another one. An ended intent stays
ended as long as no operation sets a locking status on it.
-/

namespace Pwm

open BitVec Attempt

/-- What of an intent never changes. -/
def RoamingIntent.origin (intent : RoamingIntent) : Bytes32 × Bytes32 × AccountId :=
  (intent.intentId, intent.exportId, intent.source)

namespace RoamingPool

/-- The locks list the locking intents by their sources. -/
def LocksMatch (pool : RoamingPool) : Prop :=
  ActiveIndex RoamingIntent.source (fun intent => intent.status.isLocking = true)
    (fun id => pool.intents[id]?) (fun source => pool.activeLocks[source]?)

/-- Intents stand at the id of their export. -/
structure Keyed (pool : RoamingPool) : Prop where
  ids : ∀ (id : Bytes32) (intent : RoamingIntent), pool.intents[id]? = some intent →
    intent.intentId = id ∧ intent.exportId = id
  exports : ∀ exportId id : Bytes32, pool.exportToIntent[exportId]? = some id ↔
    id = exportId ∧ (pool.intents[exportId]?).isSome

/-- The intents are the same up to their statuses and errors. -/
structure SameIntents (pool pool' : RoamingPool) : Prop where
  exports : pool'.exportToIntent = pool.exportToIntent
  origins : ∀ id : Bytes32, (pool'.intents[id]?).map RoamingIntent.origin =
    (pool.intents[id]?).map RoamingIntent.origin

section Statuses

variable {pool pool' : RoamingPool} {id : Bytes32} {intent : RoamingIntent}
  {status : IntentStatus} {err : Option String}

theorem SameIntents.refl (pool : RoamingPool) : SameIntents pool pool := ⟨rfl, fun _ => rfl⟩

theorem SameIntents.trans {pool'' : RoamingPool} (h : SameIntents pool pool')
    (h' : SameIntents pool' pool'') : SameIntents pool pool'' :=
  ⟨h'.exports.trans h.exports, fun id => (h'.origins id).trans (h.origins id)⟩

/-- Where an intent was, it is still. -/
theorem SameIntents.origin_eq (h : SameIntents pool pool') (hid : pool'.intents[id]? = some intent) :
    ∃ old, pool.intents[id]? = some old ∧ intent.origin = old.origin := by
  have hmap := h.origins id
  rw [hid, Option.map_some] at hmap
  obtain ⟨old, hold, horigin⟩ := Option.map_eq_some_iff.mp hmap.symm
  exact ⟨old, hold, horigin.symm⟩

theorem SameIntents.isSome_eq (h : SameIntents pool pool') (id : Bytes32) :
    (pool'.intents[id]?).isSome = (pool.intents[id]?).isSome := by
  rw [← Option.isSome_map (f := RoamingIntent.origin), h.origins, Option.isSome_map]

theorem Keyed.of_same (h : Keyed pool) (hsame : SameIntents pool pool') : Keyed pool' := by
  constructor
  · intro id intent hid
    obtain ⟨old, hold, horigin⟩ := hsame.origin_eq hid
    obtain ⟨hintent, hexport⟩ := h.ids id old hold
    simp only [RoamingIntent.origin, Prod.mk.injEq] at horigin
    exact ⟨horigin.1.trans hintent, horigin.2.1.trans hexport⟩
  · intro exportId id
    rw [hsame.exports, h.exports, hsame.isSome_eq]

theorem setStatus_intents (hid : pool.intents[id]? = some intent) :
    (fun k => (pool.setStatus id status err).intents[k]?) =
      Function.update (fun k => pool.intents[k]?) id
        (some { intent with status := status, lastError := err.or intent.lastError }) := by
  simp only [setStatus, hid]
  exact getElem?_insert_eq_update _ _ _

theorem setStatus_locks (hid : pool.intents[id]? = some intent) :
    (fun source => (pool.setStatus id status err).activeLocks[source]?) =
      Function.update (fun source => pool.activeLocks[source]?) intent.source
        (if status.isLocking = true then some id else none) := by
  simp only [setStatus, hid]
  split
  · exact getElem?_insert_eq_update _ _ _
  · exact getElem?_erase_eq_update _ _

theorem setStatus_none (hid : pool.intents[id]? = none) : pool.setStatus id status err = pool := by
  simp only [setStatus, hid]

theorem setStatus_same : SameIntents pool (pool.setStatus id status err) := by
  cases hid : pool.intents[id]? with
  | none =>
      rw [setStatus_none hid]
      exact .refl pool
  | some intent =>
      refine ⟨by simp only [setStatus, hid], fun k => ?_⟩
      rw [congrFun (setStatus_intents hid) k]
      by_cases hk : k = id
      · subst hk
        rw [Function.update_self, hid]
        rfl
      · rw [Function.update_of_ne hk]

/-- Setting a status keeps the locks right exactly when no other intent holds the lock. -/
theorem setStatus_locksMatch_iff (h : LocksMatch pool) (hid : pool.intents[id]? = some intent) :
    LocksMatch (pool.setStatus id status err) ↔
      ∀ other, pool.activeLocks[intent.source]? = some other → other = id := by
  have hwrite := ActiveIndex.write_iff (k := id)
    (v := { intent with status := status, lastError := err.or intent.lastError }) h
    (fun old hold => by
      obtain rfl := Option.some.inj (hid.symm.trans hold)
      rfl)
  unfold LocksMatch
  rw [setStatus_intents hid, setStatus_locks hid]
  exact hwrite

/-- A locking intent holds the lock of its source. -/
theorem LocksMatch.holds (h : LocksMatch pool) (hid : pool.intents[id]? = some intent)
    (hlocking : intent.status.isLocking = true) : pool.activeLocks[intent.source]? = some id :=
  (h _ _).mpr ⟨intent, hid, rfl, hlocking⟩

theorem setStatus_of_locking (h : LocksMatch pool) (hid : pool.intents[id]? = some intent)
    (hlocking : intent.status.isLocking = true) : LocksMatch (pool.setStatus id status err) := by
  refine (setStatus_locksMatch_iff h hid).mpr fun other hother => ?_
  exact Option.some.inj (hother.symm.trans (h.holds hid hlocking))

end Statuses

section Steps

variable {C : Crypto} {pool : RoamingPool}

theorem expireByHeight_fold (ids : List Bytes32) (pool : RoamingPool) (err : Option String) :
    SameIntents pool (ids.foldl (fun pool id => pool.setStatus id .expired err) pool) := by
  induction ids generalizing pool with
  | nil => exact .refl pool
  | cons id rest ih => exact setStatus_same.trans (ih _)

/-- Expiring open intents one after the other keeps the locks right. -/
theorem expire_locksMatch {ids : List Bytes32} (h : LocksMatch pool) (hnodup : ids.Nodup)
    (hopen : ∀ id ∈ ids, ∃ intent : RoamingIntent, pool.intents[id]? = some intent ∧
      intent.status.isLocking = true) (err : Option String) :
    LocksMatch (ids.foldl (fun pool id => pool.setStatus id .expired err) pool) := by
  induction ids generalizing pool with
  | nil => exact h
  | cons id rest ih =>
      obtain ⟨hnot, hrest⟩ := List.nodup_cons.mp hnodup
      obtain ⟨intent, hid, hlocking⟩ := hopen id List.mem_cons_self
      refine ih (setStatus_of_locking h hid hlocking) hrest fun id' hmem => ?_
      obtain ⟨intent', hid', hlocking'⟩ := hopen id' (List.mem_cons_of_mem _ hmem)
      have hne : id' ≠ id := by
        rintro rfl
        exact hnot hmem
      refine ⟨intent', ?_, hlocking'⟩
      rw [congrFun (setStatus_intents hid) id', Function.update_of_ne hne, hid']

theorem mem_overdue {nowHeight : U64} {id : Bytes32} (hmem : id ∈ pool.overdue nowHeight) :
    ∃ intent : RoamingIntent, pool.intents[id]? = some intent ∧ intent.status.isLocking = true := by
  obtain ⟨⟨k, intent⟩, hk, hsome⟩ := List.mem_filterMap.mp hmem
  simp only [Option.ite_none_right_eq_some, Option.some.injEq] at hsome
  obtain ⟨⟨hopen, -⟩, rfl⟩ := hsome
  refine ⟨intent, Std.ExtTreeMap.mem_toList_iff_getElem?_eq_some.mp hk, ?_⟩
  rw [IntentStatus.isLocking_eq_not]
  simpa using hopen

theorem overdue_nodup (nowHeight : U64) : (pool.overdue nowHeight).Nodup := by
  have hkeys : pool.intents.toList.Pairwise fun a b => ¬ compare a.1 b.1 = .eq :=
    Std.ExtTreeMap.distinct_keys_toList
  refine List.pairwise_filterMap.mpr (hkeys.imp ?_)
  intro a b hab k hk k' hk' heq
  simp only [Option.ite_none_right_eq_some, Option.some.injEq] at hk hk'
  refine hab ?_
  rw [hk.2, hk'.2, heq]
  exact Std.ReflCmp.compare_self

theorem markRelayError_intents (id : Bytes32) (err : String) :
    (fun k => (pool.markRelayError id err).intents[k]?) =
      Function.update (fun k => pool.intents[k]?) id
        ((pool.intents[id]?).map fun intent => { intent with lastError := some err }) :=
  getElem?_modify_eq_update _ _ _

theorem markRelayError_same (id : Bytes32) (err : String) :
    SameIntents pool (pool.markRelayError id err) := by
  refine ⟨rfl, fun k => ?_⟩
  rw [congrFun (markRelayError_intents id err) k]
  by_cases hk : k = id
  · subst hk
    rw [Function.update_self, Option.map_map]
    rfl
  · rw [Function.update_of_ne hk]

theorem markRelayError_locksMatch (h : LocksMatch pool) (id : Bytes32) (err : String) :
    LocksMatch (pool.markRelayError id err) := by
  unfold LocksMatch
  rw [markRelayError_intents]
  exact h.update_map fun _ => ⟨rfl, Iff.rfl⟩

theorem Keyed.insert {intent : RoamingIntent} (h : Keyed pool)
    (hid : intent.intentId = intent.exportId) {locks : Std.ExtTreeMap AccountId Bytes32} :
    Keyed { pool with
      exportToIntent := pool.exportToIntent.insert intent.exportId intent.exportId
      activeLocks := locks
      intents := pool.intents.insert intent.exportId intent } := by
  constructor
  · intro id intent' hid'
    have hid' := (congrFun (getElem?_insert_eq_update pool.intents _ intent) id).symm.trans hid'
    by_cases hne : id = intent.exportId
    · rw [hne, Function.update_self] at hid'
      obtain rfl := Option.some.inj hid'
      exact ⟨hid.trans hne.symm, hne.symm⟩
    · rw [Function.update_of_ne hne] at hid'
      exact h.ids id intent' hid'
  · intro exportId id
    have hexports := congrFun (getElem?_insert_eq_update pool.exportToIntent intent.exportId
      intent.exportId) exportId
    have hintents := congrFun (getElem?_insert_eq_update pool.intents intent.exportId intent) exportId
    simp only at hexports hintents ⊢
    rw [hexports, hintents]
    by_cases hne : exportId = intent.exportId
    · subst hne
      rw [Function.update_self, Function.update_self]
      simp [eq_comm]
    · rw [Function.update_of_ne hne, Function.update_of_ne hne]
      exact h.exports exportId id

/-- A new intent takes the free lock of its source. -/
theorem LocksMatch.insert {intent : RoamingIntent} (h : LocksMatch pool) (hkeyed : Keyed pool)
    (hstatus : intent.status = .queued) (hnone : pool.exportToIntent[intent.exportId]? = none)
    (hfree : pool.activeLocks[intent.source]? = none)
    {exports : Std.ExtTreeMap Bytes32 Bytes32} :
    LocksMatch { pool with
      exportToIntent := exports
      activeLocks := pool.activeLocks.insert intent.source intent.exportId
      intents := pool.intents.insert intent.exportId intent } := by
  have hnew : pool.intents[intent.exportId]? = none := by
    cases hold : pool.intents[intent.exportId]? with
    | none => rfl
    | some old =>
        have hthere := (hkeyed.exports intent.exportId intent.exportId).mpr
          ⟨rfl, by rw [hold, Option.isSome_some]⟩
        rw [hnone] at hthere
        cases hthere
  have hwrite := ActiveIndex.write_iff (k := intent.exportId) (v := intent) h
    (fun old hold => by
      rw [hnew] at hold
      cases hold)
  unfold LocksMatch
  rw [getElem?_insert_eq_update, getElem?_insert_eq_update]
  have hlocked : ActiveIndex.note RoamingIntent.source (fun intent => intent.status.isLocking = true)
      (fun source => pool.activeLocks[source]?) intent.exportId intent =
        Function.update (fun source => pool.activeLocks[source]?) intent.source
          (some intent.exportId) := by
    rw [ActiveIndex.note, hstatus]
    rfl
  rw [← hlocked]
  refine hwrite.mpr fun other hother => ?_
  have hlocks := hfree.symm.trans hother
  cases hlocks

/-- An intent that is registered is a new one of a source without a lock. -/
theorem registerExport_cases {tx : SignedTx} {nowHeight ttlBlocks : U64} {pool' : RoamingPool}
    {res : Bytes32 × Bool}
    (hok : pool.registerExport C tx nowHeight ttlBlocks = .ok (pool', res)) :
    pool' = pool ∨ ∃ intent : RoamingIntent, intent.intentId = intent.exportId ∧
      intent.status = .queued ∧ pool.exportToIntent[intent.exportId]? = none ∧
      pool.activeLocks[intent.source]? = none ∧
      pool' = { pool with
        exportToIntent := pool.exportToIntent.insert intent.exportId intent.exportId
        activeLocks := pool.activeLocks.insert intent.source intent.exportId
        intents := pool.intents.insert intent.exportId intent } := by
  unfold registerExport at hok
  split at hok
  next toId targetDomain amount fee _ =>
    simp only [except_bind_ok_iff, orFail_ok_iff] at hok
    obtain ⟨exportId, hexport, hok⟩ := hok
    split at hok
    · left
      exact (congrArg Prod.fst (Except.ok.inj hok)).symm
    next hnone =>
      right
      simp only [except_bind_ok_iff, check_ok_iff] at hok
      obtain ⟨-, hfree, hok⟩ := hok
      simp only [Except.ok.injEq, Prod.mk.injEq] at hok
      obtain ⟨rfl, -⟩ := hok
      exact ⟨
        { intentId := exportId
          exportId := exportId
          source := tx.computedAccountId C
          toId := toId
          targetDomain := targetDomain
          amount := amount
          fee := fee
          status := .queued
          createdHeight := nowHeight
          expiresAtHeight := nowHeight.saturatingAdd (ttlBlocks.umax 1#64)
          lastError := none }, rfl, rfl, hnone, hfree, rfl⟩
  · cases hok

theorem registerReadiness_pool {tx : SignedTx} {nowMs ttlSec nonce height : U64}
    {p : RoamingPool × ExportReadiness}
    (hok : pool.registerReadiness C tx nowMs ttlSec nonce height = .ok p) :
    ∃ rows, p.1 = { pool with readiness := rows } := by
  unfold registerReadiness at hok
  split at hok
  · simp only [except_bind_ok_iff, orFail_ok_iff, check_ok_iff, Except.ok.injEq] at hok
    obtain ⟨exportId, -, -, -, rfl⟩ := hok
    exact ⟨_, rfl⟩
  · cases hok

theorem consumeReadiness_pool (tx : SignedTx) (nowMs nonce height : U64) :
    ∃ rows, (pool.consumeReadiness C tx nowMs nonce height).1 = { pool with readiness := rows } := by
  unfold consumeReadiness
  repeat' split
  all_goals exact ⟨_, rfl⟩

/-- What an operation that sets no status does to the pool. -/
theorem apply_sets_none {op : PoolOp} (hsets : op.sets pool = none) :
    (∃ rows, op.apply C pool = { pool with readiness := rows }) ∨
    (∃ id err, op.apply C pool = pool.markRelayError id err) ∨
    (∃ nowHeight, op.apply C pool = pool.expireByHeight nowHeight) ∨
    ∃ intent : RoamingIntent, intent.intentId = intent.exportId ∧
      intent.status = .queued ∧ pool.exportToIntent[intent.exportId]? = none ∧
      pool.activeLocks[intent.source]? = none ∧
      op.apply C pool = { pool with
        exportToIntent := pool.exportToIntent.insert intent.exportId intent.exportId
        activeLocks := pool.activeLocks.insert intent.source intent.exportId
        intents := pool.intents.insert intent.exportId intent } := by
  cases op with
  | register tx nowHeight ttlBlocks =>
      cases hok : pool.registerExport C tx nowHeight ttlBlocks with
      | error e => exact .inl ⟨pool.readiness, by simp only [PoolOp.apply, hok]⟩
      | ok p =>
          rcases registerExport_cases hok with hsame | ⟨intent, hid, hstatus, hnone, hfree, hpool⟩
          · exact .inl ⟨pool.readiness, by simp only [PoolOp.apply, hok, hsame]⟩
          · exact .inr (.inr (.inr ⟨intent, hid, hstatus, hnone, hfree, by
              simp only [PoolOp.apply, hok, hpool]⟩))
  | registerReadiness tx nowMs ttlSec nonce height =>
      left
      cases hok : pool.registerReadiness C tx nowMs ttlSec nonce height with
      | error e => exact ⟨pool.readiness, by simp only [PoolOp.apply, hok]⟩
      | ok p =>
          obtain ⟨rows, hpool⟩ := registerReadiness_pool hok
          exact ⟨rows, by simp only [PoolOp.apply, hok, hpool]⟩
  | consumeReadiness tx nowMs nonce height => exact .inl (consumeReadiness_pool tx nowMs nonce height)
  | exported intentId => cases hsets
  | relayed intentId => cases hsets
  | relayError intentId err => exact .inr (.inl ⟨intentId, err, rfl⟩)
  | relayedByExport exportId =>
      have hnone : pool.exportToIntent[exportId]? = none := Option.map_eq_none_iff.mp hsets
      exact .inl ⟨pool.readiness, by simp only [PoolOp.apply, markRelayedByExport, hnone]⟩
  | importByExport exportId =>
      have hnone : pool.exportToIntent[exportId]? = none := Option.map_eq_none_iff.mp hsets
      exact .inl ⟨pool.readiness, by simp only [PoolOp.apply, markImportByExport, hnone]⟩
  | failed intentId err => cases hsets
  | expire nowHeight => exact .inr (.inr (.inl ⟨nowHeight, rfl⟩))

/-- The operations that set a status do no more. -/
theorem apply_sets {op : PoolOp} {id : Bytes32} {status : IntentStatus}
    (hsets : op.sets pool = some (id, status)) :
    ∃ err, op.apply C pool = pool.setStatus id status err := by
  cases op with
  | register tx nowHeight ttlBlocks => cases hsets
  | registerReadiness tx nowMs ttlSec nonce height => cases hsets
  | consumeReadiness tx nowMs nonce height => cases hsets
  | exported intentId =>
      obtain ⟨rfl, rfl⟩ := Prod.mk.inj (Option.some.inj hsets)
      exact ⟨_, rfl⟩
  | relayed intentId =>
      obtain ⟨rfl, rfl⟩ := Prod.mk.inj (Option.some.inj hsets)
      exact ⟨_, rfl⟩
  | relayError intentId err => cases hsets
  | relayedByExport exportId =>
      obtain ⟨intentId, hexport, hpair⟩ := Option.map_eq_some_iff.mp hsets
      obtain ⟨rfl, rfl⟩ := Prod.mk.inj hpair
      simp only [PoolOp.apply, markRelayedByExport, hexport]
      exact ⟨_, rfl⟩
  | importByExport exportId =>
      obtain ⟨intentId, hexport, hpair⟩ := Option.map_eq_some_iff.mp hsets
      obtain ⟨rfl, rfl⟩ := Prod.mk.inj hpair
      simp only [PoolOp.apply, markImportByExport, hexport]
      exact ⟨_, rfl⟩
  | failed intentId err =>
      obtain ⟨rfl, rfl⟩ := Prod.mk.inj (Option.some.inj hsets)
      exact ⟨_, rfl⟩
  | expire nowHeight => cases hsets

theorem Keyed.apply (h : Keyed pool) (op : PoolOp) : Keyed (op.apply C pool) := by
  cases hsets : op.sets pool with
  | none =>
      rcases @apply_sets_none C pool op hsets with
        ⟨rows, happly⟩ | ⟨id, err, happly⟩ | ⟨nowHeight, happly⟩ | ⟨intent, hid, -, -, -, happly⟩
      · exact happly ▸ ⟨h.ids, h.exports⟩
      · exact happly ▸ h.of_same (markRelayError_same id err)
      · exact happly ▸ h.of_same (expireByHeight_fold _ _ _)
      · exact happly ▸ h.insert hid
  | some p =>
      obtain ⟨err, happly⟩ := @apply_sets C pool op p.1 p.2 hsets
      rw [happly]
      exact h.of_same setStatus_same

/-- An operation that sets no status keeps the locks right. -/
theorem LocksMatch.apply_none {op : PoolOp} (h : LocksMatch pool) (hkeyed : Keyed pool)
    (hsets : op.sets pool = none) : LocksMatch (op.apply C pool) := by
  rcases @apply_sets_none C pool op hsets with ⟨rows, happly⟩ | ⟨id, err, happly⟩ |
    ⟨nowHeight, happly⟩ | ⟨intent, -, hstatus, hnone, hfree, happly⟩
  · exact happly ▸ h
  · exact happly ▸ markRelayError_locksMatch h id err
  · exact happly ▸ expire_locksMatch h (overdue_nodup _) (fun _ => mem_overdue) _
  · exact happly ▸ h.insert hkeyed hstatus hnone hfree

/-- The intent that an operation names does not meet another one in the lock of its source. -/
def Undisturbed (pool : RoamingPool) (op : PoolOp) : Prop :=
  ∀ (id : Bytes32) (status : IntentStatus) (intent : RoamingIntent),
    op.sets pool = some (id, status) → pool.intents[id]? = some intent →
      ∀ other : Bytes32, pool.activeLocks[intent.source]? = some other → other = id

/-- One operation keeps the locks right exactly when it meets no other intent. -/
theorem apply_locksMatch_iff (hkeyed : Keyed pool) (h : LocksMatch pool) (op : PoolOp) :
    LocksMatch (op.apply C pool) ↔ Undisturbed pool op := by
  cases hsets : op.sets pool with
  | none =>
      refine iff_of_true (h.apply_none hkeyed hsets) fun id status intent hsome => ?_
      rw [hsets] at hsome
      cases hsome
  | some p =>
      obtain ⟨id, status⟩ := p
      obtain ⟨err, happly⟩ := @apply_sets C pool op id status hsets
      rw [happly]
      cases hid : pool.intents[id]? with
      | none =>
          rw [setStatus_none hid]
          refine iff_of_true h fun id' status' intent hsome hid' => ?_
          obtain ⟨rfl, -⟩ := Prod.mk.inj (Option.some.inj (hsets.symm.trans hsome))
          rw [hid] at hid'
          cases hid'
      | some intent =>
          rw [setStatus_locksMatch_iff h hid]
          constructor
          · intro hfree id' status' intent' hsome hid' other hother
            obtain ⟨rfl, -⟩ := Prod.mk.inj (Option.some.inj (hsets.symm.trans hsome))
            obtain rfl := Option.some.inj (hid.symm.trans hid')
            exact hfree other hother
          · intro hundisturbed other hother
            exact hundisturbed id status intent hsets hid other hother

end Steps

/-! ## Snapshots of the pool -/

section Restore

variable {pool out : RoamingPool} {rows : List RoamingIntent}
  {lockRows : List (AccountId × Bytes32)}

/-- Restoring intents builds the two maps of them. -/
theorem restoreIntents_ok_iff :
    restoreIntents rows out = .ok pool ↔ ∃ intents exports,
      RowTable.buildFrom (fun _ => "") out.intents (rows.map fun row => (row.intentId, row)) =
        .ok intents ∧
      RowTable.buildFrom (fun _ => "") out.exportToIntent
        (rows.map fun row => (row.exportId, row.intentId)) = .ok exports ∧
      pool = { out with intents := intents, exportToIntent := exports } := by
  induction rows generalizing out with
  | nil =>
      simp only [restoreIntents, List.map_nil, RowTable.buildFrom, Except.ok.injEq]
      constructor
      · rintro rfl
        exact ⟨_, _, rfl, rfl, rfl⟩
      · rintro ⟨_, _, rfl, rfl, rfl⟩
        rfl
  | cons row rest ih =>
      simp only [restoreIntents, except_bind_ok_iff, check_ok_iff, ih, List.map_cons,
        RowTable.buildFrom_cons_ok_iff]
      constructor
      · rintro ⟨-, hid, -, hexport, intents, exports, hintents, hexports, hpool⟩
        exact ⟨intents, exports, ⟨hid, hintents⟩, ⟨hexport, hexports⟩, hpool⟩
      · rintro ⟨intents, exports, ⟨hid, hintents⟩, ⟨hexport, hexports⟩, hpool⟩
        exact ⟨(), hid, (), hexport, intents, exports, hintents, hexports, hpool⟩

theorem restoreLocks_ok_iff :
    restoreLocks lockRows out = .ok pool ↔ ∃ locks,
      RowTable.buildFrom (fun _ => "") out.activeLocks lockRows = .ok locks ∧
      pool = { out with activeLocks := locks } := by
  induction lockRows generalizing out with
  | nil =>
      simp only [restoreLocks, RowTable.buildFrom, Except.ok.injEq]
      constructor
      · rintro rfl
        exact ⟨_, rfl, rfl⟩
      · rintro ⟨_, rfl, rfl⟩
        rfl
  | cons row rest ih =>
      obtain ⟨source, intentId⟩ := row
      simp only [restoreLocks, except_bind_ok_iff, check_ok_iff, ih,
        RowTable.buildFrom_cons_ok_iff]
      constructor
      · rintro ⟨-, hfree, locks, hlocks, hpool⟩
        exact ⟨locks, ⟨hfree, hlocks⟩, hpool⟩
      · rintro ⟨locks, ⟨hfree, hlocks⟩, hpool⟩
        exact ⟨(), hfree, locks, hlocks, hpool⟩

/-- The locks after a rebuild are the listing of the intents. -/
theorem rebuildLocksFromStatus_locks (hids : ∀ (id : Bytes32) (intent : RoamingIntent),
    pool.intents[id]? = some intent → intent.intentId = id) :
    (fun source : AccountId => pool.rebuildLocksFromStatus.activeLocks[source]?) =
      ActiveIndex.list RoamingIntent.source (fun intent => intent.status.isLocking = true)
        pool.intents.toList := by
  have hfold : ∀ (entries : List (Bytes32 × RoamingIntent)),
      (∀ p ∈ entries, p.2.intentId = p.1) → ∀ locks : Std.ExtTreeMap AccountId Bytes32,
      (fun source : AccountId => (entries.foldl (fun locks p =>
        if p.2.status.isLocking then locks.insert p.2.source p.2.intentId else locks)
          locks)[source]?) =
      entries.foldl (fun (ix : AccountId → Option Bytes32) (p : Bytes32 × RoamingIntent) =>
        if p.2.status.isLocking = true then Function.update ix p.2.source (some p.1) else ix)
          (fun source : AccountId => locks[source]?) := by
    intro entries hentries
    induction entries with
    | nil => exact fun _ => rfl
    | cons p rest ih =>
        intro locks
        rw [List.foldl_cons, List.foldl_cons, ih fun q hq => hentries q (List.mem_cons_of_mem p hq)]
        split
        · rw [getElem?_insert_eq_update, hentries p List.mem_cons_self]
        · rfl
  have hempty : (fun source : AccountId => (∅ : Std.ExtTreeMap AccountId Bytes32)[source]?) =
      fun _ => none := by
    funext source
    exact Std.ExtTreeMap.getElem?_empty
  rw [ActiveIndex.list, ← hempty, ← hfold]
  · rfl
  · rintro ⟨id, intent⟩ hmem
    exact hids id intent (Std.ExtTreeMap.mem_toList_iff_getElem?_eq_some.mp hmem)

/-- No source has two locking intents. -/
def OneLocking (rows : List RoamingIntent) : Prop :=
  ∀ row ∈ rows, ∀ row' ∈ rows, row.status.isLocking = true → row'.status.isLocking = true →
    row.source = row'.source → row.intentId = row'.intentId

/-- A pool that is restored has the rows that it is restored from. -/
theorem restoreFromSnapshot_ok (hok : restoreFromSnapshot rows lockRows = .ok pool) :
    (∀ (id : Bytes32) (intent : RoamingIntent), pool.intents[id]? = some intent ↔
      intent ∈ rows ∧ intent.intentId = id) ∧
    (∀ exportId id : Bytes32, pool.exportToIntent[exportId]? = some id ↔
      ∃ intent ∈ rows, intent.exportId = exportId ∧ intent.intentId = id) ∧
    (fun source : AccountId => pool.activeLocks[source]?) =
      ActiveIndex.list RoamingIntent.source (fun intent => intent.status.isLocking = true)
        pool.intents.toList := by
  simp only [restoreFromSnapshot, except_bind_ok_iff, restoreIntents_ok_iff,
    restoreLocks_ok_iff] at hok
  obtain ⟨_, ⟨intents, exports, hintents, hexports, rfl⟩, _, ⟨locks, -, rfl⟩, hok⟩ := hok
  obtain rfl := Except.ok.inj hok
  have hrow : ∀ (id : Bytes32) (intent : RoamingIntent), intents[id]? = some intent ↔
      intent ∈ rows ∧ intent.intentId = id := by
    intro id intent
    rw [RowTable.getElem?_of_buildFrom hintents, List.mem_map]
    constructor
    · rintro (hempty | ⟨row, hrow, hpair⟩)
      · simp at hempty
      · obtain ⟨hid, rfl⟩ := Prod.mk.inj hpair
        exact ⟨hrow, hid⟩
    · rintro ⟨hrow, rfl⟩
      exact .inr ⟨intent, hrow, rfl⟩
  refine ⟨hrow, fun exportId id => ?_, ?_⟩
  · change exports[exportId]? = some id ↔ _
    rw [RowTable.getElem?_of_buildFrom hexports, List.mem_map]
    constructor
    · rintro (hempty | ⟨row, hrow, hpair⟩)
      · simp at hempty
      · obtain ⟨hexport, hid⟩ := Prod.mk.inj hpair
        exact ⟨row, hrow, hexport, hid⟩
    · rintro ⟨row, hrow, hexport, hid⟩
      exact .inr ⟨row, hrow, by rw [hexport, hid]⟩
  · exact rebuildLocksFromStatus_locks fun id intent hid => ((hrow id intent).mp hid).2

theorem restored_keyed (hok : restoreFromSnapshot rows lockRows = .ok pool)
    (hids : ∀ row ∈ rows, row.intentId = row.exportId) : Keyed pool := by
  obtain ⟨hintents, hexports, -⟩ := restoreFromSnapshot_ok hok
  constructor
  · intro id intent hid
    obtain ⟨hmem, rfl⟩ := (hintents id intent).mp hid
    exact ⟨rfl, (hids intent hmem).symm⟩
  · intro exportId id
    rw [hexports, Option.isSome_iff_exists]
    constructor
    · rintro ⟨intent, hmem, rfl, rfl⟩
      exact ⟨hids intent hmem, intent, (hintents _ _).mpr ⟨hmem, hids intent hmem⟩⟩
    · rintro ⟨rfl, intent, hid⟩
      obtain ⟨hmem, hid⟩ := (hintents _ _).mp hid
      exact ⟨intent, hmem, (hids intent hmem).symm.trans hid, hid⟩

theorem restored_locksMatch_iff (hok : restoreFromSnapshot rows lockRows = .ok pool) :
    LocksMatch pool ↔ OneLocking rows := by
  obtain ⟨hintents, -, hlocks⟩ := restoreFromSnapshot_ok hok
  unfold LocksMatch
  rw [hlocks, ActiveIndex.list_iff fun id intent =>
    Std.ExtTreeMap.mem_toList_iff_getElem?_eq_some]
  constructor
  · intro hone row hrow row' hrow' hlocking hlocking' hsource
    refine hone (row.intentId, row) ?_ (row'.intentId, row') ?_ hlocking hlocking' hsource
    · exact Std.ExtTreeMap.mem_toList_iff_getElem?_eq_some.mpr ((hintents _ _).mpr ⟨hrow, rfl⟩)
    · exact Std.ExtTreeMap.mem_toList_iff_getElem?_eq_some.mpr ((hintents _ _).mpr ⟨hrow', rfl⟩)
  · rintro hone ⟨id, row⟩ hp ⟨id', row'⟩ hq hlocking hlocking' hsource
    obtain ⟨hrow, rfl⟩ := (hintents _ _).mp (Std.ExtTreeMap.mem_toList_iff_getElem?_eq_some.mp hp)
    obtain ⟨hrow', rfl⟩ := (hintents _ _).mp (Std.ExtTreeMap.mem_toList_iff_getElem?_eq_some.mp hq)
    exact hone row hrow row' hrow' hlocking hlocking' hsource

/-- The snapshot of a pool restores its intents, and its locks when they are right. -/
theorem restores_back (hkeyed : Keyed pool) (h : LocksMatch pool) :
    ∃ pool', restoreFromSnapshot pool.intentsSnapshot pool.activeLocksSnapshot = .ok pool' ∧
      pool'.intents = pool.intents ∧ pool'.activeLocks = pool.activeLocks := by
  have hids : ∀ (id : Bytes32) (intent : RoamingIntent), (id, intent) ∈ pool.intents.toList →
      intent.intentId = id ∧ intent.exportId = id := fun id intent hmem =>
    hkeyed.ids id intent (Std.ExtTreeMap.mem_toList_iff_getElem?_eq_some.mp hmem)
  have hrows : (pool.intentsSnapshot.map fun row => (row.intentId, row)) = pool.intents.toList := by
    rw [intentsSnapshot, List.map_map]
    refine (List.map_congr_left ?_).trans (List.map_id _)
    rintro ⟨id, intent⟩ hmem
    exact Prod.ext (hids id intent hmem).1 rfl
  have hexportRows : (pool.intentsSnapshot.map fun row => (row.exportId, row.intentId)) =
      pool.intents.toList.map fun p => (p.1, p.2.intentId) := by
    rw [intentsSnapshot, List.map_map]
    refine List.map_congr_left ?_
    rintro ⟨id, intent⟩ hmem
    exact Prod.ext (hids id intent hmem).2 rfl
  have hok : restoreFromSnapshot pool.intentsSnapshot pool.activeLocksSnapshot =
      .ok (rebuildLocksFromStatus
        { intents := pool.intents
          exportToIntent := pool.intents.map fun _ intent => intent.intentId
          activeLocks := pool.activeLocks }) := by
    simp only [restoreFromSnapshot, except_bind_ok_iff, restoreIntents_ok_iff, restoreLocks_ok_iff,
      hrows, hexportRows]
    exact ⟨_, ⟨_, _, RowTable.keyedMap_toList _ _, RowTable.keyedMap_map _ _ _, rfl⟩, _,
      ⟨_, RowTable.keyedMap_toList _ _, rfl⟩, rfl⟩
  refine ⟨_, hok, rfl, Std.ExtTreeMap.ext_getElem? fun source => ?_⟩
  have hone : OneLocking pool.intentsSnapshot := by
    intro row hrow row' hrow' hlocking hlocking' hsource
    obtain ⟨⟨id, intent⟩, hmem, rfl⟩ := List.mem_map.mp hrow
    obtain ⟨⟨id', intent'⟩, hmem', rfl⟩ := List.mem_map.mp hrow'
    rw [(hids id intent hmem).1, (hids id' intent' hmem').1]
    exact h.unique (Std.ExtTreeMap.mem_toList_iff_getElem?_eq_some.mp hmem)
      (Std.ExtTreeMap.mem_toList_iff_getElem?_eq_some.mp hmem') hlocking hlocking' hsource
  exact congrFun (((restored_locksMatch_iff hok).mpr hone).index_eq h) source

end Restore

/-! ## Runs of operations -/

/-- The locks are the locking intents by their sources, of which each has one at most, and the
snapshot of the pool restores both. -/
structure PoolSound (pool : RoamingPool) : Prop where
  locks : ∀ (source : AccountId) (id : Bytes32), pool.activeLocks[source]? = some id ↔
    ∃ intent : RoamingIntent, pool.intents[id]? = some intent ∧ intent.source = source ∧
      intent.status.isLocking = true
  single : ∀ (id id' : Bytes32) (intent intent' : RoamingIntent),
    pool.intents[id]? = some intent → pool.intents[id']? = some intent' →
      intent.status.isLocking = true → intent'.status.isLocking = true →
        intent.source = intent'.source → id = id'
  restores : ∃ pool', restoreFromSnapshot pool.intentsSnapshot pool.activeLocksSnapshot =
    .ok pool' ∧ pool'.intents = pool.intents ∧ pool'.activeLocks = pool.activeLocks

section Runs

variable {C : Crypto} {start pool : RoamingPool} {rows : List RoamingIntent}
  {lockRows : List (AccountId × Bytes32)} {ops : List PoolOp} {op : PoolOp} {n : Nat}

theorem poolSound_iff (hkeyed : Keyed pool) : PoolSound pool ↔ LocksMatch pool :=
  ⟨fun h => h.locks, fun h => ⟨h, fun _ _ _ _ hid hid' => h.unique hid hid', restores_back hkeyed h⟩⟩

theorem poolAfter_succ (hop : ops[n]? = some op) :
    poolAfter C start (ops.take (n + 1)) = op.apply C (poolAfter C start (ops.take n)) := by
  rw [poolAfter, List.take_add_one, hop, List.foldl_append]
  rfl

theorem poolAfter_keyed (h : Keyed start) (ops : List PoolOp) : Keyed (poolAfter C start ops) := by
  induction ops generalizing start with
  | nil => exact h
  | cons op rest ih => exact ih (h.apply op)

/-- From a restored pool the locks stay right exactly when it is restored with one locking intent
for each source at most and no operation meets another intent in the lock of its source. -/
theorem pool_sound_iff (hstart : restoreFromSnapshot rows lockRows = .ok start)
    (hids : ∀ row ∈ rows, row.intentId = row.exportId) (ops : List PoolOp) :
    (∀ n ≤ ops.length, PoolSound (poolAfter C start (ops.take n))) ↔
      OneLocking rows ∧
        ∀ n op, ops[n]? = some op → Undisturbed (poolAfter C start (ops.take n)) op := by
  have hkeyed := restored_keyed hstart hids
  constructor
  · intro hsound
    have hlocks : ∀ n ≤ ops.length, LocksMatch (poolAfter C start (ops.take n)) := fun n hn =>
      (poolSound_iff (poolAfter_keyed hkeyed _)).mp (hsound n hn)
    refine ⟨(restored_locksMatch_iff hstart).mp (hlocks 0 (Nat.zero_le _)), fun n op hop => ?_⟩
    have hn := (List.getElem?_eq_some_iff.mp hop).1
    have hnext := hlocks (n + 1) hn
    rw [poolAfter_succ hop] at hnext
    exact (apply_locksMatch_iff (poolAfter_keyed hkeyed _) (hlocks n hn.le) op).mp hnext
  · rintro ⟨hone, hundisturbed⟩ n hn
    rw [poolSound_iff (poolAfter_keyed hkeyed _)]
    induction n with
    | zero => exact (restored_locksMatch_iff hstart).mpr hone
    | succ n ih =>
        have hop : ops[n]? = some ops[n] := List.getElem?_eq_getElem hn
        rw [poolAfter_succ hop]
        exact (apply_locksMatch_iff (poolAfter_keyed hkeyed _) (ih (Nat.le_of_succ_le hn)) _).mpr
          (hundisturbed n _ hop)

/-- The intent is there and has ended. -/
def Ended (pool : RoamingPool) (id : Bytes32) : Prop :=
  ∃ intent : RoamingIntent, pool.intents[id]? = some intent ∧ intent.status.isTerminal = true

/-- The operation sets a locking status on an intent that has ended. -/
def Revives (pool : RoamingPool) (op : PoolOp) : Prop :=
  ∃ (id : Bytes32) (status : IntentStatus),
    op.sets pool = some (id, status) ∧ Ended pool id ∧ status.isLocking = true

theorem Ended.setStatus {id id' : Bytes32} {status : IntentStatus} {err : Option String}
    (h : Ended pool id) (hkeeps : id' = id → status.isTerminal = true) :
    Ended (pool.setStatus id' status err) id := by
  obtain ⟨intent, hid, hended⟩ := h
  cases hold : pool.intents[id']? with
  | none =>
      rw [setStatus_none hold]
      exact ⟨intent, hid, hended⟩
  | some old =>
      unfold Ended
      rw [congrFun (setStatus_intents hold) id]
      by_cases hsame : id = id'
      · subst hsame
        rw [Function.update_self]
        exact ⟨_, rfl, hkeeps rfl⟩
      · rw [Function.update_of_ne hsame]
        exact ⟨intent, hid, hended⟩

theorem Ended.expire {id : Bytes32} {err : Option String} (h : Ended pool id)
    (ids : List Bytes32) :
    Ended (ids.foldl (fun pool id => pool.setStatus id .expired err) pool) id := by
  induction ids generalizing pool with
  | nil => exact h
  | cons id' rest ih => exact ih (h.setStatus fun _ => rfl)

/-- An operation that sets no status ends intents or leaves them. -/
theorem Ended.apply_none {id : Bytes32} (h : Ended pool id) (hkeyed : Keyed pool)
    (hsets : op.sets pool = none) : Ended (op.apply C pool) id := by
  rcases @apply_sets_none C pool op hsets with ⟨rows, happly⟩ | ⟨id', err, happly⟩ |
    ⟨nowHeight, happly⟩ | ⟨intent, -, -, hnone, -, happly⟩
  · exact happly ▸ h
  · obtain ⟨old, hold, hended⟩ := h
    unfold Ended
    rw [happly, congrFun (markRelayError_intents id' err) id]
    by_cases hsame : id = id'
    · subst hsame
      rw [Function.update_self, hold]
      exact ⟨_, rfl, hended⟩
    · rw [Function.update_of_ne hsame]
      exact ⟨old, hold, hended⟩
  · exact happly ▸ h.expire _
  · obtain ⟨old, hold, hended⟩ := h
    -- the new intent has an id that no other has
    have hne : id ≠ intent.exportId := by
      rintro rfl
      have hthere := (hkeyed.exports intent.exportId intent.exportId).mpr
        ⟨rfl, by rw [hold, Option.isSome_some]⟩
      exact nomatch hnone.symm.trans hthere
    refine ⟨old, ?_, hended⟩
    rw [happly, congrFun (getElem?_insert_eq_update pool.intents _ intent) id,
      Function.update_of_ne hne, hold]

theorem Ended.apply {id : Bytes32} (h : Ended pool id) (hkeyed : Keyed pool)
    (hnot : ¬ Revives pool op) : Ended (op.apply C pool) id := by
  cases hsets : op.sets pool with
  | none => exact h.apply_none hkeyed hsets
  | some p =>
      obtain ⟨id', status⟩ := p
      obtain ⟨err, happly⟩ := @apply_sets C pool op id' status hsets
      rw [happly]
      refine h.setStatus ?_
      rintro rfl
      by_contra hlocking
      refine hnot ⟨id', status, hsets, h, ?_⟩
      rw [IntentStatus.isLocking_eq_not]
      simpa using hlocking

/-- From a restored pool intents that have ended never lock again exactly when no operation sets a
locking status on one of them. -/
theorem terminal_absorbing_iff (hstart : restoreFromSnapshot rows lockRows = .ok start)
    (hids : ∀ row ∈ rows, row.intentId = row.exportId) (ops : List PoolOp) :
    (∀ (n m : Nat) (id : Bytes32) (intent intent' : RoamingIntent), n ≤ m → m ≤ ops.length →
      (poolAfter C start (ops.take n)).intents[id]? = some intent →
      intent.status.isTerminal = true →
      (poolAfter C start (ops.take m)).intents[id]? = some intent' →
        intent'.status.isLocking = false) ↔
      ∀ n op, ops[n]? = some op → ¬ Revives (poolAfter C start (ops.take n)) op := by
  have hkeyed := restored_keyed hstart hids
  constructor
  · rintro habsorbs n op hop ⟨id, status, hsets, ⟨intent, hid, hended⟩, hlocking⟩
    obtain ⟨err, happly⟩ := @apply_sets C _ op id status hsets
    have hn := (List.getElem?_eq_some_iff.mp hop).1
    have hnext : (poolAfter C start (ops.take (n + 1))).intents[id]? =
        some { intent with status := status, lastError := err.or intent.lastError } := by
      rw [poolAfter_succ hop, happly, congrFun (setStatus_intents hid) id, Function.update_self]
    have hfree := habsorbs n (n + 1) id intent _ (Nat.le_succ n) hn hid hended hnext
    exact absurd hlocking (by simpa using hfree)
  · intro hnot n m id intent intent' hnm hm hid hended hid'
    have hkeeps : ∀ k, n + k ≤ ops.length → Ended (poolAfter C start (ops.take (n + k))) id := by
      intro k hk
      induction k with
      | zero => exact ⟨intent, hid, hended⟩
      | succ k ih =>
          have hop : ops[n + k]? = some ops[n + k] := List.getElem?_eq_getElem hk
          rw [← Nat.add_assoc, poolAfter_succ hop]
          exact (ih (Nat.le_of_succ_le hk)).apply (poolAfter_keyed hkeyed _) (hnot _ _ hop)
    have hlast := hkeeps (m - n) (by omega)
    rw [Nat.add_sub_cancel' hnm] at hlast
    obtain ⟨last, hid'', hended'⟩ := hlast
    obtain rfl := Option.some.inj (hid'.symm.trans hid'')
    rw [IntentStatus.isLocking_eq_not, hended']
    rfl

end Runs

end RoamingPool

/-! ## Two exports of one account, and a late word on the first -/

namespace StaleRelay

/-- The next export of the account of the first. -/
def secondTx : SignedTx :=
  { EarlyImport.exportTx with
    nonce := 1#64
    signature := 0x497bb1ef05c2bab8e5ec7a49ba5b582fbb851fb6ca800e54e61f41cea361ccde039901e7d8f8124c4dee464e0a3bb45adc11da8e0242fb99449cdcf4583c2207#512 }

def secondTxHash : Bytes32 :=
  0x10a714df0a65c0c7e00b0be26416427c3a4df4572bfd71daef22733f0def5a5b#256

def secondId : Bytes32 :=
  0x3bfb17e9cfcd82f73536442e5eaec8024cb17c4b64c3cf636010d3009c0f653e#256

def crypto : Crypto :=
  .ofTables
    [(devNetRow.pubkey.beBytes 32 ++ (0#32).leBytes 4, devNetRow.acct),
      (EarlyImport.exportTx.signingMessage, EarlyImport.exportTxHash),
      (EarlyImport.exportTx.domainCode.leBytes 2 ++ EarlyImport.exportTxHash.beBytes 32 ++
        SignedTx.exportOutputIndex.leBytes 4 ++ EarlyImport.exportTx.nonce.leBytes 8,
        EarlyImport.exportId),
      (secondTx.signingMessage, secondTxHash),
      (secondTx.domainCode.leBytes 2 ++ secondTxHash.beBytes 32 ++
        SignedTx.exportOutputIndex.leBytes 4 ++ secondTx.nonce.leBytes 8, secondId)]
    [⟨devNetSk, devNetRow.pubkey,
      [(EarlyImport.exportTx.signingMessage, EarlyImport.exportTx.signature),
        (secondTx.signingMessage, secondTx.signature)]⟩]

/-- The first export expires and the second takes the lock before the first is relayed. -/
def relayLate : List PoolOp :=
  [.register EarlyImport.exportTx 5#64 3#64, .exported EarlyImport.exportId, .expire 9#64,
    .register secondTx 10#64 3#64, .relayedByExport EarlyImport.exportId]

/-- An export that is relayed and then imported. -/
def relayFirst : List PoolOp :=
  [.register EarlyImport.exportTx 5#64 3#64, .exported EarlyImport.exportId,
    .relayed EarlyImport.exportId, .importByExport EarlyImport.exportId,
    .register secondTx 7#64 3#64]

/-- The same export, whose import is known before the relay says that it sent it. -/
def importFirst : List PoolOp :=
  [.register EarlyImport.exportTx 5#64 3#64, .importByExport EarlyImport.exportId,
    .relayed EarlyImport.exportId]

end StaleRelay

theorem pool_sound_relayFirst :
    (∀ n ≤ StaleRelay.relayFirst.length,
      RoamingPool.PoolSound (poolAfter StaleRelay.crypto {} (StaleRelay.relayFirst.take n))) ↔
      RoamingPool.OneLocking [] ∧ ∀ n op, StaleRelay.relayFirst[n]? = some op →
        RoamingPool.Undisturbed (poolAfter StaleRelay.crypto {} (StaleRelay.relayFirst.take n)) op :=
  @RoamingPool.pool_sound_iff StaleRelay.crypto {} [] [] (by decide) (by simp) _

/-- The relay of the first export takes the lock from the second, and both are locking. -/
theorem relayLate_two_locking :
    RoamingPool.restoreFromSnapshot [] [] = .ok {} ∧
      ¬ RoamingPool.PoolSound (poolAfter StaleRelay.crypto {} StaleRelay.relayLate) := by
  refine ⟨by decide, fun hsound => ?_⟩
  have hfirst : ((poolAfter StaleRelay.crypto {} StaleRelay.relayLate).intents[EarlyImport.exportId]?).map
      (fun intent => (intent.status.isLocking, intent.source)) = some (true, devNetRow.acct) := by
    set_option maxRecDepth 8192 in
    decide
  have hsecond : ((poolAfter StaleRelay.crypto {} StaleRelay.relayLate).intents[StaleRelay.secondId]?).map
      (fun intent => (intent.status.isLocking, intent.source)) = some (true, devNetRow.acct) := by
    set_option maxRecDepth 8192 in
    decide
  obtain ⟨intent, hid, hpair⟩ := Option.map_eq_some_iff.mp hfirst
  obtain ⟨intent', hid', hpair'⟩ := Option.map_eq_some_iff.mp hsecond
  obtain ⟨hlock, hsource⟩ := Prod.mk.inj hpair
  obtain ⟨hlock', hsource'⟩ := Prod.mk.inj hpair'
  exact absurd (hsound.single _ _ _ _ hid hid' hlock hlock' (hsource.trans hsource'.symm))
    (by decide)

theorem terminal_absorbing_relayFirst :
    (∀ (n m : Nat) (id : Bytes32) (intent intent' : RoamingIntent), n ≤ m →
      m ≤ StaleRelay.relayFirst.length →
      (poolAfter StaleRelay.crypto {} (StaleRelay.relayFirst.take n)).intents[id]? = some intent →
      intent.status.isTerminal = true →
      (poolAfter StaleRelay.crypto {} (StaleRelay.relayFirst.take m)).intents[id]? = some intent' →
        intent'.status.isLocking = false) ↔
      ∀ n op, StaleRelay.relayFirst[n]? = some op →
        ¬ RoamingPool.Revives (poolAfter StaleRelay.crypto {} (StaleRelay.relayFirst.take n)) op :=
  @RoamingPool.terminal_absorbing_iff StaleRelay.crypto {} [] [] (by decide) (by simp) _

/-- The intent is imported, and one operation later it is relayed and locks its source again. -/
theorem importFirst_locks_again :
    RoamingPool.restoreFromSnapshot [] [] = .ok {} ∧
      ((poolAfter StaleRelay.crypto {} (StaleRelay.importFirst.take 2)).intents[EarlyImport.exportId]?).map
        RoamingIntent.status = some .imported ∧
      ((poolAfter StaleRelay.crypto {} StaleRelay.importFirst).intents[EarlyImport.exportId]?).map
        RoamingIntent.status = some .relayed ∧
      IntentStatus.imported.isTerminal = true ∧ IntentStatus.relayed.isLocking = true := by
  set_option maxRecDepth 8192 in
  decide

end Pwm
