import Pwm.Lib.ActiveIndex
import Pwm.Node.CrossShard

/-!
# The pool of roaming intents

What the handlers, the relay and the facts of peers do to the pool. Each sets
the status of an intent by its own path, and the lock of the source with it.
-/

namespace Pwm

open BitVec Attempt

/-- Whether a transaction is committed directly by the handler that takes it. -/
def isDirectSeal : TxBody → Bool
  | .exportTx .. | .importTx .. | .claimIPv4Batch .. => true
  | _ => false

def isExport : TxBody → Bool
  | .exportTx .. => true
  | _ => false

def activeLockErrText : String :=
  "roaming intent lock active: competing tx for source funds is blocked"

inductive ReadinessCode
  | missingPreflight
  | stalePreflight
  | bindingMismatch
  | nonceMismatch
  | heightMismatch
  deriving DecidableEq

def IntentStatus.isTerminal : IntentStatus → Bool
  | .imported => true
  | .expired => true
  | .failed => true
  | _ => false

theorem IntentStatus.isLocking_eq_not (status : IntentStatus) :
    status.isLocking = !status.isTerminal := by
  cases status <;> rfl

namespace RoamingPool

section Operations

variable (C : Crypto) (pool : RoamingPool)

/-- The intent of an export, and whether it was there before. -/
def registerExport (tx : SignedTx) (nowHeight ttlBlocks : U64) :
    Except String (RoamingPool × Bytes32 × Bool) :=
  match tx.body with
  | .exportTx toId targetDomain amount fee => do
      let source := tx.computedAccountId C
      let exportId ← orFail (tx.exportId C) "roaming intent requires deterministic export id"
      match pool.exportToIntent[exportId]? with
      | some existingIntentId => .ok (pool, existingIntentId, true)
      | none =>
          check (pool.activeLocks[source]? = none) activeLockErrText
          let intentId := exportId
          let intent : RoamingIntent :=
            { intentId := intentId
              exportId := exportId
              source := source
              toId := toId
              targetDomain := targetDomain
              amount := amount
              fee := fee
              status := .queued
              createdHeight := nowHeight
              expiresAtHeight := nowHeight.saturatingAdd (ttlBlocks.umax 1#64)
              lastError := none }
          .ok ({ pool with
            exportToIntent := pool.exportToIntent.insert exportId intentId
            activeLocks := pool.activeLocks.insert source intentId
            intents := pool.intents.insert intentId intent }, intentId, false)
  | _ => .error "roaming intent requires export tx body"

def markExported (intentId : Bytes32) : RoamingPool :=
  pool.setStatus intentId .exported none

def markRelayed (intentId : Bytes32) : RoamingPool :=
  pool.setStatus intentId .relayed none

def markRelayError (intentId : Bytes32) (err : String) : RoamingPool :=
  { pool with
    intents := pool.intents.modify intentId fun intent => { intent with lastError := some err } }

def markRelayedByExport (exportId : Bytes32) : RoamingPool :=
  match pool.exportToIntent[exportId]? with
  | some intentId => pool.setStatus intentId .relayed none
  | none => pool

def markFailed (intentId : Bytes32) (err : String) : RoamingPool :=
  pool.setStatus intentId .failed (some err)

/-- A row that says an export was checked; a new one takes the place of the old. -/
def registerReadiness (tx : SignedTx) (nowMs ttlSec sourceNonceHint sourceHeightHint : U64) :
    Except String (RoamingPool × ExportReadiness) :=
  match tx.body with
  | .exportTx toId targetDomain amount _ => do
      let exportId ← orFail (tx.exportId C) "export readiness requires deterministic export id"
      check (¬ (pool.getByExportId exportId).any fun intent => intent.status.isTerminal)
        "export readiness rejected: intent is terminal"
      let ttlMs := (ttlSec.umax 1#64).saturatingMul 1000#64
      let row : ExportReadiness :=
        { exportId := exportId
          source := tx.computedAccountId C
          toId := toId
          targetDomain := targetDomain
          amount := amount
          sourceNonceHint := sourceNonceHint
          sourceHeightHint := sourceHeightHint
          checkedAtUnixMs := nowMs
          expiresAtUnixMs := nowMs.saturatingAdd ttlMs }
      .ok ({ pool with readiness := pool.readiness.insert exportId row }, row)
  | _ => .error "export readiness requires export tx body"

/-- What a row has to say of the export that uses it. -/
def checkReadiness (row : ExportReadiness) (source toId : AccountId) (targetDomain : U16)
    (amount : U128) (nowMs sourceNonce sourceHeight : U64) : Except ReadinessCode Unit := do
  check (nowMs ≤ row.expiresAtUnixMs) .stalePreflight
  check (row.source = source ∧ row.toId = toId ∧ row.targetDomain = targetDomain ∧
    row.amount = amount) .bindingMismatch
  check (row.sourceNonceHint = sourceNonce) .nonceMismatch
  -- the tip may have moved on since, but not back
  check (row.sourceHeightHint ≤ sourceHeight) .heightMismatch

/-- Uses the row of an export up, whether it is good or not. -/
def consumeReadiness (tx : SignedTx) (nowMs sourceNonce sourceHeight : U64) :
    RoamingPool × Except ReadinessCode Unit :=
  match tx.body with
  | .exportTx toId targetDomain amount _ =>
      match tx.exportId C with
      | none => (pool, .error .bindingMismatch)
      | some exportId =>
          match pool.readiness[exportId]? with
          | none => (pool, .error .missingPreflight)
          | some row =>
              ({ pool with readiness := pool.readiness.erase exportId },
                checkReadiness row (tx.computedAccountId C) toId targetDomain amount nowMs
                  sourceNonce sourceHeight)
  | _ => (pool, .ok ())

/-- The intents that are open and past their height. -/
def overdue (nowHeight : U64) : List Bytes32 :=
  pool.intents.toList.filterMap fun p =>
    if ¬ p.2.status.isTerminal ∧ p.2.expiresAtHeight < nowHeight then some p.1 else none

def expireByHeight (nowHeight : U64) : RoamingPool :=
  (pool.overdue nowHeight).foldl (fun pool intentId =>
    pool.setStatus intentId .expired (some "intent ttl exceeded at current height")) pool

def intentsSnapshot : List RoamingIntent :=
  pool.intents.toList.map Prod.snd

def activeLocksSnapshot : List (AccountId × Bytes32) :=
  pool.activeLocks.toList

end Operations

/-- The intents of a snapshot one after the other. -/
def restoreIntents : List RoamingIntent → RoamingPool → Except String RoamingPool
  | [], out => .ok out
  | intent :: rest, out => do
      check (out.intents[intent.intentId]? = none)
        "snapshot roaming intent contract error: duplicate intent_id"
      check (out.exportToIntent[intent.exportId]? = none)
        "snapshot roaming intent contract error: duplicate export_id"
      restoreIntents rest { out with
        intents := out.intents.insert intent.intentId intent
        exportToIntent := out.exportToIntent.insert intent.exportId intent.intentId }

/-- The lock rows of a snapshot, which are only checked for duplicates. -/
def restoreLocks : List (AccountId × Bytes32) → RoamingPool → Except String RoamingPool
  | [], out => .ok out
  | (source, intentId) :: rest, out => do
      check (out.activeLocks[source]? = none)
        "snapshot roaming intent contract error: duplicate source lock"
      restoreLocks rest { out with activeLocks := out.activeLocks.insert source intentId }

def rebuildLocksFromStatus (pool : RoamingPool) : RoamingPool :=
  { pool with
    activeLocks := pool.intents.toList.foldl (fun locks p =>
      if p.2.status.isLocking then locks.insert p.2.source p.2.intentId else locks) ∅ }

def restoreFromSnapshot (intents : List RoamingIntent) (lockRows : List (AccountId × Bytes32)) :
    Except String RoamingPool := do
  let out ← restoreIntents intents {}
  let out ← restoreLocks lockRows out
  .ok out.rebuildLocksFromStatus

end RoamingPool

/-! ## Operations in a row -/

inductive PoolOp
  | register (tx : SignedTx) (nowHeight ttlBlocks : U64)
  | registerReadiness (tx : SignedTx) (nowMs ttlSec sourceNonceHint sourceHeightHint : U64)
  | consumeReadiness (tx : SignedTx) (nowMs sourceNonce sourceHeight : U64)
  | exported (intentId : Bytes32)
  | relayed (intentId : Bytes32)
  | relayError (intentId : Bytes32) (err : String)
  | relayedByExport (exportId : Bytes32)
  | importByExport (exportId : Bytes32)
  | failed (intentId : Bytes32) (err : String)
  | expire (nowHeight : U64)

namespace PoolOp

/-- What an operation leaves; one that fails leaves the pool as it was. -/
def apply (C : Crypto) (pool : RoamingPool) : PoolOp → RoamingPool
  | register tx nowHeight ttlBlocks =>
      match pool.registerExport C tx nowHeight ttlBlocks with
      | .ok (pool, _) => pool
      | .error _ => pool
  | registerReadiness tx nowMs ttlSec sourceNonceHint sourceHeightHint =>
      match pool.registerReadiness C tx nowMs ttlSec sourceNonceHint sourceHeightHint with
      | .ok (pool, _) => pool
      | .error _ => pool
  | consumeReadiness tx nowMs sourceNonce sourceHeight =>
      (pool.consumeReadiness C tx nowMs sourceNonce sourceHeight).1
  | exported intentId => pool.markExported intentId
  | relayed intentId => pool.markRelayed intentId
  | relayError intentId err => pool.markRelayError intentId err
  | relayedByExport exportId => pool.markRelayedByExport exportId
  | importByExport exportId => pool.markImportByExport exportId
  | failed intentId err => pool.markFailed intentId err
  | expire nowHeight => pool.expireByHeight nowHeight

/-- The intent that an operation names, and the status that it sets without looking at the one
that is there. -/
def sets (pool : RoamingPool) : PoolOp → Option (Bytes32 × IntentStatus)
  | exported intentId => some (intentId, .exported)
  | relayed intentId => some (intentId, .relayed)
  | relayedByExport exportId => (pool.exportToIntent[exportId]?).map (·, .relayed)
  | importByExport exportId => (pool.exportToIntent[exportId]?).map (·, .imported)
  | failed intentId _ => some (intentId, .failed)
  | _ => none

end PoolOp

/-- The pool after these operations. -/
def poolAfter (C : Crypto) (start : RoamingPool) (ops : List PoolOp) : RoamingPool :=
  ops.foldl (PoolOp.apply C) start

end Pwm
