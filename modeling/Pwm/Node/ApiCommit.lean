import Pwm.Node.Commit
import Pwm.Node.RoamingLocks
import Pwm.Core.SealInPlace

/-!
# Commits of the handlers

The handlers that seal a transaction at once, under the lock. A commit that is
not sealed or not saved is taken back to where the backup was made, which is
after the readiness row of an export was used up.
-/

namespace Pwm

open BitVec Attempt

def ReadinessCode.asStr : ReadinessCode → String
  | .missingPreflight => "missing_preflight"
  | .stalePreflight => "stale_preflight"
  | .bindingMismatch => "binding_mismatch"
  | .nonceMismatch => "nonce_mismatch"
  | .heightMismatch => "height_mismatch"

def ReadinessCode.hint : ReadinessCode → String
  | .missingPreflight =>
      "Run /v1/export-readiness for this exact EXPORT payload before submit."
  | .stalePreflight => "Preflight TTL expired; run /v1/export-readiness again and resubmit."
  | .bindingMismatch => "EXPORT payload changed since preflight; run /v1/export-readiness again " ++
      "with final payload."
  | .nonceMismatch => "Source nonce changed after preflight; regenerate EXPORT and run " ++
      "/v1/export-readiness again."
  | .heightMismatch =>
      "Source chain tip is below preflight height (inconsistent); reload or retry readiness."

/-- Why a handler returns an error from under its lock. -/
inductive ApiFault
  | notExport
  | clock (e : String)
  | readiness (code : ReadinessCode)
  | shape (e : TxError)
  | conflict (msg : String)
  | sealFailed (msg : String)
  | saveFailed (e : String)
  | relaySaveFailed (e : String)
  | disappeared (phase : String)
  | panic
  deriving DecidableEq

/-- The status and the message of the answer; a handler that panics gives none. -/
def ApiFault.answer : ApiFault → Option (Nat × String)
  | .notExport => some (400, "roaming intent create requires export tx body")
  | .clock e => some (500, "system clock error: " ++ e)
  | .readiness code =>
      some (409, "export readiness reject: code=" ++ code.asStr ++ "; hint=" ++ code.hint)
  | .shape e => some (400, "tx validation failed: " ++ e.text)
  | .conflict msg => some (409, msg)
  | .sealFailed msg => some (500, "seal after roaming tx failed: " ++ msg)
  | .saveFailed e => some (500, "tx commit rolled back: snapshot save failed: " ++ e)
  | .relaySaveFailed e => some (500, "state persisted in memory but snapshot save failed: " ++ e)
  | .disappeared phase => some (500, "roaming intent disappeared after " ++ phase)
  | .panic => none

/-- The block was not sealed or the snapshot was not saved. -/
def ApiFault.IsCommit : ApiFault → Prop
  | .sealFailed _ => True
  | .saveFailed _ => True
  | .relaySaveFailed _ => True
  | _ => False

/-- What the handlers use of the application: the clock for a block and for the readiness rows,
the snapshot backend, and the relay to the target peer. -/
structure ApiApp where
  clock : Except String U64
  nowMs : Except String U64
  backend : Option (Inner → Except String Unit)
  relayHandoff : RoamingIntent → Except String Unit

/-- Balance and nonce of an account; both zero if there is none. -/
def acctView (st : State) (id : AccountId) : U128 × U64 :=
  match st.accounts[id]? with
  | some acc => (acc.balancePwm, acc.nonce)
  | none => (0#128, 0#64)

section Handlers

variable (C : Crypto) (app : ApiApp) (tx : SignedTx) (g : Inner)

/-- Seals one transaction. -/
def sealOne : Except ApiFault Unit × Inner :=
  match sealEntriesMut C app.clock [.raw tx] g.chain with
  | .ok _ ch => (.ok (), { g with chain := ch })
  | .error (.abort msg _) ch => (.error (.sealFailed msg), { g with chain := ch })
  | .error .panic ch => (.error .panic, { g with chain := ch })

/-- Saves a snapshot, if there is a backend. -/
def ApiApp.snapSaveLocked (app : ApiApp) (g : Inner) : Except String Unit :=
  match app.backend with
  | some save => save g
  | none => .ok ()

/-- What the direct seal keeps of its transaction beside the chain. -/
def Inner.recordSealed (g : Inner) (h : U64) : Inner :=
  match tx.body with
  | .exportTx _ _ _ _ =>
      let g := g.recordCrossShardTx C tx h
      let intentId := (tx.exportId C).bind fun id =>
        (g.roamingPool.getByExportId id).map RoamingIntent.intentId
      match intentId with
      | some intentId => { g with roamingPool := g.roamingPool.markExported intentId }
      | none => g
  | .importTx _ _ exportId =>
      let g := g.recordCrossShardTx C tx h
      { g with roamingPool := g.roamingPool.markImportByExport exportId }
  | _ => g

/-- An export uses its readiness row up. -/
def consumeForSeal (nowH : U64) : Except ApiFault Unit × Inner :=
  if isExport tx.body then
    match app.nowMs with
    | .error e => (.error (.clock e), g)
    | .ok nowMs =>
        let senderNonce := (acctView g.chain.st (tx.computedAccountId C)).2
        match g.roamingPool.consumeReadiness C tx nowMs senderNonce nowH with
        | (pool, .ok ()) => (.ok (), { g with roamingPool := pool })
        | (pool, .error code) => (.error (.readiness code), { g with roamingPool := pool })
  else (.ok (), g)

/-- The direct seal from the backup on. -/
def sealAndSave : Except ApiFault Unit × Inner :=
  match validateTxShape C tx with
  | .error e => (.error (.shape e), g)
  | .ok _ =>
      let bak := takeBak g
      match sealOne C app tx g with
      | (.error (.sealFailed msg), g) => (.error (.sealFailed msg), rollbackCommit g bak)
      | (.error e, g) => (.error e, g)
      | (.ok (), g) =>
          let h := g.chain.tipH
          let g := g.recordSealed C tx h
          let g := { g with roamingPool := g.roamingPool.expireByHeight h }
          match app.snapSaveLocked g with
          | .error e => (.error (.saveFailed e), rollbackCommit g bak)
          | .ok () => (.ok (), g)

/-- The direct seal of an export, an import or a claim, at the height read before the lock. -/
def v1Tx (nowH : U64) : Except ApiFault Unit × Inner :=
  match consumeForSeal C app tx g nowH with
  | (.error e, g) => (.error e, g)
  | (.ok (), g) => sealAndSave C app tx g

end Handlers

def defaultIntentTtlBlocks : U64 := 12#64

structure CreateRoamingIntentOut where
  intentId : Bytes32
  exportId : Bytes32
  status : IntentStatus
  createdHeight : U64
  expiresAtHeight : U64
  duplicate : Bool
  deriving DecidableEq

section Create

variable (C : Crypto) (app : ApiApp) (tx : SignedTx) (g : Inner)

/-- The export of a new intent is sealed. -/
def sealIntent (bak : CommitBak) (intentId : Bytes32) : Except ApiFault Unit × Inner :=
  match sealOne C app tx g with
  | (.error (.sealFailed msg), g) => (.error (.sealFailed msg), rollbackCommit g bak)
  | (.error e, g) => (.error e, g)
  | (.ok (), g) =>
      let g := g.recordCrossShardTx C tx g.chain.tipH
      (.ok (), { g with roamingPool := g.roamingPool.markExported intentId })

/-- The commit of an intent from the backup on, up to the release of the lock. -/
def createAndSave (ttlBlocks : Option U64) :
    Except ApiFault (Bytes32 × CreateRoamingIntentOut) × Inner :=
  let bak := takeBak g
  let ttl := ttlBlocks.getD defaultIntentTtlBlocks
  match g.roamingPool.registerExport C tx g.chain.tipH ttl with
  | .error e => (.error (.conflict e), g)
  | .ok (pool, intentId, duplicate) =>
      let g := { g with roamingPool := pool }
      match if duplicate then (.ok (), g) else sealIntent C app tx g bak intentId with
      | (.error e, g) => (.error e, g)
      | (.ok (), g) =>
          match g.roamingPool.intents[intentId]? with
          | none => (.error (.disappeared "create"), g)
          | some intent =>
              match app.snapSaveLocked g with
              | .error e => (.error (.saveFailed e), rollbackCommit g bak)
              | .ok () => (.ok (intentId, ⟨intent.intentId, intent.exportId, intent.status,
                  intent.createdHeight, intent.expiresAtHeight, duplicate⟩), g)

/-- The relay took the handoff, under a lock of its own. -/
def markRelayOk (intentId : Bytes32) : Except ApiFault IntentStatus × Inner :=
  let g := { g with roamingPool := g.roamingPool.markRelayed intentId }
  match g.roamingPool.intents[intentId]? with
  | none => (.error (.disappeared "relay"), g)
  | some intent =>
      match app.snapSaveLocked g with
      | .error e => (.error (.relaySaveFailed e), g)
      | .ok () => (.ok intent.status, g)

def markRelayErr (intentId : Bytes32) (err : String) : Except ApiFault Unit × Inner :=
  let g := { g with roamingPool := g.roamingPool.markRelayError intentId err }
  match app.snapSaveLocked g with
  | .error e => (.error (.relaySaveFailed e), g)
  | .ok () => (.ok (), g)

/-- A new intent goes to the relay after its commit. -/
def relayCreated (intentId : Bytes32) (out : CreateRoamingIntentOut) :
    Except ApiFault CreateRoamingIntentOut × Inner :=
  match if out.duplicate then none else g.roamingPool.intents[intentId]? with
  | none => (.ok out, g)
  | some intent =>
      match app.relayHandoff intent with
      | .ok () =>
          match markRelayOk app g intentId with
          | (.error e, g) => (.error e, g)
          | (.ok status, g) => (.ok { out with status := status }, g)
      | .error err =>
          match markRelayErr app g intentId err with
          | (.error e, g) => (.error e, g)
          | (.ok (), g) => (.ok out, g)

/-- Creates an intent for an export, which is sealed unless there is an intent for it. -/
def v1RoamingIntentCreate (ttlBlocks : Option U64) :
    Except ApiFault CreateRoamingIntentOut × Inner :=
  if isExport tx.body then
    match validateTxShape C tx with
    | .error e => (.error (.shape e), g)
    | .ok _ =>
        let nowH := g.chain.tipH
        let g := { g with roamingPool := g.roamingPool.expireByHeight nowH }
        match consumeForSeal C app tx g nowH with
        | (.error e, g) => (.error e, g)
        | (.ok (), g) =>
            match createAndSave C app tx g ttlBlocks with
            | (.error e, g) => (.error e, g)
            | (.ok (intentId, out), g) => relayCreated app g intentId out
  else (.error .notExport, g)

end Create

/-! ## What a failed commit leaves -/

section Restores

variable {C : Crypto} {app : ApiApp} {tx : SignedTx} {g g' : Inner} {e : ApiFault}
  {res : Except ApiFault Unit}

theorem sealEntriesMut_setup {clock : Except String U64} {entries : List SealEntry} {u : Unit}
    {ch : Chain} (hok : sealEntriesMut C clock entries g.chain = .ok u ch) :
    SameSetup g { g with chain := ch } := by
  obtain ⟨now, -, hseal⟩ := sealEntriesMut_ok_iff.mp hok
  obtain ⟨blk, st, -, -, -, rfl⟩ := sealEntries_append hseal
  constructor
  · exact Chain.append_cfg _ _ _
  · exact Chain.append_valSks _ _ _
  · simp only [Chain.append, Chain.pushBlock, Chain.setCanonH]
  · rfl

theorem sealEntriesMut_keeps {clock : Except String U64} {entries : List SealEntry}
    {fault : SealFault} {ch ch' : Chain}
    (herror : sealEntriesMut C clock entries ch = .error fault ch') : ch' = ch := by
  rw [sealEntriesMut] at herror
  cases hbody : sealBody C clock entries ⟨ch, ch.st⟩ with
  | ok u f =>
      rw [hbody] at herror
      cases herror
  | error e' f =>
      rw [hbody] at herror
      obtain ⟨rfl, rfl⟩ := EStateM.Result.error.inj herror
      exact (sealBody_failsKeeping clock entries _ _ _ hbody).1

theorem sealOne_setup (hrun : sealOne C app tx g = (res, g')) : SameSetup g g' := by
  unfold sealOne at hrun
  cases hseal : sealEntriesMut C app.clock [.raw tx] g.chain with
  | ok u ch =>
      rw [hseal] at hrun
      obtain ⟨-, rfl⟩ := Prod.mk.inj hrun
      exact sealEntriesMut_setup hseal
  | error fault ch =>
      have hchain := sealEntriesMut_keeps hseal
      subst hchain
      rw [hseal] at hrun
      cases fault <;> · obtain ⟨-, rfl⟩ := Prod.mk.inj hrun; exact SameSetup.refl g

theorem recordSealed_setup (h : U64) : SameSetup g (g.recordSealed C tx h) := by
  have hrecord := @recordCrossShardTx_setup C g tx h
  unfold Inner.recordSealed
  split
  · dsimp only
    split
    · exact ⟨hrecord.cfg, hrecord.valSks, hrecord.sealTimeMode, hrecord.pool⟩
    · exact hrecord
  · exact ⟨hrecord.cfg, hrecord.valSks, hrecord.sealTimeMode, hrecord.pool⟩
  · exact SameSetup.refl g

theorem recordSealed_chain (h : U64) : (g.recordSealed C tx h).chain = g.chain := by
  unfold Inner.recordSealed
  split
  · dsimp only
    split <;> exact Inner.recordCrossShardTx_chain C g tx h
  · exact Inner.recordCrossShardTx_chain C g tx h
  · rfl

/-- A seal that fails as a commit was not sealed. -/
theorem sealOne_fault (hcommit : e.IsCommit) (hother : ∀ msg, e ≠ .sealFailed msg) :
    sealOne C app tx g ≠ (.error e, g') := by
  intro hrun
  unfold sealOne at hrun
  split at hrun
  · cases hrun
  · obtain ⟨he, -⟩ := Prod.mk.inj hrun
    exact hother _ (Except.error.inj he).symm
  · obtain ⟨he, -⟩ := Prod.mk.inj hrun
    rw [← Except.error.inj he] at hcommit
    exact hcommit

/-- A direct seal that is not sealed or not saved leaves what was there at the backup. -/
theorem sealAndSave_restores (hrun : sealAndSave C app tx g = (.error e, g'))
    (hcommit : e.IsCommit) : g' = g := by
  unfold sealAndSave at hrun
  cases hshape : validateTxShape C tx with
  | error err =>
      rw [hshape] at hrun
      obtain ⟨he, -⟩ := Prod.mk.inj hrun
      obtain rfl := Except.error.inj he
      exact hcommit.elim
  | ok u =>
      rw [hshape] at hrun
      cases hseal : sealOne C app tx g with
      | mk result g₁ =>
          have hsealed := sealOne_setup hseal
          cases result with
          | error err =>
              cases err with
              | sealFailed msg =>
                  simp only [hseal] at hrun
                  obtain ⟨-, rfl⟩ := Prod.mk.inj hrun
                  exact rollbackCommit_takeBak hsealed
              | _ =>
                  simp only [hseal] at hrun
                  obtain ⟨he, -⟩ := Prod.mk.inj hrun
                  obtain rfl := Except.error.inj he
                  exact absurd hseal (sealOne_fault hcommit nofun)
          | ok u =>
              have hrecorded := hsealed.trans (@recordSealed_setup C tx g₁ g₁.chain.tipH)
              simp only [hseal] at hrun
              split at hrun
              · obtain ⟨-, rfl⟩ := Prod.mk.inj hrun
                exact rollbackCommit_takeBak
                  ⟨hrecorded.cfg, hrecorded.valSks, hrecorded.sealTimeMode, hrecorded.pool⟩
              · cases hrun

/-! ## Readiness rows -/

theorem setStatus_readiness (pool : RoamingPool) (intentId : Bytes32) (status : IntentStatus)
    (err : Option String) : (pool.setStatus intentId status err).readiness = pool.readiness := by
  unfold RoamingPool.setStatus
  split <;> rfl

theorem expireByHeight_readiness (pool : RoamingPool) (nowHeight : U64) :
    (pool.expireByHeight nowHeight).readiness = pool.readiness := by
  unfold RoamingPool.expireByHeight
  generalize pool.overdue nowHeight = ids
  induction ids generalizing pool with
  | nil => rfl
  | cons id rest ih => rw [List.foldl_cons, ih, setStatus_readiness]

theorem registerExport_readiness {pool pool' : RoamingPool} {nowHeight ttlBlocks : U64}
    {p : Bytes32 × Bool} (hok : pool.registerExport C tx nowHeight ttlBlocks = .ok (pool', p)) :
    pool'.readiness = pool.readiness := by
  rcases RoamingPool.registerExport_cases hok with rfl | ⟨intent, -, -, -, -, rfl⟩
  · rfl
  · rfl

/-- A row that an export used is gone. -/
theorem consumeForSeal_export {nowH : U64} (hexport : isExport tx.body = true)
    (hrun : consumeForSeal C app tx g nowH = (.ok (), g')) :
    ∃ (exportId : Bytes32) (row : ExportReadiness), g.roamingPool.readiness[exportId]? = some row ∧
      g'.roamingPool.readiness[exportId]? = none := by
  rw [consumeForSeal, if_pos hexport] at hrun
  cases hnow : app.nowMs with
  | error err =>
      rw [hnow] at hrun
      cases hrun
  | ok nowMs =>
      simp only [hnow, RoamingPool.consumeReadiness] at hrun
      cases hbody : tx.body with
      | exportTx toId targetDomain amount fee =>
          rw [hbody] at hrun
          cases hid : tx.exportId C with
          | none =>
              rw [hid] at hrun
              cases hrun
          | some exportId =>
              cases hrow : g.roamingPool.readiness[exportId]? with
              | none =>
                  simp only [hid, hrow] at hrun
                  cases hrun
              | some row =>
                  simp only [hid, hrow] at hrun
                  refine ⟨exportId, row, hrow, ?_⟩
                  split at hrun
                  · rename_i heq
                    obtain ⟨rfl, -⟩ := Prod.mk.inj heq
                    obtain ⟨-, rfl⟩ := Prod.mk.inj hrun
                    exact Std.ExtTreeMap.getElem?_erase_self
                  · cases hrun
      | _ => simp [hbody, isExport] at hexport

theorem consumeForSeal_other {nowH : U64} (hother : isExport tx.body = false) :
    consumeForSeal C app tx g nowH = (.ok (), g) := by
  rw [consumeForSeal, hother]
  rfl

theorem consumeForSeal_fault {nowH : U64}
    (hrun : consumeForSeal C app tx g nowH = (.error e, g')) : ¬ e.IsCommit := by
  unfold consumeForSeal at hrun
  split at hrun
  · split at hrun
    · obtain ⟨he, -⟩ := Prod.mk.inj hrun
      rw [← Except.error.inj he]
      exact id
    · dsimp only at hrun
      split at hrun
      · cases hrun
      · obtain ⟨he, -⟩ := Prod.mk.inj hrun
        rw [← Except.error.inj he]
        exact id
  · cases hrun

theorem recordCrossShardTx_roamingPool (g : Inner) (tx : SignedTx) (height : U64) :
    (g.recordCrossShardTx C tx height).roamingPool = g.roamingPool := by
  unfold Inner.recordCrossShardTx
  cases tx.body <;> rfl

theorem sealOne_roamingPool (hrun : sealOne C app tx g = (res, g')) :
    g'.roamingPool = g.roamingPool := by
  unfold sealOne at hrun
  split at hrun <;> · obtain ⟨-, rfl⟩ := Prod.mk.inj hrun; rfl

theorem sealIntent_readiness {bak : CommitBak} {intentId : Bytes32}
    (hbak : bak.roamingPool.readiness = g.roamingPool.readiness)
    (hrun : sealIntent C app tx g bak intentId = (res, g')) :
    g'.roamingPool.readiness = g.roamingPool.readiness := by
  unfold sealIntent at hrun
  split at hrun
  · obtain ⟨-, rfl⟩ := Prod.mk.inj hrun
    exact hbak
  · rename_i heq
    obtain ⟨-, rfl⟩ := Prod.mk.inj hrun
    rw [sealOne_roamingPool heq]
  · rename_i heq
    obtain ⟨-, rfl⟩ := Prod.mk.inj hrun
    rw [RoamingPool.markExported, setStatus_readiness, recordCrossShardTx_roamingPool,
      sealOne_roamingPool heq]

/-- From the backup on no readiness row changes. -/
theorem createAndSave_readiness {ttlBlocks : Option U64}
    {out : Except ApiFault (Bytes32 × CreateRoamingIntentOut)}
    (hrun : createAndSave C app tx g ttlBlocks = (out, g')) :
    g'.roamingPool.readiness = g.roamingPool.readiness := by
  unfold createAndSave at hrun
  dsimp only at hrun
  split at hrun
  · obtain ⟨-, rfl⟩ := Prod.mk.inj hrun
    rfl
  · rename_i pool intentId duplicate hregister
    have hpool := registerExport_readiness hregister
    generalize hsealed : (if duplicate = true then
      ((.ok (), { g with roamingPool := pool }) : Except ApiFault Unit × Inner)
      else sealIntent C app tx { g with roamingPool := pool } (takeBak g) intentId) = step at hrun
    have hstep : step.2.roamingPool.readiness = g.roamingPool.readiness := by
      rw [← hsealed]
      split
      · exact hpool
      · rw [← hpool]
        exact sealIntent_readiness hpool.symm rfl
    obtain ⟨result, g₁⟩ := step
    dsimp only at hstep hrun
    cases result with
    | error e =>
        obtain ⟨-, rfl⟩ := Prod.mk.inj hrun
        exact hstep
    | ok u =>
        dsimp only at hrun
        split at hrun
        · obtain ⟨-, rfl⟩ := Prod.mk.inj hrun
          exact hstep
        · split at hrun
          · obtain ⟨-, rfl⟩ := Prod.mk.inj hrun
            rfl
          · obtain ⟨-, rfl⟩ := Prod.mk.inj hrun
            exact hstep

theorem markRelayOk_readiness {intentId : Bytes32} :
    (markRelayOk app g intentId).2.roamingPool.readiness = g.roamingPool.readiness := by
  have hmarked := setStatus_readiness g.roamingPool intentId .relayed none
  unfold markRelayOk
  dsimp only
  split
  · exact hmarked
  · split <;> exact hmarked

theorem markRelayErr_readiness {intentId : Bytes32} {err : String} :
    (markRelayErr app g intentId err).2.roamingPool.readiness = g.roamingPool.readiness := by
  unfold markRelayErr
  dsimp only
  split <;> rfl

theorem relayCreated_readiness {intentId : Bytes32} {out : CreateRoamingIntentOut}
    {out' : Except ApiFault CreateRoamingIntentOut}
    (hrun : relayCreated app g intentId out = (out', g')) :
    g'.roamingPool.readiness = g.roamingPool.readiness := by
  unfold relayCreated at hrun
  split at hrun
  · obtain ⟨-, rfl⟩ := Prod.mk.inj hrun
    rfl
  · split at hrun
    · have hmarked := @markRelayOk_readiness app g intentId
      split at hrun <;>
      · rename_i heq
        rw [heq] at hmarked
        obtain ⟨-, rfl⟩ := Prod.mk.inj hrun
        exact hmarked
    · rename_i err _
      have hmarked := @markRelayErr_readiness app g intentId err
      split at hrun <;>
      · rename_i heq
        rw [heq] at hmarked
        obtain ⟨-, rfl⟩ := Prod.mk.inj hrun
        exact hmarked

end Restores

/-! ## Requests that commit -/

/-- A request that a handler seals at once. -/
inductive ApiCommit
  | v1Tx (nowH : U64)
  | intentCreate (ttlBlocks : Option U64)

/-- The error of a request, if it has one, and what the node holds then. -/
def ApiCommit.run (C : Crypto) (app : ApiApp) (tx : SignedTx) (g : Inner) :
    ApiCommit → Except ApiFault Unit × Inner
  | v1Tx nowH => Pwm.v1Tx C app tx g nowH
  | intentCreate ttlBlocks =>
      let (out, g) := v1RoamingIntentCreate C app tx g ttlBlocks
      (out.map fun _ => (), g)

/-- The request does not use a readiness row. -/
def ApiCommit.SparesReadiness (tx : SignedTx) : ApiCommit → Prop
  | v1Tx _ => isExport tx.body = false
  | intentCreate _ => False

/-- Chain, ledger and roaming pool are as before. -/
structure Restored (g g' : Inner) : Prop where
  chain : g'.chain = g.chain
  crossShard : g'.crossShard = g.crossShard
  roamingPool : g'.roamingPool = g.roamingPool

section Requests

variable {C : Crypto} {app : ApiApp} {tx : SignedTx} {g g' : Inner} {e : ApiFault}

/-- The row of a request that failed to commit after using it stays used. -/
theorem not_restored_of_readiness {exportId : Bytes32} {row : ExportReadiness}
    (hrow : g.roamingPool.readiness[exportId]? = some row)
    (hgone : g'.roamingPool.readiness[exportId]? = none) : ¬ Restored g g' := by
  intro hrestored
  rw [hrestored.roamingPool, hrow] at hgone
  cases hgone

theorem v1Tx_restored_iff {nowH : U64} (hrun : v1Tx C app tx g nowH = (.error e, g'))
    (hcommit : e.IsCommit) : Restored g g' ↔ isExport tx.body = false := by
  rw [v1Tx] at hrun
  cases hconsume : consumeForSeal C app tx g nowH with
  | mk result g₁ =>
      rw [hconsume] at hrun
      cases result with
      | error e' =>
          obtain ⟨he, -⟩ := Prod.mk.inj hrun
          rw [Except.error.inj he] at hconsume
          exact absurd hcommit (consumeForSeal_fault hconsume)
      | ok u =>
          have hback := sealAndSave_restores hrun hcommit
          subst hback
          cases hexport : isExport tx.body with
          | true =>
              obtain ⟨exportId, row, hrow, hgone⟩ := consumeForSeal_export hexport hconsume
              simp [not_restored_of_readiness hrow hgone]
          | false =>
              rw [consumeForSeal_other hexport] at hconsume
              obtain ⟨-, rfl⟩ := Prod.mk.inj hconsume
              exact iff_of_true ⟨rfl, rfl, rfl⟩ rfl

theorem run_v1Tx_error {nowH : U64} (herror : (v1Tx C app tx g nowH).1 = .error e) :
    (ApiCommit.v1Tx nowH).run C app tx g = (.error e, (v1Tx C app tx g nowH).2) :=
  Prod.ext herror rfl

/-- The commit of a new intent is never taken back as a whole. -/
theorem intentCreate_not_restored {ttlBlocks : Option U64}
    (hrun : v1RoamingIntentCreate C app tx g ttlBlocks = (.error e, g'))
    (hcommit : e.IsCommit) : ¬ Restored g g' := by
  unfold v1RoamingIntentCreate at hrun
  cases hexport : isExport tx.body with
  | false =>
      rw [hexport] at hrun
      obtain ⟨he, -⟩ := Prod.mk.inj hrun
      rw [← Except.error.inj he] at hcommit
      exact hcommit.elim
  | true =>
      rw [if_pos hexport] at hrun
      cases hshape : validateTxShape C tx with
      | error err =>
          rw [hshape] at hrun
          obtain ⟨he, -⟩ := Prod.mk.inj hrun
          rw [← Except.error.inj he] at hcommit
          exact hcommit.elim
      | ok u =>
          rw [hshape] at hrun
          dsimp only at hrun
          cases hconsume : consumeForSeal C app tx
              { g with roamingPool := g.roamingPool.expireByHeight g.chain.tipH } g.chain.tipH with
          | mk result g₁ =>
              rw [hconsume] at hrun
              cases result with
              | error e' =>
                  obtain ⟨he, -⟩ := Prod.mk.inj hrun
                  rw [Except.error.inj he] at hconsume
                  exact absurd hcommit (consumeForSeal_fault hconsume)
              | ok u =>
                  obtain ⟨exportId, row, hrow, hgone⟩ := consumeForSeal_export hexport hconsume
                  rw [expireByHeight_readiness] at hrow
                  have hkept : g'.roamingPool.readiness = g₁.roamingPool.readiness := by
                    dsimp only at hrun
                    cases hcreate : createAndSave C app tx g₁ ttlBlocks with
                    | mk out g₂ =>
                        rw [hcreate] at hrun
                        have hcreated := createAndSave_readiness hcreate
                        cases out with
                        | error e' =>
                            obtain ⟨-, rfl⟩ := Prod.mk.inj hrun
                            exact hcreated
                        | ok p => exact (relayCreated_readiness hrun).trans hcreated
                  apply not_restored_of_readiness hrow
                  rw [hkept, hgone]

/-- A request that fails to be sealed or saved leaves the node as it was exactly if it does not use
a readiness row: a transaction other than an export. -/
theorem apiCommit_restored_iff {req : ApiCommit} (hrun : req.run C app tx g = (.error e, g'))
    (hcommit : e.IsCommit) : Restored g g' ↔ req.SparesReadiness tx := by
  cases req with
  | v1Tx nowH => exact v1Tx_restored_iff hrun hcommit
  | intentCreate ttlBlocks =>
      rw [ApiCommit.run] at hrun
      cases hcreate : v1RoamingIntentCreate C app tx g ttlBlocks with
      | mk out g₁ =>
          rw [hcreate] at hrun
          obtain ⟨he, rfl⟩ := Prod.mk.inj hrun
          cases out with
          | ok out => cases he
          | error e' =>
              obtain rfl := Except.error.inj he
              exact iff_of_false (intentCreate_not_restored hcreate hcommit) id

end Requests

/-! ## An export that is sent too early -/

namespace EarlyExport

def chain : Chain where
  cfg := EarlyImport.net
  valSks := [devNetSk]
  blocks := []
  canonicalH := 0#64
  st := { EarlyImport.net.state0 with
    activeValidatorIndices := recomputeActiveIdxs EarlyImport.net EarlyImport.net.state0 }
  sealTimeMode := .wallClock

/-- The readiness of the second export was checked while the account had its first nonce. -/
def checked : RoamingPool :=
  match RoamingPool.registerReadiness StaleRelay.crypto {} StaleRelay.secondTx 1000#64 30#64 0#64
      0#64 with
  | .ok (pool, _) => pool
  | .error _ => {}

def node : Inner := { chain := chain, roamingPool := checked }

def app : ApiApp where
  clock := .ok 1700000001#64
  nowMs := .ok 2000#64
  backend := none
  relayHandoff := fun _ => .ok ()

/-- The same node when its clock cannot be read. -/
def noClock : ApiApp := { app with clock := .error "clock before unix epoch" }

theorem checked_some : checked.readiness[StaleRelay.secondId]?.isSome = true := by
  decide

theorem checked_row : ∃ row, checked.readiness[StaleRelay.secondId]? = some row :=
  Option.isSome_iff_exists.mp checked_some

theorem first_fails : (v1Tx StaleRelay.crypto app StaleRelay.secondTx node 0#64).1 =
    .error (.sealFailed "tx: bad nonce") := by
  decide +kernel

theorem first_uses_row :
    (v1Tx StaleRelay.crypto app StaleRelay.secondTx node 0#64).2.roamingPool.readiness[
      StaleRelay.secondId]? = none := by
  decide +kernel

theorem import_fails : (v1Tx EarlyImport.crypto noClock EarlyImport.importTx node 0#64).1 =
    .error (.sealFailed "clock before unix epoch") := by
  decide +kernel

end EarlyExport

/-- The export is not sealed, its readiness row is gone, and the same request has another outcome
the second time. -/
theorem earlyExport_not_restored :
    let first := v1Tx StaleRelay.crypto EarlyExport.app StaleRelay.secondTx EarlyExport.node 0#64
    first.1 = .error (.sealFailed "tx: bad nonce") ∧ ¬ Restored EarlyExport.node first.2 ∧
      (v1Tx StaleRelay.crypto EarlyExport.app StaleRelay.secondTx first.2 0#64).1 =
        .error (.readiness .missingPreflight) := by
  refine ⟨EarlyExport.first_fails, ?_, ?_⟩
  · obtain ⟨row, hrow⟩ := EarlyExport.checked_row
    exact not_restored_of_readiness hrow EarlyExport.first_uses_row
  · decide +kernel

/-- An import that is not sealed leaves the node as it was. -/
theorem import_restored :
    ∃ g', (ApiCommit.v1Tx 0#64).run EarlyImport.crypto EarlyExport.noClock EarlyImport.importTx
        EarlyExport.node = (.error (.sealFailed "clock before unix epoch"), g') ∧
      Restored EarlyExport.node g' := by
  have hrun := run_v1Tx_error EarlyExport.import_fails
  have hspares : isExport EarlyImport.importTx.body = false := by
    simp only [EarlyImport.importTx, isExport]
  refine ⟨_, hrun, ?_⟩
  apply (apiCommit_restored_iff hrun trivial).mpr
  exact hspares

end Pwm
