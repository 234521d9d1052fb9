import Pwm.Node.ApiCommit
import Pwm.Node.LedgerFacts
import Pwm.Node.SealLoss
import Pwm.Node.Skips

/-!
# Imports that a trusted export vouches for

The ledger takes the provenance that an import carries for granted. A request
is compared with the exports that the node knows before it is sealed; a
transaction of a peer goes to the pool after a dry run on the ledger only.
-/

namespace Pwm

open BitVec Attempt

/-! ## The check of a request -/

/-- Why an import is not let in. -/
inductive ImportReject
  | feeTooLow
  | duplicate
  | embeddedMismatch
  | conflict
  | untrusted
  | mismatch
  | missing
  deriving DecidableEq

/-- The status and the message of the answer. -/
def ImportReject.answer : ImportReject → Nat × String
  | .feeTooLow => (400, "import fee is below MIN_IMPORT_FEE_UNITS")
  | .duplicate => (409, "duplicate import: export_id already consumed")
  | .embeddedMismatch => (400, "invalid import: embedded provenance mismatch")
  | .conflict => (400, "invalid import: export provenance conflict")
  | .untrusted =>
      (400, "invalid import: export_id is not known and embedded provenance is untrusted")
  | .mismatch => (400, "invalid import: export provenance mismatch")
  | .missing => (400, "invalid import: export_id is not known and embedded provenance is missing")

/-- A fact of a registered export with the terms of an import. -/
def CrossShardFact.covers (fact : CrossShardFact) (prov : ExportProvenance) (domainCode : U16) :
    Bool :=
  decide ((fact.status = .registered ∨ fact.status = .imported) ∧ fact.toId = prov.toId ∧
    fact.amount = prov.amount ∧ fact.targetDomainHi = hiByte domainCode)

def ExportProvenance.fits (prov : ExportProvenance) (toId : AccountId) (amount : U128)
    (domainCode : U16) : Bool :=
  decide (prov.toId = toId ∧ prov.amount = amount ∧ hiByte prov.targetDomain = hiByte domainCode)

def enforceImportProvenancePrefilter (tx : SignedTx) (st : State) (crossShard : CrossShardLedger) :
    Except ImportReject Unit :=
  match tx.body with
  | .importTx toId amount exportId => do
      check (minImportFeeUnits ≤ tx.importFee.getD 0#128) .feeTooLow
      check (exportId ∉ st.importedSet) .duplicate
      match tx.importProvenance with
      | some prov =>
          check (prov.fits toId amount tx.domainCode) .embeddedMismatch
          match st.exportedRegistry[exportId]? with
          | some existing => check (existing = prov) .conflict
          | none =>
              let fact ← orFail (crossShard.fact exportId) .untrusted
              check (fact.covers prov tx.domainCode) .embeddedMismatch
      | none =>
          let expected ← orFail (st.exportedRegistry[exportId]?) .missing
          check (expected.fits toId amount tx.domainCode) .mismatch
  | _ => .ok ()

/-- An export stands behind the provenance that an import carries: the registry has the same, or
there is a fact of an export with the same recipient, amount and target domain. -/
def Vouched (tx : SignedTx) (st : State) (crossShard : CrossShardLedger) : Prop :=
  ∀ toId amount exportId prov, tx.body = .importTx toId amount exportId →
    tx.importProvenance = some prov →
      st.exportedRegistry[exportId]? = some prov ∨
        ∃ fact, crossShard.fact exportId = some fact ∧
          (fact.status = .registered ∨ fact.status = .imported) ∧ fact.toId = toId ∧
            fact.amount = amount ∧ fact.targetDomainHi = hiByte tx.domainCode

/-- What the check lets in is vouched for. -/
theorem prefilter_vouched {tx : SignedTx} {st : State} {crossShard : CrossShardLedger}
    (hok : enforceImportProvenancePrefilter tx st crossShard = .ok ()) :
    Vouched tx st crossShard := by
  intro toId amount exportId prov hbody hprov
  simp only [enforceImportProvenancePrefilter, hbody, hprov] at hok
  obtain ⟨_, -, hok⟩ := except_bind_ok_iff.mp hok
  obtain ⟨_, -, hok⟩ := except_bind_ok_iff.mp hok
  obtain ⟨_, hfits, hok⟩ := except_bind_ok_iff.mp hok
  obtain ⟨hto, hamount, -⟩ := of_decide_eq_true (check_ok_iff.mp hfits)
  cases hknown : st.exportedRegistry[exportId]? with
  | some existing =>
      rw [hknown] at hok
      exact .inl (congrArg some (check_ok_iff.mp hok))
  | none =>
      rw [hknown] at hok
      obtain ⟨fact, hfact, hok⟩ := except_bind_ok_iff.mp hok
      obtain ⟨hstatus, hto', hamount', hdomain⟩ := of_decide_eq_true (check_ok_iff.mp hok)
      exact .inr ⟨fact, orFail_ok_iff.mp hfact, hstatus, hto'.trans hto, hamount'.trans hamount,
        hdomain⟩

/-! ## Transactions of a peer -/

def syncTxInCap : Nat := 64
def syncTxRecentMs : U64 := 30000#64

/-- When transactions were seen, by the text of their hash. -/
abbrev SeenTxs := List (String × U64)

def pruneSeen (nowMs : U64) (seen : SeenTxs) : SeenTxs :=
  seen.filter fun row => decide (nowMs.saturatingSub row.2 ≤ syncTxRecentMs)

inductive IngestOutcome
  | accepted
  | duplicate
  | invalid
  | panicked
  deriving DecidableEq

/-- The transactions of a batch that are looked at; a batch over the cap is dropped. -/
def syncTxBatch (txs : List SignedTx) (capHint : Nat) : List SignedTx :=
  if max (min capHint syncTxInCap) 1 < txs.length then [] else txs

/-- The height and the time of the next block, by a clock that may fail. -/
def Chain.clockedCtx (ch : Chain) (clock : Except String U64) : Except SealFault (U64 × U64) :=
  match ch.tipH.checkedAdd 1#64, ch.sealTimeMode with
  | none, _ => .error .panic
  | some height, .wallClock =>
      match clock with
      | .ok now => .ok (height, now)
      | .error msg => .error (.abort msg [])
  | some height, .deterministicHeight => .ok (height, detSealTsBase.saturatingAdd height)

/-- One transaction of a batch: it is pushed into the pool after a dry run on the ledger. -/
def ingestSyncTx (C : Crypto) (clock : Except String U64) (nowMs : U64) (inn : Inner)
    (seen : SeenTxs) (tx : SignedTx) : IngestOutcome × Inner × SeenTxs :=
  let txId := hexEncode (tx.txHash C)
  let seen := pruneSeen nowMs seen
  if seen.any fun row => decide (row.1 = txId) then (.duplicate, inn, seen)
  else
    let seen := (txId, nowMs) :: seen
    match validateTxShape C tx with
    | .error _ => (.invalid, inn, seen)
    | .ok _ =>
        match inn.chain.clockedCtx clock with
        | .error .panic => (.panicked, inn, seen)
        | .error (.abort _ _) => (.invalid, inn, seen)
        | .ok (nextH, nextTs) =>
            match inn.chain.st.precheckApplyWithCtx C tx nextH nextTs inn.chain.cfg with
            | .error .panic => (.panicked, inn, seen)
            | .error (.err _) => (.invalid, inn, seen)
            | .ok _ =>
                match inn.pool.push tx with
                | .error _ => (.invalid, inn, seen)
                | .ok pool => (.accepted, { inn with pool := pool }, seen)

/-! ## Runs of a node -/

/-- The transactions in the queues of the loop. -/
def SealLoop.queued (loop : SealLoop) : List SignedTx :=
  loop.pool.q ++ loop.ingress ++ loop.validated.map Prod.fst

structure ImportNode where
  loop : SealLoop
  roamingPool : RoamingPool := {}
  crossShard : CrossShardLedger := {}
  seen : SeenTxs := []
  /-- Transactions of batches that are not looked at yet. -/
  incoming : List SignedTx := []
  /-- Requests that passed the checks and wait for the lock or for the worker. -/
  passed : List SignedTx := []

namespace ImportNode

def inner (n : ImportNode) : Inner :=
  { chain := n.loop.chain, pool := n.loop.pool, roamingPool := n.roamingPool,
    crossShard := n.crossShard }

def withInner (n : ImportNode) (inn : Inner) : ImportNode :=
  { n with
    loop := { n.loop with chain := inn.chain, pool := inn.pool }
    roamingPool := inn.roamingPool
    crossShard := inn.crossShard }

/-- What a seal may draw from now on. -/
def queued (n : ImportNode) : List SignedTx :=
  n.loop.queued ++ n.passed

end ImportNode

/-- The block that a seal attempt appended, if it did. -/
def newBlock (ch ch' : Chain) : Option Block :=
  if ch'.tipH = ch.tipH then none else ch'.blocks.getLast?

/-- After a seal of the loop the transactions of its block are recorded. -/
def ImportNode.afterLoop (C : Crypto) (n : ImportNode) (loop : SealLoop) : ImportNode :=
  let txs := (newBlock n.loop.chain loop.chain).elim [] Block.txs
  let n := { n with
    loop := loop
    roamingPool := n.roamingPool.expireByHeight n.loop.chain.tipH }
  n.withInner (txs.foldl (fun inn tx => inn.recordCrossShardTx C tx loop.chain.tipH) n.inner)

inductive ImportAct
  | batch (txs : List SignedTx) (capHint : Nat)
  | ingested (tx : SignedTx) (st : State) (crossShard : CrossShardLedger) (outcome : IngestOutcome)
  | passed (tx : SignedTx) (st : State) (crossShard : CrossShardLedger)
  | queued (tx : SignedTx)
  | attempt (blk : Option Block)
  | other

/-- A step of the node. A request waits between its checks and the lock, a batch between its
transactions; the ledger of facts and the chain may change in between. -/
inductive ImportStep (C : Crypto) : ImportNode → ImportAct → ImportNode → Prop
  | batch {n : ImportNode} {txs : List SignedTx} {capHint : Nat} :
      ImportStep C n (.batch txs capHint)
        { n with incoming := n.incoming ++ syncTxBatch txs capHint }
  | ingested {n : ImportNode} {tx : SignedTx} {clock : Except String U64} {nowMs : U64}
      {outcome : IngestOutcome} {inn : Inner} {seen : SeenTxs} (htx : tx ∈ n.incoming)
      (hrun : ingestSyncTx C clock nowMs n.inner n.seen tx = (outcome, inn, seen)) :
      ImportStep C n (.ingested tx n.loop.chain.st n.crossShard outcome)
        { n.withInner inn with seen := seen, incoming := n.incoming.erase tx }
  | passed {n : ImportNode} {tx : SignedTx}
      (hok : enforceImportProvenancePrefilter tx n.loop.chain.st n.crossShard = .ok ()) :
      ImportStep C n (.passed tx n.loop.chain.st n.crossShard) { n with passed := n.passed ++ [tx] }
  | direct {n : ImportNode} {tx : SignedTx} {app : ApiApp} {nowH : U64} {inn : Inner}
      (htx : tx ∈ n.passed) (hdirect : isDirectSeal tx.body = true)
      (hrun : v1Tx C app tx n.inner nowH = (.ok (), inn)) :
      ImportStep C n (.attempt inn.chain.blocks.getLast?)
        { n.withInner inn with passed := n.passed.erase tx }
  | refused {n : ImportNode} {tx : SignedTx} {app : ApiApp} {nowH : U64} {e : ApiFault}
      {inn : Inner}
      (htx : tx ∈ n.passed) (hdirect : isDirectSeal tx.body = true)
      (hrun : v1Tx C app tx n.inner nowH = (.error e, inn)) :
      ImportStep C n (.attempt none) { n.withInner inn with passed := n.passed.erase tx }
  | queued {n : ImportNode} {tx : SignedTx} {ctx : WorkerCtx} {now : Except String U64}
      {height : U64} (htx : tx ∈ n.passed) (hother : isDirectSeal tx.body = false)
      (hok : precheckClient C ctx tx now = .ok (.preValidated tx height)) :
      ImportStep C n (.queued tx)
        { n with
          loop := { n.loop with validated := n.loop.validated ++ [(tx, height)] }
          passed := n.passed.erase tx }
  | looped {n : ImportNode} {now later : U64} {ingressFree validatedFree : Bool} {loop : SealLoop}
      (hrun : n.loop.sealOnce C now later ingressFree validatedFree = .ok loop) :
      ImportStep C n (.attempt (newBlock n.loop.chain loop.chain)) (n.afterLoop C loop)
  | manual {n : ImportNode} {now : U64} {loop : SealLoop}
      (hrun : n.loop.stepSealCommit C now = .ok loop) :
      ImportStep C n (.attempt (newBlock n.loop.chain loop.chain))
        { n with
          loop := loop
          roamingPool := n.roamingPool.expireByHeight n.loop.chain.tipH }
  | created {n : ImportNode} {tx : SignedTx} {app : ApiApp} {bak : CommitBak} {intentId : Bytes32}
      {inn : Inner} (hexport : isExport tx.body = true)
      (hrun : sealIntent C app tx n.inner bak intentId = (.ok (), inn)) :
      ImportStep C n (.attempt inn.chain.blocks.getLast?) (n.withInner inn)
  | applied {n : ImportNode} {blk : Block} {inn : Inner} (hok : applyBlk C n.inner blk = .ok inn) :
      ImportStep C n .other (n.withInner inn)
  | merged {n : ImportNode} {facts : List CrossShardFact} :
      ImportStep C n .other (n.withInner (n.inner.mergeCrossShardFacts facts).1)
  | recorded {n : ImportNode} {op : LedgerOp} :
      ImportStep C n .other { n with crossShard := op.apply C n.crossShard }
  | restored {n : ImportNode} {bak : CommitBak} :
      ImportStep C n .other (n.withInner (rollbackCommit n.inner bak))
  | skipped {n : ImportNode} {h : U64} {ch : Chain}
      (hskip : n.loop.chain.skipMissedH h = (true, ch)) :
      ImportStep C n .other { n with loop := { n.loop with chain := ch } }

/-- An import with a provenance of its own. -/
def SignedTx.EmbedsProvenance (tx : SignedTx) : Prop :=
  (∃ toId amount exportId, tx.body = .importTx toId amount exportId) ∧ tx.importProvenance ≠ none

/-- A transaction comes into the queues with an export behind the provenance that it carries. -/
def ImportAct.Admits (tx : SignedTx) : ImportAct → Prop
  | .ingested tx' st crossShard outcome =>
      outcome = .accepted ∧ tx' = tx ∧ Vouched tx st crossShard
  | .passed tx' st crossShard => tx' = tx ∧ Vouched tx st crossShard
  | .batch _ _ | .queued _ | .attempt _ | .other => False

/-- An import that carries its provenance was let in with an export behind it. -/
def AdmittedBy (acts : List ImportAct) (tx : SignedTx) : Prop :=
  tx.EmbedsProvenance → ∃ a ∈ acts, a.Admits tx

/-- Every import in a block of the node was let in before the block. -/
def ImportsVouched (acts : List ImportAct) : Prop :=
  ∀ pre blk post, acts = pre ++ .attempt (some blk) :: post → ∀ tx ∈ blk.txs, AdmittedBy pre tx

/-- An import that a peer brings into the pool would pass the check of a request. -/
def ImportAct.Careful : ImportAct → Prop
  | .ingested tx st crossShard .accepted => tx.EmbedsProvenance →
      enforceImportProvenancePrefilter tx st crossShard = .ok ()
  | .ingested _ _ _ _ | .batch _ _ | .passed _ _ _ | .queued _ | .attempt _ | .other => True

/-! ## Where transactions come from -/

section Queues

variable {C : Crypto} {app : ApiApp} {inn inn' g g' : Inner} {seen seen' : SeenTxs}
  {clock : Except String U64} {nowMs now later nowH : U64} {outcome : IngestOutcome}
  {tx tx' : SignedTx} {loop loop' : SealLoop} {ingressFree validatedFree : Bool} {ch ch' : Chain}
  {entries : List SealEntry} {res : Except ApiFault Unit}

theorem mem_push {pool pool' : Mpool} (hpush : pool.push tx = .ok pool') (h : tx' ∈ pool'.q) :
    tx' ∈ pool.q ∨ tx' = tx := by
  rw [Mpool.push] at hpush
  split at hpush
  · cases hpush
  · rw [← Except.ok.inj hpush] at h
    rcases List.mem_append.mp h with h | h
    · exact .inl h
    · exact .inr (List.mem_singleton.mp h)

/-- A transaction of a peer that is accepted is all that an ingest adds to the pool. -/
theorem ingestSyncTx_pool (hrun : ingestSyncTx C clock nowMs inn seen tx = (outcome, inn', seen'))
    (h : tx' ∈ inn'.pool.q) : tx' ∈ inn.pool.q ∨ outcome = .accepted ∧ tx' = tx := by
  have hsame : inn' = inn ∨ outcome = .accepted ∧
      ∃ pool, inn.pool.push tx = .ok pool ∧ inn'.pool = pool := by
    simp only [ingestSyncTx] at hrun
    repeat' split at hrun
    all_goals
      obtain ⟨houtcome, hrun⟩ := Prod.mk.inj hrun
      obtain ⟨rfl, -⟩ := Prod.mk.inj hrun
    all_goals first
      | exact .inl rfl
      | exact .inr ⟨houtcome.symm, _, ‹_›, rfl⟩
  rcases hsame with rfl | ⟨haccepted, pool, hpush, hpool⟩
  · exact .inl h
  · rw [hpool] at h
    exact (mem_push hpush h).imp_right fun htx => ⟨haccepted, htx⟩

theorem mem_drainIngress {pool : Mpool} {ingress : List SignedTx}
    (h : tx ∈ (pool.drainIngress ingress).q) : tx ∈ pool.q ∨ tx ∈ ingress := by
  induction ingress generalizing pool with
  | nil => exact .inl h
  | cons head rest ih =>
      rw [Mpool.drainIngress, List.foldl_cons] at h
      rcases ih h with hpool | hrest
      · cases hpush : pool.push head with
        | ok pool' =>
            rw [hpush] at hpool
            rcases mem_push hpush hpool with hold | rfl
            · exact .inl hold
            · exact .inr List.mem_cons_self
        | error e =>
            rw [hpush] at hpool
            exact .inl hpool
      · exact .inr (List.mem_cons_of_mem head hrest)

theorem mem_queued : tx ∈ loop.queued ↔
    (tx ∈ loop.pool.q ∨ tx ∈ loop.ingress) ∨ tx ∈ loop.validated.map Prod.fst := by
  rw [SealLoop.queued, List.mem_append, List.mem_append]

/-- The drained pool of a draw. -/
theorem mem_drained
    (h : tx ∈ (if ingressFree then loop.pool.drainIngress loop.ingress else loop.pool).q) :
    tx ∈ loop.queued := by
  split at h
  · exact mem_queued.mpr (.inl (mem_drainIngress h))
  · exact mem_queued.mpr (.inl (.inl h))

theorem draw_queued (h : tx ∈ (loop.draw ingressFree validatedFree).2.queued) :
    tx ∈ loop.queued := by
  rcases mem_queued.mp h with (hpool | hingress) | hvalidated
  · exact mem_drained (List.mem_of_mem_drop hpool)
  · change tx ∈ (if ingressFree then [] else loop.ingress) at hingress
    split at hingress
    · cases hingress
    · exact mem_queued.mpr (.inl (.inr hingress))
  · change tx ∈ (if validatedFree then loop.validated.drop blockCap else loop.validated).map
      Prod.fst at hvalidated
    refine mem_queued.mpr (.inr ?_)
    split at hvalidated
    · rw [List.map_drop] at hvalidated
      exact List.mem_of_mem_drop hvalidated
    · exact hvalidated

/-- What is drawn was in the queues. -/
theorem draw_entries {entry : SealEntry} (h : entry ∈ (loop.draw ingressFree validatedFree).1) :
    entry.tx ∈ loop.queued := by
  rcases List.mem_append.mp h with hvalidated | hraw
  · obtain ⟨p, hp, rfl⟩ := List.mem_map.mp hvalidated
    refine mem_queued.mpr (.inr (List.mem_map.mpr ⟨p, ?_, rfl⟩))
    split at hp
    · exact List.mem_of_mem_take hp
    · cases hp
  · obtain ⟨raw, hraw', rfl⟩ := List.mem_map.mp hraw
    exact mem_drained (List.mem_of_mem_take hraw')

theorem loop_entries {entry : SealEntry} (h : entry ∈ loop.entries C ingressFree validatedFree) :
    entry.tx ∈ loop.queued :=
  draw_entries (List.mem_filter.mp (dedupFrom_sublist.subset h)).1

theorem mem_evictAt {txs : List SignedTx} {i : Nat} {bad : SignedTx}
    (h : tx ∈ (ch.evictAt C txs i bad).1) : tx ∈ txs := by
  rcases List.mem_append.mp h with hfront | hback
  · exact List.mem_of_mem_take hfront
  · exact List.mem_of_mem_drop (List.mem_filter.mp hback).1

theorem mem_requeue {msg : String} {txs replay : List SignedTx} {evicted : List Bytes32}
    (hrequeue : ch.requeue C now msg txs = .ok (replay, evicted)) (h : tx ∈ replay) : tx ∈ txs := by
  rw [Chain.requeue] at hrequeue
  split at hrequeue
  · rwa [← (Prod.mk.inj (Except.ok.inj hrequeue)).1] at h
  · split at hrequeue
    · cases hrequeue
    · rwa [← (Prod.mk.inj (Except.ok.inj hrequeue)).1] at h
    · obtain ⟨found, -, hrequeue⟩ := except_bind_ok_iff.mp hrequeue
      cases found with
      | none => rwa [← (Prod.mk.inj (Except.ok.inj hrequeue)).1] at h
      | some p =>
          obtain ⟨bad, -, hrequeue⟩ := except_bind_ok_iff.mp hrequeue
          rw [← (Prod.mk.inj (Except.ok.inj hrequeue)).1] at h
          exact mem_evictAt h

/-- The block of a seal has the transactions of its entries. -/
theorem newBlock_sealed (hok : sealEntries C now ch entries = .ok ch') :
    ∃ blk, ch'.blocks.getLast? = some blk ∧ newBlock ch ch' = some blk ∧
      blk.txs = entries.map SealEntry.tx := by
  have hnext := sealEntries_tipH hok
  obtain ⟨blk, st, -, -, htxs, rfl⟩ := sealEntries_append hok
  refine ⟨blk, Chain.append_getLast? ch blk st, ?_, htxs⟩
  rw [newBlock, if_neg, Chain.append_getLast?]
  intro hsame
  rw [hsame] at hnext
  omega

theorem newBlock_same (ch : Chain) : newBlock ch ch = none :=
  if_pos rfl

/-- A seal of the loop leaves nothing new in its queues, and its block is drawn from them. -/
theorem sealOnce_queued (hrun : loop.sealOnce C now later ingressFree validatedFree = .ok loop') :
    (∀ tx ∈ loop'.queued, tx ∈ loop.queued) ∧
      ∀ blk ∈ newBlock loop.chain loop'.chain, ∀ tx ∈ blk.txs, tx ∈ loop.queued := by
  rw [SealLoop.sealOnce] at hrun
  cases hseal : sealEntries C now loop.chain (loop.entries C ingressFree validatedFree) with
  | ok ch' =>
      simp only [hseal] at hrun
      rw [← Except.ok.inj hrun]
      obtain ⟨blk, -, hnew, htxs⟩ := newBlock_sealed hseal
      refine ⟨fun tx htx => draw_queued htx, fun blk' hblk' tx htx => ?_⟩
      obtain rfl := Option.some.inj (hnew.symm.trans hblk')
      rw [htxs] at htx
      obtain ⟨entry, hentry, rfl⟩ := List.mem_map.mp htx
      exact loop_entries hentry
  | error fault =>
      cases fault with
      | panic =>
          simp only [hseal] at hrun
          cases hrun
      | abort msg txs =>
          simp only [hseal] at hrun
          obtain ⟨⟨replay, evicted⟩, hrequeue, hrun⟩ := except_bind_ok_iff.mp hrun
          obtain ⟨htxs, -⟩ := sealEntries_abort hseal
          have hdrawn : ∀ tx, tx ∈ (loop.draw ingressFree validatedFree).2.queued →
              tx ∈ loop.queued := fun _ => draw_queued
          rw [← Except.ok.inj hrun]
          constructor
          · intro tx htx
            rcases mem_queued.mp htx with (hpool | hingress) | hvalidated
            · rcases List.mem_append.mp hpool with hreplay | hpool
              · have hback := mem_requeue hrequeue hreplay
                rw [htxs] at hback
                obtain ⟨entry, hentry, rfl⟩ := List.mem_map.mp hback
                exact loop_entries hentry
              · exact hdrawn tx (mem_queued.mpr (.inl (.inl hpool)))
            · exact hdrawn tx (mem_queued.mpr (.inl (.inr hingress)))
            · exact hdrawn tx (mem_queued.mpr (.inr hvalidated))
          · intro blk hblk
            change blk ∈ newBlock loop.chain loop.chain at hblk
            rw [newBlock_same] at hblk
            cases hblk

theorem stepSealCommit_queued (hrun : loop.stepSealCommit C now = .ok loop') :
    (∀ tx ∈ loop'.queued, tx ∈ loop.queued) ∧
      ∀ blk ∈ newBlock loop.chain loop'.chain, ∀ tx ∈ blk.txs, tx ∈ loop.queued := by
  have hdrop : ∀ tx, tx ∈ loop.pool.q.drop blockCap ++ loop.ingress ++
      loop.validated.map Prod.fst → tx ∈ loop.queued := by
    intro tx htx
    rcases List.mem_append.mp htx with htx | hvalidated
    · rcases List.mem_append.mp htx with hpool | hingress
      · exact mem_queued.mpr (.inl (.inl (List.mem_of_mem_drop hpool)))
      · exact mem_queued.mpr (.inl (.inr hingress))
    · exact mem_queued.mpr (.inr hvalidated)
  rw [SealLoop.stepSealCommit] at hrun
  simp only [Mpool.take] at hrun
  cases hseal : Chain.seal C now loop.chain (loop.pool.q.take blockCap) with
  | ok ch' =>
      simp only [hseal] at hrun
      rw [← Except.ok.inj hrun]
      obtain ⟨blk, -, hnew, htxs⟩ := newBlock_sealed hseal
      refine ⟨hdrop, fun blk' hblk' tx htx => ?_⟩
      obtain rfl := Option.some.inj (hnew.symm.trans hblk')
      rw [htxs, List.map_map] at htx
      obtain ⟨raw, hraw, rfl⟩ := List.mem_map.mp htx
      exact mem_queued.mpr (.inl (.inl (List.mem_of_mem_take hraw)))
  | error fault =>
      cases fault with
      | panic =>
          simp only [hseal] at hrun
          cases hrun
      | abort msg txs =>
          simp only [hseal] at hrun
          rw [← Except.ok.inj hrun]
          refine ⟨hdrop, fun blk hblk => ?_⟩
          change blk ∈ newBlock loop.chain loop.chain at hblk
          rw [newBlock_same] at hblk
          cases hblk

end Queues

/-! ## What the handlers leave of the pool -/

section Handlers

variable {C : Crypto} {app : ApiApp} {tx : SignedTx} {g g' : Inner} {nowH : U64}

theorem consumeForSeal_pool : (consumeForSeal C app tx g nowH).2.pool = g.pool := by
  unfold consumeForSeal
  split
  · split
    · rfl
    · dsimp only
      split <;> rfl
  · rfl

/-- What is sealed at once is alone in its block. -/
theorem sealOne_block (hrun : sealOne C app tx g = (.ok (), g')) :
    ∃ blk, g'.chain.blocks.getLast? = some blk ∧ blk.txs = [tx] := by
  unfold sealOne at hrun
  cases hseal : sealEntriesMut C app.clock [.raw tx] g.chain with
  | ok u ch =>
      rw [hseal] at hrun
      obtain ⟨-, rfl⟩ := Prod.mk.inj hrun
      obtain ⟨now, -, hok⟩ := sealEntriesMut_ok_iff.mp hseal
      obtain ⟨blk, hlast, -, htxs⟩ := newBlock_sealed hok
      exact ⟨blk, hlast, htxs⟩
  | error fault ch =>
      rw [hseal] at hrun
      cases fault <;> · obtain ⟨he, -⟩ := Prod.mk.inj hrun; cases he

/-- The direct seal leaves the pool; where it succeeds, its transaction is alone in the block. -/
theorem sealAndSave_spec {res : Except ApiFault Unit} (hrun : sealAndSave C app tx g = (res, g')) :
    g'.pool = g.pool ∧
      (res = .ok () → ∃ blk, g'.chain.blocks.getLast? = some blk ∧ blk.txs = [tx]) := by
  unfold sealAndSave at hrun
  cases hshape : validateTxShape C tx with
  | error e =>
      rw [hshape] at hrun
      obtain ⟨rfl, rfl⟩ := Prod.mk.inj hrun
      exact ⟨rfl, fun h => by cases h⟩
  | ok u =>
      rw [hshape] at hrun
      cases hone : sealOne C app tx g with
      | mk result g₁ =>
          have hpool := (sealOne_setup hone).pool
          rw [hone] at hrun
          cases result with
          | error e =>
              have hkept : g'.pool = g.pool ∧ res = .error e := by
                cases e <;> · obtain ⟨rfl, rfl⟩ := Prod.mk.inj hrun; exact ⟨hpool, rfl⟩
              refine ⟨hkept.1, fun h => ?_⟩
              rw [hkept.2] at h
              cases h
          | ok _ =>
              obtain ⟨blk, hlast, htxs⟩ := sealOne_block hone
              have hrecord : (g₁.recordSealed C tx g₁.chain.tipH).pool = g.pool :=
                (recordSealed_setup _).pool.trans hpool
              dsimp only at hrun
              split at hrun
              · obtain ⟨rfl, rfl⟩ := Prod.mk.inj hrun
                exact ⟨hrecord, fun h => by cases h⟩
              · obtain ⟨rfl, rfl⟩ := Prod.mk.inj hrun
                refine ⟨hrecord, fun _ => ⟨blk, ?_, htxs⟩⟩
                rw [recordSealed_chain]
                exact hlast

theorem v1Tx_spec {res : Except ApiFault Unit} (hrun : v1Tx C app tx g nowH = (res, g')) :
    g'.pool = g.pool ∧
      (res = .ok () → ∃ blk, g'.chain.blocks.getLast? = some blk ∧ blk.txs = [tx]) := by
  have hconsume := @consumeForSeal_pool C app tx g nowH
  unfold v1Tx at hrun
  cases hready : consumeForSeal C app tx g nowH with
  | mk result g₁ =>
      rw [hready] at hrun hconsume
      cases result with
      | error e =>
          obtain ⟨rfl, rfl⟩ := Prod.mk.inj hrun
          exact ⟨hconsume, fun h => by cases h⟩
      | ok _ => exact (sealAndSave_spec hrun).imp_left fun hpool => hpool.trans hconsume

theorem sealIntent_spec {bak : CommitBak} {intentId : Bytes32}
    (hrun : sealIntent C app tx g bak intentId = (.ok (), g')) :
    g'.pool = g.pool ∧ ∃ blk, g'.chain.blocks.getLast? = some blk ∧ blk.txs = [tx] := by
  unfold sealIntent at hrun
  cases hone : sealOne C app tx g with
  | mk result g₁ =>
      rw [hone] at hrun
      cases result with
      | error e => cases e <;> · obtain ⟨he, -⟩ := Prod.mk.inj hrun; cases he
      | ok _ =>
          obtain ⟨blk, hlast, htxs⟩ := sealOne_block hone
          obtain ⟨-, rfl⟩ := Prod.mk.inj hrun
          refine ⟨?_, blk, ?_, htxs⟩
          · exact (recordCrossShardTx_setup g₁ tx g₁.chain.tipH).pool.trans
              (sealOne_setup hone).pool
          · exact (congrArg (fun ch : Chain => ch.blocks.getLast?)
              (Inner.recordCrossShardTx_chain C g₁ tx g₁.chain.tipH)).trans hlast

theorem mergeCrossShardFacts_pool (facts : List CrossShardFact) :
    (g.mergeCrossShardFacts facts).1.pool = g.pool := by
  rw [Inner.mergeCrossShardFacts]
  generalize 0 = changed
  induction facts generalizing g changed with
  | nil => rfl
  | cons fact rest ih =>
      rw [List.foldl_cons]
      exact ih _

end Handlers

/-! ## Steps and runs -/

section Runs

variable {C : Crypto} {n n' : ImportNode} {act : ImportAct} {acts : List ImportAct} {tx : SignedTx}
  {inn : Inner}

theorem ImportNode.mem_queued : tx ∈ n.queued ↔ tx ∈ n.loop.queued ∨ tx ∈ n.passed :=
  List.mem_append

/-- A change of the node that leaves the pool leaves the queues of the loop. -/
theorem withInner_loop_queued (hpool : inn.pool = n.loop.pool) :
    (n.withInner inn).loop.queued = n.loop.queued := by
  simp only [SealLoop.queued, ImportNode.withInner, hpool]

theorem withInner_queued (hpool : inn.pool = n.loop.pool) :
    (n.withInner inn).queued = n.queued :=
  congrArg (· ++ n.passed) (withInner_loop_queued hpool)

/-- A request leaves the list of those that wait. -/
theorem mem_queued_of_erase {loop : SealLoop} (tx' : SignedTx)
    (h : tx ∈ loop.queued ++ n.passed.erase tx') (hloop : loop.queued = n.loop.queued) :
    tx ∈ n.queued := by
  rcases List.mem_append.mp h with h | h
  · exact ImportNode.mem_queued.mpr (.inl (hloop ▸ h))
  · exact ImportNode.mem_queued.mpr (.inr (List.mem_of_mem_erase h))

/-- Where a transaction in the queues comes from. -/
theorem step_queued (hstep : ImportStep C n act n') (htx : tx ∈ n'.queued) :
    tx ∈ n.queued ∨ (∃ st crossShard, act = .ingested tx st crossShard .accepted) ∨
      ∃ st crossShard, act = .passed tx st crossShard ∧
        enforceImportProvenancePrefilter tx st crossShard = .ok () := by
  cases hstep with
  | batch => exact .inl htx
  | @ingested tx' clock nowMs outcome inn seen hmem hrun =>
      rcases ImportNode.mem_queued.mp htx with hloop | hpassed
      · rcases mem_queued.mp hloop with (hpool | hingress) | hvalidated
        · rcases ingestSyncTx_pool hrun hpool with hold | ⟨rfl, rfl⟩
          · exact .inl (ImportNode.mem_queued.mpr (.inl (mem_queued.mpr (.inl (.inl hold)))))
          · exact .inr (.inl ⟨_, _, rfl⟩)
        · exact .inl (ImportNode.mem_queued.mpr (.inl (mem_queued.mpr (.inl (.inr hingress)))))
        · exact .inl (ImportNode.mem_queued.mpr (.inl (mem_queued.mpr (.inr hvalidated))))
      · exact .inl (ImportNode.mem_queued.mpr (.inr hpassed))
  | @passed tx' hok =>
      rcases ImportNode.mem_queued.mp htx with hloop | hpassed
      · exact .inl (ImportNode.mem_queued.mpr (.inl hloop))
      · rcases List.mem_append.mp hpassed with hold | hnew
        · exact .inl (ImportNode.mem_queued.mpr (.inr hold))
        · obtain rfl := List.mem_singleton.mp hnew
          exact .inr (.inr ⟨_, _, rfl, hok⟩)
  | direct _ _ hrun =>
      exact .inl (mem_queued_of_erase _ htx (withInner_loop_queued (v1Tx_spec hrun).1))
  | refused _ _ hrun =>
      exact .inl (mem_queued_of_erase _ htx (withInner_loop_queued (v1Tx_spec hrun).1))
  | @queued tx' ctx now height hmem hother hok =>
      refine .inl ?_
      rcases ImportNode.mem_queued.mp htx with hloop | hpassed
      · rcases mem_queued.mp hloop with hfront | hvalidated
        · exact ImportNode.mem_queued.mpr (.inl (mem_queued.mpr (.inl hfront)))
        · rw [List.map_append] at hvalidated
          rcases List.mem_append.mp hvalidated with hold | hnew
          · exact ImportNode.mem_queued.mpr (.inl (mem_queued.mpr (.inr hold)))
          · obtain rfl := List.mem_singleton.mp hnew
            exact ImportNode.mem_queued.mpr (.inr hmem)
      · exact ImportNode.mem_queued.mpr (.inr (List.mem_of_mem_erase hpassed))
  | @looped now later ingressFree validatedFree loop hrun =>
      refine .inl ?_
      have hqueued : (n.afterLoop C loop).queued = loop.queued ++ n.passed :=
        withInner_queued (foldl_recordCrossShardTx_setup _ _ _).pool
      rw [hqueued] at htx
      rcases List.mem_append.mp htx with hloop | hpassed
      · exact ImportNode.mem_queued.mpr (.inl ((sealOnce_queued hrun).1 tx hloop))
      · exact ImportNode.mem_queued.mpr (.inr hpassed)
  | manual hrun =>
      refine .inl ?_
      rcases ImportNode.mem_queued.mp htx with hloop | hpassed
      · exact ImportNode.mem_queued.mpr (.inl ((stepSealCommit_queued hrun).1 tx hloop))
      · exact ImportNode.mem_queued.mpr (.inr hpassed)
  | created _ hrun => exact .inl (withInner_queued (sealIntent_spec hrun).1 ▸ htx)
  | applied hok => exact .inl (withInner_queued (applyBlk_setup hok).pool ▸ htx)
  | @merged facts =>
      have hpool : (n.inner.mergeCrossShardFacts facts).1.pool = n.loop.pool :=
        mergeCrossShardFacts_pool facts
      exact .inl (withInner_queued hpool ▸ htx)
  | recorded => exact .inl htx
  | @restored bak =>
      have hpool : (rollbackCommit n.inner bak).pool = n.loop.pool := rfl
      exact .inl (withInner_queued hpool ▸ htx)
  | skipped => exact .inl htx

/-- An import in a new block was in the queues. -/
theorem step_block {blk : Block} (hstep : ImportStep C n (.attempt (some blk)) n')
    (htx : tx ∈ blk.txs) (hembeds : tx.EmbedsProvenance) : tx ∈ n.queued := by
  generalize hact : ImportAct.attempt (some blk) = act at hstep
  cases hstep with
  | @direct tx' app nowH inn hmem hdirect hrun =>
      obtain ⟨blk', hlast, htxs⟩ := (v1Tx_spec hrun).2 rfl
      obtain rfl := Option.some.inj ((ImportAct.attempt.inj hact).trans hlast)
      rw [htxs] at htx
      obtain rfl := List.mem_singleton.mp htx
      exact ImportNode.mem_queued.mpr (.inr hmem)
  | refused => cases hact
  | looped hrun =>
      exact ImportNode.mem_queued.mpr
        (.inl ((sealOnce_queued hrun).2 blk (ImportAct.attempt.inj hact).symm tx htx))
  | manual hrun =>
      exact ImportNode.mem_queued.mpr
        (.inl ((stepSealCommit_queued hrun).2 blk (ImportAct.attempt.inj hact).symm tx htx))
  | @created tx' app bak intentId inn hexport hrun =>
      obtain ⟨-, blk', hlast, htxs⟩ := sealIntent_spec hrun
      obtain rfl := Option.some.inj ((ImportAct.attempt.inj hact).trans hlast)
      rw [htxs] at htx
      obtain rfl := List.mem_singleton.mp htx
      obtain ⟨⟨toId, amount, exportId, hbody⟩, -⟩ := hembeds
      rw [hbody] at hexport
      cases hexport
  | _ => cases hact

/-- The queues hold no import that was let in without an export behind it. -/
structure VouchedSoFar (acts : List ImportAct) (n : ImportNode) : Prop where
  queued : ∀ tx ∈ n.queued, AdmittedBy acts tx
  blocks : ImportsVouched acts

theorem AdmittedBy.mono (h : AdmittedBy acts tx) (later : List ImportAct) :
    AdmittedBy (acts ++ later) tx := by
  intro hembeds
  obtain ⟨a, ha, hadmits⟩ := h hembeds
  exact ⟨a, List.mem_append_left later ha, hadmits⟩

theorem vouchedSoFar_step (hinv : VouchedSoFar acts n) (hstep : ImportStep C n act n')
    (hcareful : act.Careful) : VouchedSoFar (acts ++ [act]) n' := by
  constructor
  · intro tx htx
    rcases step_queued hstep htx with hold | ⟨st, crossShard, rfl⟩ | ⟨st, crossShard, rfl, hok⟩
    · exact (hinv.queued tx hold).mono [act]
    · exact fun hembeds => ⟨_, List.mem_append_right acts (List.mem_singleton_self _), rfl, rfl,
        prefilter_vouched (hcareful hembeds)⟩
    · exact fun _ => ⟨_, List.mem_append_right acts (List.mem_singleton_self _), rfl,
        prefilter_vouched hok⟩
  · intro pre blk post hsplit tx htx
    rcases List.eq_nil_or_concat post with rfl | ⟨post, last, rfl⟩
    · obtain ⟨rfl, hlast⟩ := List.append_inj' hsplit rfl
      obtain rfl := List.singleton_inj.mp hlast
      exact fun hembeds => hinv.queued tx (step_block hstep htx hembeds) hembeds
    · rw [List.concat_eq_append, ← List.cons_append, ← List.append_assoc] at hsplit
      exact hinv.blocks pre blk post (List.append_inj' hsplit rfl).1 tx htx

/-- No import without a trusted export: while what peers bring into the pool would pass the check
of a request, every import in a block of the node was let in with an export behind it. -/
theorem imports_vouched {start : ImportNode} (hempty : start.queued = [])
    (hrun : Run (ImportStep C) start acts n) (hcareful : ∀ a ∈ acts, a.Careful) :
    ImportsVouched acts := by
  have hstart : VouchedSoFar [] start := by
    constructor
    · intro tx htx
      rw [hempty] at htx
      cases htx
    · intro pre blk post hsplit
      exact absurd hsplit.symm (List.append_ne_nil_of_right_ne_nil pre (List.cons_ne_nil _ post))
  have hinv : (∀ a ∈ acts, a.Careful) → VouchedSoFar acts n := by
    refine hrun.history_invariant (I := fun acts n => (∀ a ∈ acts, a.Careful) → VouchedSoFar acts n)
      ?_ fun _ => hstart
    intro acts s act s' hprev hstep hall
    have hbefore := hprev fun a ha => hall a (List.mem_append_left _ ha)
    exact vouchedSoFar_step hbefore hstep
      (hall act (List.mem_append_right acts (List.mem_singleton_self act)))
  exact (hinv hcareful).blocks

end Runs

/-! ## An import of an export that nobody made -/

namespace ForgedImport

open EarlyImport (importerRow importerSk exportId)

/-- The importer credits itself with a provenance of its own. -/
def tx : SignedTx :=
  { EarlyImport.importTx with
    body := .importTx importerRow.acct 1000000#128 exportId
    importProvenance := some ⟨importerRow.acct, 0x9f9d#16, 1000000#128⟩
    signature := 0x0fd5b707646af46c5538a74a70b25592fbc0fec4ba859c29c92fb35bedd5b11710c8216b8c49fd26a3c3442e03c9b1b86d9337866a903d80f21be02cde14f502#512 }

def txHash : Bytes32 :=
  0x43825ba41b959879ef31fbf151c76fe55d14d8203c15467bfbe4ebc590379a8e#256

def now : U64 := 1700000001#64

/-- The header of the block without its signature. -/
def unsigned : BlockHdr where
  height := 1#64
  prevHash := PolicyRace.genesisHash
  ts := now
  prodIdx := 0#32
  txRoot := txHash
  stateRoot := 0x7fec79d3ab5a225d81b32a956d53543a47c69a59a391d763ce4336137bc8ac9f#256
  sig := 0#512

def preimage : Bytes32 :=
  0x598f215ed8cb2a756c92a10448923f8021d3dff7d02b0bdf2af96e11473d8005#256

def blk : Block :=
  ⟨{ unsigned with
    sig := 0x894d107a7f7276db6fa05faac0322a2d27a2b6598a260c4c2f7d9f01f2b2844aefeb447bc7fa26ee0f79323fe58e200fe8a4ff429e1507a419d11db71de5e90c#512 },
    [tx]⟩

/-- The scheme without the hash of the ledger after the block. -/
def stateless : Crypto :=
  .ofTables
    [(devNetRow.pubkey.beBytes 32 ++ (0#32).leBytes 4, devNetRow.acct),
      (importerRow.pubkey.beBytes 32 ++ (0#32).leBytes 4, importerRow.acct)]
    [⟨importerSk, importerRow.pubkey, [(tx.signingMessage, tx.signature)]⟩,
      ⟨devNetSk, devNetRow.pubkey, []⟩]

def sealedBy (C : Crypto) : Chain :=
  match Chain.seal C now EarlyExport.chain [tx] with
  | .ok ch => ch
  | .error _ => EarlyExport.chain

def crypto : Crypto :=
  .ofTables
    [(devNetRow.pubkey.beBytes 32 ++ (0#32).leBytes 4, devNetRow.acct),
      (importerRow.pubkey.beBytes 32 ++ (0#32).leBytes 4, importerRow.acct),
      (strBytes "PWMv0/GENESIS", PolicyRace.genesisHash), (tx.signingMessage, txHash),
      ((sealedBy stateless).st.bytes, unsigned.stateRoot), (unsigned.signBytes, preimage)]
    [⟨importerSk, importerRow.pubkey, [(tx.signingMessage, tx.signature)]⟩,
      ⟨devNetSk, devNetRow.pubkey, [(preimage.beBytes 32, blk.hdr.sig)]⟩]

def start : ImportNode :=
  { loop := { chain := EarlyExport.chain, pool := { cap := 4096 } } }

def waiting : ImportNode := { start with incoming := [tx] }

/-- The node after the import of the batch. -/
def ingested : Inner := (ingestSyncTx crypto (.ok now) 2000#64 waiting.inner waiting.seen tx).2.1

def pooled : ImportNode :=
  { waiting.withInner ingested with
    seen := [(hexEncode txHash, 2000#64)]
    incoming := waiting.incoming.erase tx }

def sealedLoop : SealLoop :=
  { chain := sealedBy crypto, pool := { cap := 4096 }, evictedTip := 1#64 }

def acts : List ImportAct :=
  [.batch [tx] 64, .ingested tx waiting.loop.chain.st waiting.crossShard .accepted,
    .attempt (some blk)]

theorem seal_tx : Chain.seal crypto now EarlyExport.chain [tx] =
    .ok (EarlyExport.chain.append blk (sealedBy stateless).st) := by
  unfold Chain.seal sealEntries digest crypto State.bytes Account.bytes
  -- bytes put together from the end are faster to compute
  simp -zeta only [List.append_assoc]
  decide +kernel

theorem sealedBy_of_ok {C : Crypto} {ch : Chain}
    (h : Chain.seal C now EarlyExport.chain [tx] = .ok ch) : sealedBy C = ch := by
  unfold sealedBy
  rw [h]

/-- The loop after the import of the batch, and what it draws. -/
theorem pooled_draws : pooled.loop.chain = EarlyExport.chain ∧
    pooled.loop.entries crypto true true = [.raw tx] ∧
      (pooled.loop.draw true true).2 =
        { chain := EarlyExport.chain, pool := { cap := 4096 } } := by
  decide +kernel

theorem run_acts : Run (ImportStep crypto) start acts (pooled.afterLoop crypto sealedLoop) := by
  have hbatch : ImportStep crypto start (.batch [tx] 64) waiting := ImportStep.batch
  have hingest : ingestSyncTx crypto (.ok now) 2000#64 waiting.inner waiting.seen tx =
      (.accepted, ingested, [(hexEncode txHash, 2000#64)]) := by
    decide +kernel
  have hpooled : ImportStep crypto waiting
      (.ingested tx waiting.loop.chain.st waiting.crossShard .accepted) pooled :=
    ImportStep.ingested (List.mem_singleton_self tx) hingest
  obtain ⟨hchain, hentries, hdrawn⟩ := pooled_draws
  have hsealed : sealEntries crypto now pooled.loop.chain (pooled.loop.entries crypto true true) =
      .ok (sealedBy crypto) := by
    rw [hchain, hentries, sealedBy_of_ok seal_tx]
    exact seal_tx
  have htip : (sealedBy crypto).tipH = 1#64 := by
    rw [sealedBy_of_ok seal_tx]
    rfl
  have hseal : pooled.loop.sealOnce crypto now now true true = .ok sealedLoop := by
    rw [SealLoop.sealOnce_of_ok hsealed, hdrawn, htip, sealedLoop]
  have hblk : newBlock pooled.loop.chain sealedLoop.chain = some blk := by
    have hlast : sealedLoop.chain = EarlyExport.chain.append blk (sealedBy stateless).st := by
      simp only [sealedLoop]
      exact sealedBy_of_ok seal_tx
    rw [hchain, hlast]
    decide +kernel
  have hsealed : ImportStep crypto pooled (.attempt (some blk))
      (pooled.afterLoop crypto sealedLoop) := hblk ▸ ImportStep.looped hseal
  exact (((Run.nil start).snoc hbatch).snoc hpooled).snoc hsealed

theorem tx_embedsProvenance : tx.EmbedsProvenance :=
  ⟨⟨_, _, _, rfl⟩, Option.some_ne_none _⟩

/-- No export stands behind the import at the start. -/
theorem not_vouched : ¬ Vouched tx EarlyExport.chain.st {} := by
  intro hvouched
  rcases hvouched _ _ _ _ rfl rfl with hregistry | ⟨fact, hfact, -⟩
  · revert hregistry
    decide
  · have hnone : CrossShardLedger.fact {} exportId = none := by decide
    rw [hnone] at hfact
    cases hfact

/-- The node has a fact of the export before the request comes. -/
def handoff : LedgerOp :=
  .recordHandoff exportId 0x32#8 devNetRow.acct importerRow.acct 0x9f9d#16 1000000#128 0#64 none

def informed : ImportNode := { start with crossShard := handoff.apply crypto start.crossShard }

def requested : ImportNode := { informed with passed := informed.passed ++ [tx] }

def app : ApiApp where
  clock := .ok now
  nowMs := .ok 2000#64
  backend := none
  relayHandoff := fun _ => .ok ()

/-- The node after the direct seal. -/
def settled : Inner := (v1Tx crypto app tx requested.inner 0#64).2

def requestActs : List ImportAct :=
  [.other, .passed tx informed.loop.chain.st informed.crossShard, .attempt (some blk)]

theorem run_requestActs : Run (ImportStep crypto) start requestActs
    { requested.withInner settled with passed := requested.passed.erase tx } := by
  have hinformed : ImportStep crypto start .other informed := ImportStep.recorded
  have hok : enforceImportProvenancePrefilter tx informed.loop.chain.st informed.crossShard =
      .ok () := by
    decide
  have hpassed : ImportStep crypto informed
      (.passed tx informed.loop.chain.st informed.crossShard) requested := ImportStep.passed hok
  have hres : (v1Tx crypto app tx requested.inner 0#64).1 = .ok () := by
    decide +kernel
  have hrun : v1Tx crypto app tx requested.inner 0#64 = (.ok (), settled) := by
    rw [settled, ← hres]
  have hblk : settled.chain.blocks.getLast? = some blk := by
    decide +kernel
  have hdirect : ImportStep crypto requested (.attempt (some blk))
      { requested.withInner settled with passed := requested.passed.erase tx } :=
    hblk ▸ ImportStep.direct (List.mem_singleton_self tx) rfl hrun
  exact (((Run.nil start).snoc hinformed).snoc hpassed).snoc hdirect

end ForgedImport

/-- The same import after the handoff of its export: the request is let in and sealed. -/
theorem imports_vouched_handoff :
    ImportsVouched ForgedImport.requestActs ∧
      ∃ a ∈ ForgedImport.requestActs, a.Admits ForgedImport.tx := by
  have hvouched : ImportsVouched ForgedImport.requestActs := by
    refine imports_vouched rfl ForgedImport.run_requestActs ?_
    intro a ha
    rcases List.mem_cons.mp ha with rfl | ha
    · trivial
    · rcases List.mem_cons.mp ha with rfl | ha
      · trivial
      · obtain rfl := List.mem_singleton.mp ha
        trivial
  refine ⟨hvouched, ?_⟩
  obtain ⟨a, ha, hadmits⟩ := hvouched [_, _] _ [] rfl ForgedImport.tx
    (List.mem_singleton_self _) ForgedImport.tx_embedsProvenance
  exact ⟨a, List.mem_append_left [_] ha, hadmits⟩

/-- The import that a peer sends is sealed and credits its recipient, though nothing vouches for
it and the check of a request refuses it. -/
theorem forgedImport_sealed :
    ForgedImport.start.queued = [] ∧
      Run (ImportStep ForgedImport.crypto) ForgedImport.start ForgedImport.acts
        (ForgedImport.pooled.afterLoop ForgedImport.crypto ForgedImport.sealedLoop) ∧
      ¬ ImportsVouched ForgedImport.acts ∧
      enforceImportProvenancePrefilter ForgedImport.tx EarlyExport.chain.st {} =
        .error .untrusted ∧
      ((ForgedImport.sealedBy ForgedImport.crypto).st.accounts[
        EarlyImport.importerRow.acct]?).map Account.balancePwm = some 1990000#128 := by
  refine ⟨rfl, ForgedImport.run_acts, ?_, by decide, by decide +kernel⟩
  intro hvouched
  obtain ⟨a, ha, hadmits⟩ := hvouched [_, _] _ [] rfl ForgedImport.tx
    (List.mem_singleton_self _) ForgedImport.tx_embedsProvenance
  rcases List.mem_cons.mp ha with rfl | ha
  · exact hadmits
  · obtain rfl := List.mem_singleton.mp ha
    exact ForgedImport.not_vouched hadmits.2.2

end Pwm
