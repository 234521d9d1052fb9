import Pwm.Core.Chain

/-!
# Cross-shard facts and roaming intents

What a node keeps about exports and imports beside its chain: the ledger of
facts, seen locally or reported by peers, and the intents of its own users.
-/

namespace Pwm

inductive CrossShardStatus
  | exported
  | registered
  | imported
  deriving DecidableEq

def CrossShardStatus.rank : CrossShardStatus → U8
  | .exported => 1#8
  | .registered => 2#8
  | .imported => 3#8

inductive CrossShardOrigin
  | localNode
  | trustedPeer
  deriving DecidableEq

structure CrossShardFact where
  exportId : Bytes32
  sourceDomainHi : U8
  targetDomainHi : U8
  amount : U128
  status : CrossShardStatus
  firstHeight : U64
  lastHeight : U64
  source : Option AccountId := none
  toId : AccountId
  intentId : Option Bytes32 := none
  origin : CrossShardOrigin := .localNode
  deriving DecidableEq

abbrev FactMap := Std.ExtTreeMap Bytes32 CrossShardFact compare

structure CrossShardLedger where
  facts : FactMap := ∅
  deriving DecidableEq

def factCap : Nat := 4096

namespace CrossShardLedger

def fact (l : CrossShardLedger) (exportId : Bytes32) : Option CrossShardFact :=
  l.facts[exportId]?

/-- The fact with the smallest last height, and the smallest id among those. -/
def oldest (facts : FactMap) : Option CrossShardFact :=
  facts.toList.foldl (fun best p =>
    match best with
    | none => some p.2
    | some b =>
        if p.2.lastHeight < b.lastHeight ∨
            p.2.lastHeight = b.lastHeight ∧ p.2.exportId < b.exportId then some p.2
        else some b) none

/-- Drop the oldest facts until the cap holds; each round drops one. -/
def evict : Nat → FactMap → FactMap
  | 0, facts => facts
  | fuel + 1, facts =>
      if factCap < facts.size then
        match oldest facts with
        | some f => evict fuel (facts.erase f.exportId)
        | none => facts
      else facts

/-- What a fact becomes beside the one that is there. -/
def mergeInto (existing fact : CrossShardFact) : CrossShardFact :=
  { fact with
    origin :=
      if existing.origin = .localNode ∧ fact.origin = .trustedPeer then .localNode
      else fact.origin
    firstHeight :=
      if existing.firstHeight ≤ fact.firstHeight then existing.firstHeight else fact.firstHeight
    source := fact.source.or existing.source
    intentId := fact.intentId.or existing.intentId }

/-- Write a fact unless one of a later stage is there; says whether anything changed. -/
def upsert (l : CrossShardLedger) (fact : CrossShardFact) : CrossShardLedger × Bool :=
  match l.facts[fact.exportId]? with
  | some existing =>
      if fact.status.rank < existing.status.rank then (l, false)
      else
        let merged := mergeInto existing fact
        let facts := l.facts.insert fact.exportId merged
        (⟨evict facts.size facts⟩, decide (existing ≠ merged))
  | none =>
      let facts := l.facts.insert fact.exportId fact
      (⟨evict facts.size facts⟩, true)

def insertPeerFact (l : CrossShardLedger) (fact : CrossShardFact) : CrossShardLedger × Bool :=
  l.upsert { fact with origin := .trustedPeer }

def recordExport (C : Crypto) (l : CrossShardLedger) (tx : SignedTx) (height : U64)
    (intentId : Option Bytes32) : CrossShardLedger :=
  match tx.body, tx.exportId C with
  | .exportTx toId targetDomain amount _, some exportId =>
      (l.upsert
        { exportId := exportId
          sourceDomainHi := hiByte tx.domainCode
          targetDomainHi := hiByte targetDomain
          amount := amount
          status := .exported
          firstHeight := height
          lastHeight := height
          source := some (tx.computedAccountId C)
          toId := toId
          intentId := intentId
          origin := .localNode }).1
  | _, _ => l

/-- Source domain, amount and recipient of an import as far as they are known. -/
def knownExport (C : Crypto) (l : CrossShardLedger) (tx : SignedTx) (toId : AccountId)
    (amount : U128) (exportId : Bytes32) (provenance : Option ExportProvenance) :
    U8 × U128 × AccountId :=
  match l.facts[exportId]?, provenance with
  | some f, _ => (f.sourceDomainHi, f.amount, f.toId)
  | none, some p => (hiByte (domainOfAccountId (tx.computedAccountId C)), p.amount, p.toId)
  | none, none => (0#8, amount, toId)

def recordImport (C : Crypto) (l : CrossShardLedger) (tx : SignedTx) (height : U64)
    (provenance : Option ExportProvenance) : CrossShardLedger :=
  match tx.body with
  | .importTx toId amount exportId =>
      let known := l.knownExport C tx toId amount exportId provenance
      (l.upsert
        { exportId := exportId
          sourceDomainHi := known.1
          targetDomainHi := hiByte tx.domainCode
          amount := known.2.1
          status := .imported
          firstHeight := height
          lastHeight := height
          source := (l.facts[exportId]?).bind CrossShardFact.source
          toId := known.2.2
          intentId := (l.facts[exportId]?).bind CrossShardFact.intentId
          origin := .localNode }).1
  | _ => l

end CrossShardLedger

/-! ## Roaming intents -/

inductive IntentStatus
  | queued
  | exported
  | relayed
  | imported
  | expired
  | failed
  deriving DecidableEq

def IntentStatus.isLocking : IntentStatus → Bool
  | .queued => true
  | .exported => true
  | .relayed => true
  | _ => false

structure RoamingIntent where
  intentId : Bytes32
  exportId : Bytes32
  source : AccountId
  toId : AccountId
  targetDomain : U16
  amount : U128
  fee : U128
  status : IntentStatus
  createdHeight : U64
  expiresAtHeight : U64
  lastError : Option String := none
  deriving DecidableEq

/-- A checked export, which has to be the one that is submitted. -/
structure ExportReadiness where
  exportId : Bytes32
  source : AccountId
  toId : AccountId
  targetDomain : U16
  amount : U128
  sourceNonceHint : U64
  sourceHeightHint : U64
  checkedAtUnixMs : U64
  expiresAtUnixMs : U64
  deriving DecidableEq

structure RoamingPool where
  intents : Std.ExtTreeMap Bytes32 RoamingIntent compare := ∅
  exportToIntent : Std.ExtTreeMap Bytes32 Bytes32 compare := ∅
  activeLocks : Std.ExtTreeMap AccountId Bytes32 compare := ∅
  readiness : Std.ExtTreeMap Bytes32 ExportReadiness compare := ∅
  deriving DecidableEq

namespace RoamingPool

def getByExportId (pool : RoamingPool) (exportId : Bytes32) : Option RoamingIntent :=
  (pool.exportToIntent[exportId]?).bind fun intentId => pool.intents[intentId]?

/-- An intent that blocks its source's funds holds their lock. -/
def setStatus (pool : RoamingPool) (intentId : Bytes32) (status : IntentStatus)
    (err : Option String) : RoamingPool :=
  match pool.intents[intentId]? with
  | none => pool
  | some intent =>
      { pool with
        intents := pool.intents.insert intentId
          { intent with status := status, lastError := err.or intent.lastError }
        activeLocks :=
          if status.isLocking then pool.activeLocks.insert intent.source intentId
          else pool.activeLocks.erase intent.source }

def markImportByExport (pool : RoamingPool) (exportId : Bytes32) : RoamingPool :=
  match pool.exportToIntent[exportId]? with
  | some intentId => pool.setStatus intentId .imported none
  | none => pool

/-- The lock that a transaction of this account runs into; imports never do. -/
def lockConflictFor (C : Crypto) (pool : RoamingPool) (tx : SignedTx) : Option Bytes32 :=
  match tx.body with
  | .importTx _ _ _ => none
  | _ => pool.activeLocks[tx.computedAccountId C]?

end RoamingPool

end Pwm
