import Pwm.Ledger.Settlement
import Pwm.Node.CrossShard

/-!
# How the facts of the cross-shard ledger change

Whatever is recorded and whatever peers report, a fact goes on to later stages
only and the oldest facts make room for new ones. Peers may change what a
local fact says, as long as they report a stage that is not an earlier one.
-/

namespace Pwm

open BitVec

namespace CrossShardLedger

/-- Every fact is under its own id. -/
def Keyed (facts : FactMap) : Prop :=
  ∀ (id : Bytes32) (fact : CrossShardFact), facts[id]? = some fact → fact.exportId = id

/-! ## Making room -/

theorem evict_of_le {fuel : Nat} {facts : FactMap} (h : facts.size ≤ factCap) :
    evict fuel facts = facts := by
  cases fuel with
  | zero => rfl
  | succ fuel => rw [evict, if_neg (by omega)]

/-- The older of the best fact so far and another one. -/
def older : Option CrossShardFact → CrossShardFact → Option CrossShardFact
  | none, fact => some fact
  | some b, fact =>
      if fact.lastHeight < b.lastHeight ∨
          fact.lastHeight = b.lastHeight ∧ fact.exportId < b.exportId then some fact
      else some b

theorem oldest_eq (facts : FactMap) :
    oldest facts = (facts.toList.map Prod.snd).foldl older none := by
  rw [oldest, List.foldl_map]
  congr 1
  funext best p
  cases best <;> rfl

theorem foldl_older (rows : List CrossShardFact) (best : CrossShardFact) :
    ∃ fact, rows.foldl older (some best) = some fact ∧ (fact = best ∨ fact ∈ rows) := by
  induction rows generalizing best with
  | nil => exact ⟨best, rfl, .inl rfl⟩
  | cons row rest ih =>
      rw [List.foldl_cons, older]
      split
      · obtain ⟨fact, hfold, hmem⟩ := ih row
        refine ⟨fact, hfold, .inr ?_⟩
        rcases hmem with rfl | hmem
        · exact List.mem_cons_self
        · exact List.mem_cons_of_mem row hmem
      · obtain ⟨fact, hfold, hmem⟩ := ih best
        exact ⟨fact, hfold, hmem.imp_right (List.mem_cons_of_mem row)⟩

/-- Among facts there is an oldest one, and it is one of them. -/
theorem oldest_spec {facts : FactMap} (h : 0 < facts.size) :
    ∃ (id : Bytes32) (fact : CrossShardFact),
      oldest facts = some fact ∧ facts[id]? = some fact := by
  rw [oldest_eq]
  cases hrows : facts.toList with
  | nil =>
      rw [← Std.ExtTreeMap.length_toList, hrows] at h
      cases h
  | cons p rest =>
      obtain ⟨fact, hfold, hmem⟩ := foldl_older (rest.map Prod.snd) p.2
      have hrow : fact ∈ facts.toList.map Prod.snd := by
        rw [hrows, List.map_cons]
        rcases hmem with rfl | hmem
        · exact List.mem_cons_self
        · exact List.mem_cons_of_mem _ hmem
      obtain ⟨q, hq, rfl⟩ := List.mem_map.mp hrow
      exact ⟨q.1, q.2, hfold, Std.ExtTreeMap.mem_toList_iff_getElem?_eq_some.mp hq⟩

theorem Keyed.erase {facts : FactMap} (h : Keyed facts) (id : Bytes32) :
    Keyed (facts.erase id) := by
  intro k fact hk
  rw [Std.ExtTreeMap.getElem?_erase] at hk
  split at hk
  · cases hk
  · exact h k fact hk

theorem Keyed.insert {facts : FactMap} (h : Keyed facts) (fact : CrossShardFact) :
    Keyed (facts.insert fact.exportId fact) := by
  intro k f hk
  rw [Std.ExtTreeMap.getElem?_insert] at hk
  split at hk
  · rename_i heq
    rw [← Option.some.inj hk]
    exact Std.LawfulEqCmp.eq_of_compare heq
  · exact h k f hk

/-- Evicting leaves facts under their own ids, within the cap. -/
theorem evict_fits {fuel : Nat} {facts : FactMap} (h : Keyed facts)
    (hfuel : facts.size ≤ factCap + fuel) :
    Keyed (evict fuel facts) ∧ (evict fuel facts).size ≤ factCap := by
  induction fuel generalizing facts with
  | zero => exact ⟨h, hfuel⟩
  | succ fuel ih =>
      rw [evict]
      split
      · rename_i hover
        obtain ⟨id, fact, holdest, hfact⟩ := oldest_spec (lt_of_le_of_lt (Nat.zero_le _) hover)
        have hmem : fact.exportId ∈ facts := by
          rw [h id fact hfact, Std.ExtTreeMap.mem_iff_isSome_getElem?, hfact]
          rfl
        have hsize : (facts.erase fact.exportId).size = facts.size - 1 := by
          rw [Std.ExtTreeMap.size_erase, if_pos (by rwa [Std.ExtTreeMap.contains_iff_mem])]
        rw [holdest]
        exact ih (h.erase _) (by omega)
      · rename_i hfits
        exact ⟨h, Nat.not_lt.mp hfits⟩

theorem upsert_fits {l : CrossShardLedger} (fact : CrossShardFact)
    (h : Keyed l.facts ∧ l.facts.size ≤ factCap) :
    Keyed (l.upsert fact).1.facts ∧ (l.upsert fact).1.facts.size ≤ factCap := by
  have hgrows : ∀ f : CrossShardFact, (l.facts.insert fact.exportId f).size ≤ factCap + 1 := by
    intro f
    have hsize := Std.ExtTreeMap.size_insert_le (t := l.facts) (k := fact.exportId) (v := f)
    omega
  have hevict : ∀ f : CrossShardFact, f.exportId = fact.exportId →
      Keyed (evict (l.facts.insert fact.exportId f).size (l.facts.insert fact.exportId f)) ∧
        (evict (l.facts.insert fact.exportId f).size
          (l.facts.insert fact.exportId f)).size ≤ factCap := by
    intro f hf
    have hkeyed := h.1.insert f
    rw [hf] at hkeyed
    exact evict_fits hkeyed (by omega)
  rw [upsert]
  split
  · split
    · exact h
    · exact hevict _ rfl
  · exact hevict _ rfl

/-- Evicting leaves the facts that stay as they are. -/
theorem getElem?_of_evict {fuel : Nat} {facts : FactMap} {id : Bytes32} {fact : CrossShardFact}
    (h : (evict fuel facts)[id]? = some fact) : facts[id]? = some fact := by
  induction fuel generalizing facts with
  | zero => exact h
  | succ fuel ih =>
      rw [evict] at h
      split at h
      · cases hold : oldest facts with
        | none =>
            rw [hold] at h
            exact h
        | some old =>
            rw [hold] at h
            have herase := ih h
            rw [Std.ExtTreeMap.getElem?_erase] at herase
            split at herase
            · cases herase
            · exact herase
      · exact h

/-! ## One write -/

section Upsert

variable {l : CrossShardLedger} {fact known known' : CrossShardFact} {id : Bytes32}

/-- A fact after a write was there before or is the written one, merged into the one before. -/
theorem upsert_cases (h : (l.upsert fact).1.fact id = some known') :
    l.fact id = some known' ∨ l.fact id = none ∨
      ∃ known, id = fact.exportId ∧ l.fact id = some known ∧
        known.status.rank ≤ fact.status.rank ∧ known' = mergeInto known fact := by
  unfold upsert at h
  cases hknown : l.facts[fact.exportId]? with
  | none =>
      rw [hknown] at h
      have hwritten := getElem?_of_evict h
      rw [Std.ExtTreeMap.getElem?_insert] at hwritten
      split at hwritten
      · rename_i heq
        rw [← Std.LawfulEqCmp.eq_of_compare heq]
        exact .inr (.inl hknown)
      · exact .inl hwritten
  | some known =>
      rw [hknown] at h
      dsimp only at h
      split at h
      · exact .inl h
      · rename_i hrank
        have hwritten := getElem?_of_evict h
        rw [Std.ExtTreeMap.getElem?_insert] at hwritten
        split at hwritten
        · rename_i heq
          obtain rfl := Std.LawfulEqCmp.eq_of_compare heq
          exact .inr (.inr ⟨known, rfl, hknown, BitVec.not_lt.mp hrank,
            (Option.some.inj hwritten).symm⟩)
        · exact .inl hwritten

/-- A write never takes a fact back to an earlier stage. -/
theorem upsert_rank_le (hknown : l.fact id = some known)
    (h : (l.upsert fact).1.fact id = some known') : known.status.rank ≤ known'.status.rank := by
  rcases upsert_cases h with hsame | hnone | ⟨old, -, hold, hrank, rfl⟩
  · obtain rfl := Option.some.inj (hknown.symm.trans hsame)
    exact BitVec.le_refl _
  · exact nomatch hknown.symm.trans hnone
  · obtain rfl := Option.some.inj (hknown.symm.trans hold)
    exact hrank

/-- Within the cap a fact of the same or a later stage always takes the place of the one there. -/
theorem upsert_known (hsize : l.facts.size ≤ factCap) (hknown : l.fact fact.exportId = some known)
    (hrank : known.status.rank ≤ fact.status.rank) :
    (l.upsert fact).1.fact fact.exportId = some (mergeInto known fact) := by
  have hmem : fact.exportId ∈ l.facts := by
    rw [Std.ExtTreeMap.mem_iff_isSome_getElem?, show l.facts[fact.exportId]? = some known from hknown]
    rfl
  have hroom : (l.facts.insert fact.exportId (mergeInto known fact)).size ≤ factCap := by
    rwa [Std.ExtTreeMap.size_insert, if_pos (by rwa [Std.ExtTreeMap.contains_iff_mem])]
  unfold upsert
  rw [show l.facts[fact.exportId]? = some known from hknown]
  dsimp only
  rw [if_neg (BitVec.not_lt.mpr hrank), evict_of_le hroom]
  exact Std.ExtTreeMap.getElem?_insert_self

end Upsert

/-! ## What peers change -/

end CrossShardLedger

/-- What a fact says of its export: amount, recipient and the two domains. -/
def CrossShardFact.terms (fact : CrossShardFact) : U128 × AccountId × U8 × U8 :=
  (fact.amount, fact.toId, fact.sourceDomainHi, fact.targetDomainHi)

namespace CrossShardLedger

/-- A peer says the same of an export as the local fact that its own would take the place of. -/
def PeerAgrees (l : CrossShardLedger) (peer : CrossShardFact) : Prop :=
  ∀ known : CrossShardFact, l.fact peer.exportId = some known → known.origin = .localNode →
    known.status.rank ≤ peer.status.rank → peer.terms = known.terms

/-- No local fact says anything else after the fact of a peer. -/
def PeerKeeps (l : CrossShardLedger) (peer : CrossShardFact) : Prop :=
  ∀ (id : Bytes32) (known known' : CrossShardFact), l.fact id = some known →
    known.origin = .localNode → (l.insertPeerFact peer).1.fact id = some known' →
      known'.terms = known.terms

theorem peerKeeps_iff {l : CrossShardLedger} (hsize : l.facts.size ≤ factCap)
    (peer : CrossShardFact) : l.PeerKeeps peer ↔ l.PeerAgrees peer := by
  constructor
  · intro hkeeps known hknown horigin hrank
    have hafter := @upsert_known l { peer with origin := .trustedPeer } known hsize hknown hrank
    have hsame := hkeeps _ known _ hknown horigin hafter
    exact hsame
  · intro hagrees id known known' hknown horigin hafter
    rcases upsert_cases hafter with hsame | hnone | ⟨old, rfl, hold, hrank, rfl⟩
    · rw [Option.some.inj (hknown.symm.trans hsame)]
    · exact nomatch hknown.symm.trans hnone
    · obtain rfl := Option.some.inj (hknown.symm.trans hold)
      exact hagrees known hknown horigin hrank

/-! ## Writes in a row -/

/-- The export behind an import that another node hands over. -/
def recordHandoff (l : CrossShardLedger) (exportId : Bytes32) (sourceDomainHi : U8)
    (source toId : AccountId) (targetDomain : U16) (amount : U128) (height : U64)
    (intentId : Option Bytes32) : CrossShardLedger :=
  (l.upsert
    { exportId := exportId
      sourceDomainHi := sourceDomainHi
      targetDomainHi := hiByte targetDomain
      amount := amount
      status := .registered
      firstHeight := height
      lastHeight := height
      source := some source
      toId := toId
      intentId := intentId
      origin := .localNode }).1

/-- A fact of a snapshot. -/
def insertFact (l : CrossShardLedger) (fact : CrossShardFact) : CrossShardLedger × Bool :=
  l.upsert fact

end CrossShardLedger

inductive LedgerOp
  | recordExport (tx : SignedTx) (height : U64) (intentId : Option Bytes32)
  | recordHandoff (exportId : Bytes32) (sourceDomainHi : U8) (source toId : AccountId)
      (targetDomain : U16) (amount : U128) (height : U64) (intentId : Option Bytes32)
  | recordImport (tx : SignedTx) (height : U64) (provenance : Option ExportProvenance)
  | insertPeerFact (fact : CrossShardFact)
  | insertFact (fact : CrossShardFact)

def LedgerOp.apply (C : Crypto) (l : CrossShardLedger) : LedgerOp → CrossShardLedger
  | recordExport tx height intentId => l.recordExport C tx height intentId
  | recordHandoff exportId sourceDomainHi source toId targetDomain amount height intentId =>
      l.recordHandoff exportId sourceDomainHi source toId targetDomain amount height intentId
  | recordImport tx height provenance => l.recordImport C tx height provenance
  | insertPeerFact fact => (l.insertPeerFact fact).1
  | insertFact fact => (l.insertFact fact).1

/-- The ledger after these operations on an empty one. -/
def factsAfter (C : Crypto) (ops : List LedgerOp) : CrossShardLedger :=
  ops.foldl (LedgerOp.apply C) {}

/-- Every operation writes one fact at most. -/
theorem LedgerOp.apply_cases (C : Crypto) (l : CrossShardLedger) (op : LedgerOp) :
    op.apply C l = l ∨ ∃ fact, op.apply C l = (l.upsert fact).1 := by
  cases op with
  | recordExport tx height intentId =>
      simp only [LedgerOp.apply, CrossShardLedger.recordExport]
      split
      · exact .inr ⟨_, rfl⟩
      · exact .inl rfl
  | recordHandoff => exact .inr ⟨_, rfl⟩
  | recordImport tx height provenance =>
      simp only [LedgerOp.apply, CrossShardLedger.recordImport]
      split
      · exact .inr ⟨_, rfl⟩
      · exact .inl rfl
  | insertPeerFact fact => exact .inr ⟨_, rfl⟩
  | insertFact fact => exact .inr ⟨_, rfl⟩

section Runs

variable {C : Crypto} {ops : List LedgerOp} {n : Nat}

theorem factsAfter_succ {op : LedgerOp} (hop : ops[n]? = some op) :
    factsAfter C (ops.take (n + 1)) = op.apply C (factsAfter C (ops.take n)) := by
  rw [factsAfter, List.take_add_one, hop, List.foldl_append]
  rfl

theorem factsAfter_fits (C : Crypto) (ops : List LedgerOp) :
    CrossShardLedger.Keyed (factsAfter C ops).facts ∧
      (factsAfter C ops).facts.size ≤ factCap := by
  induction ops using List.reverseRecOn with
  | nil =>
      refine ⟨fun id fact h => ?_, by simp [factsAfter, factCap]⟩
      simp [factsAfter] at h
  | append_singleton ops op ih =>
      rw [factsAfter, List.foldl_append, List.foldl_cons, List.foldl_nil, ← factsAfter]
      rcases op.apply_cases C (factsAfter C ops) with hsame | ⟨fact, hwrite⟩
      · rwa [hsame]
      · rw [hwrite]
        exact CrossShardLedger.upsert_fits fact ih

/-- As long as a fact is kept, no operation takes it back to an earlier stage. -/
theorem factsAfter_rank_le {m : Nat} {id : Bytes32} {fact fact' : CrossShardFact} (hnm : n ≤ m)
    (hm : m ≤ ops.length)
    (hkept : ∀ k, n ≤ k → k ≤ m → ((factsAfter C (ops.take k)).fact id).isSome)
    (hfact : (factsAfter C (ops.take n)).fact id = some fact)
    (hfact' : (factsAfter C (ops.take m)).fact id = some fact') :
    fact.status.rank ≤ fact'.status.rank := by
  induction m, hnm using Nat.le_induction generalizing fact' with
  | base =>
      obtain rfl := Option.some.inj (hfact.symm.trans hfact')
      exact BitVec.le_refl _
  | succ m hnm ih =>
      obtain ⟨mid, hmid⟩ := Option.isSome_iff_exists.mp (hkept m hnm (Nat.le_succ m))
      have hbefore : fact.status.rank ≤ mid.status.rank :=
        ih (Nat.le_of_succ_le hm) (fun k hnk hkm => hkept k hnk (Nat.le_succ_of_le hkm)) hmid
      refine BitVec.le_trans hbefore ?_
      have hop : ops[m]? = some ops[m] := List.getElem?_eq_getElem hm
      rw [factsAfter_succ hop] at hfact'
      rcases ops[m].apply_cases C (factsAfter C (ops.take m)) with hsame | ⟨write, hwrite⟩
      · rw [hsame, hmid] at hfact'
        exact (Option.some.inj hfact') ▸ BitVec.le_refl _
      · rw [hwrite] at hfact'
        exact CrossShardLedger.upsert_rank_le hmid hfact'

end Runs

/-- Over these operations kept facts go on to later stages only, peers change nothing that a local
fact says, and there are never too many facts. -/
structure FactsProgress (C : Crypto) (ops : List LedgerOp) : Prop where
  ranks : ∀ (n m : Nat) (id : Bytes32) (fact fact' : CrossShardFact), n ≤ m → m ≤ ops.length →
    (∀ k, n ≤ k → k ≤ m → ((factsAfter C (ops.take k)).fact id).isSome) →
    (factsAfter C (ops.take n)).fact id = some fact →
    (factsAfter C (ops.take m)).fact id = some fact' → fact.status.rank ≤ fact'.status.rank
  peers : ∀ (n : Nat) (peer : CrossShardFact), ops[n]? = some (.insertPeerFact peer) →
    (factsAfter C (ops.take n)).PeerKeeps peer
  size : ∀ n ≤ ops.length, (factsAfter C (ops.take n)).facts.size ≤ factCap

/-- Stages and size are right over all operations; local facts stay what they say exactly when
every peer agrees with them. -/
theorem factsProgress_iff (C : Crypto) (ops : List LedgerOp) :
    FactsProgress C ops ↔ ∀ (n : Nat) (peer : CrossShardFact),
      ops[n]? = some (.insertPeerFact peer) → (factsAfter C (ops.take n)).PeerAgrees peer := by
  have hsize := fun n : Nat => (factsAfter_fits C (ops.take n)).2
  constructor
  · intro hprogress n peer hop
    exact (CrossShardLedger.peerKeeps_iff (hsize n) peer).mp (hprogress.peers n peer hop)
  · intro hagrees
    refine ⟨fun n m id fact fact' => factsAfter_rank_le, fun n peer hop => ?_, fun n _ => hsize n⟩
    exact (CrossShardLedger.peerKeeps_iff (hsize n) peer).mpr (hagrees n peer hop)

/-- The report of a peer that the export is of another amount. -/
def otherAmount : CrossShardFact where
  exportId := EarlyImport.exportId
  sourceDomainHi := 0x32#8
  targetDomainHi := 0x9f#8
  amount := 7#128
  status := .exported
  firstHeight := 5#64
  lastHeight := 5#64
  toId := EarlyImport.importerRow.acct

/-- The amount of an own export after a peer reported another one. -/
theorem otherAmount_changes_local :
    ¬ FactsProgress EarlyImport.crypto
      [.recordExport EarlyImport.exportTx 5#64 none, .insertPeerFact otherAmount] := by
  intro hprogress
  have hterms : ∀ n ∈ [1, 2], ((factsAfter EarlyImport.crypto
      (([.recordExport EarlyImport.exportTx 5#64 none, .insertPeerFact otherAmount] :
        List LedgerOp).take n)).fact EarlyImport.exportId).map
      (fun fact => (fact.amount, fact.origin)) =
        some (if n = 1 then 500#128 else 7#128, .localNode) := by
    decide
  obtain ⟨known, hknown, hpair⟩ := Option.map_eq_some_iff.mp (hterms 1 (by decide))
  obtain ⟨known', hknown', hpair'⟩ := Option.map_eq_some_iff.mp (hterms 2 (by decide))
  obtain ⟨hamount, horigin⟩ := Prod.mk.inj hpair
  have hkeeps := hprogress.peers 1 otherAmount rfl _ known known' hknown horigin hknown'
  have hsame := (Prod.mk.inj hkeeps).1
  rw [hamount, (Prod.mk.inj hpair').1] at hsame
  exact absurd hsame (by decide)

end Pwm
