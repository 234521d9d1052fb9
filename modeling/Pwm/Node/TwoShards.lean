import Pwm.Ledger.Funds
import Pwm.Node.Liveness

/-!
# Two shards

An export leaves the ledger of its source shard, and its target shard imports
it with the provenance of the export. The shards take their steps in any order,
and merge the facts of each other. A fact does not reach the locks or the
imported ids of a ledger: no import releases the lock on the source, and no
refund is seen on the target.
-/

namespace Pwm

open MapSum

structure TwoShards where
  source : Inner
  target : Inner
  /-- The exports that the source has committed. -/
  exports : List SignedTx := []

/-- What the two shards can pay out. -/
def TwoShards.funds (t : TwoShards) : Nat :=
  t.source.chain.st.funds + t.target.chain.st.funds

namespace LedgerLabel

def exported (C : Crypto) : LedgerLabel → List SignedTx
  | .applied tx => if (tx.exportId C).isSome then [tx] else []
  | _ => []

def importedIds : LedgerLabel → List Bytes32
  | .applied tx =>
      match tx.body with
      | .importTx _ _ exportId => [exportId]
      | _ => []
  | _ => []

def refundedIds : LedgerLabel → List Bytes32
  | .refunded locks => locks.map CrossShardLock.exportId
  | _ => []

end LedgerLabel

/-- A step of the ledger of a node, whatever else the node does to pool, blocks and facts. -/
def Inner.LedgerMoves (C : Crypto) (inn : Inner) (l : LedgerLabel) (minted : Nat)
    (inn' : Inner) : Prop :=
  inn'.chain.cfg = inn.chain.cfg ∧
    LedgerStep C inn.chain.cfg inn.chain.st l inn'.chain.st ∧
    Mints inn.chain.cfg inn.chain.st l inn'.chain.st minted

/-- An import carries exactly the provenance of one of these exports. -/
def CarriesExport (C : Crypto) (exports : List SignedTx) (tx : SignedTx) : Prop :=
  ∀ toId amount exportId, tx.body = .importTx toId amount exportId →
    ∃ e ∈ exports, ∃ prov fee, e.exportId C = some exportId ∧
      e.body = .exportTx prov.toId prov.targetDomain prov.amount fee ∧
      tx.importProvenance = some prov

inductive ShardAct
  | source (l : LedgerLabel) (minted : Nat)
  | target (l : LedgerLabel) (minted : Nat)
  | facts

namespace ShardAct

def minted : ShardAct → Nat
  | .source _ minted => minted
  | .target _ minted => minted
  | .facts => 0

/-- The export ids that the target credits. -/
def credited : ShardAct → List Bytes32
  | .target l _ => l.importedIds
  | _ => []

/-- The export ids that the source refunds. -/
def refunded : ShardAct → List Bytes32
  | .source l _ => l.refundedIds
  | _ => []

end ShardAct

/-- A step of a source without imports, of a target without exports, or the facts of one shard
merged into the other. -/
inductive ShardStep (C : Crypto) : TwoShards → ShardAct → TwoShards → Prop
  | source {t : TwoShards} {l : LedgerLabel} {minted : Nat} {inn : Inner}
      (hmoves : t.source.LedgerMoves C l minted inn) (himports : l.importedIds = []) :
      ShardStep C t (.source l minted)
        { t with source := inn, exports := t.exports ++ l.exported C }
  | target {t : TwoShards} {l : LedgerLabel} {minted : Nat} {inn : Inner}
      (hmoves : t.target.LedgerMoves C l minted inn) (hexports : l.exported C = [])
      (hcarries : ∀ tx, l = .applied tx → CarriesExport C t.exports tx) :
      ShardStep C t (.target l minted) { t with target := inn }
  | toSource (t : TwoShards) (facts : List CrossShardFact) :
      ShardStep C t .facts { t with source := (t.source.mergeCrossShardFacts facts).1 }
  | toTarget (t : TwoShards) (facts : List CrossShardFact) :
      ShardStep C t .facts { t with target := (t.target.mergeCrossShardFacts facts).1 }

/-- Both shards are without locks and imported ids. -/
def TwoShards.Fresh (t : TwoShards) : Prop :=
  t.source.chain.st.crossShardLocks = [] ∧ t.target.chain.st.crossShardLocks = [] ∧
    t.source.chain.st.importedSet = ∅ ∧ t.target.chain.st.importedSet = ∅ ∧ t.exports = []

/-- The source refunds no lock whose export the target has imported, the target imports no
export whose lock the source has refunded, and no drain credits its own sender. -/
def ShardAct.Coordinated (t : TwoShards) : ShardAct → Prop
  | .source l _ => l.NoSelfDrain ∧ ∀ id ∈ l.refundedIds, id ∉ t.target.chain.st.importedSet
  | .target l _ => l.NoSelfDrain ∧ ∀ id ∈ l.importedIds, lockNotRefunded t.source.chain.st id
  | .facts => True

/-- A coordinated step in which the source applies transactions of the set only. -/
def CoordinatedStep (C : Crypto) (txs : Set SignedTx) (t : TwoShards) (act : ShardAct)
    (t' : TwoShards) : Prop :=
  ShardStep C t act t' ∧ act.Coordinated t ∧
    ∀ tx minted, act = .source (.applied tx) minted → tx ∈ txs

/-! ## Blocks -/

section Blocks

variable {C : Crypto} {now : U64} {t : TwoShards} {ch' : Chain} {entries : List SealEntry}
  {ls : List LedgerLabel} {st : State}

theorem exists_mints {genCfg : GenCfg} {s s' : State} {l : LedgerLabel}
    (hstep : LedgerStep C genCfg s l s') : ∃ n, Mints genCfg s l s' n := by
  cases hstep with
  | applied hok => exact ⟨_, .applied s _ s'⟩
  | rewarded prodAcct h => exact ⟨_, .rewarded s prodAcct h⟩
  | _ => exact ⟨0, .nothing (by simp) (by simp)⟩

/-- The node with another ledger. -/
def Inner.withSt (inn : Inner) (st : State) : Inner :=
  { inn with chain := { inn.chain with st := st } }

@[simp] theorem Inner.withSt_st (inn : Inner) (st : State) : (inn.withSt st).chain.st = st := rfl

@[simp] theorem Inner.withSt_cfg (inn : Inner) (st : State) :
    (inn.withSt st).chain.cfg = inn.chain.cfg := rfl

theorem Inner.ledgerMoves_withSt {inn : Inner} {l : LedgerLabel} {n : Nat}
    (hstep : LedgerStep C inn.chain.cfg inn.chain.st l st)
    (hmints : Mints inn.chain.cfg inn.chain.st l st n) :
    inn.LedgerMoves C l n (inn.withSt st) :=
  ⟨rfl, hstep, hmints⟩

/-- A run of the ledger of the source without imports is a run of the two shards. -/
theorem run_source (hrun : Run (LedgerStep C t.source.chain.cfg) t.source.chain.st ls st)
    (himports : ∀ l ∈ ls, l.importedIds = []) :
    ∃ acts t', Run (ShardStep C) t acts t' ∧ t'.source = t.source.withSt st ∧
      t'.target = t.target := by
  induction hrun with
  | nil => exact ⟨[], t, .nil t, rfl, rfl⟩
  | @snoc s₁ s₂ ls l _ hstep ih =>
      obtain ⟨acts, t', hrun, hsource, htarget⟩ := ih fun l hl =>
        himports l (List.mem_append_left _ hl)
      obtain ⟨n, hmints⟩ := exists_mints hstep
      have hmoves : t'.source.LedgerMoves C l n (t.source.withSt s₂) := by
        rw [hsource]
        exact ⟨rfl, hstep, hmints⟩
      have hlast := himports l (List.mem_append_right _ (List.mem_singleton_self _))
      exact ⟨_, _, hrun.snoc (.source hmoves hlast), rfl, htarget⟩

/-- A run of the ledger of the target that imports exports of the source is one as well. -/
theorem run_target (hrun : Run (LedgerStep C t.target.chain.cfg) t.target.chain.st ls st)
    (hexports : ∀ l ∈ ls, l.exported C = [])
    (hcarries : ∀ tx, .applied tx ∈ ls → CarriesExport C t.exports tx) :
    ∃ acts t', Run (ShardStep C) t acts t' ∧ t' = { t with target := t.target.withSt st } := by
  induction hrun with
  | nil => exact ⟨[], t, .nil t, rfl⟩
  | @snoc s₁ s₂ ls l _ hstep ih =>
      obtain ⟨acts, t', hrun, rfl⟩ := ih (fun l hl => hexports l (List.mem_append_left _ hl))
        fun tx htx => hcarries tx (List.mem_append_left _ htx)
      obtain ⟨n, hmints⟩ := exists_mints hstep
      have hmoves : (t.target.withSt s₁).LedgerMoves C l n (t.target.withSt s₂) :=
        ⟨rfl, hstep, hmints⟩
      have hlast : l ∈ ls ++ [l] := List.mem_append_right _ (List.mem_singleton_self _)
      exact ⟨_, _, hrun.snoc (.target hmoves (hexports l hlast) fun tx htx =>
        hcarries tx (htx ▸ hlast)), rfl⟩

/-- A seal is a run of the ledger that applies the transactions of its entries only. -/
theorem sealEntries_run_within {ch : Chain} (hok : sealEntries C now ch entries = .ok ch') :
    ∃ ls, Run (LedgerStep C ch.cfg) ch.st ls ch'.st ∧
      ∀ tx, .applied tx ∈ ls → tx ∈ entries.map SealEntry.tx := by
  obtain ⟨height, ts, prodIdx, sk, st, st', _, _, hrun, ⟨drained, prodAcct, hdrain, _, _, rfl⟩, _,
    rfl⟩ := sealEntries_ok hok
  have hroll : LedgerStep C ch.cfg ch.st .epoch (rollEpochIfNeeded ch.cfg ch.st height) :=
    .epoch ch.st height
  have hstart := (Run.single hroll).snoc (.refunded _ height)
  have hrefund : LedgerStep C ch.cfg st _ (st.refundExpLocks height) := .refunded st height
  have hend := ((Run.single hrefund).snoc (.drained hdrain)).snoc
    (.rewarded drained prodAcct height)
  refine ⟨_, (hstart.append (forM_applyEntry_run hrun)).append hend, ?_⟩
  intro tx htx
  simpa using htx

/-- Sealing a block without imports on the source. -/
theorem run_sealed_source (hok : sealEntries C now t.source.chain entries = .ok ch')
    (himports : ∀ entry ∈ entries, (LedgerLabel.applied entry.tx).importedIds = []) :
    ∃ acts t', Run (ShardStep C) t acts t' ∧ t'.source.chain.st = ch'.st ∧
      t'.target = t.target := by
  obtain ⟨ls, hrun, happlied⟩ := sealEntries_run_within hok
  obtain ⟨acts, t', hrun, hsource, htarget⟩ := run_source hrun fun l hl => by
    cases l with
    | applied tx =>
        obtain ⟨entry, hentry, rfl⟩ := List.mem_map.mp (happlied tx hl)
        exact himports entry hentry
    | _ => rfl
  exact ⟨acts, t', hrun, by rw [hsource]; rfl, htarget⟩

/-- Sealing a block on the target whose imports are of exports of the source. -/
theorem run_sealed_target (hok : sealEntries C now t.target.chain entries = .ok ch')
    (hexports : ∀ entry ∈ entries, entry.tx.exportId C = none)
    (hcarries : ∀ entry ∈ entries, CarriesExport C t.exports entry.tx) :
    ∃ acts t', Run (ShardStep C) t acts t' ∧ t'.target.chain.st = ch'.st ∧
      t'.source = t.source := by
  obtain ⟨ls, hrun, happlied⟩ := sealEntries_run_within hok
  have hnone : ∀ l ∈ ls, l.exported C = [] := by
    intro l hl
    cases l with
    | applied tx =>
        obtain ⟨entry, hentry, rfl⟩ := List.mem_map.mp (happlied tx hl)
        rw [LedgerLabel.exported, hexports entry hentry]
        rfl
    | _ => rfl
  have hcarried : ∀ tx, .applied tx ∈ ls → CarriesExport C t.exports tx := by
    intro tx htx
    obtain ⟨entry, hentry, rfl⟩ := List.mem_map.mp (happlied tx htx)
    exact hcarries entry hentry
  obtain ⟨acts, t', hrun, rfl⟩ := run_target hrun hnone hcarried
  exact ⟨acts, _, hrun, rfl, rfl⟩

end Blocks

/-! ## What is on its way -/

/-- What a lock holds of an export that is not imported yet. -/
def CrossShardLock.onItsWay (imported : IdSet) (l : CrossShardLock) : Nat :=
  if l.state = .locked ∧ l.exportId ∉ imported then l.amountPwm.toNat else 0

/-- The amounts that left the source and were neither refunded nor imported. -/
def State.inFlight (s : State) (imported : IdSet) : Nat :=
  (s.crossShardLocks.map (CrossShardLock.onItsWay imported)).sum

section InFlight

variable {imported : IdSet} {locks : List CrossShardLock}

theorem onItsWay_le (imported : IdSet) (l : CrossShardLock) :
    l.onItsWay imported ≤ l.amountPwm.toNat := by
  rw [CrossShardLock.onItsWay]
  split
  · exact le_rfl
  · exact Nat.zero_le _

theorem onItsWay_insert_le (imported : IdSet) (id : Bytes32) (l : CrossShardLock) :
    l.onItsWay (imported.insert id) ≤ l.onItsWay imported := by
  rw [CrossShardLock.onItsWay, CrossShardLock.onItsWay]
  by_cases hway : l.state = .locked ∧ l.exportId ∉ imported
  · rw [if_pos hway]
    split
    · exact le_rfl
    · exact Nat.zero_le _
  · have hout : ¬ (l.state = .locked ∧ l.exportId ∉ imported.insert id) := by
      rintro ⟨hheld, hnew⟩
      exact hway ⟨hheld, fun hin => hnew (mem_insert_importedSet.mpr (Or.inr hin))⟩
    rw [if_neg hout]
    exact Nat.zero_le _

theorem sum_onItsWay_insert_le (imported : IdSet) (id : Bytes32) (locks : List CrossShardLock) :
    (locks.map (CrossShardLock.onItsWay (imported.insert id))).sum ≤
      (locks.map (CrossShardLock.onItsWay imported)).sum :=
  List.sum_le_sum fun l _ => onItsWay_insert_le imported id l

/-- An import takes the amount of its lock off the way. -/
theorem sum_onItsWay_import {lock : CrossShardLock} (hmem : lock ∈ locks)
    (hheld : lock.state = .locked) (hfresh : lock.exportId ∉ imported) :
    (locks.map (CrossShardLock.onItsWay (imported.insert lock.exportId))).sum +
        lock.amountPwm.toNat ≤
      (locks.map (CrossShardLock.onItsWay imported)).sum := by
  induction locks with
  | nil => cases hmem
  | cons l rest ih =>
      rw [List.map_cons, List.sum_cons, List.map_cons, List.sum_cons]
      rcases List.mem_cons.mp hmem with rfl | hmem
      · have hrest := sum_onItsWay_insert_le imported lock.exportId rest
        have hbefore : lock.onItsWay imported = lock.amountPwm.toNat := if_pos ⟨hheld, hfresh⟩
        have hafter : lock.onItsWay (imported.insert lock.exportId) = 0 :=
          if_neg fun h => h.2 (mem_insert_importedSet.mpr (Or.inl rfl))
        omega
      · have hfirst := onItsWay_insert_le imported lock.exportId l
        have hrest := ih hmem
        omega

variable (imported locks) in
/-- A refund takes the amounts of the due locks off the way. -/
theorem sum_onItsWay_refund (h : U64)
    (hout : ∀ l ∈ locks, l.state = .locked ∧ l.unlockHeight ≤ h → l.exportId ∉ imported) :
    ((locks.map (refundedLock h)).map (CrossShardLock.onItsWay imported)).sum +
        ((locks.filter fun lock => decide (lock.state = .locked ∧ lock.unlockHeight ≤ h)).map
          fun l => l.amountPwm.toNat).sum =
      (locks.map (CrossShardLock.onItsWay imported)).sum := by
  induction locks with
  | nil => rfl
  | cons l rest ih =>
      have hrest := ih fun l hl => hout l (List.mem_cons_of_mem _ hl)
      simp only [List.map_cons, List.sum_cons]
      by_cases hdue : l.state = .locked ∧ l.unlockHeight ≤ h
      · have hbefore : l.onItsWay imported = l.amountPwm.toNat :=
          if_pos ⟨hdue.1, hout l List.mem_cons_self hdue⟩
        have hafter : (refundedLock h l).onItsWay imported = 0 := by
          rw [refundedLock, if_pos hdue]
          rfl
        rw [List.filter_cons_of_pos (by simpa using hdue), List.map_cons, List.sum_cons]
        omega
      · rw [refundedLock, if_neg hdue, List.filter_cons_of_neg (by simpa using hdue)]
        omega

end InFlight

/-! ## The locks of the source -/

/-- A lock of this id was refunded. -/
def State.Refunded (s : State) (exportId : Bytes32) : Prop :=
  ∃ l ∈ s.crossShardLocks, l.exportId = exportId ∧ l.state = .refunded

/-- Every export of the source has its own lock, with its amount and from a nonce that is used
up; no lock was released, and none of an imported id was refunded. -/
structure Escrowed (C : Crypto) (txs : Set SignedTx) (s : State) (imported : IdSet)
    (exports : List SignedTx) : Prop where
  ids : (s.crossShardLocks.map CrossShardLock.exportId).Nodup
  origin : ∀ l ∈ s.crossShardLocks, ∃ tx ∈ txs, tx.exportId C = some l.exportId ∧
    tx.nonce.toNat < s.nonceOf (tx.computedAccountId C)
  recorded : ∀ e ∈ exports, ∀ id, e.exportId C = some id →
    ∃ l ∈ s.crossShardLocks, l.exportId = id ∧ l.amountPwm.toNat = e.exportAmount
  kept : ∀ l ∈ s.crossShardLocks, l.state ≠ .released
  apart : ∀ id, s.Refunded id → id ∉ imported

section Source

variable {C : Crypto} {genCfg : GenCfg} {txs : Set SignedTx} {s s' : State} {imported : IdSet}
  {exports : List SignedTx} {l : LedgerLabel}

theorem Escrowed.of_same (hI : Escrowed C txs s imported exports)
    (hlocks : s'.crossShardLocks = s.crossShardLocks) (hnonce : ∀ j, s.nonceOf j ≤ s'.nonceOf j) :
    Escrowed C txs s' imported exports := by
  constructor
  · rw [hlocks]
    exact hI.ids
  · rw [hlocks]
    intro l hl
    obtain ⟨tx, htx, hid, hlt⟩ := hI.origin l hl
    exact ⟨tx, htx, hid, hlt.trans_le (hnonce _)⟩
  · rw [hlocks]
    exact hI.recorded
  · rw [hlocks]
    exact hI.kept
  · intro id hid
    rw [State.Refunded, hlocks] at hid
    exact hI.apart id hid

/-- The id of an export with the nonce of its account has no lock yet, when every lock comes from
an export whose nonce is used up. -/
theorem lockIdx_none_of_origin
    (horigin : ∀ l ∈ s.crossShardLocks, ∃ tx ∈ txs, tx.exportId C = some l.exportId ∧
      tx.nonce.toNat < s.nonceOf (tx.computedAccountId C))
    (hC : C.CollisionFree (exportHashInputs C txs)) {tx : SignedTx} (htx : tx ∈ txs)
    (hnonce : s.nonceOf (tx.computedAccountId C) = tx.nonce.toNat) {exportId : Bytes32}
    (hid : tx.exportId C = some exportId) : s.lockIdx exportId = none := by
  rw [lockIdx_isNone_iff]
  rintro l hmem rfl
  obtain ⟨tx', htx', hid', hlt⟩ := horigin l hmem
  obtain ⟨hacc, hsame⟩ := export_unique hC htx htx' hid hid'
  rw [← hacc, ← hsame] at hlt
  omega

theorem escrowed_export (hI : Escrowed C txs s imported exports)
    (hC : C.CollisionFree (exportHashInputs C txs)) {tx : SignedTx} (htx : tx ∈ txs)
    (hnonce : s.nonceOf (tx.computedAccountId C) = tx.nonce.toNat)
    (hnext : BumpsNonce (tx.computedAccountId C) s s') {exportId : Bytes32}
    (hid : tx.exportId C = some exportId) {lock : CrossShardLock}
    (hlock : lock.exportId = exportId ∧ lock.amountPwm.toNat = tx.exportAmount ∧
      lock.state = .locked)
    (hlocks : s'.crossShardLocks =
      if (s.lockIdx exportId).isNone then s.crossShardLocks ++ [lock] else s.crossShardLocks) :
    Escrowed C txs s' imported (exports ++ [tx]) ∧
      s'.crossShardLocks = s.crossShardLocks ++ [lock] := by
  have hnone : s.lockIdx exportId = none := lockIdx_none_of_origin hI.origin hC htx hnonce hid
  rw [hnone, Option.isNone_none, if_pos rfl] at hlocks
  obtain ⟨hlockid, hamount, hheld⟩ := hlock
  have hle : ∀ j, s.nonceOf j ≤ s'.nonceOf j := by
    intro j
    rw [hnext j]
    exact Nat.le_add_right _ _
  have hmem : ∀ l ∈ s'.crossShardLocks, l ∈ s.crossShardLocks ∨ l = lock := by
    intro l hl
    rw [hlocks] at hl
    simpa using hl
  have hold : ∀ l ∈ s.crossShardLocks, l ∈ s'.crossShardLocks := by
    intro l hl
    rw [hlocks]
    exact List.mem_append_left _ hl
  have hnew : lock ∈ s'.crossShardLocks := by
    rw [hlocks]
    exact List.mem_append_right _ (List.mem_singleton_self _)
  refine ⟨⟨?_, ?_, ?_, ?_, ?_⟩, hlocks⟩
  · rw [hlocks, List.map_append, List.nodup_append]
    refine ⟨hI.ids, List.nodup_singleton _, ?_⟩
    simp only [List.map_cons, List.map_nil, List.mem_singleton, List.mem_map]
    rintro _ ⟨l, hl, rfl⟩ _ rfl
    rw [hlockid]
    exact lockIdx_isNone_iff.mp hnone l hl
  · intro l hl
    rcases hmem l hl with hl | rfl
    · obtain ⟨tx', htx', hid', hlt⟩ := hI.origin l hl
      exact ⟨tx', htx', hid', hlt.trans_le (hle _)⟩
    · refine ⟨tx, htx, by rw [hlockid, hid], ?_⟩
      rw [hnext, if_pos rfl]
      omega
  · intro e he id hide
    rcases List.mem_append.mp he with he | he
    · obtain ⟨l, hl, hl'⟩ := hI.recorded e he id hide
      exact ⟨l, hold l hl, hl'⟩
    · obtain rfl := List.mem_singleton.mp he
      rw [hid] at hide
      obtain rfl := Option.some.inj hide
      exact ⟨lock, hnew, hlockid, hamount⟩
  · intro l hl
    rcases hmem l hl with hl | rfl
    · exact hI.kept l hl
    · rw [hheld]
      decide
  · rintro id ⟨l, hl, hlid, hrefunded⟩
    rcases hmem l hl with hl | rfl
    · exact hI.apart id ⟨l, hl, hlid, hrefunded⟩
    · rw [hheld] at hrefunded
      cases hrefunded

theorem refundedLock_state (h : U64) (l : CrossShardLock) :
    (refundedLock h l).state = .refunded ↔
      l.state = .refunded ∨ l.state = .locked ∧ l.unlockHeight ≤ h := by
  unfold refundedLock
  by_cases hdue : l.state = .locked ∧ l.unlockHeight ≤ h
  · simp [hdue]
  · simp [hdue]

theorem escrowed_refund (hI : Escrowed C txs s imported exports) (h : U64)
    (hout : ∀ l ∈ s.dueLocks h, l.exportId ∉ imported) :
    Escrowed C txs (s.refundExpLocks h) imported exports := by
  obtain ⟨hlocks, -⟩ := refundExpLocks_view s h
  constructor
  · rw [hlocks, List.map_map]
    simpa [Function.comp_def, refundedLock_id] using hI.ids
  · intro l hl
    rw [hlocks] at hl
    obtain ⟨old, hold, rfl⟩ := List.mem_map.mp hl
    obtain ⟨tx, htx, hid, hlt⟩ := hI.origin old hold
    exact ⟨tx, htx, by rw [refundedLock_id, hid], by rwa [refundExpLocks_nonceOf]⟩
  · intro e he id hid
    obtain ⟨l, hl, hlid, hamount⟩ := hI.recorded e he id hid
    refine ⟨refundedLock h l, ?_, by rw [refundedLock_id, hlid], ?_⟩
    · rw [hlocks]
      exact List.mem_map_of_mem hl
    · rw [← hamount, refundedLock]
      split <;> rfl
  · intro l hl
    rw [hlocks] at hl
    obtain ⟨old, hold, rfl⟩ := List.mem_map.mp hl
    have hkept := hI.kept old hold
    rw [refundedLock]
    split
    · intro hreleased
      cases hreleased
    · exact hkept
  · rintro id ⟨l, hl, rfl, hrefunded⟩
    rw [hlocks] at hl
    obtain ⟨old, hold, rfl⟩ := List.mem_map.mp hl
    rw [refundedLock_id]
    rcases (refundedLock_state h old).mp hrefunded with hbefore | hdue
    · exact hI.apart _ ⟨old, hold, rfl, hbefore⟩
    · exact hout old (List.mem_filter.mpr ⟨hold, by simpa using hdue⟩)

/-- A step of the source: what arrives was on its way, and what leaves is now. -/
theorem escrowed_source (hI : Escrowed C txs s imported exports)
    (hC : C.CollisionFree (exportHashInputs C txs)) (hstep : LedgerStep C genCfg s l s')
    (htxs : ∀ tx, l = .applied tx → tx ∈ txs) (himports : l.importedIds = [])
    (hout : ∀ id ∈ l.refundedIds, id ∉ imported) :
    Escrowed C txs s' imported (exports ++ l.exported C) ∧
      s'.inFlight imported + l.arriving ≤ s.inFlight imported + l.leaving ∧
      (∀ id ∈ l.refundedIds, s'.Refunded id) ∧ ∀ id, s.Refunded id → s'.Refunded id := by
  have hle := step_nonceOf_le hstep
  rcases step_crossShard hstep with ⟨tx, rfl, heff⟩ | ⟨h, rfl, rfl⟩ | ⟨happlied, hsettled, hsame⟩
  · obtain ⟨hnonce, hspec⟩ := step_applied_nonces hstep
    cases heff with
    | @exported toId targetDomain amount fee exportId h hbody hid _ _ hlocks =>
        rw [SignedTx.isDelayed, hbody] at hspec
        have hamount : tx.exportAmount = amount.toNat := by
          rw [SignedTx.exportAmount, hbody]
        have hzero : tx.importAmount = 0 := by
          rw [SignedTx.importAmount, hbody]
        have hexported : (LedgerLabel.applied tx).exported C = [tx] := by
          rw [LedgerLabel.exported, hid]
          rfl
        obtain ⟨hI', happend⟩ := escrowed_export hI hC (htxs tx rfl) hnonce hspec hid
          ⟨rfl, hamount.symm, rfl⟩ hlocks
        refine ⟨hexported ▸ hI', ?_, List.forall_mem_nil _, ?_⟩
        · have hway := onItsWay_le imported
            (exportLock genCfg h (tx.computedAccountId C) exportId amount targetDomain)
          have hlast : (exportLock genCfg h (tx.computedAccountId C) exportId amount
              targetDomain).amountPwm = amount := rfl
          rw [hlast] at hway
          rw [State.inFlight, happend, List.map_append, List.sum_append, List.map_singleton,
            List.sum_singleton, LedgerLabel.arriving, LedgerLabel.leaving, hamount, hzero,
            State.inFlight]
          omega
        · rintro id ⟨l, hl, hlid⟩
          refine ⟨l, ?_, hlid⟩
          rw [happend]
          exact List.mem_append_left _ hl
    | imported hbody _ _ _ _ _ _ _ =>
        rw [LedgerLabel.importedIds, hbody] at himports
        cases himports
    | other hexport himport hsame =>
        have hexported : (LedgerLabel.applied tx).exported C = [] := by
          rw [LedgerLabel.exported, SignedTx.exportId]
          cases hbody : tx.body with
          | exportTx toId targetDomain amount fee => exact absurd hbody (hexport _ _ _ _)
          | _ => rfl
        have hzero : tx.importAmount = 0 := by
          rw [SignedTx.importAmount]
          cases hbody : tx.body with
          | importTx toId amount exportId => exact absurd hbody (himport _ _ _)
          | _ => rfl
        rw [hexported, List.append_nil]
        refine ⟨hI.of_same hsame.1 hle, ?_, List.forall_mem_nil _, ?_⟩
        · rw [State.inFlight, hsame.1, LedgerLabel.arriving, hzero, State.inFlight]
          omega
        · intro id hid
          rwa [State.Refunded, hsame.1]
  · have hdue : ∀ l ∈ s.dueLocks h, l.exportId ∉ imported := fun l hl =>
      hout _ (List.mem_map_of_mem hl)
    obtain ⟨hlocks, -⟩ := refundExpLocks_view s h
    have hexported : (LedgerLabel.refunded (s.dueLocks h)).exported C = [] := rfl
    rw [hexported, List.append_nil]
    refine ⟨escrowed_refund hI h hdue, ?_, ?_, ?_⟩
    · have hsum := sum_onItsWay_refund imported s.crossShardLocks h
        fun l hl hlock => hdue l (List.mem_filter.mpr ⟨hl, by simpa using hlock⟩)
      rw [State.inFlight, hlocks, LedgerLabel.arriving, State.dueLocks, State.inFlight]
      omega
    · intro id hid
      obtain ⟨l, hl, rfl⟩ := List.mem_map.mp hid
      obtain ⟨hmem, hp⟩ := List.mem_filter.mp hl
      refine ⟨refundedLock h l, ?_, refundedLock_id h l, ?_⟩
      · rw [hlocks]
        exact List.mem_map_of_mem hmem
      · exact (refundedLock_state h l).mpr (Or.inr (by simpa using hp))
    · rintro id ⟨l, hl, rfl, hrefunded⟩
      refine ⟨refundedLock h l, ?_, refundedLock_id h l, ?_⟩
      · rw [hlocks]
        exact List.mem_map_of_mem hl
      · exact (refundedLock_state h l).mpr (Or.inl hrefunded)
  · obtain ⟨hlocks, -, -⟩ := hsame
    have hexported : l.exported C = [] := by
      cases l with
      | applied tx => exact absurd rfl (happlied tx)
      | _ => rfl
    have hnone : l.refundedIds = [] ∧ l.arriving = 0 := by
      cases l with
      | applied tx => exact absurd rfl (happlied tx)
      | refunded locks =>
          obtain rfl := List.map_eq_nil_iff.mp hsettled
          exact ⟨rfl, rfl⟩
      | _ => exact ⟨rfl, rfl⟩
    rw [hexported, List.append_nil, hnone.1]
    refine ⟨hI.of_same hlocks hle, ?_, List.forall_mem_nil _, ?_⟩
    · rw [State.inFlight, hlocks, hnone.2, State.inFlight]
      omega
    · intro id hid
      rwa [State.Refunded, hlocks]

end Source

/-! ## The imports of the target -/

section Target

variable {C : Crypto} {genCfg : GenCfg} {txs : Set SignedTx} {s r r' : State}
  {exports : List SignedTx} {l : LedgerLabel}

/-- The lock of an export that is imported in time is held, and for the amount of the import. -/
theorem Escrowed.lock_of_import {imported : IdSet} (hI : Escrowed C txs s imported exports)
    {tx : SignedTx} {toId : AccountId} {amount : U128} {exportId : Bytes32}
    {expected : ExportProvenance} {insert : Bool} (hbody : tx.body = .importTx toId amount exportId)
    (hcarries : CarriesExport C exports tx) (hlive : lockNotRefunded s exportId)
    (hexpected : expectedExport tx r exportId = .ok (expected, insert))
    (hamount : expected.amount = amount) :
    ∃ lock ∈ s.crossShardLocks, lock.exportId = exportId ∧ lock.state = .locked ∧
      lock.amountPwm.toNat = amount.toNat := by
  obtain ⟨e, he, prov, fee, hid, hexport, hprov⟩ := hcarries toId amount exportId hbody
  obtain ⟨lock, hmem, hlockid, hlockamount⟩ := hI.recorded e he exportId hid
  have hsame : expected = prov := by
    rw [expectedExport, hprov] at hexpected
    cases hknown : r.exportedRegistry[exportId]? with
    | none =>
        simp only [hknown, Except.ok.injEq, Prod.mk.injEq] at hexpected
        exact hexpected.1.symm
    | some existing =>
        simp only [hknown] at hexpected
        split at hexpected
        · cases hexpected
        · rename_i heq
          simp only [Except.ok.injEq, Prod.mk.injEq] at hexpected
          rw [← hexpected.1]
          exact not_not.mp heq
  refine ⟨lock, hmem, hlockid, ?_, ?_⟩
  · -- the lock that is found first for the id is this one
    cases hidx : s.lockIdx exportId with
    | none => exact absurd hlockid (lockIdx_isNone_iff.mp hidx lock hmem)
    | some idx =>
        obtain ⟨found, hfound, hfoundid⟩ := lockIdx_some hidx
        have heq : found = lock := List.inj_on_of_nodup_map hI.ids
          (List.mem_of_getElem? hfound) hmem (hfoundid.trans hlockid.symm)
        rw [lockNotRefunded, hidx, Option.bind_some, hfound, heq] at hlive
        have hkept := hI.kept lock hmem
        cases hstate : lock.state with
        | locked => rfl
        | released => exact absurd hstate hkept
        | refunded => exact absurd (by rw [Option.map_some, hstate]) hlive
  · rw [hlockamount, SignedTx.exportAmount, hexport, ← hamount, hsame]

theorem Escrowed.imported {imported : IdSet} (hI : Escrowed C txs s imported exports)
    {lock : CrossShardLock} (hmem : lock ∈ s.crossShardLocks) (hheld : lock.state = .locked) :
    Escrowed C txs s (imported.insert lock.exportId) exports := by
  refine { hI with apart := ?_ }
  rintro id hid hin
  rcases mem_insert_importedSet.mp hin with rfl | hin
  · obtain ⟨l, hl, hlid, hrefunded⟩ := hid
    obtain rfl := List.inj_on_of_nodup_map hI.ids hl hmem hlid
    rw [hheld] at hrefunded
    cases hrefunded
  · exact hI.apart id hid hin

theorem refundExpLocks_eq_self (h : U64) (hlocks : r.crossShardLocks = []) :
    r.refundExpLocks h = r := by
  rw [State.refundExpLocks, hlocks, List.foldl_nil, ← hlocks]

/-- A step of the target: what arrives was on its way. -/
theorem escrowed_target (hI : Escrowed C txs s r.importedSet exports)
    (hlocks : r.crossShardLocks = []) (hstep : LedgerStep C genCfg r l r')
    (hexports : l.exported C = []) (hcarries : ∀ tx, l = .applied tx → CarriesExport C exports tx)
    (hlive : ∀ id ∈ l.importedIds, lockNotRefunded s id) :
    r'.crossShardLocks = [] ∧ Escrowed C txs s r'.importedSet exports ∧
      s.inFlight r'.importedSet + l.arriving ≤ s.inFlight r.importedSet ∧
      ∀ id ∈ l.importedIds, id ∈ r'.importedSet := by
  rcases step_crossShard hstep with ⟨tx, rfl, heff⟩ | ⟨h, rfl, rfl⟩ | ⟨happlied, hsettled, hsame⟩
  · cases heff with
    | exported hbody hid _ _ _ =>
        rw [LedgerLabel.exported, hid] at hexports
        cases hexports
    | @imported toId amount exportId expected insert hbody hfresh _ hexpected hamount himported _
        hreleased =>
        have hids : (LedgerLabel.applied tx).importedIds = [exportId] := by
          rw [LedgerLabel.importedIds, hbody]
        have harrives : (LedgerLabel.applied tx).arriving = amount.toNat := by
          rw [LedgerLabel.arriving, SignedTx.importAmount, hbody]
        obtain ⟨lock, hmem, rfl, hheld, hlockamount⟩ := hI.lock_of_import hbody
          (hcarries tx rfl) (hlive exportId (hids ▸ List.mem_singleton_self _)) hexpected hamount
        refine ⟨?_, himported ▸ hI.imported hmem hheld, ?_, ?_⟩
        · have hnone : r.lockIdx lock.exportId = none := by
            rw [State.lockIdx, hlocks]
            rfl
          rw [hreleased, hnone, State.releaseLock, hlocks]
        · have hsum := sum_onItsWay_import hmem hheld hfresh
          rw [himported, harrives, State.inFlight, State.inFlight, ← hlockamount]
          exact hsum
        · rw [hids, himported]
          intro id hid
          obtain rfl := List.mem_singleton.mp hid
          exact mem_insert_importedSet.mpr (Or.inl rfl)
    | other hexport himport hsame =>
        have hnone : (LedgerLabel.applied tx).importedIds = [] ∧
            (LedgerLabel.applied tx).arriving = 0 := by
          rw [LedgerLabel.importedIds, LedgerLabel.arriving, SignedTx.importAmount]
          cases hbody : tx.body with
          | importTx toId amount exportId => exact absurd hbody (himport _ _ _)
          | _ => exact ⟨rfl, rfl⟩
        rw [hnone.1, hnone.2, hsame.2.1]
        exact ⟨hsame.1.trans hlocks, hI, le_rfl, List.forall_mem_nil _⟩
  · have hnone : r.dueLocks h = [] := by
      rw [State.dueLocks, hlocks, List.filter_nil]
    rw [refundExpLocks_eq_self h hlocks, hnone]
    exact ⟨hlocks, hI, le_rfl, List.forall_mem_nil _⟩
  · obtain ⟨hkept, himported, -⟩ := hsame
    have hnone : l.importedIds = [] ∧ l.arriving = 0 := by
      cases l with
      | applied tx => exact absurd rfl (happlied tx)
      | refunded locks =>
          obtain rfl := List.map_eq_nil_iff.mp hsettled
          exact ⟨rfl, rfl⟩
      | _ => exact ⟨rfl, rfl⟩
    rw [hnone.1, hnone.2, himported]
    exact ⟨hkept.trans hlocks, hI, le_rfl, List.forall_mem_nil _⟩

end Target

/-! ## The two together -/

/-- The exports of the source are escrowed, and the target has no locks of its own. -/
structure TwoShards.Escrowed (C : Crypto) (txs : Set SignedTx) (t : TwoShards) : Prop where
  source : Pwm.Escrowed C txs t.source.chain.st t.target.chain.st.importedSet t.exports
  target : t.target.chain.st.crossShardLocks = []

def TwoShards.inFlight (t : TwoShards) : Nat :=
  t.source.chain.st.inFlight t.target.chain.st.importedSet

section Run

variable {C : Crypto} {txs : Set SignedTx} {t t' : TwoShards} {act : ShardAct}

variable (C txs) in
theorem TwoShards.Fresh.escrowed (h : t.Fresh) : t.Escrowed C txs ∧ t.inFlight = 0 := by
  obtain ⟨hsource, htarget, _, _, hexports⟩ := h
  refine ⟨⟨⟨?_, ?_, ?_, ?_, ?_⟩, htarget⟩, ?_⟩
  · simp [hsource]
  · simp [hsource]
  · simp [hexports]
  · simp [hsource]
  · simp [State.Refunded, hsource]
  · simp [TwoShards.inFlight, State.inFlight, hsource]

/-- A coordinated step moves what is on its way, and adds what it mints at most. -/
theorem coordinated_step (hI : t.Escrowed C txs) (hC : C.CollisionFree (exportHashInputs C txs))
    (hstep : CoordinatedStep C txs t act t') :
    t'.Escrowed C txs ∧ t'.funds + t'.inFlight ≤ t.funds + t.inFlight + act.minted ∧
      (∀ id ∈ act.credited, id ∈ t'.target.chain.st.importedSet) ∧
      (∀ id ∈ act.refunded, t'.source.chain.st.Refunded id) ∧
      (∀ id ∈ t.target.chain.st.importedSet, id ∈ t'.target.chain.st.importedSet) ∧
      ∀ id, t.source.chain.st.Refunded id → t'.source.chain.st.Refunded id := by
  obtain ⟨hstep, hcoordinated, htxs⟩ := hstep
  cases hstep with
  | @source l minted inn hmoves himports =>
      obtain ⟨_, hledger, hmints⟩ := hmoves
      obtain ⟨hself, hout⟩ := hcoordinated
      obtain ⟨hI', hway, hrefunded, hkept⟩ := escrowed_source hI.source hC hledger
        (fun tx htx => htxs tx minted (htx ▸ rfl)) himports hout
      have hfunds := step_funds hledger hmints hself
      refine ⟨⟨hI', hI.target⟩, ?_, List.forall_mem_nil _, hrefunded, fun _ hid => hid, hkept⟩
      simp only [TwoShards.funds, TwoShards.inFlight, ShardAct.minted]
      omega
  | @target l minted inn hmoves hexports hcarries =>
      obtain ⟨_, hledger, hmints⟩ := hmoves
      obtain ⟨hself, hlive⟩ := hcoordinated
      obtain ⟨hlocks, hI', hway, hcredited⟩ := escrowed_target hI.source hI.target hledger hexports
        hcarries hlive
      have hfunds := step_funds hledger hmints hself
      refine ⟨⟨hI', hlocks⟩, ?_, hcredited, List.forall_mem_nil _,
        fun _ hid => step_importedSet_mono hledger hid, fun _ hid => hid⟩
      simp only [TwoShards.funds, TwoShards.inFlight, ShardAct.minted]
      omega
  | toSource facts =>
      have hchain := Inner.mergeCrossShardFacts_chain t.source facts
      refine ⟨⟨?_, hI.target⟩, ?_, List.forall_mem_nil _, List.forall_mem_nil _, fun _ hid => hid,
        ?_⟩
      · rw [hchain]
        exact hI.source
      · simp only [TwoShards.funds, TwoShards.inFlight, hchain]
        exact Nat.le_add_right _ _
      · rw [hchain]
        exact fun _ hid => hid
  | toTarget facts =>
      have hchain := Inner.mergeCrossShardFacts_chain t.target facts
      refine ⟨⟨?_, ?_⟩, ?_, List.forall_mem_nil _, List.forall_mem_nil _, ?_, fun _ hid => hid⟩
      · rw [hchain]
        exact hI.source
      · rw [hchain]
        exact hI.target
      · simp only [TwoShards.funds, TwoShards.inFlight, hchain]
        exact Nat.le_add_right _ _
      · rw [hchain]
        exact fun _ hid => hid

/-- In every run of coordinated steps from fresh shards, no export id is both credited on the
target and refunded on the source, and the funds of the two grow by what was minted at most. -/
theorem shards_spend_once {t₀ : TwoShards} {acts : List ShardAct}
    (hC : C.CollisionFree (exportHashInputs C txs)) (h₀ : t₀.Fresh)
    (hrun : Run (CoordinatedStep C txs) t₀ acts t) :
    (∀ id ∈ acts.flatMap ShardAct.credited, id ∉ acts.flatMap ShardAct.refunded) ∧
      t.funds ≤ t₀.funds + (acts.map ShardAct.minted).sum := by
  obtain ⟨hstart, hzero⟩ := h₀.escrowed C txs
  have hinv : t.Escrowed C txs ∧
      t.funds + t.inFlight ≤ t₀.funds + (acts.map ShardAct.minted).sum ∧
      (∀ id ∈ acts.flatMap ShardAct.credited, id ∈ t.target.chain.st.importedSet) ∧
      ∀ id ∈ acts.flatMap ShardAct.refunded, t.source.chain.st.Refunded id := by
    refine hrun.history_invariant (I := fun acts t => t.Escrowed C txs ∧
      t.funds + t.inFlight ≤ t₀.funds + (acts.map ShardAct.minted).sum ∧
      (∀ id ∈ acts.flatMap ShardAct.credited, id ∈ t.target.chain.st.importedSet) ∧
      ∀ id ∈ acts.flatMap ShardAct.refunded, t.source.chain.st.Refunded id) ?_ ?_
    · rintro acts t act t' ⟨hI, hfunds, hcredited, hrefunded⟩ hstep
      obtain ⟨hI', hsum, hcredits, hrefunds, himported, hkept⟩ := coordinated_step hI hC hstep
      refine ⟨hI', ?_, ?_, ?_⟩
      · rw [List.map_append, List.sum_append, List.map_singleton, List.sum_singleton]
        omega
      · intro id hid
        rw [List.flatMap_append, List.flatMap_singleton] at hid
        rcases List.mem_append.mp hid with hid | hid
        · exact himported id (hcredited id hid)
        · exact hcredits id hid
      · intro id hid
        rw [List.flatMap_append, List.flatMap_singleton] at hid
        rcases List.mem_append.mp hid with hid | hid
        · exact hkept id (hrefunded id hid)
        · exact hrefunds id hid
    · refine ⟨hstart, ?_, List.forall_mem_nil _, List.forall_mem_nil _⟩
      rw [hzero]
      exact le_rfl
  obtain ⟨hI, hfunds, hcredited, hrefunded⟩ := hinv
  constructor
  · intro id hcredit hrefund
    exact hI.source.apart id (hrefunded id hrefund) (hcredited id hcredit)
  · omega

end Run

/-! ## A refund that comes after the import -/

namespace LateRefund

open EarlyImport

/-- A lock is due at the height after its own. -/
def shortNet : GenCfg := { net with xshardLockToBlocks := 1#64 }

def node : Inner where
  chain :=
    { cfg := shortNet
      valSks := [devNetSk]
      blocks := []
      canonicalH := 0#64
      st := shortNet.state0
      sealTimeMode := .wallClock }

def exported : State :=
  endState (applyTxWithCtx crypto node.chain.cfg exportTx 1#64 0#64 node.chain.st)
def imported : State :=
  endState (applyTxWithCtx crypto node.chain.cfg importTx 1#64 0#64 node.chain.st)

/-- The fact of the import as the target reports it. -/
def importFact : CrossShardFact where
  exportId := exportId
  sourceDomainHi := 0x32#8
  targetDomainHi := 0x9f#8
  amount := 500#128
  status := .imported
  firstHeight := 1#64
  lastHeight := 1#64
  source := some devNetRow.acct
  toId := importerRow.acct

def start : TwoShards := { source := node, target := node }

def afterExport : TwoShards :=
  { start with
    source := node.withSt exported
    exports := start.exports ++ (LedgerLabel.applied exportTx).exported crypto }

def afterImport : TwoShards := { afterExport with target := node.withSt imported }

/-- The source knows of the import. -/
def afterFact : TwoShards :=
  { afterImport with source := (afterImport.source.mergeCrossShardFacts [importFact]).1 }

def afterRefund : TwoShards :=
  { afterFact with source := node.withSt (exported.refundExpLocks 2#64) }

def handOff : List ShardAct :=
  [.source (.applied exportTx) (exportTx.claimAmount node.chain.cfg),
    .target (.applied importTx) (importTx.claimAmount node.chain.cfg), .facts]

def timedOut : List ShardAct :=
  handOff ++ [.source (.refunded (exported.dueLocks 2#64)) 0]

theorem applied_export :
    applyTxWithCtx crypto node.chain.cfg exportTx 1#64 0#64 node.chain.st = .ok () exported := by
  decide +kernel

theorem applied_import :
    applyTxWithCtx crypto node.chain.cfg importTx 1#64 0#64 node.chain.st = .ok () imported := by
  decide +kernel

theorem exported_id : exportTx.exportId crypto = some exportId := by
  decide

theorem step_export : ShardStep crypto start
    (.source (.applied exportTx) (exportTx.claimAmount node.chain.cfg)) afterExport := by
  have himports : (LedgerLabel.applied exportTx).importedIds = [] := rfl
  exact .source (Inner.ledgerMoves_withSt (.applied applied_export) (.applied _ _ _)) himports

theorem step_import : ShardStep crypto afterExport
    (.target (.applied importTx) (importTx.claimAmount node.chain.cfg)) afterImport := by
  have hexported : (LedgerLabel.applied exportTx).exported crypto = [exportTx] := by
    rw [LedgerLabel.exported, exported_id]
    rfl
  have hnone : (LedgerLabel.applied importTx).exported crypto = [] := rfl
  refine .target (Inner.ledgerMoves_withSt (.applied applied_import) (.applied _ _ _)) hnone ?_
  intro tx htx toId amount id hbody
  cases htx
  cases hbody
  refine ⟨exportTx, ?_, ⟨importerRow.acct, 0x9f9d#16, 500#128⟩, 1#128, exported_id, rfl, rfl⟩
  exact List.mem_append_right _ (hexported ▸ List.mem_singleton_self _)

theorem step_fact : ShardStep crypto afterImport .facts afterFact :=
  .toSource afterImport [importFact]

theorem step_refund : ShardStep crypto afterFact
    (.source (.refunded (exported.dueLocks 2#64)) 0) afterRefund := by
  have hchain : afterFact.source.chain = (node.withSt exported).chain :=
    Inner.mergeCrossShardFacts_chain afterImport.source [importFact]
  have hmoves : afterFact.source.LedgerMoves crypto (.refunded (exported.dueLocks 2#64)) 0
      (node.withSt (exported.refundExpLocks 2#64)) := by
    simp only [Inner.LedgerMoves, hchain, Inner.withSt_st, Inner.withSt_cfg, true_and]
    exact ⟨.refunded exported 2#64, .nothing (by simp) (by simp)⟩
  have himports : (LedgerLabel.refunded (exported.dueLocks 2#64)).importedIds = [] := rfl
  have hexports : afterFact.exports ++
      (LedgerLabel.refunded (exported.dueLocks 2#64)).exported crypto = afterFact.exports :=
    List.append_nil _
  have hstep := ShardStep.source hmoves himports
  rw [hexports] at hstep
  exact hstep

theorem start_fresh : start.Fresh := by
  refine ⟨?_, ?_, ?_, ?_, rfl⟩ <;> decide

/-- The signing message of the export and the bytes of its id have different hashes. -/
theorem collisionFree : crypto.CollisionFree (exportHashInputs crypto {exportTx}) := by
  have hinputs : ∀ bytes ∈ exportHashInputs crypto {exportTx},
      bytes = exportTx.signingMessage ∨ bytes = exportTx.exportIdBytes crypto := by
    rintro bytes ⟨tx, rfl, _, hbytes⟩
    exact hbytes
  have hne : crypto.blake3 exportTx.signingMessage ≠
      crypto.blake3 (exportTx.exportIdBytes crypto) := by
    decide
  intro a ha b hb hab
  rcases hinputs a ha with rfl | rfl <;> rcases hinputs b hb with rfl | rfl
  · rfl
  · exact absurd hab hne
  · exact absurd hab.symm hne
  · rfl

end LateRefund

/-- The export is imported on the target, the source is told so, and its timeout refunds the
sender all the same: the funds grow, and nothing was minted. -/
theorem lateRefund_spends_twice :
    LateRefund.start.Fresh ∧
      Run (ShardStep EarlyImport.crypto) LateRefund.start LateRefund.timedOut
        LateRefund.afterRefund ∧
      EarlyImport.exportId ∈ LateRefund.timedOut.flatMap ShardAct.credited ∧
      EarlyImport.exportId ∈ LateRefund.timedOut.flatMap ShardAct.refunded ∧
      ¬ LateRefund.afterRefund.funds ≤
        LateRefund.start.funds + (LateRefund.timedOut.map ShardAct.minted).sum := by
  have hhandOff := (((Run.nil _).snoc LateRefund.step_export).snoc
    LateRefund.step_import).snoc LateRefund.step_fact
  refine ⟨LateRefund.start_fresh, hhandOff.snoc LateRefund.step_refund, ?_, ?_, ?_⟩
  · decide
  · decide +kernel
  · decide +kernel

/-- An export and its import in time: nothing is spent twice. -/
theorem shards_spend_once_handOff :
    (∀ id ∈ LateRefund.handOff.flatMap ShardAct.credited,
        id ∉ LateRefund.handOff.flatMap ShardAct.refunded) ∧
      LateRefund.afterFact.funds ≤
        LateRefund.start.funds + (LateRefund.handOff.map ShardAct.minted).sum := by
  have hexport : CoordinatedStep EarlyImport.crypto {EarlyImport.exportTx} LateRefund.start
      (.source (.applied EarlyImport.exportTx)
        (EarlyImport.exportTx.claimAmount LateRefund.node.chain.cfg)) LateRefund.afterExport := by
    refine ⟨LateRefund.step_export, ⟨trivial, List.forall_mem_nil _⟩, ?_⟩
    intro tx minted hact
    cases hact
    exact Set.mem_singleton _
  have himport : CoordinatedStep EarlyImport.crypto {EarlyImport.exportTx} LateRefund.afterExport
      (.target (.applied EarlyImport.importTx)
        (EarlyImport.importTx.claimAmount LateRefund.node.chain.cfg)) LateRefund.afterImport := by
    refine ⟨LateRefund.step_import, ⟨trivial, ?_⟩, ?_⟩
    · intro id hid
      obtain rfl := List.mem_singleton.mp hid
      unfold lockNotRefunded
      decide +kernel
    · intro tx minted hact
      cases hact
  have hfact : CoordinatedStep EarlyImport.crypto {EarlyImport.exportTx} LateRefund.afterImport
      .facts LateRefund.afterFact := by
    refine ⟨LateRefund.step_fact, trivial, ?_⟩
    intro tx minted hact
    cases hact
  exact shards_spend_once LateRefund.collisionFree LateRefund.start_fresh
    ((((Run.nil _).snoc hexport).snoc himport).snoc hfact)

end Pwm
