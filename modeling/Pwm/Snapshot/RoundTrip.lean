import Pwm.Node.LedgerFacts
import Pwm.Snapshot.Wire

/-!
# What a snapshot keeps

Every part of a snapshot is read back from what was written for it, except the
account rows: on the way back they pass through an older written form that has
no place for deferred policies and for the claimed phase.
-/

namespace Pwm

open Attempt RowTable

/-! ## Transactions and blocks -/

section Blocks

variable (path : String)

@[simp] theorem policyActionFromV2_toV2 (value : PolicyAction) :
    policyActionFromV2 (policyActionToV2 value) path = .ok value := by
  cases value with
  | setPolicy policy activation => simp [policyActionToV2, policyActionFromV2, except_bind_ok_iff]
  | activatePolicy policyId activationTarget =>
      simp [policyActionToV2, policyActionFromV2, except_bind_ok_iff, readOption_roundtrip]
  | deactivatePolicy policyId => rfl

@[simp] theorem initPolicyFromV2_toV2 (row : InitPolicyEntry) :
    initPolicyFromV2 (initPolicyToV2 row) path = .ok row := by
  simp [initPolicyToV2, initPolicyFromV2, except_bind_ok_iff]

@[simp] theorem initV4FromV2_toV2 (value : InitV4Extension) :
    initV4FromV2 (initV4ToV2 value) path = .ok value := by
  have hcosign : (value.cosignPolicy.map fun x => (⟨x.minSigners⟩ : CosignPolicyV2)).map
      (fun x => (⟨x.minSigners⟩ : CosignPolicy)) = value.cosignPolicy := by
    cases value.cosignPolicy <;> rfl
  simp [initV4ToV2, initV4FromV2, except_bind_ok_iff, readOption_roundtrip, readRows_roundtrip,
    hcosign]

@[simp] theorem cosignFromV2_toV2 (value : Cosignature) :
    cosignFromV2 (cosignToV2 value) path = .ok value := by
  simp [cosignToV2, cosignFromV2, except_bind_ok_iff]

@[simp] theorem provFromV2_toV2 (value : ExportProvenance) :
    provFromV2 (provToV2 value) path = .ok value := by
  simp [provToV2, provFromV2, except_bind_ok_iff]

@[simp] theorem bodyFromV2_toV2 (value : TxBody) :
    bodyFromV2 (bodyToV2 value) path = .ok value := by
  cases value <;> simp [bodyToV2, bodyFromV2, except_bind_ok_iff, readOption_roundtrip]

@[simp] theorem txFromV2_toV2 (value : SignedTx) : txFromV2 (txToV2 value) path = .ok value := by
  simp [txToV2, txFromV2, except_bind_ok_iff, readOption_roundtrip, readRows_roundtrip]

@[simp] theorem hdrFromV2_toV2 (value : BlockHdr) :
    hdrFromV2 (hdrToV2 value) path = .ok value := by
  simp [hdrToV2, hdrFromV2, except_bind_ok_iff]

@[simp] theorem blockFromV2_toV2 (value : Block) :
    blockFromV2 (blockToV2 value) path = .ok value := by
  simp [blockToV2, blockFromV2, except_bind_ok_iff, readRows_roundtrip]

end Blocks

/-! ## Accounts and the state -/

/-- A row without what the older written form leaves out. -/
def Account.throughWire (acc : Account) : Account :=
  { acc with deferredPolicies := [], ipv4ClaimedPhase := none }

theorem Account.throughWire_eq_self_iff {acc : Account} :
    acc.throughWire = acc ↔ acc.deferredPolicies = [] ∧ acc.ipv4ClaimedPhase = none := by
  constructor
  · intro h
    exact ⟨(congrArg Account.deferredPolicies h).symm, (congrArg Account.ipv4ClaimedPhase h).symm⟩
  · rintro ⟨hdeferred, hphase⟩
    rw [Account.throughWire, ← hdeferred, ← hphase]

@[simp] theorem SnapshotAccountWire.toAccount_ofAccount (acc : Account) :
    (SnapshotAccountWire.ofAccount acc).toAccount = acc.throughWire := by
  simp [SnapshotAccountWire.ofAccount, SnapshotAccountWire.toAccount, Account.throughWire]

/-- The rows of a state without what their older written form leaves out. -/
def State.throughWire (st : State) : State :=
  { st with accounts := st.accounts.map fun _ acc => acc.throughWire }

theorem State.throughWire_eq_self_iff {st : State} :
    st.throughWire = st ↔ ∀ (id : AccountId) (acc : Account), st.accounts[id]? = some acc →
      acc.deferredPolicies = [] ∧ acc.ipv4ClaimedPhase = none := by
  constructor
  · intro h id acc hacc
    have hrow : st.throughWire.accounts[id]? = st.accounts[id]? := by rw [h]
    rw [State.throughWire, Std.ExtTreeMap.getElem?_map, hacc] at hrow
    exact Account.throughWire_eq_self_iff.mp (Option.some.inj hrow)
  · intro h
    have haccounts : (st.accounts.map fun _ acc => acc.throughWire) = st.accounts := by
      refine Std.ExtTreeMap.ext_getElem? fun {id} => ?_
      rw [Std.ExtTreeMap.getElem?_map]
      cases hacc : st.accounts[id]? with
      | none => rfl
      | some acc =>
          rw [Option.map_some, Account.throughWire_eq_self_iff.mpr (h id acc hacc)]
    rw [State.throughWire, haccounts]

section State

variable (path : String)

@[simp] theorem accountFromV3_toV3 (value : Account) :
    accountFromV3 (accountToV3 value) path = .ok value := by
  simp [accountToV3, accountFromV3, except_bind_ok_iff, readOption_roundtrip]

@[simp] theorem exportRowFromV2_toV2 (exportId : Bytes32) (row : ExportProvenance) :
    exportRowFromV2 (exportRowToV2 exportId row) path =
      .ok ⟨exportId, row.toId, row.targetDomain, row.amount⟩ := by
  simp [exportRowToV2, exportRowFromV2, except_bind_ok_iff]

theorem stateRowFromV3_toV3 (id : AccountId) (acc : Account) :
    stateRowFromV3 ⟨hexOf 32 id, accountToV3 acc⟩ path = .ok ⟨id, .ofAccount acc⟩ := by
  simp [stateRowFromV3, except_bind_ok_iff]

theorem readRows_accounts (m : AccountMap) :
    readRows (fun i row => stateRowFromV3 row (rowPath path i))
        (m.toList.map fun p => SnapshotStateRowV3.mk (hexOf 32 p.1) (accountToV3 p.2)) =
      .ok (m.toList.map fun p => SnapshotStateRow.mk p.1 (.ofAccount p.2)) :=
  readRows_map fun p _ i => stateRowFromV3_toV3 (rowPath path i) p.1 p.2

theorem readRows_exports (m : ExportRegistry) :
    readRows (fun i row => exportRowFromV2 row (rowPath path i))
        (m.toList.map fun p => exportRowToV2 p.1 p.2) =
      .ok (m.toList.map fun p =>
        SnapshotExportRow.mk p.1 p.2.toId p.2.targetDomain p.2.amount) := by
  refine readRows_map ?_
  intro p _ i
  exact exportRowFromV2_toV2 (rowPath path i) p.1 p.2

theorem readRows_imported (s : IdSet) :
    readRows (fun i id => hexV2 32 id (rowPath path i)) (s.toList.map (hexOf 32)) =
      .ok s.toList := by
  refine readRows_roundtrip ?_ s.toList
  intro id i
  exact hexV2_hexOf 32 id (rowPath path i)

/-- The maps of a state are built again from their rows. -/
theorem stateFromWire_rows (value : State) :
    stateFromWire
        { accounts := value.accounts.toList.map fun p => ⟨p.1, .ofAccount p.2⟩
          feePool := value.feePool
          importedSet := value.importedSet.toList
          exportedRegistry := value.exportedRegistry.toList.map fun p =>
            ⟨p.1, p.2.toId, p.2.targetDomain, p.2.amount⟩
          epochCounter := 0#64
          activeValidatorIndices := []
          crossShardLocks := []
          evidenceLog := []
          pendingConservation := [] } =
      .ok
        { accounts := value.throughWire.accounts, feePool := value.feePool,
          importedSet := value.importedSet, exportedRegistry := value.exportedRegistry } := by
  simp only [stateFromWire, except_bind_ok_iff, List.map_map, Function.comp_def,
    SnapshotAccountWire.toAccount_ofAccount]
  have hregistry : (value.exportedRegistry.toList.map fun p =>
      (p.1, ExportProvenance.mk p.2.toId p.2.targetDomain p.2.amount)) =
        value.exportedRegistry.toList :=
    List.map_id _
  rw [hregistry]
  exact ⟨_, keyedMap_map _ value.accounts Account.throughWire, _,
    keySet_toList _ value.importedSet, _, keyedMap_toList _ value.exportedRegistry, rfl⟩

/-- A state is read back with each of its rows through the older written form. -/
@[simp] theorem stateFromV4_toV4 (value : State) :
    stateFromV4 (stateToV4 value) path = .ok value.throughWire := by
  simp only [stateFromV4, stateFromV3, stateToV4, except_bind_ok_iff, mapError_ok_iff]
  exact ⟨_, ⟨_, readRows_accounts _ _, _, decV2_decOf _ _, _, readRows_imported _ _, _,
    readRows_exports _ _, stateFromWire_rows value⟩, rfl⟩

end State

/-! ## Roaming rows and the anchor -/

@[simp] theorem intentFromV2_toV2 (row : SnapshotIntentRow) (path : String) :
    intentFromV2 (intentToV2 row) path = .ok row := by
  simp [intentToV2, intentFromV2, except_bind_ok_iff]

@[simp] theorem intentLockFromV2_toV2 (row : SnapshotIntentLockRow) (path : String) :
    intentLockFromV2 (intentLockToV2 row) path = .ok row := by
  simp [intentLockToV2, intentLockFromV2, except_bind_ok_iff]

@[simp] theorem roamingFromV2_toV2 (value : SnapshotRoamingWire) :
    roamingFromV2 (roamingToV2 value) = .ok value := by
  simp [roamingToV2, roamingFromV2, except_bind_ok_iff, readRows_roundtrip]

@[simp] theorem factFromV2_toV2 (fact : CrossShardFact) (path : String) :
    factFromV2 (factToV2 fact) path = .ok fact := by
  simp [factToV2, factFromV2, except_bind_ok_iff, readOption_roundtrip]

@[simp] theorem genesisRowFromV2_toV2 (row : SnapshotGenesisRow) (path : String) :
    genesisRowFromV2 (genesisRowToV2 row) path = .ok row := by
  simp [genesisRowToV2, genesisRowFromV2, except_bind_ok_iff]

@[simp] theorem anchorFromV3_toV3 (value : SnapshotGenAnchor) :
    anchorFromV3 (anchorToV3 value) = .ok value := by
  simp [anchorToV3, anchorFromV3, except_bind_ok_iff]

/-! ## The ledger of cross-shard facts -/

namespace CrossShardLedger

/-- The facts of a ledger written one after another to an empty one. -/
def rebuilt (l : CrossShardLedger) : CrossShardLedger :=
  (l.facts.toList.map Prod.snd).foldl (fun ledger fact => (ledger.upsert fact).1) {}

/-- New facts are all kept while there is room for them. -/
theorem foldl_upsert_of_build {dup : Bytes32 → String} {facts : List CrossShardFact}
    {m m' : FactMap}
    (hbuild : buildFrom dup m (facts.map fun fact => (fact.exportId, fact)) = .ok m')
    (hroom : m.size + facts.length ≤ factCap) :
    facts.foldl (fun (ledger : CrossShardLedger) fact => (ledger.upsert fact).1) ⟨m⟩ = ⟨m'⟩ := by
  induction facts generalizing m with
  | nil => rw [← Except.ok.inj hbuild]; rfl
  | cons fact rest ih =>
      rw [List.map_cons, buildFrom] at hbuild
      rw [List.length_cons] at hroom
      split at hbuild
      · cases hbuild
      · rename_i hnew
        have hsize : (m.insert fact.exportId fact).size = m.size + 1 := by
          rw [Std.ExtTreeMap.size_insert, if_neg (by rwa [Std.ExtTreeMap.contains_iff_mem])]
        have hupsert : ((⟨m⟩ : CrossShardLedger).upsert fact).1 =
            ⟨m.insert fact.exportId fact⟩ := by
          simp only [upsert, Std.ExtTreeMap.getElem?_eq_none hnew]
          rw [evict_of_le (by omega)]
        rw [List.foldl_cons, hupsert]
        exact ih hbuild (by omega)

theorem rebuilt_fits (l : CrossShardLedger) :
    Keyed l.rebuilt.facts ∧ l.rebuilt.facts.size ≤ factCap := by
  have hfold : ∀ (facts : List CrossShardFact) (ledger : CrossShardLedger),
      Keyed ledger.facts ∧ ledger.facts.size ≤ factCap →
        let built := facts.foldl
          (fun (ledger : CrossShardLedger) fact => (ledger.upsert fact).1) ledger
        Keyed built.facts ∧ built.facts.size ≤ factCap := by
    intro facts
    induction facts with
    | nil => exact fun _ h => h
    | cons fact rest ih => exact fun ledger h => ih _ (upsert_fits fact h)
  refine hfold _ {} ⟨fun id fact h => ?_, by simp [factCap]⟩
  simp at h

/-- A ledger is rebuilt from its facts when they are under their own ids and within the cap. -/
theorem rebuilt_eq_self_iff {l : CrossShardLedger} :
    l.rebuilt = l ↔ Keyed l.facts ∧ l.facts.size ≤ factCap := by
  constructor
  · intro h
    rw [← h]
    exact rebuilt_fits l
  · rintro ⟨hkeyed, hsize⟩
    have hrows : ((l.facts.toList.map Prod.snd).map fun fact => (fact.exportId, fact)) =
        l.facts.toList := by
      rw [List.map_map]
      refine (List.map_congr_left fun p hp => ?_).trans (List.map_id _)
      have hfact := Std.ExtTreeMap.mem_toList_iff_getElem?_eq_some.mp hp
      exact Prod.ext (hkeyed p.1 p.2 hfact) rfl
    have hbuild : buildFrom (fun _ => "") ∅
        ((l.facts.toList.map Prod.snd).map fun fact => (fact.exportId, fact)) = .ok l.facts := by
      rw [hrows]
      exact keyedMap_toList _ l.facts
    refine foldl_upsert_of_build hbuild ?_
    rw [List.length_map, Std.ExtTreeMap.length_toList, Std.ExtTreeMap.size_empty, Nat.zero_add]
    exact hsize

end CrossShardLedger

@[simp] theorem crossShardFromV2_toV2 (value : CrossShardLedger) :
    crossShardFromV2 (crossShardToV2 value) = .ok value.rebuilt := by
  have hfacts : readRows (fun i row => factFromV2 row (rowPath "cross_shard.facts" i))
      (value.facts.toList.map fun p => factToV2 p.2) = .ok (value.facts.toList.map Prod.snd) :=
    readRows_map fun p _ i => factFromV2_toV2 p.2 (rowPath "cross_shard.facts" i)
  simp only [crossShardFromV2, crossShardToV2, except_bind_ok_iff]
  exact ⟨_, hfacts, rfl⟩

/-! ## The whole snapshot -/

/-- No row of the state has something that the older written form leaves out. -/
def State.NothingLeftOut (st : State) : Prop :=
  ∀ (id : AccountId) (acc : Account), st.accounts[id]? = some acc →
    acc.deferredPolicies = [] ∧ acc.ipv4ClaimedPhase = none

/-- The snapshot of this version, its rows complete in the older written form and its facts under
their own ids and within the cap. -/
structure SnapshotData.Kept (data : SnapshotData) : Prop where
  version : data.version = snapshotVersion
  accounts : data.state.NothingLeftOut
  keyed : CrossShardLedger.Keyed data.crossShard.facts
  capacity : data.crossShard.facts.size ≤ factCap

/-- What is read back from a written snapshot. -/
def SnapshotData.throughWire (data : SnapshotData) : SnapshotData :=
  { data with
    version := snapshotVersion
    state := data.state.throughWire
    crossShard := data.crossShard.rebuilt }

theorem dataFromV4_toV4 (data : SnapshotData) :
    dataFromV4 (dataToV4 data) = .ok data.throughWire := by
  simp [dataToV4, dataFromV4, except_bind_ok_iff, readOption_roundtrip, readRows_roundtrip,
    SnapshotData.throughWire]

theorem SnapshotData.throughWire_eq_self_iff {data : SnapshotData} :
    data.throughWire = data ↔ data.Kept := by
  constructor
  · intro h
    have hrows := State.throughWire_eq_self_iff.mp (congrArg SnapshotData.state h)
    have hfacts := CrossShardLedger.rebuilt_eq_self_iff.mp (congrArg SnapshotData.crossShard h)
    exact ⟨(congrArg SnapshotData.version h).symm, hrows, hfacts.1, hfacts.2⟩
  · rintro ⟨hversion, hrows, hkeyed, hsize⟩
    rw [SnapshotData.throughWire, ← hversion, State.throughWire_eq_self_iff.mpr hrows,
      CrossShardLedger.rebuilt_eq_self_iff.mpr ⟨hkeyed, hsize⟩]

/-- A snapshot is read back as it was written exactly when it is of this version, no account has
deferred policies or a claimed phase, and the facts are under their own ids and within the cap. The
state alone comes back, and with it the digest, exactly when the accounts are so. -/
theorem snapshot_roundtrip_iff (data : SnapshotData) :
    (dataFromV4 (dataToV4 data) = .ok data ↔ data.Kept) ∧
      ∃ back, dataFromV4 (dataToV4 data) = .ok back ∧
        (back.state = data.state ↔ data.state.NothingLeftOut) ∧
        (data.state.NothingLeftOut → ∀ C, digest C back.state = digest C data.state) := by
  rw [dataFromV4_toV4, Except.ok.injEq]
  refine ⟨SnapshotData.throughWire_eq_self_iff, data.throughWire, rfl,
    State.throughWire_eq_self_iff, fun hrows C => ?_⟩
  have hstate : data.throughWire.state = data.state := State.throughWire_eq_self_iff.mpr hrows
  rw [hstate]

/-- A snapshot with one account that has claimed its phase. -/
def claimedSnapshot : SnapshotData where
  version := snapshotVersion
  genesisAccounts := []
  blocks := []
  state := { accounts := (∅ : AccountMap).insert 7#256 { ipv4ClaimedPhase := some 1#8 } }

/-- The claimed phase of an account is not read back. -/
theorem snapshot_roundtrip_claimed :
    claimedSnapshot.version = snapshotVersion ∧
      claimedSnapshot.crossShard.facts.size ≤ factCap ∧
      dataFromV4 (dataToV4 claimedSnapshot) ≠ .ok claimedSnapshot := by
  refine ⟨rfl, by decide, fun h => ?_⟩
  rw [dataFromV4_toV4, Except.ok.injEq] at h
  have hrows := (SnapshotData.throughWire_eq_self_iff.mp h).accounts 7#256
    { ipv4ClaimedPhase := some 1#8 } Std.ExtTreeMap.getElem?_insert_self
  exact absurd hrows.2 (by decide)

end Pwm
