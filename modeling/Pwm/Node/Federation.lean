import Pwm.Node.PeerWire

/-!
# The federation table

What a node knows of the heights of other shards, one row a shard. Rows come
with hellos, with trusted heartbeats and the rows that these relay, and from
the node itself. The height of a shard is always the greatest that was merged.
Its time is not: a higher row brings its own time, which may be an earlier one.
-/

namespace Pwm

open Digits

/-! ## Rows and tables -/

inductive FedRowSource
  | hello
  | heartbeat
  | status
  /-- The row arrived inside the heartbeat of a trusted peer. -/
  | gossip
  deriving DecidableEq

structure FedShardRow where
  shardId : String
  latestHeight : U64
  lastSeenUnixMs : U64
  source : FedRowSource
  sourceNodeId : String
  deriving DecidableEq

abbrev FederationTable := String → Option FedShardRow

/-- The row of a shard after another row of the shard came in. -/
def FedShardRow.merge (cur incoming : FedShardRow) : FedShardRow :=
  if cur.latestHeight < incoming.latestHeight then incoming
  else if incoming.latestHeight = cur.latestHeight then
    if cur.lastSeenUnixMs < incoming.lastSeenUnixMs then
      { cur with
        lastSeenUnixMs := incoming.lastSeenUnixMs
        source := incoming.source
        sourceNodeId := incoming.sourceNodeId }
    else cur
  else
    { cur with
      lastSeenUnixMs :=
        if incoming.lastSeenUnixMs < cur.lastSeenUnixMs then cur.lastSeenUnixMs
        else incoming.lastSeenUnixMs
      source := incoming.source
      sourceNodeId := incoming.sourceNodeId }

namespace FederationTable

def empty : FederationTable := fun _ => none

def mergeRow (table : FederationTable) (incoming : FedShardRow) : FederationTable :=
  Function.update table incoming.shardId
    (some (match table incoming.shardId with
      | none => incoming
      | some cur => cur.merge incoming))

/-- Rows merged one after the other. -/
def mergeRows (table : FederationTable) (rows : List FedShardRow) : FederationTable :=
  rows.foldl mergeRow table

theorem mergeRows_append (table : FederationTable) (rows more : List FedShardRow) :
    table.mergeRows (rows ++ more) = (table.mergeRows rows).mergeRows more :=
  List.foldl_append

theorem mergeRows_concat (table : FederationTable) (rows : List FedShardRow) (r : FedShardRow) :
    table.mergeRows (rows ++ [r]) = (table.mergeRows rows).mergeRow r :=
  mergeRows_append table rows [r]

end FederationTable

/-! ## Where rows come from -/

def gossipInboundMaxRows : Nat := 64
def gossipShardIdMax : Nat := 128
def gossipNodeIdMax : Nat := 256

/-- The bounds on the names in a relayed row. -/
def FedGossipWireRow.Admitted (r : FedGossipWireRow) : Prop :=
  r.shardId ≠ "" ∧ r.shardId.utf8ByteSize ≤ gossipShardIdMax ∧
    r.sourceNodeId.utf8ByteSize ≤ gossipNodeIdMax

instance (r : FedGossipWireRow) : Decidable r.Admitted :=
  inferInstanceAs (Decidable (_ ∧ _ ∧ _))

def FedGossipWireRow.toFedShardRow (r : FedGossipWireRow) : FedShardRow where
  shardId := r.shardId
  latestHeight := r.latestHeight
  lastSeenUnixMs := r.lastSeenUnixMs
  source := .gossip
  sourceNodeId := r.sourceNodeId

def mergeGossipRows (table : FederationTable) (rows : List FedGossipWireRow) : FederationTable :=
  (rows.take gossipInboundMaxRows).foldl
    (fun table r => if r.Admitted then table.mergeRow r.toFedShardRow else table) table

/-- The name of a shard that did not give one. -/
def fallbackShardKey (hello : NodeHello) : String :=
  hello.clusterId ++ ":0x" ++ String.ofList (hexDigits [hello.domainHi])

/-- The row that a hello with a tip height brings. -/
def helloRow (hello : NodeHello) (height nowMs : U64) : FedShardRow where
  shardId := hello.federationShardId.getD (fallbackShardKey hello)
  latestHeight := height
  lastSeenUnixMs := nowMs
  source := .hello
  sourceNodeId := hello.nodeId

def mergeRemoteHello (table : FederationTable) (hello : NodeHello) (nowMs : U64) :
    FederationTable :=
  match hello.chainTipHeight with
  | none => table
  | some height => table.mergeRow (helloRow hello height nowMs)

/-- The row that a heartbeat with a tip height brings. -/
def heartbeatRow (remoteHello : NodeHello) (remoteNodeId : String)
    (federationShardId : Option String) (height observedMs : U64) : FedShardRow where
  shardId := (federationShardId.or remoteHello.federationShardId).getD
    (fallbackShardKey remoteHello)
  latestHeight := height
  lastSeenUnixMs := observedMs
  source := .heartbeat
  sourceNodeId := remoteNodeId

def mergeRemoteHb (table : FederationTable) (trusted : Bool) (remoteHello : NodeHello)
    (remoteNodeId : String) (observedMs : U64) (chainTipHeight : Option U64)
    (federationShardId : Option String) (federationGossip : Option (List FedGossipWireRow)) :
    FederationTable :=
  if trusted then
    let table := mergeGossipRows table (federationGossip.getD [])
    match chainTipHeight with
    | none => table
    | some height =>
        table.mergeRow (heartbeatRow remoteHello remoteNodeId federationShardId height observedMs)
  else table

/-- The row of the node's own shard, by its label and its tip. -/
def statusRow (shardLbl : String) (tip : U64) (nodeId : String) (nowMs : U64) : FedShardRow where
  shardId := shardLbl
  latestHeight := tip
  lastSeenUnixMs := nowMs
  source := .status
  sourceNodeId := nodeId

def mergeLocalStatus (table : FederationTable) (shardLbl : String) (tip : U64) (nodeId : String)
    (nowMs : U64) : FederationTable :=
  table.mergeRow (statusRow shardLbl tip nodeId nowMs)

/-- What makes a node merge rows. -/
inductive FedEvent
  | hello (remote : NodeHello) (nowMs : U64)
  | heartbeat (trusted : Bool) (remoteHello : NodeHello) (remoteNodeId : String) (observedMs : U64)
      (chainTipHeight : Option U64) (federationShardId : Option String)
      (federationGossip : Option (List FedGossipWireRow))
  | status (shardLbl : String) (tip : U64) (nodeId : String) (nowMs : U64)

namespace FedEvent

def apply (table : FederationTable) : FedEvent → FederationTable
  | .hello remote nowMs => mergeRemoteHello table remote nowMs
  | .heartbeat trusted remoteHello remoteNodeId observedMs chainTipHeight federationShardId
      federationGossip =>
      mergeRemoteHb table trusted remoteHello remoteNodeId observedMs chainTipHeight
        federationShardId federationGossip
  | .status shardLbl tip nodeId nowMs => mergeLocalStatus table shardLbl tip nodeId nowMs

/-- The rows that an event merges, in order. -/
def rows : FedEvent → List FedShardRow
  | .hello remote nowMs =>
      (remote.chainTipHeight.map fun height => helloRow remote height nowMs).toList
  | .heartbeat trusted remoteHello remoteNodeId observedMs chainTipHeight federationShardId
      federationGossip =>
      if trusted then
        (((federationGossip.getD []).take gossipInboundMaxRows).filter fun r =>
            decide r.Admitted).map FedGossipWireRow.toFedShardRow ++
          (chainTipHeight.map fun height =>
            heartbeatRow remoteHello remoteNodeId federationShardId height observedMs).toList
      else []
  | .status shardLbl tip nodeId nowMs => [statusRow shardLbl tip nodeId nowMs]

end FedEvent

theorem mergeGossipRows_eq (table : FederationTable) (rows : List FedGossipWireRow) :
    mergeGossipRows table rows = table.mergeRows
      (((rows.take gossipInboundMaxRows).filter fun r => decide r.Admitted).map
        FedGossipWireRow.toFedShardRow) := by
  rw [mergeGossipRows, FederationTable.mergeRows, List.foldl_map, List.foldl_filter]
  simp only [decide_eq_true_eq]

/-- An event merges its rows. -/
theorem FedEvent.apply_eq (table : FederationTable) (e : FedEvent) :
    e.apply table = table.mergeRows e.rows := by
  cases e with
  | hello remote nowMs =>
      rw [FedEvent.apply, FedEvent.rows, mergeRemoteHello]
      cases remote.chainTipHeight <;> rfl
  | heartbeat trusted remoteHello remoteNodeId observedMs chainTipHeight federationShardId
      federationGossip =>
      rw [FedEvent.apply, FedEvent.rows, mergeRemoteHb]
      cases trusted with
      | false => rfl
      | true =>
          rw [if_pos rfl, if_pos rfl, mergeGossipRows_eq]
          cases chainTipHeight with
          | none => exact congrArg table.mergeRows (List.append_nil _).symm
          | some height => exact (FederationTable.mergeRows_concat _ _ _).symm
  | status shardLbl tip nodeId nowMs => rfl

/-- A node that went through events holds their rows merged. -/
theorem foldl_apply_eq (table : FederationTable) (events : List FedEvent) :
    events.foldl FedEvent.apply table = table.mergeRows (events.flatMap FedEvent.rows) := by
  induction events generalizing table with
  | nil => rfl
  | cons e events ih =>
      rw [List.foldl_cons, ih, FedEvent.apply_eq, List.flatMap_cons]
      exact (FederationTable.mergeRows_append _ _ _).symm

/-! ## One merge -/

section Merge

variable (cur incoming : FedShardRow)

theorem merge_latestHeight : (cur.merge incoming).latestHeight.toNat =
    max cur.latestHeight.toNat incoming.latestHeight.toNat := by
  unfold FedShardRow.merge
  split
  next hhigher =>
    have hlt : cur.latestHeight.toNat < incoming.latestHeight.toNat := hhigher
    exact (Nat.max_eq_right (by omega)).symm
  next hhigher =>
    have hle : ¬ cur.latestHeight.toNat < incoming.latestHeight.toNat := hhigher
    have hmax : max cur.latestHeight.toNat incoming.latestHeight.toNat = cur.latestHeight.toNat :=
      Nat.max_eq_left (by omega)
    rw [hmax]
    split
    · split <;> rfl
    · rfl

variable {cur incoming}

/-- The greater of two times is kept, unless a higher row has the earlier one. -/
theorem merge_lastSeen (h : cur.latestHeight < incoming.latestHeight →
      cur.lastSeenUnixMs ≤ incoming.lastSeenUnixMs) :
    (cur.merge incoming).lastSeenUnixMs.toNat =
      max cur.lastSeenUnixMs.toNat incoming.lastSeenUnixMs.toNat := by
  unfold FedShardRow.merge
  split
  next hhigher =>
    have hle : cur.lastSeenUnixMs.toNat ≤ incoming.lastSeenUnixMs.toNat := h hhigher
    exact (Nat.max_eq_right hle).symm
  next =>
    split
    · split
      next hlater =>
        have hlt : cur.lastSeenUnixMs.toNat < incoming.lastSeenUnixMs.toNat := hlater
        exact (Nat.max_eq_right hlt.le).symm
      next hlater =>
        have hle : ¬ cur.lastSeenUnixMs.toNat < incoming.lastSeenUnixMs.toNat := hlater
        exact (Nat.max_eq_left (by omega)).symm
    · change (if incoming.lastSeenUnixMs < cur.lastSeenUnixMs then cur.lastSeenUnixMs
        else incoming.lastSeenUnixMs).toNat = _
      split
      next hearlier =>
        have hlt : incoming.lastSeenUnixMs.toNat < cur.lastSeenUnixMs.toNat := hearlier
        exact (Nat.max_eq_left hlt.le).symm
      next hearlier =>
        have hle : ¬ incoming.lastSeenUnixMs.toNat < cur.lastSeenUnixMs.toNat := hearlier
        exact (Nat.max_eq_right (by omega)).symm

end Merge

/-! ## The greatest values of a shard -/

/-- The values that rows of a shard have in a field. -/
def shardValues (f : FedShardRow → U64) (rows : Multiset FedShardRow) (shard : String) : Set Nat :=
  {n | ∃ r ∈ rows, r.shardId = shard ∧ (f r).toNat = n}

/-- A field of each row of the table is the greatest among the merged rows of its shard. -/
def Greatest (f : FedShardRow → U64) (rows : Multiset FedShardRow) (table : FederationTable) :
    Prop :=
  ∀ shard row, table shard = some row → IsGreatest (shardValues f rows shard) (f row).toNat

/-- The table has a row for the shards of the merged rows, and no others. -/
def Known (rows : Multiset FedShardRow) (table : FederationTable) : Prop :=
  ∀ shard, (table shard).isSome ↔ ∃ r ∈ rows, r.shardId = shard

section Values

variable {f : FedShardRow → U64} {rows : Multiset FedShardRow} {table : FederationTable}
  {r : FedShardRow} {shard : String}

theorem shardValues_same : shardValues f (r ::ₘ rows) r.shardId =
    insert (f r).toNat (shardValues f rows r.shardId) := by
  ext n
  simp only [shardValues, Set.mem_ofPred_eq, Set.mem_insert_iff, Multiset.mem_cons]
  constructor
  · rintro ⟨a, rfl | ha, hshard, rfl⟩
    · exact .inl rfl
    · exact .inr ⟨a, ha, hshard, rfl⟩
  · rintro (rfl | ⟨a, ha, hshard, rfl⟩)
    · exact ⟨r, .inl rfl, rfl, rfl⟩
    · exact ⟨a, .inr ha, hshard, rfl⟩

theorem shardValues_other (hne : r.shardId ≠ shard) :
    shardValues f (r ::ₘ rows) shard = shardValues f rows shard := by
  ext n
  simp only [shardValues, Set.mem_ofPred_eq, Multiset.mem_cons]
  constructor
  · rintro ⟨a, rfl | ha, hshard, rfl⟩
    · exact absurd hshard hne
    · exact ⟨a, ha, hshard, rfl⟩
  · rintro ⟨a, ha, hshard, rfl⟩
    exact ⟨a, .inr ha, hshard, rfl⟩

theorem mergeRow_same : table.mergeRow r r.shardId = some (match table r.shardId with
    | none => r
    | some cur => cur.merge r) :=
  Function.update_self _ _ _

theorem mergeRow_other (hne : r.shardId ≠ shard) : table.mergeRow r shard = table shard :=
  Function.update_of_ne hne.symm _ _

theorem known_empty : Known 0 FederationTable.empty := by
  intro shard
  simp [FederationTable.empty]

theorem Known.mergeRow (h : Known rows table) (r : FedShardRow) :
    Known (r ::ₘ rows) (table.mergeRow r) := by
  intro shard
  by_cases hshard : r.shardId = shard
  · subst hshard
    rw [mergeRow_same]
    exact iff_of_true rfl ⟨r, Multiset.mem_cons_self r rows, rfl⟩
  · rw [mergeRow_other hshard, h shard]
    simp only [Multiset.mem_cons]
    constructor
    · rintro ⟨a, ha, rfl⟩
      exact ⟨a, .inr ha, rfl⟩
    · rintro ⟨a, rfl | ha, heq⟩
      · exact absurd heq hshard
      · exact ⟨a, ha, heq⟩

theorem greatest_empty (f : FedShardRow → U64) : Greatest f 0 FederationTable.empty := by
  intro shard row hrow
  cases hrow

/-- A merge that keeps the greater value keeps the greatest. -/
theorem Greatest.mergeRow (h : Greatest f rows table) (hknown : Known rows table)
    (hmerge : ∀ cur, table r.shardId = some cur →
      (f (cur.merge r)).toNat = max (f cur).toNat (f r).toNat) :
    Greatest f (r ::ₘ rows) (table.mergeRow r) := by
  intro shard row hrow
  by_cases hshard : r.shardId = shard
  · subst hshard
    rw [mergeRow_same] at hrow
    rw [shardValues_same]
    cases hcur : table r.shardId with
    | none =>
        rw [hcur] at hrow
        obtain rfl := Option.some.inj hrow
        have hnone : shardValues f rows r.shardId = ∅ := by
          rw [Set.eq_empty_iff_forall_notMem]
          rintro n ⟨a, ha, heq, -⟩
          have hsome := (hknown r.shardId).mpr ⟨a, ha, heq⟩
          rw [hcur] at hsome
          cases hsome
        rw [hnone, insert_empty_eq]
        exact isGreatest_singleton
    | some cur =>
        rw [hcur] at hrow
        obtain rfl := Option.some.inj hrow
        change IsGreatest _ (f (cur.merge r)).toNat
        rw [hmerge cur hcur, max_comm]
        exact (h r.shardId cur hcur).insert _
  · rw [mergeRow_other hshard] at hrow
    rw [shardValues_other hshard]
    exact h shard row hrow

end Values

/-! ## Merges in any order -/

section Orders

variable {rows : Multiset FedShardRow}

/-- The table of rows merged in this order. -/
def mergedRows (order : List FedShardRow) : FederationTable :=
  FederationTable.empty.mergeRows order

theorem mergedRows_concat (order : List FedShardRow) (r : FedShardRow) :
    mergedRows (order ++ [r]) = (mergedRows order).mergeRow r :=
  FederationTable.mergeRows_concat _ _ _

theorem coe_concat (order : List FedShardRow) (r : FedShardRow) :
    ((order ++ [r] : List FedShardRow) : Multiset FedShardRow) = r ::ₘ ↑order :=
  Multiset.coe_eq_coe.mpr (List.perm_append_singleton r order)

theorem mergedRows_known (order : List FedShardRow) : Known ↑order (mergedRows order) := by
  induction order using List.reverseRecOn with
  | nil => exact known_empty
  | append_singleton order r ih =>
      rw [mergedRows_concat, coe_concat]
      exact ih.mergeRow r

/-- In every order the height of a shard is the greatest that was merged. -/
theorem mergedRows_height (order : List FedShardRow) :
    Greatest FedShardRow.latestHeight ↑order (mergedRows order) := by
  induction order using List.reverseRecOn with
  | nil => exact greatest_empty _
  | append_singleton order r ih =>
      rw [mergedRows_concat, coe_concat]
      exact ih.mergeRow (mergedRows_known order) fun cur _ => merge_latestHeight cur r

/-- Of two rows of a shard, the higher one was not seen earlier. -/
def SeenInOrder (rows : Multiset FedShardRow) : Prop :=
  ∀ a ∈ rows, ∀ b ∈ rows, a.shardId = b.shardId → a.latestHeight < b.latestHeight →
    a.lastSeenUnixMs ≤ b.lastSeenUnixMs

instance (rows : Multiset FedShardRow) : Decidable (SeenInOrder rows) :=
  inferInstanceAs (Decidable (∀ a ∈ rows, ∀ b ∈ rows, _ → _))

theorem SeenInOrder.mono {rows' : Multiset FedShardRow} (h : SeenInOrder rows) (hle : rows' ≤ rows) :
    SeenInOrder rows' :=
  fun a ha b hb => h a (Multiset.mem_of_le hle ha) b (Multiset.mem_of_le hle hb)

/-- A row that goes above the row of its shard was not seen before it. -/
theorem SeenInOrder.stored {table : FederationTable} {r cur : FedShardRow}
    (h : SeenInOrder (r ::ₘ rows)) (hheight : Greatest FedShardRow.latestHeight rows table)
    (hseen : Greatest FedShardRow.lastSeenUnixMs rows table) (hcur : table r.shardId = some cur)
    (hlt : cur.latestHeight < r.latestHeight) : cur.lastSeenUnixMs ≤ r.lastSeenUnixMs := by
  -- the time of the stored row came with some row, which is no higher than the stored one
  obtain ⟨a, ha, hshard, htime⟩ := (hseen r.shardId cur hcur).1
  have hheight' : a.latestHeight.toNat ≤ cur.latestHeight.toNat :=
    (hheight r.shardId cur hcur).2 ⟨a, ha, hshard, rfl⟩
  have hlt' : cur.latestHeight.toNat < r.latestHeight.toNat := hlt
  have hle : a.lastSeenUnixMs.toNat ≤ r.lastSeenUnixMs.toNat :=
    h a (Multiset.mem_cons_of_mem ha) r (Multiset.mem_cons_self r rows) hshard
      (show a.latestHeight.toNat < r.latestHeight.toNat by omega)
  change cur.lastSeenUnixMs.toNat ≤ r.lastSeenUnixMs.toNat
  omega

theorem mergedRows_seen (order : List FedShardRow) (h : SeenInOrder ↑order) :
    Greatest FedShardRow.lastSeenUnixMs ↑order (mergedRows order) := by
  induction order using List.reverseRecOn with
  | nil => exact greatest_empty _
  | append_singleton order r ih =>
      rw [coe_concat] at h
      have hseen := ih (h.mono (Multiset.le_cons_self _ _))
      rw [mergedRows_concat, coe_concat]
      refine hseen.mergeRow (mergedRows_known order) fun cur hcur => ?_
      exact merge_lastSeen (h.stored (mergedRows_height order) hseen hcur)

/-- Each shard has the greatest height and the greatest time of its rows. -/
structure Newest (rows : Multiset FedShardRow) (table : FederationTable) : Prop where
  known : Known rows table
  height : Greatest FedShardRow.latestHeight rows table
  seen : Greatest FedShardRow.lastSeenUnixMs rows table

/-- The height and the time of a shard. -/
def FederationTable.view (table : FederationTable) (shard : String) : Option (U64 × U64) :=
  (table shard).map fun row => (row.latestHeight, row.lastSeenUnixMs)

/-- No height and no time goes back. -/
def MovesForward (table table' : FederationTable) : Prop :=
  ∀ shard row, table shard = some row → ∃ row', table' shard = some row' ∧
    row.latestHeight ≤ row'.latestHeight ∧ row.lastSeenUnixMs ≤ row'.lastSeenUnixMs

/-- In every order of the rows the table ends with the greatest values, nodes agree, and no merge
moves a value back. -/
structure OrderFree (rows : Multiset FedShardRow) : Prop where
  newest : ∀ order : List FedShardRow, ↑order = rows → Newest rows (mergedRows order)
  agree : ∀ order order' : List FedShardRow, ↑order = rows → ↑order' = rows →
    (mergedRows order).view = (mergedRows order').view
  forward : ∀ (before : List FedShardRow) (r : FedShardRow) (later : List FedShardRow),
    ((before ++ r :: later : List FedShardRow) : Multiset FedShardRow) = rows →
      MovesForward (mergedRows before) ((mergedRows before).mergeRow r)

/-- The rows alone decide what the greatest values are. -/
theorem Newest.view_eq {table table' : FederationTable} (h : Newest rows table)
    (h' : Newest rows table') : table.view = table'.view := by
  funext shard
  have hsome : (table shard).isSome ↔ (table' shard).isSome :=
    (h.known shard).trans (h'.known shard).symm
  rw [FederationTable.view, FederationTable.view]
  cases hrow : table shard with
  | none =>
      cases hrow' : table' shard with
      | none => rfl
      | some row' => simp [hrow, hrow'] at hsome
  | some row =>
      cases hrow' : table' shard with
      | none => simp [hrow, hrow'] at hsome
      | some row' =>
          have hheight := (h.height shard row hrow).unique (h'.height shard row' hrow')
          have hseen := (h.seen shard row hrow).unique (h'.seen shard row' hrow')
          rw [Option.map_some, Option.map_some, BitVec.eq_of_toNat_eq hheight,
            BitVec.eq_of_toNat_eq hseen]

/-- A merge goes forward if the row of its shard was not seen later than a row above it. -/
theorem movesForward_mergeRow {table : FederationTable} {r : FedShardRow}
    (h : ∀ cur, table r.shardId = some cur → cur.latestHeight < r.latestHeight →
      cur.lastSeenUnixMs ≤ r.lastSeenUnixMs) : MovesForward table (table.mergeRow r) := by
  intro shard row hrow
  by_cases hshard : r.shardId = shard
  · subst hshard
    refine ⟨row.merge r, by rw [mergeRow_same, hrow], ?_, ?_⟩
    · change row.latestHeight.toNat ≤ (row.merge r).latestHeight.toNat
      rw [merge_latestHeight]
      exact le_max_left _ _
    · change row.lastSeenUnixMs.toNat ≤ (row.merge r).lastSeenUnixMs.toNat
      rw [merge_lastSeen (h row hrow)]
      exact le_max_left _ _
  · exact ⟨row, by rw [mergeRow_other hshard, hrow], BitVec.le_refl _, BitVec.le_refl _⟩

theorem mergedRows_newest (order : List FedShardRow) (h : SeenInOrder ↑order) :
    Newest ↑order (mergedRows order) :=
  ⟨mergedRows_known order, mergedRows_height order, mergedRows_seen order h⟩

theorem OrderFree.of_seenInOrder (h : SeenInOrder rows) : OrderFree rows := by
  have hnewest : ∀ order : List FedShardRow, ↑order = rows → Newest rows (mergedRows order) := by
    rintro order rfl
    exact mergedRows_newest order h
  refine ⟨hnewest, fun order order' ho ho' => (hnewest order ho).view_eq (hnewest order' ho'), ?_⟩
  rintro before r later rfl
  have hle : r ::ₘ (before : Multiset FedShardRow) ≤
      ((before ++ r :: later : List FedShardRow) : Multiset FedShardRow) := by
    have hsplit : before ++ r :: later = before ++ [r] ++ later := List.append_cons before r later
    rw [← coe_concat, hsplit]
    exact Multiset.coe_le.mpr (List.sublist_append_left _ _).subperm
  have hbefore := h.mono hle
  have hseen := mergedRows_seen before (hbefore.mono (Multiset.le_cons_self _ _))
  exact movesForward_mergeRow fun cur hcur =>
    hbefore.stored (mergedRows_height before) hseen hcur

/-- The second of two rows of a shard is above the first and was seen earlier: the merge of both in
this order goes back. -/
theorem OrderFree.seenInOrder (h : OrderFree rows) : SeenInOrder rows := by
  intro a ha b hb hshard hlt
  have hne : b ≠ a := by
    rintro rfl
    exact BitVec.lt_irrefl _ hlt
  obtain ⟨rest, rfl⟩ := Multiset.exists_cons_of_mem ha
  have hb' : b ∈ rest := (Multiset.mem_cons.mp hb).resolve_left hne
  obtain ⟨rest, rfl⟩ := Multiset.exists_cons_of_mem hb'
  induction rest using Quotient.inductionOn with
  | h later =>
      have hforward := h.forward [a] b later rfl
      have hfirst : mergedRows [a] a.shardId = some a := Function.update_self _ _ _
      obtain ⟨row, hrow, -, hseen⟩ := hforward a.shardId a hfirst
      have hsecond : (mergedRows [a]).mergeRow b a.shardId = some (a.merge b) := by
        rw [hshard, mergeRow_same, ← hshard, hfirst]
      obtain rfl := Option.some.inj (hsecond.symm.trans hrow)
      rwa [FedShardRow.merge, if_pos hlt] at hseen

/-- Merges of rows do not depend on their order exactly when no row was seen later than a higher
row of its shard. -/
theorem federation_orderFree_iff (rows : Multiset FedShardRow) :
    OrderFree rows ↔ SeenInOrder rows :=
  ⟨OrderFree.seenInOrder, OrderFree.of_seenInOrder⟩

end Orders

/-! ## An old row seen late -/

namespace LateRow

def low : FedShardRow := ⟨"A", 5#64, 300#64, .hello, "n1"⟩

def high : FedShardRow := ⟨"A", 10#64, 200#64, .gossip, "n2"⟩

/-- The higher row takes the time of its shard back. -/
theorem time_goes_back : ¬ ∀ rows, OrderFree rows := by
  intro h
  have hforward := (h {low, high}).forward [low] high [] rfl
  obtain ⟨row, hrow, -, hseen⟩ := hforward "A" low rfl
  have hhigh : (mergedRows [low]).mergeRow high "A" = some high := rfl
  obtain rfl := Option.some.inj (hhigh.symm.trans hrow)
  exact absurd hseen (by decide)

end LateRow

/-! ## Nodes that merge -/

/-- Nodes whose events bring the same rows agree on the heights and, when no row was seen later than
a higher one of its shard, on the times. -/
theorem nodes_agree {events events' : List FedEvent}
    (hperm : (events.flatMap FedEvent.rows).Perm (events'.flatMap FedEvent.rows))
    (hseen : SeenInOrder ↑(events.flatMap FedEvent.rows)) :
    (events.foldl FedEvent.apply FederationTable.empty).view =
      (events'.foldl FedEvent.apply FederationTable.empty).view := by
  rw [foldl_apply_eq, foldl_apply_eq]
  exact (OrderFree.of_seenInOrder hseen).agree _ _ rfl (Multiset.coe_eq_coe.mpr hperm.symm)

end Pwm
