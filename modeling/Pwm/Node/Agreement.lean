import Pwm.Lib.PrefixLog
import Pwm.Lib.Run
import Pwm.Node.Cluster

/-!
# Agreement of a cluster

The blocks that a node appended determine its chain, and so whose turn the next
height is. Without skips a block is sealed only in turn, so the logs of the
nodes agree as logs that grow in turns do. A skip lets two members have the
turn on one and the same log, and the logs part.
-/

namespace Pwm

open BitVec Attempt

/-! ## The chain that a log leads to -/

section Follows

variable {C : Crypto} {ch₀ ch ch' : Chain} {blk : Block} {L L' : List Block} {st st' : State}

/-- The blocks run one after the other from the start and lead to the chain. -/
inductive Follows (C : Crypto) (ch₀ : Chain) : List Block → Chain → Prop
  | nil : Follows C ch₀ [] ch₀
  | snoc {L : List Block} {ch : Chain} {blk : Block} {st : State} (h : Follows C ch₀ L ch)
      (hblk : Replays C ch blk st) : Follows C ch₀ (L ++ [blk]) (ch.append blk st)

theorem BlockEnds.unique {cfg : GenCfg} {height : U64} {prodIdx : U32} {s : State}
    (h : BlockEnds cfg height prodIdx s st) (h' : BlockEnds cfg height prodIdx s st') :
    st = st' := by
  obtain ⟨drained, prodAcct, hdrain, hacct, _, rfl⟩ := h
  obtain ⟨drained', prodAcct', hdrain', hacct', _, rfl⟩ := h'
  rw [hdrain] at hdrain'
  rw [hacct] at hacct'
  obtain ⟨_, rfl⟩ := EStateM.Result.ok.inj hdrain'
  obtain rfl := Option.some.inj hacct'
  rfl

theorem Replays.unique (h : Replays C ch blk st) (h' : Replays C ch blk st') : st = st' := by
  obtain ⟨s, hrun, hends⟩ := h.run
  obtain ⟨s', hrun', hends'⟩ := h'.run
  rw [hrun] at hrun'
  obtain ⟨_, rfl⟩ := EStateM.Result.ok.inj hrun'
  exact hends.unique hends'

theorem follows_snoc_iff : Follows C ch₀ (L ++ [blk]) ch' ↔
    ∃ ch st, Follows C ch₀ L ch ∧ Replays C ch blk st ∧ ch' = ch.append blk st := by
  constructor
  · intro h
    generalize heq : L ++ [blk] = L' at h
    cases h with
    | nil => simp at heq
    | snoc h hblk =>
        obtain ⟨rfl, rfl⟩ : L = _ ∧ blk = _ := by simpa using heq
        exact ⟨_, _, h, hblk, rfl⟩
  · rintro ⟨ch, st, h, hblk, rfl⟩
    exact .snoc h hblk

/-- A log leads to one chain. -/
theorem Follows.unique (h : Follows C ch₀ L ch) : ∀ {ch'}, Follows C ch₀ L ch' → ch = ch' := by
  induction h with
  | nil =>
      intro ch' h'
      generalize heq : ([] : List Block) = L' at h'
      cases h' with
      | nil => rfl
      | snoc => simp at heq
  | snoc h hblk ih =>
      intro ch' h'
      obtain ⟨ch₁, st₁, h₁, hblk₁, rfl⟩ := follows_snoc_iff.mp h'
      obtain rfl := ih h₁
      rw [hblk.unique hblk₁]

theorem Follows.earlier (h : Follows C ch₀ L ch) :
    ∀ {L'}, L' <+: L → ∃ ch', Follows C ch₀ L' ch' := by
  induction h with
  | nil =>
      intro L' hpre
      rw [List.prefix_nil.mp hpre]
      exact ⟨ch₀, .nil⟩
  | snoc h hblk ih =>
      intro L' hpre
      rcases PrefixLog.prefix_snoc hpre with rfl | hpre
      · exact ⟨_, .snoc h hblk⟩
      · exact ih hpre

theorem Follows.cfg (h : Follows C ch₀ L ch) : ch.cfg = ch₀.cfg := by
  induction h with
  | nil => rfl
  | snoc _ _ ih => rw [Chain.append_cfg, ih]

theorem Follows.valSks (h : Follows C ch₀ L ch) : ch.valSks = ch₀.valSks := by
  induction h with
  | nil => rfl
  | snoc _ _ ih => rw [Chain.append_valSks, ih]

/-- Heights count the blocks, up to the last height. -/
theorem Follows.tipH (h : Follows C ch₀ L ch) :
    ch.tipH.toNat = min (ch₀.tipH.toNat + L.length) (2 ^ 64 - 1) := by
  induction h with
  | nil =>
      have hlt := ch₀.tipH.isLt
      rw [List.length_nil, Nat.add_zero, Nat.min_eq_left (by omega)]
  | @snoc L ch blk st _ hblk ih =>
      have hsat := toNat_saturatingAdd ch.tipH 1#64
      rw [← hblk.height, ih] at hsat
      have hone : (1#64).toNat = 1 := rfl
      rw [Chain.append_tipH, List.length_append, List.length_singleton]
      omega

/-- The chain keeps the most recent blocks. -/
theorem Follows.blocks (h₀ : ch₀.blocks = []) (h : Follows C ch₀ L ch) :
    ch.blocks = L.drop (L.length - tailBlockCap) := by
  induction h with
  | nil => simpa using h₀
  | snoc _ _ ih => exact Chain.append_tail ih _ _

theorem Follows.mem_log (h : Follows C ch₀ L ch) (h₀ : ch₀.blocks = []) (hblk : blk ∈ ch.blocks) :
    blk ∈ L := by
  rw [h.blocks h₀] at hblk
  exact List.mem_of_mem_drop hblk

/-- The height of the block that follows a log. -/
theorem Follows.next_height (h : Follows C ch₀ (L ++ [blk]) ch) :
    blk.hdr.height.toNat = min (ch₀.tipH.toNat + L.length + 1) (2 ^ 64 - 1) := by
  obtain ⟨ch₁, st₁, h₁, hblk, rfl⟩ := follows_snoc_iff.mp h
  have htip := (Follows.snoc h₁ hblk).tipH
  rw [Chain.append_tipH, List.length_append, List.length_singleton] at htip
  exact htip

end Follows

/-! ## Turns -/

section Turns

variable {C : Crypto} {ch₀ : Chain} {members : List String} {L : List Block}

/-- It is the turn of this member at the height after the log. -/
def HasTurn (C : Crypto) (ch₀ : Chain) (members : List String) (L : List Block) (id : String) :
    Prop :=
  ∃ ch, Follows C ch₀ L ch ∧ localProdForH id members ch (ch.tipH.saturatingAdd 1#64) = .ok true

theorem localProdForH_true {id : String} {ch : Chain} {h : U64}
    (hok : localProdForH id members ch h = .ok true) :
    ∃ prodIdx : U32, pickProdIdx h (rollEpochIfNeeded ch.cfg ch.st h).activeValidatorIndices =
      .ok prodIdx ∧ members[prodIdx.toNat]? = some id := by
  unfold localProdForH at hok
  by_cases hid : id = ""
  · simp [hid] at hok
  · simp only [if_neg hid, except_bind_ok_iff] at hok
    obtain ⟨prodIdx, hpick, hmember⟩ := hok
    exact ⟨prodIdx, hpick, by simpa using hmember⟩

/-- No two members have the turn on one log. -/
theorem hasTurn_unique (L : List Block) (i j : String) (hi : HasTurn C ch₀ members L i)
    (hj : HasTurn C ch₀ members L j) : i = j := by
  obtain ⟨ch, hch, hi⟩ := hi
  obtain ⟨ch', hch', hj⟩ := hj
  obtain rfl := hch.unique hch'
  obtain ⟨prodIdx, hpick, hmem⟩ := localProdForH_true hi
  obtain ⟨prodIdx', hpick', hmem'⟩ := localProdForH_true hj
  rw [hpick] at hpick'
  obtain rfl := Except.ok.inj hpick'
  exact Option.some.inj (hmem.symm.trans hmem')

/-- A member makes proposals in its turn only. -/
theorem mkClusterProp_turn {id : String} {cfg : ClusterCfg} {ch : Chain} {remoteTipH : Option U64}
    {msg : ClusterPropose} (hmsg : mkClusterProp C id cfg 0#64 ch remoteTipH = some msg) :
    msg.height = ch.tipH.saturatingAdd 1#64 ∧
      localProdForH id cfg.members ch msg.height = .ok true ∧
      ∀ b ∈ msg.tailBlocks, b ∈ ch.blocks := by
  unfold mkClusterProp at hmsg
  split at hmsg
  · cases hmsg
  · rename_i hmember
    have hzero : (0#64 : U64) ≤ ch.tipH.saturatingAdd 1#64 := BitVec.le_def.mpr (Nat.zero_le _)
    simp only [if_pos hzero] at hmsg
    split at hmsg
    · cases hmsg
    · rename_i prodIdx hpick
      split at hmsg
      · cases hmsg
      · rename_i hidx
        obtain rfl := Option.some.inj hmsg
        refine ⟨rfl, ?_, ?_⟩
        · have hroll : (if isEpochBoundary (ch.tipH.saturatingAdd 1#64) ch.cfg then
              (rollEpochIfNeeded ch.cfg ch.st (ch.tipH.saturatingAdd 1#64)).activeValidatorIndices
              else ch.st.activeValidatorIndices) =
              (rollEpochIfNeeded ch.cfg ch.st
                (ch.tipH.saturatingAdd 1#64)).activeValidatorIndices := by
            unfold rollEpochIfNeeded
            split <;> rfl
          rw [hroll] at hpick
          have hid : id ≠ "" := fun hid => hmember (.inr (.inl hid))
          simp only [localProdForH, if_neg hid, hpick, bind, Except.bind, not_not.mp hidx,
            decide_true]
        · intro b hb
          by_cases hfull : cfg.fullBlocks = true
          · simp only [hfull, if_true, propTail] at hb
            exact List.mem_reverse.mp (List.mem_of_mem_take (List.mem_reverse.mp hb))
          · simp [hfull] at hb

end Turns

/-! ## The logs of a cluster -/

section Logs

variable {C : Crypto} {ch₀ : Chain} {members : List String} {nodes : String → ClusterNode}

/-- The logs lead to the chains of their nodes, agree, and leave room for a next height. -/
structure LogsOk (C : Crypto) (ch₀ : Chain) (members : List String)
    (nodes : String → ClusterNode) : Prop where
  sameMembers : ∀ n, (nodes n).cfg.members = members
  follows : ∀ n, Follows C ch₀ (nodes n).log (nodes n).inner.chain
  agree : PrefixLog.Agree (HasTurn C ch₀ members) fun n => (nodes n).log
  room : ∀ n, (nodes n).inner.chain.tipH.toNat + 1 < 2 ^ 64

/-- The node with one more block in its log. -/
def ClusterNode.grow (node : ClusterNode) (inn : Inner) (blk : Block) : ClusterNode :=
  { node with inner := inn, log := node.log ++ [blk] }

theorem LogsOk.tipH (h : LogsOk C ch₀ members nodes) (n : String) :
    (nodes n).inner.chain.tipH.toNat = ch₀.tipH.toNat + (nodes n).log.length := by
  have htip := (h.follows n).tipH
  have hroom := h.room n
  omega

theorem update_log (nodes : String → ClusterNode) {n : String} {node : ClusterNode} {blk : Block}
    (hlog : node.log = (nodes n).log ++ [blk]) :
    (fun m => (Function.update nodes n node m).log) =
      PrefixLog.grow (fun m => (nodes m).log) n blk := by
  funext m
  by_cases hm : m = n
  · rw [hm, Function.update_self, PrefixLog.grow_self, hlog]
  · rw [Function.update_of_ne hm, PrefixLog.grow_of_ne _ _ hm]

/-- One node of the cluster gets a block that leads on from its log. -/
theorem LogsOk.grow (h : LogsOk C ch₀ members nodes) {n : String} {node : ClusterNode}
    {blk : Block} (hcfg : node.cfg = (nodes n).cfg) (hlog : node.log = (nodes n).log ++ [blk])
    (hagree : PrefixLog.Agree (HasTurn C ch₀ members)
      (PrefixLog.grow (fun m => (nodes m).log) n blk))
    (hfollows : Follows C ch₀ ((nodes n).log ++ [blk]) node.inner.chain)
    (hroom : node.inner.chain.tipH.toNat + 1 < 2 ^ 64) :
    LogsOk C ch₀ members (Function.update nodes n node) := by
  have hself : ∀ P : ClusterNode → Prop, P node → (∀ m, P (nodes m)) →
      ∀ m, P (Function.update nodes n node m) := by
    intro P hnew hold m
    by_cases hm : m = n
    · rwa [hm, Function.update_self]
    · rw [Function.update_of_ne hm]
      exact hold m
  constructor
  · exact hself (fun node => node.cfg.members = members) (by rw [hcfg]; exact h.sameMembers n)
      h.sameMembers
  · exact hself (fun node => Follows C ch₀ node.log node.inner.chain) (by rwa [hlog]) h.follows
  · rw [update_log nodes hlog]
    exact hagree
  · exact hself (fun node => node.inner.chain.tipH.toNat + 1 < 2 ^ 64) hroom h.room

/-- A block of some log that a node accepts is the next one after its own log. -/
theorem LogsOk.next (h : LogsOk C ch₀ members nodes) {n m : String} {blk : Block} {inn' : Inner}
    (hblk : blk ∈ (nodes m).log) (hok : applyBlk C (nodes n).inner blk = .ok inn') :
    (nodes n).log ++ [blk] <+: (nodes m).log := by
  obtain ⟨L, rest, hsplit⟩ := List.append_of_mem hblk
  have hpre : L ++ [blk] <+: (nodes m).log := ⟨rest, by rw [hsplit]; simp⟩
  obtain ⟨ch, hch⟩ := (h.follows m).earlier hpre
  obtain ⟨st', hreplays, _⟩ := applyBlk_chain hok
  have hheight := hch.next_height
  have hroom := h.room m
  have hn := h.room n
  have htipm := h.tipH m
  have htipn := h.tipH n
  have hlen := hpre.length_le
  have hwant : blk.hdr.height.toNat = (nodes n).inner.chain.tipH.toNat + 1 := by
    rw [hreplays.height]
    exact toNat_saturatingAdd_of_fits hn
  rw [List.length_append, List.length_singleton] at hlen
  -- both logs have a block at this height, so what comes before it is the same
  have hsame : L.length = (nodes n).log.length := by omega
  have hL : L <+: (nodes m).log := (List.prefix_append _ _).trans hpre
  have heq : (nodes n).log = L := by
    rcases h.agree.prefixes n m with hnm | hmn
    · exact (List.prefix_of_prefix_length_le hnm hL (by omega)).eq_of_length hsame.symm
    · have hle := hmn.length_le
      omega
  rwa [heq]

/-- A block of some log is taken over by a node whose turn it is not. -/
theorem LogsOk.takeBlk (h : LogsOk C ch₀ members nodes) {n : String} {blk : Block} {inn' : Inner}
    (hblk : ∃ m, blk ∈ (nodes m).log) (hok : applyBlk C (nodes n).inner blk = .ok inn') :
    LogsOk C ch₀ members (Function.update nodes n ((nodes n).grow inn' blk)) ∧
      ¬ HasTurn C ch₀ members (nodes n).log n := by
  obtain ⟨m, hblk⟩ := hblk
  have hnext := h.next hblk hok
  obtain ⟨st', hreplays, hchain⟩ := applyBlk_chain hok
  constructor
  · have hinner : ((nodes n).grow inn' blk).inner = inn' := rfl
    refine h.grow rfl rfl (h.agree.copy hnext) ?_ ?_
    · rw [hinner, hchain]
      exact .snoc (h.follows n) hreplays
    · have hlen := hnext.length_le
      have hroom := h.room m
      have htipm := h.tipH m
      have htipn := h.tipH n
      have hn := h.room n
      have hheight : inn'.chain.tipH.toNat = (nodes n).inner.chain.tipH.toNat + 1 := by
        rw [hchain, Chain.append_tipH, hreplays.height]
        exact toNat_saturatingAdd_of_fits hn
      rw [List.length_append, List.length_singleton] at hlen
      rw [hinner]
      omega
  · intro hturn
    have hlast := (hnext.trans (h.agree.latest hturn m)).length_le
    simp at hlast

/-- A batch of blocks of the logs is taken over, or was empty when it is the node's turn. -/
theorem LogsOk.takeBatch {n : String} {blocks : List Block} :
    ∀ {nodes : String → ClusterNode} {inn' : Inner}, LogsOk C ch₀ members nodes →
      (∀ b ∈ blocks, ∃ m, b ∈ (nodes m).log) →
      applyBlkBatch C (nodes n).inner blocks = .ok inn' →
      LogsOk C ch₀ members (Function.update nodes n
        { nodes n with inner := inn', log := (nodes n).log ++ blocks }) ∧
      (HasTurn C ch₀ members (nodes n).log n → blocks = []) := by
  induction blocks with
  | nil =>
      intro nodes inn' h _ hok
      obtain rfl := Except.ok.inj hok
      rw [List.append_nil, Function.update_eq_self]
      exact ⟨h, fun _ => rfl⟩
  | cons blk rest ih =>
      intro nodes inn' h hmem hok
      obtain ⟨inn₁, hblk, hrest⟩ := except_bind_ok_iff.mp hok
      obtain ⟨h₁, hturn⟩ := h.takeBlk (hmem blk List.mem_cons_self) hblk
      have hmem₁ : ∀ b ∈ rest, ∃ m,
          b ∈ (Function.update nodes n ((nodes n).grow inn₁ blk) m).log := by
        intro b hb
        obtain ⟨m, hm⟩ := hmem b (List.mem_cons_of_mem _ hb)
        refine ⟨m, ?_⟩
        by_cases hmn : m = n
        · rw [hmn] at hm ⊢
          rw [Function.update_self]
          exact List.mem_append_left _ hm
        · rwa [Function.update_of_ne hmn]
      have hstart : (Function.update nodes n ((nodes n).grow inn₁ blk) n).inner = inn₁ := by
        rw [Function.update_self]
        rfl
      have hrest₁ : applyBlkBatch C
          (Function.update nodes n ((nodes n).grow inn₁ blk) n).inner rest = .ok inn' := by
        rw [hstart]
        exact hrest
      obtain ⟨h₂, _⟩ := ih h₁ hmem₁ hrest₁
      rw [Function.update_idem, Function.update_self] at h₂
      refine ⟨?_, fun hown => absurd hown hturn⟩
      have hlog : (nodes n).log ++ blk :: rest = (nodes n).log ++ [blk] ++ rest := by simp
      rw [hlog]
      exact h₂

end Logs

/-! ## The cluster step by step -/

section Steps

variable {C : Crypto} {ch₀ : Chain} {members : List String} {net net' : Cluster} {n : String}
  {node : ClusterNode}

/-- The log reached this height, or its member has the turn for it. -/
def Due (C : Crypto) (ch₀ : Chain) (members : List String) (L : List Block) (id : String)
    (h : U64) : Prop :=
  h.toNat ≤ ch₀.tipH.toNat + L.length ∨
    (h.toNat = ch₀.tipH.toNat + L.length + 1 ∧ HasTurn C ch₀ members L id)

theorem Due.mono {L L' : List Block} {id : String} {h : U64} (hdue : Due C ch₀ members L id h)
    (hpre : L <+: L') : Due C ch₀ members L' id h := by
  have hle := hpre.length_le
  rcases hdue with hbelow | ⟨hnext, hturn⟩
  · exact .inl (by omega)
  · rcases Nat.lt_or_ge L.length L'.length with hlt | hge
    · exact .inl (by omega)
    · rw [← hpre.eq_of_length (by omega)]
      exact .inr ⟨hnext, hturn⟩

/-- What holds of a cluster as long as nothing was skipped. -/
structure ClusterInv (C : Crypto) (ch₀ : Chain) (members : List String) (net : Cluster) :
    Prop where
  genesis : ch₀.blocks = []
  logs : LogsOk C ch₀ members net.nodes
  blocks : ∀ b ∈ net.blocks, ∃ m, b ∈ (net.nodes m).log
  tails : ∀ p ∈ net.proposals, ∀ b ∈ p.2.tailBlocks, ∃ m, b ∈ (net.nodes m).log
  due : ∀ p ∈ net.proposals, Due C ch₀ members (net.nodes p.1).log p.1 p.2.height
  rounds : ∀ n, (net.nodes n).cfg.role = .proposer →
    ∀ h r, (net.nodes n).rounds (h, r) ≠ none → Due C ch₀ members (net.nodes n).log n h
  gated : ∀ n, (net.nodes n).stage = .gated → HasTurn C ch₀ members (net.nodes n).log n
  proposers : ∀ n, (net.nodes n).stage ≠ .idle → (net.nodes n).cfg.role = .proposer

/-- What a node of the cluster owes, apart from its log. -/
structure NodeOk (C : Crypto) (ch₀ : Chain) (members : List String) (n : String)
    (node : ClusterNode) : Prop where
  rounds : node.cfg.role = .proposer →
    ∀ h r, node.rounds (h, r) ≠ none → Due C ch₀ members node.log n h
  gated : node.stage = .gated → HasTurn C ch₀ members node.log n
  proposers : node.stage ≠ .idle → node.cfg.role = .proposer

theorem ClusterInv.nodeOk (h : ClusterInv C ch₀ members net) (n : String) :
    NodeOk C ch₀ members n (net.nodes n) :=
  ⟨h.rounds n, h.gated n, h.proposers n⟩

theorem LogsOk.same {nodes : String → ClusterNode} (h : LogsOk C ch₀ members nodes)
    (hcfg : node.cfg = (nodes n).cfg) (hchain : node.inner.chain = (nodes n).inner.chain)
    (hlog : node.log = (nodes n).log) : LogsOk C ch₀ members (Function.update nodes n node) := by
  have hview : ∀ m, (Function.update nodes n node m).cfg = (nodes m).cfg ∧
      (Function.update nodes n node m).inner.chain = (nodes m).inner.chain ∧
      (Function.update nodes n node m).log = (nodes m).log := by
    intro m
    by_cases hm : m = n
    · rw [hm, Function.update_self]
      exact ⟨hcfg, hchain, hlog⟩
    · rw [Function.update_of_ne hm]
      exact ⟨rfl, rfl, rfl⟩
  constructor
  · intro m
    rw [(hview m).1]
    exact h.sameMembers m
  · intro m
    rw [(hview m).2.1, (hview m).2.2]
    exact h.follows m
  · rw [funext fun m => (hview m).2.2]
    exact h.agree
  · intro m
    rw [(hview m).2.1]
    exact h.room m

/-- One node goes on, its log at most longer. -/
theorem ClusterInv.setNode (h : ClusterInv C ch₀ members net)
    (hlogs : LogsOk C ch₀ members (Function.update net.nodes n node))
    (hgrow : (net.nodes n).log <+: node.log) (hnode : NodeOk C ch₀ members n node) :
    ClusterInv C ch₀ members (net.setNode n node) := by
  have hpre : ∀ m, (net.nodes m).log <+: ((net.setNode n node).nodes m).log := by
    intro m
    by_cases hm : m = n
    · subst hm
      simpa [Cluster.setNode] using hgrow
    · simp [Cluster.setNode, Function.update_of_ne hm]
  have hmem : ∀ b, (∃ m, b ∈ (net.nodes m).log) → ∃ m, b ∈ ((net.setNode n node).nodes m).log :=
    fun b ⟨m, hb⟩ => ⟨m, (hpre m).subset hb⟩
  have hnodes : ∀ m, NodeOk C ch₀ members m ((net.setNode n node).nodes m) := by
    intro m
    by_cases hm : m = n
    · subst hm
      simpa [Cluster.setNode] using hnode
    · simp only [Cluster.setNode, Function.update_of_ne hm]
      exact h.nodeOk m
  exact
    { genesis := h.genesis
      logs := hlogs
      blocks := fun b hb => hmem b (h.blocks b hb)
      tails := fun p hp b hb => hmem b (h.tails p hp b hb)
      due := fun p hp => (h.due p hp).mono (hpre p.1)
      rounds := fun m => (hnodes m).rounds
      gated := fun m => (hnodes m).gated
      proposers := fun m => (hnodes m).proposers }

/-- A step of a node that leaves chain and log alone. -/
theorem ClusterInv.setSame (h : ClusterInv C ch₀ members net)
    (hcfg : node.cfg = (net.nodes n).cfg) (hchain : node.inner.chain = (net.nodes n).inner.chain)
    (hlog : node.log = (net.nodes n).log) (hnode : NodeOk C ch₀ members n node) :
    ClusterInv C ch₀ members (net.setNode n node) :=
  h.setNode (h.logs.same hcfg hchain hlog) (by rw [hlog]) hnode

theorem ClusterInv.addAttests (h : ClusterInv C ch₀ members net)
    (attests : List (String × ClusterAttest)) :
    ClusterInv C ch₀ members { net with attests := attests } :=
  ⟨h.genesis, h.logs, h.blocks, h.tails, h.due, h.rounds, h.gated, h.proposers⟩

theorem ClusterInv.addProposal (h : ClusterInv C ch₀ members net) {msg : ClusterPropose}
    (htail : ∀ b ∈ msg.tailBlocks, ∃ m, b ∈ (net.nodes m).log)
    (hdue : Due C ch₀ members (net.nodes n).log n msg.height) :
    ClusterInv C ch₀ members { net with proposals := net.proposals ++ [(n, msg)] } := by
  refine ⟨h.genesis, h.logs, h.blocks, ?_, ?_, h.rounds, h.gated, h.proposers⟩
  · intro p hp
    rcases List.mem_append.mp hp with hp | hp
    · exact h.tails p hp
    · obtain rfl := List.mem_singleton.mp hp
      exact htail
  · intro p hp
    rcases List.mem_append.mp hp with hp | hp
    · exact h.due p hp
    · obtain rfl := List.mem_singleton.mp hp
      exact hdue

theorem recordClusterProp_none {rounds : ClusterRounds} {height : U64} {round : U32}
    {binding : ClusterBinding} {memberId : String} {opened : Option U64} {h : U64} {r : U32}
    (hkey : recordClusterProp rounds height round binding memberId opened (h, r) ≠ none) :
    (h = height ∧ r = round) ∨ rounds (h, r) ≠ none := by
  by_cases heq : (h, r) = (height, round)
  · exact .inl (Prod.mk.inj heq)
  · rw [recordClusterProp, Function.update_of_ne heq] at hkey
    exact .inr hkey

theorem recordClusterAttest_none {rounds : ClusterRounds} {peer : TrustedPeer} {memberId : String}
    {msg : ClusterAttest} {key : U64 × U32}
    (hkey : recordClusterAttest C rounds peer memberId msg key ≠ none) : rounds key ≠ none := by
  by_cases heq : key = (msg.height, msg.round)
  · intro hnone
    rw [heq] at hnone hkey
    simp [recordClusterAttest, hnone] at hkey
  · unfold recordClusterAttest at hkey
    cases hentry : rounds (msg.height, msg.round) with
    | none => simpa [hentry] using hkey
    | some entry =>
        simp only [hentry] at hkey
        split at hkey
        · rwa [Function.update_of_ne heq] at hkey
        · exact hkey

theorem routeClusterAttest_none {cfg : ClusterCfg} {peers : TrustedPeers} {rounds : ClusterRounds}
    {nodeId : String} {msg : ClusterAttest} {key : U64 × U32}
    (hkey : routeClusterAttest C cfg peers rounds nodeId msg key ≠ none) : rounds key ≠ none := by
  unfold routeClusterAttest at hkey
  cases hpeer : clusterPeer cfg.members peers nodeId with
  | none => simpa [hpeer] using hkey
  | some p =>
      simp only [hpeer] at hkey
      split at hkey
      · exact recordClusterAttest_none hkey
      · exact hkey

/-- A gate that lets pass has seen a proposal for the next height. -/
theorem runClusterGate_round {cfg : ClusterCfg} {rounds : ClusterRounds} {tipH : U64}
    (hpass : runClusterGate cfg rounds tipH = true) :
    rounds (tipH.saturatingAdd 1#64, 0#32) ≠ none := by
  intro hnone
  simp [runClusterGate, hnone] at hpass

/-- A batch reaches a node. -/
theorem ClusterInv.takeBatch (h : ClusterInv C ch₀ members net) {blocks : List Block}
    (hmem : ∀ b ∈ blocks, ∃ m, b ∈ (net.nodes m).log) :
    ClusterInv C ch₀ members (net.setNode n ((net.nodes n).applyBatch C blocks)) := by
  unfold ClusterNode.applyBatch
  cases hok : applyBlkBatch C (net.nodes n).inner blocks with
  | error e => exact h.setSame rfl rfl rfl (h.nodeOk n)
  | ok inn =>
      obtain ⟨hlogs, hturn⟩ := h.logs.takeBatch hmem hok
      have hpre : (net.nodes n).log <+: (net.nodes n).log ++ blocks := List.prefix_append _ _
      refine h.setNode hlogs hpre ⟨?_, ?_, h.proposers n⟩
      · exact fun hrole key r hkey => (h.rounds n hrole key r hkey).mono hpre
      · intro hgated
        have hown := h.gated n hgated
        simp only [hturn hown, List.append_nil]
        exact hown

/-- The entries of a seal that are marked with the tip were validated there. -/
def ClusterAct.Valid (C : Crypto) (net : Cluster) : ClusterAct → Prop
  | .sealNext id _ entries => ∀ entry ∈ entries, Validated C (net.nodes id).inner.chain entry
  | _ => True

/-- No skip takes effect, sealed entries pass their policies, and no seal is at the last height. -/
def ClusterAct.Clean (C : Crypto) (net : Cluster) : ClusterAct → Prop
  | .skipMissed id => ∀ h, (net.nodes id).stage = .missed h →
      ((net.nodes id).inner.chain.skipMissedH h).1 = false
  | .sealNext id now entries => SealPasses C now (net.nodes id).inner.chain entries ∧
      (net.nodes id).inner.chain.tipH.toNat + 2 < 2 ^ 64
  | _ => True

theorem skipMissedH_false {ch : Chain} {h : U64} (hskip : (ch.skipMissedH h).1 = false) :
    (ch.skipMissedH h).2 = ch := by
  unfold Chain.skipMissedH at hskip ⊢
  by_cases hnext : ch.tipH.saturatingAdd 1#64 ≠ h
  · rw [if_pos hnext]
  · rw [if_neg hnext] at hskip
    cases hskip

theorem routePropose_cases {C : Crypto} (node : ClusterNode) (id sender : String)
    (msg : ClusterPropose) (opened : Option U64) :
    (node.routePropose C id sender msg opened).1 = node ∨
      (node.cfg.role = .attester ∧ ∃ memberId,
        (node.routePropose C id sender msg opened).1 = node.takePropose C memberId msg opened) := by
  unfold ClusterNode.routePropose
  cases clusterPeer node.cfg.members node.peers sender with
  | none => exact .inl rfl
  | some p =>
      cases hrole : clusterRoleOk node.cfg.role p.1.clusterRole true with
      | false => simp [hrole]
      | true =>
          refine .inr ⟨?_, p.2, by simp [hrole]⟩
          cases hlocal : node.cfg.role <;> simp [clusterRoleOk, hlocal] at hrole ⊢

/-- An attester takes a proposal. -/
theorem ClusterInv.takePropose (h : ClusterInv C ch₀ members net)
    (hrole : (net.nodes n).cfg.role = .attester) {msg : ClusterPropose}
    (htail : ∀ b ∈ msg.tailBlocks, ∃ m, b ∈ (net.nodes m).log) (memberId : String)
    (opened : Option U64) :
    ClusterInv C ch₀ members
      (net.setNode n ((net.nodes n).takePropose C memberId msg opened)) := by
  have hbatch : ∀ b ∈ tailBatch msg (net.nodes n).inner.chain.tipH,
      ∃ m, b ∈ (net.nodes m).log := by
    intro b hb
    exact htail b (List.mem_mergeSort.mp (List.mem_of_mem_filter hb))
  have hidle : (net.nodes n).stage = .idle := by
    by_contra hne
    rw [h.proposers n hne] at hrole
    cases hrole
  have hbind : ∀ node : ClusterNode, ClusterInv C ch₀ members (net.setNode n node) →
      node.cfg.role = .attester → node.stage = .idle → ∀ rounds,
      ClusterInv C ch₀ members (net.setNode n { node with rounds := rounds }) := by
    intro node hnode hrole hidle rounds
    have hnet : net.setNode n { node with rounds := rounds } =
        (net.setNode n node).setNode n { node with rounds := rounds } := by
      simp [Cluster.setNode, Function.update_idem]
    have hself : (net.setNode n node).nodes n = node := by simp [Cluster.setNode]
    rw [hnet]
    refine hnode.setSame ?_ ?_ ?_ ⟨?_, ?_, ?_⟩
    · rw [hself]
    · rw [hself]
    · rw [hself]
    · intro hprop
      rw [show node.cfg.role = .proposer from hprop] at hrole
      cases hrole
    · intro hgated
      rw [show node.stage = .gated from hgated] at hidle
      cases hidle
    · exact fun hne => absurd hidle hne
  unfold ClusterNode.takePropose
  dsimp only
  split
  · refine hbind _ (h.takeBatch hbatch) ?_ ?_ _
    · unfold ClusterNode.applyBatch
      split <;> exact hrole
    · unfold ClusterNode.applyBatch
      split <;> exact hidle
  · exact hbind _ (h.setSame rfl rfl rfl (h.nodeOk n)) hrole hidle _

/-- A member seals in its turn. -/
theorem ClusterInv.sealNext (h : ClusterInv C ch₀ members net) (hkeys : KeysMatch C ch₀)
    (hsigns : ∀ sk ∈ ch₀.valSks, C.SignsVerify sk) (hgated : (net.nodes n).stage = .gated)
    {now : U64} {entries : List SealEntry} {ch : Chain} {blk : Block}
    (hvalid : ∀ entry ∈ entries, Validated C (net.nodes n).inner.chain entry)
    (hpass : SealPasses C now (net.nodes n).inner.chain entries)
    (hroom : (net.nodes n).inner.chain.tipH.toNat + 2 < 2 ^ 64)
    (hseal : sealEntries C now (net.nodes n).inner.chain entries = .ok ch)
    (hblk : ch.blocks.getLast? = some blk) :
    ClusterInv C ch₀ members
      { net.setNode n ((net.nodes n).sealed C ch blk) with blocks := net.blocks ++ [blk] } := by
  have hfollows := h.logs.follows n
  have hkeys' : KeysMatch C (net.nodes n).inner.chain := by
    intro i sk hsk
    rw [hfollows.cfg]
    rw [hfollows.valSks] at hsk
    exact hkeys i sk hsk
  have hsigns' : ∀ sk ∈ (net.nodes n).inner.chain.valSks, C.SignsVerify sk := by
    rw [hfollows.valSks]
    exact hsigns
  obtain ⟨blk', st', hreplays, rfl⟩ := sealed_replays hkeys' hsigns' hvalid hpass hseal
  obtain rfl : blk' = blk := Option.some.inj ((Chain.append_getLast? _ _ _).symm.trans hblk)
  have hchain : ((net.nodes n).sealed C ((net.nodes n).inner.chain.append blk' st') blk').inner.chain
      = (net.nodes n).inner.chain.append blk' st' :=
    Inner.foldl_recordCrossShardTx_chain C _ _ _
  have hheight : blk'.hdr.height.toNat = (net.nodes n).inner.chain.tipH.toNat + 1 := by
    rw [hreplays.height]
    exact toNat_saturatingAdd_of_fits (by change _ + 1 < 2 ^ 64; omega)
  have hagree := h.logs.agree.extend hasTurn_unique (h.gated n hgated) blk'
  have hlogs : LogsOk C ch₀ members (Function.update net.nodes n
      ((net.nodes n).sealed C ((net.nodes n).inner.chain.append blk' st') blk')) := by
    refine h.logs.grow rfl rfl hagree ?_ ?_
    · rw [hchain]
      exact .snoc hfollows hreplays
    · rw [hchain, Chain.append_tipH]
      omega
  have hpre : (net.nodes n).log <+: (net.nodes n).log ++ [blk'] := List.prefix_append _ _
  have hnode : NodeOk C ch₀ members n
      ((net.nodes n).sealed C ((net.nodes n).inner.chain.append blk' st') blk') := by
    refine ⟨?_, ?_, fun hne => absurd rfl hne⟩
    · exact fun hrole key r hkey => (h.rounds n hrole key r hkey).mono hpre
    · intro hstage
      cases hstage
  have hset := h.setNode hlogs hpre hnode
  refine ⟨hset.genesis, hset.logs, ?_, hset.tails, hset.due, hset.rounds, hset.gated, hset.proposers⟩
  intro b hb
  rcases List.mem_append.mp hb with hb | hb
  · exact hset.blocks b hb
  · obtain rfl := List.mem_singleton.mp hb
    refine ⟨n, ?_⟩
    simp [Cluster.setNode, ClusterNode.sealed]

theorem NodeOk.withStage (h : NodeOk C ch₀ members n node) {stage : SealStage}
    (hgated : stage = .gated → HasTurn C ch₀ members node.log n)
    (hprop : stage ≠ .idle → node.cfg.role = .proposer) :
    NodeOk C ch₀ members n { node with stage := stage } :=
  ⟨h.rounds, hgated, hprop⟩

/-- What holds of a cluster is kept by every clean step. -/
theorem step_clusterInv (h : ClusterInv C ch₀ members net) (hkeys : KeysMatch C ch₀)
    (hsigns : ∀ sk ∈ ch₀.valSks, C.SignsVerify sk) {act : ClusterAct}
    (hvalid : act.Valid C net) (hclean : act.Clean C net)
    (hstep : clusterStep C net act = some net') : ClusterInv C ch₀ members net' := by
  cases act with
  | readLead id =>
      simp only [clusterStep] at hstep
      split at hstep
      · rename_i hrole
        obtain rfl := Option.some.inj hstep
        refine h.setSame rfl rfl rfl ((h.nodeOk id).withStage ?_ fun _ => hrole)
        intro hstage
        cases hstage
      · cases hstep
  | askTurn id =>
      simp only [clusterStep] at hstep
      split at hstep
      · rename_i height hstage
        obtain rfl := Option.some.inj hstep
        have hrole := h.proposers id (by rw [hstage]; simp)
        unfold ClusterNode.askTurn
        split
        · refine h.setSame rfl rfl rfl ((h.nodeOk id).withStage ?_ fun _ => hrole)
          intro hgated
          cases hgated
        · refine h.setSame rfl rfl rfl ((h.nodeOk id).withStage ?_ fun _ => hrole)
          intro hgated
          cases hgated
        · refine h.setSame rfl rfl rfl ((h.nodeOk id).withStage ?_ fun _ => hrole)
          intro hgated
          cases hgated
      · cases hstep
  | skipMissed id =>
      simp only [clusterStep] at hstep
      split at hstep
      · rename_i height hstage
        obtain rfl := Option.some.inj hstep
        have hsame := skipMissedH_false (hclean height hstage)
        refine h.setSame rfl hsame rfl ⟨h.rounds id, ?_, fun hne => absurd rfl hne⟩
        intro hgated
        cases hgated
      · cases hstep
  | restart id =>
      obtain rfl := Option.some.inj hstep
      refine h.setSame rfl rfl rfl ((h.nodeOk id).withStage ?_ fun hne => absurd rfl hne)
      intro hgated
      cases hgated
  | propose id remoteTipH =>
      obtain ⟨msg, hmsg, rfl⟩ := Option.map_eq_some_iff.mp hstep
      obtain ⟨hheight, hturn, htail⟩ := mkClusterProp_turn hmsg
      have hfollows := h.logs.follows id
      refine h.addProposal ?_ ?_
      · intro b hb
        have hkept := htail b hb
        exact ⟨id, hfollows.mem_log h.genesis hkept⟩
      · have htip := h.logs.tipH id
        have hnext : (net.nodes id).inner.chain.tipH.toNat + 1 < 2 ^ 64 := h.logs.room id
        refine .inr ⟨?_, (net.nodes id).inner.chain, hfollows, ?_⟩
        · rw [hheight, toNat_saturatingAdd_of_fits hnext, htip]
          rfl
        · rw [← hheight, ← h.logs.sameMembers id]
          exact hturn
  | recordOwn id i openedAtMs =>
      simp only [clusterStep] at hstep
      split at hstep
      · cases hstep
      · rename_i sender msg hget
        split at hstep
        · rename_i hsender
          obtain rfl := Option.some.inj hstep
          refine h.setSame rfl rfl rfl ⟨?_, h.gated id, h.proposers id⟩
          intro hrole key r hkey
          rcases recordClusterProp_none hkey with ⟨rfl, _⟩ | hold
          · have hdue := h.due _ (List.mem_of_getElem? hget)
            rw [← hsender]
            exact hdue
          · exact h.rounds id hrole key r hold
        · cases hstep
  | handlePropose id i openedAtMs =>
      simp only [clusterStep] at hstep
      split at hstep
      · cases hstep
      · rename_i sender msg hget
        obtain rfl := Option.some.inj hstep
        have htail := h.tails _ (List.mem_of_getElem? hget)
        have hnode : ClusterInv C ch₀ members (net.setNode id
            ((net.nodes id).routePropose C id sender msg openedAtMs).1) := by
          rcases routePropose_cases (net.nodes id) id sender msg openedAtMs with
            hsame | ⟨hrole, memberId, htake⟩
          · rw [hsame]
            exact h.setSame rfl rfl rfl (h.nodeOk id)
          · rw [htake]
            exact h.takePropose hrole htail memberId openedAtMs
        exact hnode.addAttests _
  | handleAttest id i =>
      simp only [clusterStep] at hstep
      split at hstep
      · cases hstep
      · rename_i sender msg hget
        obtain rfl := Option.some.inj hstep
        refine h.setSame rfl rfl rfl ⟨?_, h.gated id, h.proposers id⟩
        exact fun hrole key r hkey => h.rounds id hrole key r (routeClusterAttest_none hkey)
  | pollGate id =>
      simp only [clusterStep] at hstep
      split at hstep
      · rename_i hstage
        obtain rfl := Option.some.inj hstep
        have hrole := h.proposers id (by rw [hstage]; simp)
        refine h.setSame rfl rfl rfl ((h.nodeOk id).withStage ?_ fun _ => hrole)
        intro hgated
        cases hpass : runClusterGate (net.nodes id).cfg (net.nodes id).rounds
            (net.nodes id).inner.chain.tipH with
        | false => simp [hpass] at hgated
        | true =>
            have htip := h.logs.tipH id
            have hnext : (net.nodes id).inner.chain.tipH.toNat + 1 < 2 ^ 64 := h.logs.room id
            have hheight := toNat_saturatingAdd_of_fits (y := 1#64) hnext
            have hone : (1#64).toNat = 1 := rfl
            rcases h.rounds id hrole _ _ (runClusterGate_round hpass) with hbelow | ⟨_, hturn⟩
            · omega
            · exact hturn
      · cases hstep
  | sealNext id now entries =>
      simp only [clusterStep] at hstep
      split at hstep
      · rename_i hgated
        split at hstep
        · cases hstep
        · rename_i ch hseal
          obtain ⟨blk, hblk, rfl⟩ := Option.map_eq_some_iff.mp hstep
          exact h.sealNext hkeys hsigns hgated hvalid hclean.1 hclean.2 hseal hblk
      · cases hstep
  | deliver id blocks =>
      simp only [clusterStep] at hstep
      split at hstep
      · rename_i hsent
        obtain rfl := Option.some.inj hstep
        exact h.takeBatch fun b hb => h.blocks b (hsent b hb)
      · cases hstep

end Steps

/-! ## Runs -/

section Runs

variable {C : Crypto} {ch₀ : Chain} {members : List String} {net net' : Cluster}

/-- Of any two logs one is a prefix of the other, each chain keeps the end of its log, and no two
nodes ever had different blocks at one height. -/
structure Cluster.NoFork (net : Cluster) : Prop where
  prefixes : ∀ n m, (net.nodes n).log <+: (net.nodes m).log ∨
    (net.nodes m).log <+: (net.nodes n).log
  retained : ∀ n, (net.nodes n).inner.chain.blocks =
    (net.nodes n).log.drop ((net.nodes n).log.length - tailBlockCap)
  sameHeight : ∀ n m, ∀ b ∈ (net.nodes n).log, ∀ b' ∈ (net.nodes m).log,
    b.hdr.height = b'.hdr.height → b = b'

/-- All nodes start from one chain with one list of members, and nothing is in flight. -/
structure Cluster.IsStart (ch₀ : Chain) (members : List String) (net : Cluster) : Prop where
  nodes : ∀ n, (net.nodes n).cfg.members = members ∧ (net.nodes n).inner.chain = ch₀ ∧
    (net.nodes n).rounds = (fun _ => none) ∧ (net.nodes n).stage = .idle ∧ (net.nodes n).log = []
  proposals : net.proposals = []
  attests : net.attests = []
  blocks : net.blocks = []

/-- A step of the cluster whose entries, if it seals, come from the workers. -/
def ClusterStep (C : Crypto) (net : Cluster) (act : ClusterAct) (net' : Cluster) : Prop :=
  clusterStep C net act = some net' ∧ act.Valid C net

theorem boot_ok {cfg : GenCfg} {valSks : List SigningKey} (h : Chain.boot cfg valSks = some ch₀) :
    ch₀.blocks = [] ∧ ch₀.tipH = 0#64 := by
  simp only [Chain.boot] at h
  split at h
  · obtain rfl := Option.some.inj h
    exact ⟨rfl, rfl⟩
  · cases h

theorem start_clusterInv (hblocks : ch₀.blocks = []) (htip : ch₀.tipH = 0#64)
    (h : net.IsStart ch₀ members) : ClusterInv C ch₀ members net := by
  have hrounds : ∀ n key, (net.nodes n).rounds key = none := by
    intro n key
    rw [(h.nodes n).2.2.1]
  refine ⟨hblocks, ⟨fun n => (h.nodes n).1, ?_, ?_, ?_⟩, ?_, ?_, ?_, ?_, ?_, ?_⟩
  · intro n
    rw [(h.nodes n).2.1, (h.nodes n).2.2.2.2]
    exact .nil
  · rw [funext fun n => (h.nodes n).2.2.2.2]
    exact PrefixLog.agree_nil _
  · intro n
    rw [(h.nodes n).2.1, htip]
    decide
  · simp [h.blocks]
  · simp [h.proposals]
  · simp [h.proposals]
  · exact fun n _ height r hkey => absurd (hrounds n _) hkey
  · intro n hgated
    rw [(h.nodes n).2.2.2.1] at hgated
    cases hgated
  · exact fun n hne => absurd (h.nodes n).2.2.2.1 hne

theorem ClusterInv.noFork (h : ClusterInv C ch₀ members net) : net.NoFork where
  prefixes := h.logs.agree.prefixes
  retained := fun n => (h.logs.follows n).blocks h.genesis
  sameHeight := by
    intro n m b hb b' hb' hheight
    obtain ⟨L, rest, hsplit⟩ := List.append_of_mem hb
    obtain ⟨L', rest', hsplit'⟩ := List.append_of_mem hb'
    have hpre : L ++ [b] <+: (net.nodes n).log := ⟨rest, by rw [hsplit]; simp⟩
    have hpre' : L' ++ [b'] <+: (net.nodes m).log := ⟨rest', by rw [hsplit']; simp⟩
    obtain ⟨ch, hch⟩ := (h.logs.follows n).earlier hpre
    obtain ⟨ch', hch'⟩ := (h.logs.follows m).earlier hpre'
    have hnext := hch.next_height
    have hnext' := hch'.next_height
    have hlen := hpre.length_le
    have hlen' := hpre'.length_le
    have htip := h.logs.tipH n
    have htip' := h.logs.tipH m
    have hroom := h.logs.room n
    have hroom' := h.logs.room m
    rw [List.length_append, List.length_singleton] at hlen hlen'
    rw [hheight] at hnext
    have hsame : (L ++ [b]).length = (L' ++ [b']).length := by
      simp only [List.length_append, List.length_singleton]
      omega
    have heq : L ++ [b] = L' ++ [b'] := by
      rcases h.logs.agree.prefixes n m with hnm | hmn
      · exact (List.prefix_of_prefix_length_le (hpre.trans hnm) hpre' hsame.le).eq_of_length hsame
      · exact (List.prefix_of_prefix_length_le hpre (hpre'.trans hmn) hsame.le).eq_of_length hsame
    exact (List.append_inj_right' heq rfl |> List.singleton_inj.mp)

/-- In every run whose steps are clean, no fork comes about. -/
theorem cluster_noFork {cfg : GenCfg} {valSks : List SigningKey} {acts : List ClusterAct}
    (hboot : Chain.boot cfg valSks = some ch₀) (hkeys : KeysMatch C ch₀)
    (hsigns : ∀ sk ∈ ch₀.valSks, C.SignsVerify sk) (hstart : net.IsStart ch₀ members)
    (hrun : Run (fun net act net' => ClusterStep C net act net' ∧ act.Clean C net) net acts net') :
    net'.NoFork := by
  obtain ⟨hblocks, htip⟩ := boot_ok hboot
  have hinv : ClusterInv C ch₀ members net' := by
    refine hrun.invariant ?_ (start_clusterInv hblocks htip hstart)
    rintro s act s' h ⟨⟨hstep, hvalid⟩, hclean⟩
    exact step_clusterInv h hkeys hsigns hvalid hclean hstep
  exact hinv.noFork

theorem run_of_acts (step : Cluster → ClusterAct → Prop) {acts : List ClusterAct}
    (hok : acts.foldlM (clusterStep C) net = some net')
    (hside : ∀ act ∈ acts, ∀ net, act.Valid C net ∧ step net act) :
    Run (fun net act net' => ClusterStep C net act net' ∧ step net act) net acts net' := by
  induction acts using List.reverseRecOn generalizing net' with
  | nil =>
      obtain rfl := Option.some.inj hok
      exact .nil _
  | append_singleton acts act ih =>
      rw [List.foldlM_append] at hok
      obtain ⟨net₁, hfirst, hlast⟩ := Option.bind_eq_some_iff.mp hok
      have hact := hside act (by simp) net₁
      refine (ih hfirst fun a ha => hside a (List.mem_append_left _ ha)).snoc ⟨⟨?_, hact.1⟩, hact.2⟩
      simpa using hlast

end Runs

/-! ## A failover and a late primary

The primary of height 1 passes its gate and is slow to seal. The other
proposer gives height 1 up, passes its own gate and seals height 2. -/

/-- A member that passed its gate appends the block it seals. -/
theorem clusterStep_sealNext {C : Crypto} {net : Cluster} {id : String} {now : U64}
    {entries : List SealEntry} {ch : Chain} {blk : Block} (hgated : (net.nodes id).stage = .gated)
    (hseal : sealEntries C now (net.nodes id).inner.chain entries = .ok ch)
    (hblk : ch.blocks.getLast? = some blk) :
    ∃ net', clusterStep C net (.sealNext id now entries) = some net' ∧
      (net'.nodes id).log = (net.nodes id).log ++ [blk] ∧
      ∀ n ≠ id, net'.nodes n = net.nodes n := by
  refine ⟨{ net.setNode id ((net.nodes id).sealed C ch blk) with blocks := net.blocks ++ [blk] },
    ?_, ?_, fun n hn => ?_⟩
  · simp only [clusterStep, hgated, hseal, hblk, if_true, Option.map_some]
  · simp [Cluster.setNode, ClusterNode.sealed]
  · simp [Cluster.setNode, Function.update_of_ne hn]

namespace ClusterFork

open MissedPrimary (chain valSks)

def attesterSk : SigningKey :=
  0xce58c375d7569ea03100443602180ae4cd1d0ec1f13ddd731392ed83e6822c1c#256
def attesterPk : Bytes32 :=
  0x2a209eaf72e3c8dadf7bd0839d56b8d03c2fd7daa77a5327a1ec4a57b7d6bdbb#256

def members : List String := ["A", "B", "T"]

def binding (height : U64) : ClusterBinding :=
  let tipHash := hexEncode PolicyRace.genesisHash
  ⟨"vo1:" ++ toString height.toNat ++ ":" ++ tipHash, tipHash, none⟩

def crypto : Crypto :=
  .ofTables MissedPrimary.hashes (MissedPrimary.keys ++
    [⟨attesterSk, attesterPk,
      [(clusterSigMsg 1#64 0#32 (binding 1#64), 0x3b5e685bb0844b409322d23a73bbcc50e959578bf5bc9e1c3851fe3499369427d1fcce6e864d21963c77783baa0ffb36cc25302601e8c383ee1696e077963904#512),
        (clusterSigMsg 2#64 0#32 (binding 2#64), 0xc7af57f0a8fbcbe3089b0cae831fa855f8b1ef144ce9845aeea053038382c08d9a584e17ea12debc530347b6f2ad52e5083a1795b269adbc18e5df9522209700#512)]⟩])

def role (id : String) : ClusterRole :=
  if id = "T" then .attester else .proposer

def helloSk (id : String) : SigningKey :=
  if id = "T" then attesterSk else if id = "A" then devNetSk else SelfDrain.rescuedSk

def peers : TrustedPeers := fun id =>
  if id ∈ members then some ⟨crypto.verifyingKey (helloSk id), some id, true, role id⟩ else none

def start : Cluster where
  nodes := fun id =>
    { cfg := ⟨role id, members, 1#8, false⟩
      helloSk := helloSk id
      peers := peers
      inner := { chain := chain } }

/-- The primary of height 1 up to its gate. -/
def primaryActs : List ClusterAct :=
  [.readLead "B", .askTurn "B", .propose "B" none, .recordOwn "B" 0 none,
    .handlePropose "T" 0 none, .handleAttest "B" 0, .pollGate "B"]

/-- The other proposer gives height 1 up and seals the next one. -/
def failoverActs : List ClusterAct :=
  [.readLead "A", .askTurn "A", .skipMissed "A", .readLead "A", .askTurn "A", .propose "A" none,
    .recordOwn "A" 1 none, .handlePropose "T" 1 none, .handleAttest "A" 1, .pollGate "A",
    .sealNext "A" PolicyRace.now []]

/-- The primary seals at last. -/
def lateActs : List ClusterAct := [.sealNext "B" PolicyRace.now []]

def logsAfter (acts : List ClusterAct) : Option (List Block × List Block × List Block) :=
  (acts.foldlM (clusterStep crypto) start).map fun net =>
    ((net.nodes "A").log, (net.nodes "B").log, (net.nodes "T").log)

theorem isStart : start.IsStart chain members where
  nodes := fun _ => ⟨rfl, rfl, rfl, rfl, rfl⟩
  proposals := rfl
  attests := rfl
  blocks := rfl

/-- How far a member is: its stage, its chain and its log. -/
def progress (net : Cluster) (id : String) : SealStage × Chain × List Block :=
  ((net.nodes id).stage, (net.nodes id).inner.chain, (net.nodes id).log)

/-- The primary passes its gate. -/
theorem progress_primary : (primaryActs.foldlM (clusterStep crypto) start).map
    (fun net => (progress net "A", progress net "B", (net.nodes "T").log)) =
      some ((.idle, chain, []), (.gated, chain, []), []) := by
  unfold clusterStep crypto ClusterNode.routePropose mkClusterAttest routeClusterAttest
    recordClusterAttest clusterSigMsg
  -- the characters of a text are slower to compute than its bytes
  simp -zeta only [strBytes_eq_data]
  decide +kernel

/-- The other proposer passes its gate for the next height meanwhile. -/
theorem progress_failover :
    ((primaryActs ++ failoverActs.dropLast).foldlM (clusterStep crypto) start).map
      (fun net => (progress net "A", progress net "B", (net.nodes "T").log)) =
        some ((.gated, MissedPrimary.afterSkip, []), (.gated, chain, []), []) := by
  unfold clusterStep crypto ClusterNode.routePropose mkClusterAttest routeClusterAttest
    recordClusterAttest clusterSigMsg
  simp -zeta only [strBytes_eq_data]
  decide +kernel

theorem seal_primary :
    sealEntries crypto PolicyRace.now chain [] = .ok MissedPrimary.afterPrimary := by
  unfold sealEntries digest crypto MissedPrimary.hashes State.bytes Account.bytes
  -- bytes put together from the end are faster to compute
  simp -zeta only [List.append_assoc]
  decide +kernel

theorem seal_failover :
    sealEntries crypto PolicyRace.now MissedPrimary.afterSkip [] =
      .ok MissedPrimary.afterFailover := by
  unfold sealEntries digest crypto MissedPrimary.hashes State.bytes Account.bytes
  simp -zeta only [List.append_assoc]
  decide +kernel

/-- The primary at its gate seals its block. -/
theorem seal_late {net : Cluster} (hprogress : progress net "B" = (.gated, chain, [])) :
    ∃ net', lateActs.foldlM (clusterStep crypto) net = some net' ∧
      (net'.nodes "B").log = [⟨MissedPrimary.primaryHdr, []⟩] ∧
      ∀ id ≠ "B", net'.nodes id = net.nodes id := by
  obtain ⟨hgated, hchain, hlog⟩ := by simpa only [progress, Prod.mk.injEq] using hprogress
  obtain ⟨net', hstep, hself, hothers⟩ := clusterStep_sealNext hgated
    (by rw [hchain]; exact seal_primary) MissedPrimary.last_primary
  refine ⟨net', ?_, by rw [hself, hlog, List.nil_append], hothers⟩
  rw [lateActs, List.foldlM_cons, hstep]
  rfl

theorem logs_primary :
    logsAfter (primaryActs ++ lateActs) = some ([], [⟨MissedPrimary.primaryHdr, []⟩], []) := by
  obtain ⟨net, hfirst, hprogress⟩ := Option.map_eq_some_iff.mp progress_primary
  simp only [Prod.mk.injEq] at hprogress
  obtain ⟨hA, hB, hT⟩ := hprogress
  obtain ⟨net', hlate, hself, hothers⟩ := seal_late hB
  have hlog : (net.nodes "A").log = [] := congrArg (fun p => p.2.2) hA
  rw [logsAfter, List.foldlM_append, hfirst, Option.bind_eq_bind, Option.bind_some, hlate,
    Option.map_some, hself, hothers "A" (by decide), hothers "T" (by decide), hlog, hT]

theorem logs_forked : logsAfter (primaryActs ++ failoverActs ++ lateActs) =
    some ([⟨MissedPrimary.failoverHdr, []⟩], [⟨MissedPrimary.primaryHdr, []⟩], []) := by
  obtain ⟨net, hfirst, hprogress⟩ := Option.map_eq_some_iff.mp progress_failover
  simp only [Prod.mk.injEq] at hprogress
  obtain ⟨hA, hB, hT⟩ := hprogress
  obtain ⟨hgated, hchain, hlog⟩ := by simpa only [progress, Prod.mk.injEq] using hA
  obtain ⟨net₁, hfailover, hself, hothers⟩ := clusterStep_sealNext hgated
    (by rw [hchain]; exact seal_failover) MissedPrimary.last_failover
  obtain ⟨net', hlate, hself', hothers'⟩ := seal_late
    (by rw [progress, hothers "B" (by decide)]; exact hB)
  have hsplit : primaryActs ++ failoverActs = (primaryActs ++ failoverActs.dropLast) ++
      [.sealNext "A" PolicyRace.now []] := rfl
  rw [logsAfter, hsplit, List.foldlM_append, List.foldlM_append, hfirst, Option.bind_eq_bind,
    Option.bind_some, List.foldlM_cons, hfailover]
  simp only [Option.bind_eq_bind, Option.bind_some, List.foldlM_nil, Option.pure_def, hlate,
    Option.map_some]
  rw [hself', hothers' "A" (by decide), hothers' "T" (by decide), hself,
    hothers "T" (by decide), hlog, hT, List.nil_append]

theorem gated_tipH : (primaryActs.foldlM (clusterStep crypto) start).map
    (fun net => (net.nodes "B").inner.chain.tipH) = some 0#64 := by
  obtain ⟨net, hfirst, hprogress⟩ := Option.map_eq_some_iff.mp progress_primary
  simp only [Prod.mk.injEq] at hprogress
  have hchain : (net.nodes "B").inner.chain = chain := congrArg (fun p => p.2.1) hprogress.2.1
  rw [hfirst, Option.map_some, hchain]
  rfl

theorem keysMatch : KeysMatch crypto chain := by
  intro i sk hsk
  match i, hsk with
  | 0, hsk =>
      obtain rfl := Option.some.inj hsk
      exact ⟨_, rfl, by decide⟩
  | 1, hsk =>
      obtain rfl := Option.some.inj hsk
      exact ⟨_, rfl, by decide⟩

theorem signsVerify : ∀ sk ∈ chain.valSks, crypto.SignsVerify sk := by
  intro sk hsk
  refine Crypto.ofTables_signsVerify _ _ ?_
  rcases List.mem_cons.mp hsk with rfl | hsk
  · exact ⟨_, List.mem_cons_self, rfl⟩
  · obtain rfl := List.mem_singleton.mp hsk
    exact ⟨_, List.mem_cons_of_mem _ List.mem_cons_self, rfl⟩

theorem acts_valid {act : ClusterAct} (h : act ∈ primaryActs ++ failoverActs ++ lateActs)
    (net : Cluster) : act.Valid crypto net := by
  simp only [primaryActs, failoverActs, lateActs, List.cons_append, List.nil_append,
    List.mem_cons, List.not_mem_nil, or_false] at h
  rcases h with rfl | rfl | rfl | rfl | rfl | rfl | rfl | rfl | rfl | rfl | rfl | rfl | rfl |
    rfl | rfl | rfl | rfl | rfl | rfl <;> simp [ClusterAct.Valid]

theorem primaryActs_clean {act : ClusterAct} (h : act ∈ primaryActs) (net : Cluster) :
    act.Clean crypto net := by
  simp only [primaryActs, List.mem_cons, List.not_mem_nil, or_false] at h
  rcases h with rfl | rfl | rfl | rfl | rfl | rfl | rfl <;> exact trivial

/-- The run in which the primary passes its gate and seals in time. -/
theorem run_primary : ∃ net', Run (fun net act net' =>
      ClusterStep crypto net act net' ∧ act.Clean crypto net) start (primaryActs ++ lateActs) net' ∧
    (net'.nodes "B").log = [⟨MissedPrimary.primaryHdr, []⟩] := by
  obtain ⟨net', hacts, hlogs⟩ := Option.map_eq_some_iff.mp logs_primary
  have hsplit := hacts
  rw [List.foldlM_append] at hsplit
  obtain ⟨net₁, hfirst, hlast⟩ := Option.bind_eq_some_iff.mp hsplit
  have hrun := run_of_acts (fun net act => act.Clean crypto net) hfirst fun act hact net =>
    ⟨acts_valid (List.mem_append_left _ (List.mem_append_left _ hact)) net,
      primaryActs_clean hact net⟩
  have htip : (net₁.nodes "B").inner.chain.tipH = 0#64 := by
    have h := gated_tipH
    rw [hfirst] at h
    exact Option.some.inj h
  refine ⟨net', hrun.snoc ⟨⟨?_, ?_⟩, ?_, ?_⟩, ?_⟩
  · simpa [lateActs] using hlast
  · simp [ClusterAct.Valid]
  · exact fun _ _ _ => trivial
  · rw [htip]
    decide
  · simp only [Prod.mk.injEq] at hlogs
    exact hlogs.2.1

end ClusterFork

/-- A run without skips agrees. -/
theorem cluster_noFork_primary :
    ∃ net', Run (fun net act net' => ClusterStep ClusterFork.crypto net act net' ∧
        act.Clean ClusterFork.crypto net) ClusterFork.start
        (ClusterFork.primaryActs ++ ClusterFork.lateActs) net' ∧
      (net'.nodes "B").log = [⟨MissedPrimary.primaryHdr, []⟩] ∧ net'.NoFork := by
  obtain ⟨net', hrun, hlog⟩ := ClusterFork.run_primary
  have hboot : Chain.boot MissedPrimary.net MissedPrimary.valSks = some MissedPrimary.chain := by
    decide
  exact ⟨net', hrun, hlog, cluster_noFork hboot ClusterFork.keysMatch ClusterFork.signsVerify
    ClusterFork.isStart hrun⟩

/-- The skip and the late seal leave two nodes with different blocks on genesis. -/
theorem cluster_forks :
    Chain.boot MissedPrimary.net MissedPrimary.valSks = some MissedPrimary.chain ∧
      KeysMatch ClusterFork.crypto MissedPrimary.chain ∧
      (∀ sk ∈ MissedPrimary.chain.valSks, ClusterFork.crypto.SignsVerify sk) ∧
      ClusterFork.start.IsStart MissedPrimary.chain ClusterFork.members ∧
      ∃ net', Run (ClusterStep ClusterFork.crypto) ClusterFork.start
          (ClusterFork.primaryActs ++ ClusterFork.failoverActs ++ ClusterFork.lateActs) net' ∧
        (net'.nodes "A").log = [⟨MissedPrimary.failoverHdr, []⟩] ∧
        (net'.nodes "B").log = [⟨MissedPrimary.primaryHdr, []⟩] ∧ ¬ net'.NoFork := by
  refine ⟨by decide, ClusterFork.keysMatch, ClusterFork.signsVerify, ClusterFork.isStart, ?_⟩
  obtain ⟨net', hacts, hlogs⟩ := Option.map_eq_some_iff.mp ClusterFork.logs_forked
  simp only [Prod.mk.injEq] at hlogs
  have hrun := run_of_acts (fun _ _ => True) hacts fun act hact net =>
    ⟨ClusterFork.acts_valid hact net, trivial⟩
  refine ⟨net', hrun.mono fun _ _ _ h => h.1, hlogs.1, hlogs.2.1, ?_⟩
  intro hnoFork
  have hprefix := hnoFork.prefixes "A" "B"
  rw [hlogs.1, hlogs.2.1] at hprefix
  revert hprefix
  decide

end Pwm
