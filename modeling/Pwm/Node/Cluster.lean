import Pwm.Node.Attest
import Pwm.Node.Replay
import Pwm.Node.Skips

/-!
# The proposer cluster

Nodes with one genesis and one list of members take turns at sealing. The
proposer of a height sends a proposal, attesters acknowledge it, and a gate
lets the proposer seal when enough of them did. A proposer whose turn it is not
waits and then gives the height up. Messages and blocks are never lost from the
model: each may be handled at any later time, any number of times, or not at
all, which covers every delay and order.
-/

namespace Pwm

open BitVec Attempt

/-- A proposal on the wire. -/
structure ClusterPropose where
  height : U64
  round : U32
  binding : ClusterBinding
  tailBlocks : List Block
  deriving DecidableEq

/-- The blocks sent along with a proposal, at most. -/
def clusterPropTailCap : Nat := 10

/-! ## Turns and proposals -/

/-- Whether it is the turn of this member at a height; the id has no blanks around it. -/
def localProdForH (id : String) (members : List String) (ch : Chain) (h : U64) :
    Except String Bool :=
  if id = "" then .ok false
  else do
    let st := rollEpochIfNeeded ch.cfg ch.st h
    let prodIdx ← pickProdIdx h st.activeValidatorIndices
    .ok (decide (members[prodIdx.toNat]? = some id))

/-- The most recent blocks, oldest first, down to one below the tip of the receiver. -/
def propTail (ch : Chain) (remoteTipH : Option U64) : List Block :=
  let gap := (remoteTipH.map fun h => ch.tipH.saturatingSub h).getD 0#64
  let tailDepth := max 1 (min (gap.saturatingAdd 2#64).toNat clusterPropTailCap)
  (ch.blocks.reverse.take tailDepth).reverse

/-- The proposal of a member whose turn it is. A target height is set in the manual mode only. -/
def mkClusterProp (C : Crypto) (id : String) (cfg : ClusterCfg) (manualTargetH : U64) (ch : Chain)
    (remoteTipH : Option U64) : Option ClusterPropose :=
  if cfg.role ≠ .proposer ∨ id = "" ∨ id ∉ cfg.members then none
  else
    let nextH := ch.tipH.saturatingAdd 1#64
    let height := if manualTargetH ≤ nextH then nextH else manualTargetH
    let activeIdxs :=
      if isEpochBoundary height ch.cfg then
        (rollEpochIfNeeded ch.cfg ch.st height).activeValidatorIndices
      else ch.st.activeValidatorIndices
    match pickProdIdx height activeIdxs with
    | .error _ => none
    | .ok prodIdx =>
        if cfg.members[prodIdx.toNat]? ≠ some id then none
        else
          let tipHash := hexEncode (ch.tipHash C)
          some
            { height := height, round := 0#32,
              binding := ⟨"vo1:" ++ toString height.toNat ++ ":" ++ tipHash, tipHash, none⟩,
              tailBlocks := if cfg.fullBlocks then propTail ch remoteTipH else [] }

/-- An attester that is a member signs every proposal it gets. -/
def mkClusterAttest (C : Crypto) (id : String) (cfg : ClusterCfg) (sk : SigningKey)
    (msg : ClusterPropose) : Option ClusterAttest :=
  if cfg.role ≠ .attester ∨ id = "" ∨ id ∉ cfg.members then none
  else
    let signMsg := clusterSigMsg msg.height msg.round msg.binding
    some ⟨msg.height, msg.round, msg.binding, C.sign sk signMsg⟩

/-! ## Nodes and what is in flight -/

/-- Where the seal loop of a node stands. -/
inductive SealStage
  | idle
  /-- The next height was read. -/
  | lead (h : U64)
  /-- The height is another member's, and the time for it runs. -/
  | missed (h : U64)
  /-- It is the turn of this member. -/
  | turn
  /-- The gate let pass, and the chain is to be locked next. -/
  | gated
  deriving DecidableEq

/-- A node of the cluster, which its peers know by its member id. The log is every block that it appended since genesis, of which the
chain keeps the most recent ones. -/
structure ClusterNode where
  cfg : ClusterCfg
  helloSk : SigningKey
  peers : TrustedPeers
  inner : Inner
  rounds : ClusterRounds := fun _ => none
  stage : SealStage := .idle
  log : List Block := []

structure Cluster where
  nodes : String → ClusterNode
  proposals : List (String × ClusterPropose) := []
  attests : List (String × ClusterAttest) := []
  blocks : List Block := []

/-- A batch of blocks is applied as a whole or not at all. -/
def applyBlkBatch (C : Crypto) (inn : Inner) (blocks : List Block) : Except SyncFault Inner :=
  blocks.foldlM (applyBlk C) inn

def ClusterNode.applyBatch (C : Crypto) (node : ClusterNode) (blocks : List Block) : ClusterNode :=
  match applyBlkBatch C node.inner blocks with
  | .ok inn => { node with inner := inn, log := node.log ++ blocks }
  | .error _ => node

/-- The blocks of a proposal above the tip of the receiver, by height. -/
def tailBatch (msg : ClusterPropose) (localTip : U64) : List Block :=
  (msg.tailBlocks.mergeSort fun a b => decide (a.hdr.height ≤ b.hdr.height)).filter fun b =>
    decide (localTip < b.hdr.height)

/-- A proposal is taken: its blocks are tried when the node is behind, and the round is bound. -/
def ClusterNode.takePropose (C : Crypto) (node : ClusterNode) (memberId : String)
    (msg : ClusterPropose) (openedAtMs : Option U64) : ClusterNode :=
  let localTip := node.inner.chain.tipH
  let node :=
    if localTip.saturatingAdd 1#64 < msg.height then node.applyBatch C (tailBatch msg localTip)
    else node
  { node with rounds :=
      recordClusterProp node.rounds msg.height msg.round msg.binding memberId openedAtMs }

/-- A proposal frame of a peer, taken and attested or dropped. -/
def ClusterNode.routePropose (C : Crypto) (node : ClusterNode) (id nodeId : String)
    (msg : ClusterPropose) (openedAtMs : Option U64) : ClusterNode × Option ClusterAttest :=
  match clusterPeer node.cfg.members node.peers nodeId with
  | none => (node, none)
  | some (peer, memberId) =>
      if clusterRoleOk node.cfg.role peer.clusterRole true then
        (node.takePropose C memberId msg openedAtMs, mkClusterAttest C id node.cfg node.helloSk msg)
      else (node, none)

/-- The node after it sealed a block. -/
def ClusterNode.sealed (C : Crypto) (node : ClusterNode) (ch : Chain) (blk : Block) :
    ClusterNode :=
  { node with
    inner := blk.txs.foldl (fun inn tx => inn.recordCrossShardTx C tx blk.hdr.height)
      { node.inner with chain := ch }
    stage := .idle
    log := node.log ++ [blk] }

/-- The seal loop after it asked whose turn the height is. -/
def ClusterNode.askTurn (node : ClusterNode) (id : String) (h : U64) : ClusterNode :=
  match localProdForH id node.cfg.members node.inner.chain h with
  | .ok true => { node with stage := .turn }
  | .ok false => { node with stage := .missed h }
  | .error _ => { node with stage := .idle }

/-- The seal loop gives a height up, if it still is the next one. -/
def ClusterNode.skipMissed (node : ClusterNode) (h : U64) : ClusterNode :=
  { node with
    inner := { node.inner with chain := (node.inner.chain.skipMissedH h).2 }
    stage := .idle }

namespace Cluster

def setNode (net : Cluster) (id : String) (node : ClusterNode) : Cluster :=
  { net with nodes := Function.update net.nodes id node }

end Cluster

/-- What can happen next: a step of the seal loop of a node, or a message or blocks handled. -/
inductive ClusterAct
  | readLead (id : String)
  | askTurn (id : String)
  | skipMissed (id : String)
  | restart (id : String)
  | propose (id : String) (remoteTipH : Option U64)
  | recordOwn (id : String) (i : Nat) (openedAtMs : Option U64)
  | handlePropose (id : String) (i : Nat) (openedAtMs : Option U64)
  | handleAttest (id : String) (i : Nat)
  | pollGate (id : String)
  | sealNext (id : String) (now : U64) (entries : List SealEntry)
  | deliver (id : String) (blocks : List Block)

/-- The cluster after an action; none when the action is not possible there. -/
def clusterStep (C : Crypto) (net : Cluster) : ClusterAct → Option Cluster
  | .readLead id =>
      let node := net.nodes id
      if node.cfg.role = .proposer then
        some (net.setNode id
          { node with stage := .lead (node.inner.chain.tipH.saturatingAdd 1#64) })
      else none
  | .askTurn id =>
      match (net.nodes id).stage with
      | .lead h => some (net.setNode id ((net.nodes id).askTurn id h))
      | _ => none
  | .skipMissed id =>
      match (net.nodes id).stage with
      | .missed h => some (net.setNode id ((net.nodes id).skipMissed h))
      | _ => none
  | .restart id => some (net.setNode id { net.nodes id with stage := .idle })
  | .propose id remoteTipH =>
      (mkClusterProp C id (net.nodes id).cfg 0#64 (net.nodes id).inner.chain remoteTipH).map
        fun msg => { net with proposals := net.proposals ++ [(id, msg)] }
  | .recordOwn id i openedAtMs =>
      match net.proposals[i]? with
      | none => none
      | some (sender, msg) =>
          if sender = id then
            let rounds := recordClusterProp (net.nodes id).rounds msg.height msg.round msg.binding
              id openedAtMs
            some (net.setNode id { net.nodes id with rounds := rounds })
          else none
  | .handlePropose id i openedAtMs =>
      match net.proposals[i]? with
      | none => none
      | some (sender, msg) =>
          let (node, attest) := (net.nodes id).routePropose C id sender msg openedAtMs
          some { net.setNode id node with
            attests := net.attests ++ (attest.map fun att => (id, att)).toList }
  | .handleAttest id i =>
      match net.attests[i]? with
      | none => none
      | some (sender, msg) =>
          let node := net.nodes id
          some (net.setNode id
            { node with rounds := routeClusterAttest C node.cfg node.peers node.rounds sender msg })
  | .pollGate id =>
      let node := net.nodes id
      if node.stage = .turn then
        let pass := runClusterGate node.cfg node.rounds node.inner.chain.tipH
        some (net.setNode id { node with stage := if pass then .gated else .idle })
      else none
  | .sealNext id now entries =>
      let node := net.nodes id
      if node.stage = .gated then
        match sealEntries C now node.inner.chain entries with
        | .error _ => none
        | .ok ch =>
            ch.blocks.getLast?.map fun blk =>
              { net.setNode id (node.sealed C ch blk) with blocks := net.blocks ++ [blk] }
      else none
  | .deliver id blocks =>
      if ∀ blk ∈ blocks, blk ∈ net.blocks then
        some (net.setNode id ((net.nodes id).applyBatch C blocks))
      else none

end Pwm
