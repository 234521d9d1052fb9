import Pwm.Core.Tx
import Pwm.Lib.Run

/-!
# Attestation rounds

A node keeps, for each height and round, the proposal that the round is bound
to and the signatures of the members that attested it. The gate counts the
members among them.
-/

namespace Pwm

open BitVec

inductive ClusterRole
  | none
  | proposer
  | attester
  deriving DecidableEq

structure ClusterCfg where
  role : ClusterRole
  members : List String
  quorumK : U8
  fullBlocks : Bool := false
  deriving DecidableEq

/-- What a vote is bound to. -/
structure ClusterBinding where
  voteObject : String := ""
  candidateHash : String := ""
  candidateRef : Option String := none
  deriving DecidableEq

/-- An attestation on the wire, its signature decoded. -/
structure ClusterAttest where
  height : U64
  round : U32
  binding : ClusterBinding
  signature : Bytes64
  deriving DecidableEq

/-- What a node knows of a round. The attesters are a map of member ids to signatures. -/
structure ClusterRound where
  binding : ClusterBinding := {}
  proposerId : Option String := none
  proposeOpenedAtMs : Option U64 := none
  proposeRetryN : U8 := 0#8
  attesters : List (String × Bytes64) := []
  deriving DecidableEq

abbrev ClusterRounds := U64 × U32 → Option ClusterRound

/-- A peer whose hello was accepted. -/
structure TrustedPeer where
  pubkey : Bytes32
  instanceId : Option String
  clusterAttestEnabled : Bool
  clusterRole : ClusterRole
  deriving DecidableEq

/-- The peers by node id. -/
abbrev TrustedPeers := String → Option TrustedPeer

/-- The text without the blanks around it. -/
def trim (s : String) : String :=
  String.ofList ((s.toList.dropWhile isWhitespace).reverse.dropWhile isWhitespace).reverse

/-- The bytes that an attester signs: the height, the round and the binding, a line each. -/
def clusterSigMsg (height : U64) (round : U32) (b : ClusterBinding) : List U8 :=
  let decimal (n : Nat) : List U8 := (Nat.toDigits 10 n).map fun c => BitVec.ofNat 8 c.toNat
  [10#8].intercalate [decimal height.toNat, decimal round.toNat, strBytes b.voteObject,
    strBytes b.candidateHash, strBytes (b.candidateRef.getD "")]

def verifyAttestSig (C : Crypto) (signature : Bytes64) (pubkey : Bytes32) (msg : List U8) : Bool :=
  C.verify pubkey msg signature

def peerMemberId (peer : TrustedPeer) : Option String :=
  (peer.instanceId.map trim).filter fun id => decide (id ≠ "")

/-- Attesters take proposals of proposers, and proposers take attestations of attesters. -/
def clusterRoleOk (localRole remoteRole : ClusterRole) (proposeFrame : Bool) : Bool :=
  match localRole, remoteRole, proposeFrame with
  | .attester, .proposer, true => true
  | .proposer, .attester, false => true
  | _, _, _ => false

/-- The peer behind a cluster frame and its member id; none when the frame is dropped. -/
def clusterPeer (members : List String) (peers : TrustedPeers) (nodeId : String) :
    Option (TrustedPeer × String) :=
  match peers nodeId with
  | none => none
  | some peer =>
      if ¬ peer.clusterAttestEnabled then none
      else
        match peerMemberId peer with
        | none => none
        | some memberId => if memberId ∉ members then none else some (peer, memberId)

/-! ## Changes of a round -/

/-- Bind a round to a proposal. The binding is compared after it was written, so that it never
appears to have changed and the attesters of an earlier proposal stay. -/
def recordClusterProp (rounds : ClusterRounds) (height : U64) (round : U32)
    (binding : ClusterBinding) (proposerMemberId : String) (openedAtMs : Option U64) :
    ClusterRounds :=
  let entry := (rounds (height, round)).getD {}
  let entry : ClusterRound :=
    { entry with binding := binding, proposerId := some proposerMemberId }
  let bindChanged := entry.binding ≠ binding ∨ entry.proposerId ≠ some proposerMemberId
  let entry :=
    if bindChanged then
      { entry with attesters := [], proposeRetryN := 0#8, proposeOpenedAtMs := openedAtMs }
    else if entry.proposeOpenedAtMs = none then { entry with proposeOpenedAtMs := openedAtMs }
    else entry
  Function.update rounds (height, round) (some entry)

def ClusterRound.putAttester (entry : ClusterRound) (memberId : String) (signature : Bytes64) :
    ClusterRound :=
  { entry with
    attesters := (memberId, signature) :: entry.attesters.filter fun p => decide (p.1 ≠ memberId) }

/-- Take an attestation that is bound to the proposal of its round and signed by the peer. -/
def recordClusterAttest (C : Crypto) (rounds : ClusterRounds) (peer : TrustedPeer)
    (memberId : String) (msg : ClusterAttest) : ClusterRounds :=
  match rounds (msg.height, msg.round) with
  | none => rounds
  | some entry =>
      if entry.binding = msg.binding ∧ verifyAttestSig C msg.signature peer.pubkey
          (clusterSigMsg msg.height msg.round msg.binding) then
        Function.update rounds (msg.height, msg.round)
          (some (entry.putAttester memberId msg.signature))
      else rounds

/-- An attestation frame of a peer, taken or dropped. -/
def routeClusterAttest (C : Crypto) (cfg : ClusterCfg) (peers : TrustedPeers)
    (rounds : ClusterRounds) (nodeId : String) (msg : ClusterAttest) : ClusterRounds :=
  match clusterPeer cfg.members peers nodeId with
  | none => rounds
  | some (peer, memberId) =>
      if clusterRoleOk cfg.role peer.clusterRole false then
        recordClusterAttest C rounds peer memberId msg
      else rounds

/-- Open a round without attesters again, a limited number of times. -/
def maybeRetryRound (rounds : ClusterRounds) (h : U64) (r : U32) (maxRetry : U8) : ClusterRounds :=
  match rounds (h, r) with
  | none => rounds
  | some round =>
      if round.attesters ≠ [] ∨ maxRetry ≤ round.proposeRetryN then rounds
      else
        Function.update rounds (h, r)
          (some { round with
            proposeOpenedAtMs := none
            proposeRetryN := round.proposeRetryN.saturatingAdd 1#8 })

/-- Whether enough attesters acknowledged the proposal for the next height. -/
def runClusterGate (cfg : ClusterCfg) (rounds : ClusterRounds) (tipH : U64) : Bool :=
  match rounds (tipH.saturatingAdd 1#64, 0#32) with
  | none => false
  | some state =>
      if trim state.binding.voteObject = "" ∨ trim state.binding.candidateHash = "" then false
      else
        match state.proposerId with
        | none => false
        | some proposer =>
            if proposer ∉ cfg.members then false
            else
              let acks := state.attesters.filter fun p =>
                decide (p.1 ≠ proposer ∧ p.1 ∈ cfg.members)
              decide (cfg.quorumK ≤ BitVec.ofNat 8 acks.length)

end Pwm
