import Pwm.Core.Crypto
import Pwm.Node.Hello

/-!
# What the votes of a round say

Hellos, proposals, attestations and retries reach a node in any order. Each
vote that a round holds goes back to an attestation that was verified under
the key of the sender's latest hello. Whether the vote is for the binding that
the round has now depends on the proposals recorded in between.
-/

namespace Pwm

open Attempt

/-- What changes the trusted peers and the rounds of a node. -/
inductive RoundAct
  | accepted (hello : NodeHello)
  | refused (hello : NodeHello)
  | proposed (height : U64) (round : U32) (binding : ClusterBinding) (proposerId : String)
  | attested (nodeId : String) (msg : ClusterAttest)
  | retried (height : U64) (round : U32)

/-- A step of a node whose cluster is configured like this. -/
inductive RoundStep (C : Crypto) (cfg : ClusterCfg) :
    HandshakeState → RoundAct → HandshakeState → Prop
  | accepted {hs hs' : HandshakeState} {hello : NodeHello} {nowMs : U64} {bridge : Option String}
      {clusterId : String} {cls : PeerClass} :
      processIncomingPeerHello C hello nowMs bridge clusterId hs = .ok cls hs' →
      RoundStep C cfg hs (.accepted hello) hs'
  | refused {hs hs' : HandshakeState} {hello : NodeHello} {nowMs : U64} {bridge : Option String}
      {clusterId reason : String} :
      processIncomingPeerHello C hello nowMs bridge clusterId hs = .error reason hs' →
      RoundStep C cfg hs (.refused hello) hs'
  | proposed (hs : HandshakeState) (height : U64) (round : U32) (binding : ClusterBinding)
      (proposerId : String) (openedAtMs : Option U64) :
      RoundStep C cfg hs (.proposed height round binding proposerId)
        { hs with rounds :=
            recordClusterProp hs.rounds height round binding proposerId openedAtMs }
  | attested (hs : HandshakeState) (nodeId : String) (msg : ClusterAttest) :
      RoundStep C cfg hs (.attested nodeId msg)
        { hs with rounds := routeClusterAttest C cfg hs.trustedPeers hs.rounds nodeId msg }
  | retried (hs : HandshakeState) (height : U64) (round : U32) (maxRetry : U8) :
      RoundStep C cfg hs (.retried height round)
        { hs with rounds := maybeRetryRound hs.rounds height round maxRetry }

/-- A node that has just started knows no peers and no rounds. -/
def HandshakeState.Fresh (hs : HandshakeState) : Prop :=
  hs.trustedPeers = (fun _ => none) ∧ hs.rounds = (fun _ => none)

/-! ## Where trust and votes come from -/

/-- The latest hello that was accepted from a node. -/
def LatestHello (acts : List RoundAct) (hello : NodeHello) : Prop :=
  ∃ before after, acts = before ++ .accepted hello :: after ∧
    ∀ other, .accepted other ∈ after → other.nodeId ≠ hello.nodeId

/-- An attestation for a round that was sent by a member and verified under the key of its hello. -/
structure VoteFrom (C : Crypto) (cfg : ClusterCfg) (before : List RoundAct) (memberId : String)
    (hello : NodeHello) (msg : ClusterAttest) : Prop where
  latest : LatestHello before hello
  signed : hello.verifySignature C = true
  enabled : hello.capabilities.clusterAttestEnabled = true
  attester : hello.capabilities.clusterRole = .attester
  speaksFor : trimmedNonempty hello.capabilities.nodeInstanceId = some memberId
  isMember : memberId ∈ cfg.members
  verified : C.verify hello.pubkey (clusterSigMsg msg.height msg.round msg.binding) msg.signature =
    true

/-- A member voted for this binding of a round with this signature. -/
def Voted (C : Crypto) (cfg : ClusterCfg) (acts : List RoundAct) (memberId : String)
    (key : U64 × U32) (binding : ClusterBinding) (signature : Bytes64) : Prop :=
  ∃ before after hello msg, acts = before ++ .attested hello.nodeId msg :: after ∧
    VoteFrom C cfg before memberId hello msg ∧
    (msg.height, msg.round) = key ∧ msg.binding = binding ∧ msg.signature = signature

/-- The peers are those of the latest hellos. -/
def PeersDeclared (C : Crypto) (acts : List RoundAct) (hs : HandshakeState) : Prop :=
  ∀ nodeId peer, hs.trustedPeers nodeId = some peer →
    ∃ hello, LatestHello acts hello ∧ hello.nodeId = nodeId ∧ hello.trustedPeer = peer ∧
      hello.verifySignature C = true

/-- Each round has one vote a member, and the binding of each vote is related to its own. -/
def VotesFor (C : Crypto) (cfg : ClusterCfg) (R : ClusterBinding → ClusterBinding → Prop)
    (acts : List RoundAct) (rounds : ClusterRounds) : Prop :=
  ∀ key entry, rounds key = some entry → (entry.attesters.map Prod.fst).Nodup ∧
    ∀ vote ∈ entry.attesters, ∃ binding, R entry.binding binding ∧
      Voted C cfg acts vote.1 key binding vote.2

section Votes

variable {C : Crypto} {cfg : ClusterCfg} {R : ClusterBinding → ClusterBinding → Prop}
  {acts : List RoundAct} {act : RoundAct} {hs hs' : HandshakeState} {rounds : ClusterRounds}

theorem Voted.snoc {memberId : String} {key : U64 × U32} {binding : ClusterBinding}
    {signature : Bytes64} (h : Voted C cfg acts memberId key binding signature) (act : RoundAct) :
    Voted C cfg (acts ++ [act]) memberId key binding signature := by
  obtain ⟨before, after, hello, msg, rfl, hrest⟩ := h
  exact ⟨before, after ++ [act], hello, msg, by simp, hrest⟩

theorem LatestHello.snoc {hello : NodeHello} (h : LatestHello acts hello)
    (hact : ∀ other, act = .accepted other → other.nodeId ≠ hello.nodeId) :
    LatestHello (acts ++ [act]) hello := by
  obtain ⟨before, after, rfl, hafter⟩ := h
  refine ⟨before, after ++ [act], by simp, ?_⟩
  intro other hother
  rcases List.mem_append.mp hother with hother | hother
  · exact hafter other hother
  · exact hact other (List.mem_singleton.mp hother).symm

/-! ## Hellos -/

theorem checks_signed {hello : NodeHello} {ctx : HandshakeValidationCtx} {nowMs : U64}
    (h : hello.checks C ctx nowMs = .ok ()) : hello.verifySignature C = true := by
  simp only [NodeHello.checks, except_bind_ok_iff, check_ok_iff] at h
  obtain ⟨_, -, _, -, _, -, _, hsig, -⟩ := h
  exact hsig

theorem validateNodeHello_ok {hello : NodeHello} {nowMs : U64}
    (h : validateNodeHello C hello nowMs hs = .ok () hs') :
    hello.verifySignature C = true ∧ ∃ seen, hs' = { hs with replay := seen } := by
  simp only [validateNodeHello, bind_ok_iff, get_ok_iff, liftExcept_ok_iff, modify_ok_iff,
    require_ok_iff] at h
  obtain ⟨_, _, ⟨rfl, rfl⟩, _, _, ⟨hchecks, rfl⟩, _, _, rfl, -, rfl⟩ := h
  exact ⟨checks_signed hchecks, _, rfl⟩

theorem validateNodeHello_error {hello : NodeHello} {nowMs : U64} {reason : String}
    (h : validateNodeHello C hello nowMs hs = .error reason hs') :
    ∃ seen, hs' = { hs with replay := seen } := by
  simp only [validateNodeHello, bind_error_iff, get_ok_iff, get_error_iff, liftExcept_ok_iff,
    liftExcept_error_iff, modify_ok_iff, modify_error_iff, require_error_iff, false_or] at h
  obtain ⟨_, _, ⟨rfl, rfl⟩, ⟨_, -, -, rfl⟩ | ⟨_, _, ⟨-, rfl⟩, _, _, rfl, -, -, rfl⟩⟩ := h
  · exact ⟨_, rfl⟩
  · exact ⟨_, rfl⟩

/-- An accepted hello replaces what was known of its node and changes nothing else. -/
theorem processIncomingPeerHello_ok {hello : NodeHello} {nowMs : U64} {bridge : Option String}
    {clusterId : String} {cls : PeerClass}
    (h : processIncomingPeerHello C hello nowMs bridge clusterId hs = .ok cls hs') :
    hello.verifySignature C = true ∧
      hs'.trustedPeers = Function.update hs.trustedPeers hello.nodeId hello.trustedPeer ∧
      hs'.rounds = hs.rounds := by
  simp only [processIncomingPeerHello, bind_ok_iff, get_ok_iff, liftExcept_ok_iff, modify_ok_iff,
    pure_ok_iff] at h
  obtain ⟨_, _, hvalidate, _, _, ⟨rfl, rfl⟩, _, _, ⟨-, rfl⟩, _, _, rfl, -, rfl⟩ := h
  obtain ⟨hsig, _, rfl⟩ := validateNodeHello_ok hvalidate
  exact ⟨hsig, rfl, rfl⟩

/-- A refused hello changes neither the peers nor the rounds. -/
theorem processIncomingPeerHello_error {hello : NodeHello} {nowMs : U64} {bridge : Option String}
    {clusterId reason : String}
    (h : processIncomingPeerHello C hello nowMs bridge clusterId hs = .error reason hs') :
    hs'.trustedPeers = hs.trustedPeers ∧ hs'.rounds = hs.rounds := by
  simp only [processIncomingPeerHello, bind_error_iff, get_ok_iff, get_error_iff, liftExcept_ok_iff,
    liftExcept_error_iff, modify_ok_iff, modify_error_iff, pure_error_iff, false_or, or_false,
    and_false, exists_false] at h
  rcases h with hvalidate | ⟨_, _, hvalidate, _, _, ⟨rfl, rfl⟩, _, -, -, rfl⟩
  · obtain ⟨_, rfl⟩ := validateNodeHello_error hvalidate
    exact ⟨rfl, rfl⟩
  · obtain ⟨-, _, rfl⟩ := validateNodeHello_ok hvalidate
    exact ⟨rfl, rfl⟩

/-! ## The peers -/

theorem peersDeclared_step (h : PeersDeclared C acts hs) (hstep : RoundStep C cfg hs act hs') :
    PeersDeclared C (acts ++ [act]) hs' := by
  have hold : ∀ act, (∀ other, act ≠ .accepted other) →
      PeersDeclared C (acts ++ [act]) hs := by
    intro act hact nodeId peer hpeer
    obtain ⟨hello, hlatest, hrest⟩ := h nodeId peer hpeer
    exact ⟨hello, hlatest.snoc fun other hother => absurd hother (hact other), hrest⟩
  cases hstep with
  | accepted hok =>
      rename_i hello _ _ _ _
      obtain ⟨hsig, hpeers, -⟩ := processIncomingPeerHello_ok hok
      intro nodeId peer hpeer
      rw [hpeers] at hpeer
      by_cases hnode : nodeId = hello.nodeId
      · rw [hnode, Function.update_self] at hpeer
        obtain rfl := Option.some.inj hpeer
        exact ⟨hello, ⟨acts, [], rfl, by simp⟩, hnode.symm, rfl, hsig⟩
      · rw [Function.update_of_ne hnode] at hpeer
        obtain ⟨earlier, hlatest, hid, hrest⟩ := h nodeId peer hpeer
        refine ⟨earlier, hlatest.snoc ?_, hid, hrest⟩
        intro other hother hsame
        obtain rfl := RoundAct.accepted.inj hother
        exact hnode (hid.symm.trans hsame.symm)
  | refused herr =>
      obtain ⟨hpeers, -⟩ := processIncomingPeerHello_error herr
      intro nodeId peer hpeer
      rw [hpeers] at hpeer
      exact hold _ (by simp) nodeId peer hpeer
  | proposed => exact hold _ (by simp)
  | attested => exact hold _ (by simp)
  | retried => exact hold _ (by simp)

/-! ## The votes -/

theorem VotesFor.snoc (h : VotesFor C cfg R acts rounds) (act : RoundAct) :
    VotesFor C cfg R (acts ++ [act]) rounds := by
  intro key entry hentry
  obtain ⟨hnodup, hvotes⟩ := h key entry hentry
  refine ⟨hnodup, fun vote hvote => ?_⟩
  obtain ⟨binding, hR, hvoted⟩ := hvotes vote hvote
  exact ⟨binding, hR, hvoted.snoc act⟩

/-- One round is replaced by another whose votes are in order. -/
theorem VotesFor.update (h : VotesFor C cfg R acts rounds) (key : U64 × U32) {entry : ClusterRound}
    (hnodup : (entry.attesters.map Prod.fst).Nodup)
    (hvotes : ∀ vote ∈ entry.attesters, ∃ binding, R entry.binding binding ∧
      Voted C cfg acts vote.1 key binding vote.2) :
    VotesFor C cfg R acts (Function.update rounds key (some entry)) := by
  intro key' found hfound
  by_cases hkey : key' = key
  · subst hkey
    rw [Function.update_self] at hfound
    obtain rfl := Option.some.inj hfound
    exact ⟨hnodup, hvotes⟩
  · rw [Function.update_of_ne hkey] at hfound
    exact h key' found hfound

/-- The attesters of the round stay, whatever it is bound to from now on. -/
theorem recordClusterProp_eq (rounds : ClusterRounds) (height : U64) (round : U32)
    (binding : ClusterBinding) (proposerId : String) (openedAtMs : Option U64) :
    ∃ entry, recordClusterProp rounds height round binding proposerId openedAtMs =
        Function.update rounds (height, round) (some entry) ∧ entry.binding = binding ∧
      entry.attesters = ((rounds (height, round)).getD {}).attesters := by
  unfold recordClusterProp
  simp only [ne_eq, not_true_eq_false, or_self, ↓reduceIte]
  split
  · exact ⟨_, rfl, rfl, rfl⟩
  · exact ⟨_, rfl, rfl, rfl⟩

theorem VotesFor.record (h : VotesFor C cfg R acts rounds) {height : U64} {round : U32}
    {binding : ClusterBinding}
    (hkeep : ∀ entry, rounds (height, round) = some entry → entry.attesters ≠ [] →
      ∀ signed, R entry.binding signed → R binding signed)
    (proposerId : String) (openedAtMs : Option U64) :
    VotesFor C cfg R acts (recordClusterProp rounds height round binding proposerId openedAtMs) := by
  obtain ⟨entry, heq, rfl, hattesters⟩ :=
    recordClusterProp_eq rounds height round binding proposerId openedAtMs
  rw [heq]
  cases hold : rounds (height, round) with
  | none =>
      rw [hold] at hattesters
      exact h.update _ (by simp [hattesters]) (by simp [hattesters])
  | some old =>
      rw [hold, Option.getD_some] at hattesters
      obtain ⟨hnodup, hvotes⟩ := h _ _ hold
      refine h.update _ (by rw [hattesters]; exact hnodup) ?_
      intro vote hvote
      rw [hattesters] at hvote
      obtain ⟨signed, hsigned, hvoted⟩ := hvotes vote hvote
      exact ⟨signed, hkeep old hold (List.ne_nil_of_mem hvote) signed hsigned, hvoted⟩

theorem VotesFor.retry (h : VotesFor C cfg R acts rounds) (height : U64) (round : U32)
    (maxRetry : U8) : VotesFor C cfg R acts (maybeRetryRound rounds height round maxRetry) := by
  unfold maybeRetryRound
  cases hold : rounds (height, round) with
  | none => exact h
  | some old =>
      simp only
      split
      · exact h
      · obtain ⟨hnodup, hvotes⟩ := h _ _ hold
        exact h.update _ hnodup hvotes

theorem clusterPeer_some {members : List String} {peers : TrustedPeers} {nodeId memberId : String}
    {peer : TrustedPeer} (h : clusterPeer members peers nodeId = some (peer, memberId)) :
    peers nodeId = some peer ∧ peer.clusterAttestEnabled = true ∧
      trimmedNonempty peer.instanceId = some memberId ∧ memberId ∈ members := by
  unfold clusterPeer at h
  cases hpeer : peers nodeId with
  | none => simp [hpeer] at h
  | some found =>
      simp only [hpeer] at h
      split at h
      · cases h
      · rename_i henabled
        cases hmember : peerMemberId found with
        | none => simp [hmember] at h
        | some id =>
            simp only [hmember] at h
            split at h
            · cases h
            · rename_i hin
              obtain ⟨rfl, rfl⟩ := Prod.mk.inj (Option.some.inj h)
              exact ⟨rfl, by simpa using henabled, hmember, by simpa using hin⟩

theorem clusterRoleOk_attest {localRole remoteRole : ClusterRole}
    (h : clusterRoleOk localRole remoteRole false = true) : remoteRole = .attester := by
  cases localRole <;> cases remoteRole <;> simp [clusterRoleOk] at h ⊢

/-- An attestation is dropped, or it becomes the vote of its sender in its round. -/
theorem routeClusterAttest_cases (peers : TrustedPeers) (rounds : ClusterRounds) (nodeId : String)
    (msg : ClusterAttest) :
    routeClusterAttest C cfg peers rounds nodeId msg = rounds ∨
      ∃ peer memberId entry, clusterPeer cfg.members peers nodeId = some (peer, memberId) ∧
        peer.clusterRole = .attester ∧ rounds (msg.height, msg.round) = some entry ∧
        entry.binding = msg.binding ∧
        C.verify peer.pubkey (clusterSigMsg msg.height msg.round msg.binding) msg.signature = true ∧
        routeClusterAttest C cfg peers rounds nodeId msg =
          Function.update rounds (msg.height, msg.round)
            (some (entry.putAttester memberId msg.signature)) := by
  unfold routeClusterAttest
  cases hpeer : clusterPeer cfg.members peers nodeId with
  | none => exact .inl rfl
  | some found =>
      obtain ⟨peer, memberId⟩ := found
      simp only
      by_cases hrole : clusterRoleOk cfg.role peer.clusterRole false = true
      · rw [if_pos hrole]
        unfold recordClusterAttest
        cases hentry : rounds (msg.height, msg.round) with
        | none => exact .inl rfl
        | some entry =>
            simp only
            split
            · rename_i hok
              exact .inr ⟨peer, memberId, entry, rfl, clusterRoleOk_attest hrole, rfl, hok.1, hok.2,
                rfl⟩
            · exact .inl rfl
      · rw [if_neg hrole]
        exact .inl rfl

theorem VotesFor.attest (h : VotesFor C cfg R acts hs.rounds) (hpeers : PeersDeclared C acts hs)
    (hrefl : ∀ binding, R binding binding) (nodeId : String) (msg : ClusterAttest) :
    VotesFor C cfg R (acts ++ [.attested nodeId msg])
      (routeClusterAttest C cfg hs.trustedPeers hs.rounds nodeId msg) := by
  rcases routeClusterAttest_cases hs.trustedPeers hs.rounds nodeId msg with
    hsame | ⟨peer, memberId, entry, hpeer, hrole, hentry, hbinding, hverified, heq⟩
  · rw [hsame]
    exact h.snoc _
  · rw [heq]
    obtain ⟨htrusted, henabled, hmember, hin⟩ := clusterPeer_some hpeer
    obtain ⟨hello, hlatest, rfl, rfl, hsigned⟩ := hpeers nodeId peer htrusted
    obtain ⟨hnodup, hvotes⟩ := h _ _ hentry
    refine (h.snoc _).update _ ?_ ?_
    · simp only [ClusterRound.putAttester, List.map_cons, List.nodup_cons]
      refine ⟨by simp, (List.filter_sublist.map _).nodup hnodup⟩
    · intro vote hvote
      rcases List.mem_cons.mp hvote with rfl | hvote
      · refine ⟨msg.binding, ?_, acts, [], hello, msg, rfl, ?_, rfl, rfl, rfl⟩
        · rw [← hbinding]
          exact hrefl _
        · exact ⟨hlatest, hsigned, henabled, hrole, hmember, hin, hverified⟩
      · obtain ⟨binding, hR, hvoted⟩ := hvotes vote (List.mem_of_mem_filter hvote)
        exact ⟨binding, hR, hvoted.snoc _⟩

/-- The votes stay in order when a proposal respects the relation. -/
theorem votesFor_step (h : VotesFor C cfg R acts hs.rounds) (hpeers : PeersDeclared C acts hs)
    (hrefl : ∀ binding, R binding binding)
    (hkeep : ∀ height round binding proposerId, act = .proposed height round binding proposerId →
      ∀ entry, hs.rounds (height, round) = some entry → entry.attesters ≠ [] →
      ∀ signed, R entry.binding signed → R binding signed)
    (hstep : RoundStep C cfg hs act hs') : VotesFor C cfg R (acts ++ [act]) hs'.rounds := by
  cases hstep with
  | accepted hok =>
      obtain ⟨-, -, hrounds⟩ := processIncomingPeerHello_ok hok
      rw [hrounds]
      exact h.snoc _
  | refused herr =>
      obtain ⟨-, hrounds⟩ := processIncomingPeerHello_error herr
      rw [hrounds]
      exact h.snoc _
  | proposed height round binding proposerId openedAtMs =>
      exact (h.record (hkeep _ _ _ _ rfl) proposerId openedAtMs).snoc _
  | attested nodeId msg => exact h.attest hpeers hrefl nodeId msg
  | retried height round maxRetry => exact (h.retry height round maxRetry).snoc _

/-! ## Runs -/

/-- A proposal leaves the binding of a round with votes as it is. -/
def RoundAct.KeepsBinding (hs : HandshakeState) : RoundAct → Prop
  | .proposed height round binding _ => ∀ entry, hs.rounds (height, round) = some entry →
      entry.attesters = [] ∨ entry.binding = binding
  | _ => True

/-- Enough members other than the proposer voted for what the next round is bound to. -/
def QuorumVoted (C : Crypto) (cfg : ClusterCfg) (acts : List RoundAct) (rounds : ClusterRounds)
    (tipH : U64) : Prop :=
  ∃ (entry : ClusterRound) (proposer : String) (voters : List String),
    rounds (tipH.saturatingAdd 1#64, 0#32) = some entry ∧ entry.proposerId = some proposer ∧
    voters.Nodup ∧ cfg.quorumK.toNat ≤ voters.length ∧
    ∀ memberId ∈ voters, memberId ∈ cfg.members ∧ memberId ≠ proposer ∧ ∃ signature,
      Voted C cfg acts memberId (tipH.saturatingAdd 1#64, 0#32) entry.binding signature

theorem fresh_peersDeclared (h : hs.Fresh) : PeersDeclared C [] hs := by
  intro nodeId peer hpeer
  rw [h.1] at hpeer
  cases hpeer

theorem fresh_votesFor (h : hs.Fresh) : VotesFor C cfg R [] hs.rounds := by
  intro key entry hentry
  rw [h.2] at hentry
  cases hentry

/-- The gate counts members that are not the proposer. -/
theorem runClusterGate_acks {tipH : U64} (h : runClusterGate cfg rounds tipH = true) :
    ∃ entry proposer, rounds (tipH.saturatingAdd 1#64, 0#32) = some entry ∧
      entry.proposerId = some proposer ∧
      cfg.quorumK.toNat ≤ (entry.attesters.filter fun p =>
        decide (p.1 ≠ proposer ∧ p.1 ∈ cfg.members)).length := by
  unfold runClusterGate at h
  cases hentry : rounds (tipH.saturatingAdd 1#64, 0#32) with
  | none => simp [hentry] at h
  | some entry =>
      simp only [hentry] at h
      split at h
      · cases h
      · cases hproposer : entry.proposerId with
        | none => simp [hproposer] at h
        | some proposer =>
            simp only [hproposer] at h
            split at h
            · cases h
            · refine ⟨entry, proposer, rfl, hproposer, ?_⟩
              have hle := BitVec.le_def.mp (of_decide_eq_true h)
              rw [BitVec.toNat_ofNat] at hle
              exact hle.trans (Nat.mod_le _ _)

/-- Votes that are all for the present binding make a quorum for it. -/
theorem VotesFor.quorum (h : VotesFor C cfg Eq acts rounds) {tipH : U64}
    (hgate : runClusterGate cfg rounds tipH = true) : QuorumVoted C cfg acts rounds tipH := by
  obtain ⟨entry, proposer, hentry, hproposer, hcount⟩ := runClusterGate_acks hgate
  obtain ⟨hnodup, hvotes⟩ := h _ entry hentry
  refine ⟨entry, proposer, (entry.attesters.filter fun p =>
    decide (p.1 ≠ proposer ∧ p.1 ∈ cfg.members)).map Prod.fst, hentry, hproposer, ?_, ?_, ?_⟩
  · exact (List.filter_sublist.map _).nodup hnodup
  · rw [List.length_map]
    exact hcount
  · intro memberId hmember
    obtain ⟨vote, hvote, rfl⟩ := List.mem_map.mp hmember
    obtain ⟨hin, hok⟩ := List.mem_filter.mp hvote
    obtain ⟨hne, hmem⟩ := of_decide_eq_true hok
    obtain ⟨_, rfl, hvoted⟩ := hvotes vote hin
    exact ⟨hmem, hne, vote.2, hvoted⟩

/-- When no proposal changes the binding of a round with votes, every vote is for what its round
is bound to, and the gate lets pass only what a quorum voted for. -/
theorem quorum_for_binding {hs₀ : HandshakeState} (hstart : hs₀.Fresh)
    (hrun : Run (fun hs act hs' => RoundStep C cfg hs act hs' ∧ act.KeepsBinding hs) hs₀ acts hs) :
    (∀ key entry, hs.rounds key = some entry → ∀ vote ∈ entry.attesters,
        Voted C cfg acts vote.1 key entry.binding vote.2) ∧
      ∀ tipH, runClusterGate cfg hs.rounds tipH = true → QuorumVoted C cfg acts hs.rounds tipH := by
  have hinv : PeersDeclared C acts hs ∧ VotesFor C cfg Eq acts hs.rounds := by
    refine hrun.history_invariant (I := fun acts hs =>
      PeersDeclared C acts hs ∧ VotesFor C cfg Eq acts hs.rounds) ?_
      ⟨fresh_peersDeclared hstart, fresh_votesFor hstart⟩
    rintro acts hs act hs' ⟨hpeers, hvotes⟩ ⟨hstep, hkeeps⟩
    refine ⟨peersDeclared_step hpeers hstep, votesFor_step hvotes hpeers (fun _ => rfl) ?_ hstep⟩
    rintro height round binding proposerId rfl entry hentry hne signed rfl
    exact ((hkeeps entry hentry).resolve_left hne).symm
  refine ⟨fun key entry hentry vote hvote => ?_, fun tipH hgate => hinv.2.quorum hgate⟩
  obtain ⟨_, rfl, hvoted⟩ := (hinv.2 key entry hentry).2 vote hvote
  exact hvoted

/-- Every vote goes back to an attestation that was verified under the key of the latest hello of
its sender, one vote a member, and the peers are those of the latest hellos. -/
theorem votes_by_hello_keys {hs₀ : HandshakeState} (hstart : hs₀.Fresh)
    (hrun : Run (RoundStep C cfg) hs₀ acts hs) :
    (∀ key entry, hs.rounds key = some entry → (entry.attesters.map Prod.fst).Nodup ∧
        ∀ vote ∈ entry.attesters, ∃ binding, Voted C cfg acts vote.1 key binding vote.2) ∧
      ∀ nodeId peer, hs.trustedPeers nodeId = some peer →
        ∃ hello, LatestHello acts hello ∧ hello.nodeId = nodeId ∧ hello.trustedPeer = peer ∧
          hello.verifySignature C = true := by
  have hinv : PeersDeclared C acts hs ∧ VotesFor C cfg (fun _ _ => True) acts hs.rounds := by
    refine hrun.history_invariant (I := fun acts hs =>
      PeersDeclared C acts hs ∧ VotesFor C cfg (fun _ _ => True) acts hs.rounds) ?_
      ⟨fresh_peersDeclared hstart, fresh_votesFor hstart⟩
    rintro acts hs act hs' ⟨hpeers, hvotes⟩ hstep
    exact ⟨peersDeclared_step hpeers hstep,
      votesFor_step hvotes hpeers (fun _ => trivial) (fun _ _ _ _ _ _ _ _ _ _ => trivial) hstep⟩
  refine ⟨fun key entry hentry => ?_, hinv.1⟩
  obtain ⟨hnodup, hvotes⟩ := hinv.2 key entry hentry
  refine ⟨hnodup, fun vote hvote => ?_⟩
  obtain ⟨binding, -, hvoted⟩ := hvotes vote hvote
  exact ⟨binding, hvoted⟩

end Votes

/-! ## One key behind two members -/

namespace OneKey

def votePk : Bytes32 :=
  0x76706d78eb6d8851da3431fe8aa4f18d3ff81b385c3115392d091c8d3838f305#256
def otherPk : Bytes32 :=
  0x4b8dc6d222acd7ec677b87a15de2047bd0bbb4fea27babd7ac0d88b1dae7a858#256

def hello (nodeId memberId : String) (pubkey : Bytes32) (nonce : U8) (signature : Bytes64) :
    NodeHello where
  networkId := "devnet"
  genesisHash := none
  domainHi := 17#8
  clusterId := "cluster-a"
  nodeId := nodeId
  pubkey := pubkey
  capabilities :=
    { protocolVersion := "0.1.0", txFeatures := [], services := [], nodeInstanceId := some memberId,
      clusterAttestEnabled := true, clusterRole := .attester }
  nonce := [nonce]
  timestampMs := 1000#64
  signature := some signature

def helloX : NodeHello :=
  hello "x" "T1" votePk 1#8 0xffb612c4841d3d5cf206b2d4f7f21bf1c7a0b961f57f6b3ff7f4a556dd0298f9be37cdc8a354f571baf6851db2527bf54377c16378576f9234b6dc541c3c6b03#512
def helloY : NodeHello :=
  hello "y" "T2" votePk 2#8 0xe60d329c472eaec926d433565f7fd0af23de58e43509715d42bfd5e19b0bd52cd7bd00989d472fab9a8c3035f77c50d3bf612f7f730d6222b5f1b4efed534609#512
/-- The node of the first hello with another key. -/
def helloAgain : NodeHello :=
  hello "x" "T1" otherPk 3#8 0xa7f6b7e091a2a94268aa18afab5167741cb2dc92d10a14c27618ff6eff3fa9a09ce5f0189e5af04617540a7703141f64c368a99d48e358d93f59cb94cfcc6f02#512

def binding : ClusterBinding := ⟨"vo1:1", "cand-1", none⟩
/-- Another candidate for the same height. -/
def otherBinding : ClusterBinding := ⟨"vo1:1", "cand-2", none⟩

def vote : ClusterAttest where
  height := 1#64
  round := 0#32
  binding := binding
  signature := 0xf10060c5d4eb3f138ac4bd32b5753c938b7409e30901dc340da08ac7f5fd89e8affaa18b29b874bb743a6c5594e818e29a7ac293b7e384aea74f998ba3fdad0d#512

def crypto : Crypto :=
  .ofTables [] [⟨8#256, votePk, [(clusterSigMsg 1#64 0#32 binding, vote.signature),
      (helloX.signingPayload, helloX.signature.getD 0#512),
      (helloY.signingPayload, helloY.signature.getD 0#512)]⟩,
    ⟨9#256, otherPk, [(helloAgain.signingPayload, helloAgain.signature.getD 0#512)]⟩]

def cfg (quorumK : U8) : ClusterCfg := ⟨.proposer, ["P", "T1", "T2"], quorumK, false⟩

def start : HandshakeState where
  validationCtx := ⟨"devnet", none, 60000#64⟩
  localDomainHi := 17#8

/-- What came of a hello, and the state after it. -/
def outcome : EStateM.Result String HandshakeState PeerClass → Option PeerClass × HandshakeState
  | .ok cls hs => (some cls, hs)
  | .error _ hs => (none, hs)

def receive (hello : NodeHello) (hs : HandshakeState) : Option PeerClass × HandshakeState :=
  outcome (processIncomingPeerHello crypto hello 1000#64 none "cluster-a" hs)

/-- The state after the first node voted for a binding. -/
def voted (members : ClusterCfg) (hs : HandshakeState) (nodeId : String) : HandshakeState :=
  { hs with rounds := routeClusterAttest crypto members hs.trustedPeers hs.rounds nodeId vote }

def proposed (b : ClusterBinding) (hs : HandshakeState) : HandshakeState :=
  { hs with rounds := recordClusterProp hs.rounds 1#64 0#32 b "P" none }

theorem receive_accepted {hello : NodeHello} {hs : HandshakeState} {cls : PeerClass}
    (members : ClusterCfg) (h : (receive hello hs).1 = some cls) :
    RoundStep crypto members hs (.accepted hello) (receive hello hs).2 := by
  unfold receive at h ⊢
  cases hres : processIncomingPeerHello crypto hello 1000#64 none "cluster-a" hs with
  | ok cls' hs' => exact .accepted hres
  | error reason hs' =>
      rw [hres] at h
      cases h

theorem start_fresh : start.Fresh := ⟨rfl, rfl⟩

/-- The texts that the key of the first two hellos signs are apart. -/
theorem payloads_ne : clusterSigMsg 1#64 0#32 binding ≠ helloX.signingPayload ∧
    clusterSigMsg 1#64 0#32 binding ≠ helloY.signingPayload ∧
    helloX.signingPayload ≠ helloY.signingPayload := by
  decide

theorem verify_x : helloX.verifySignature crypto = true := by
  rw [NodeHello.verifySignature_some rfl]
  refine Crypto.ofTables_verify [] List.mem_cons_self rfl ?_
  rw [Crypto.signature_cons_of_ne _ _ payloads_ne.1, Crypto.signature_cons_self]
  rfl

theorem verify_y : helloY.verifySignature crypto = true := by
  rw [NodeHello.verifySignature_some rfl]
  refine Crypto.ofTables_verify [] List.mem_cons_self rfl ?_
  rw [Crypto.signature_cons_of_ne _ _ payloads_ne.2.1,
    Crypto.signature_cons_of_ne _ _ payloads_ne.2.2, Crypto.signature_cons_self]
  rfl

theorem verify_again : helloAgain.verifySignature crypto = true := by
  rw [NodeHello.verifySignature_some rfl]
  refine Crypto.ofTables_verify [] (List.mem_cons_of_mem _ List.mem_cons_self) rfl ?_
  rw [Crypto.signature_cons_self]
  rfl

theorem receive_x : (receive helloX start).1 = some .native := by
  unfold receive processIncomingPeerHello validateNodeHello NodeHello.checks
  rw [verify_x]
  decide

theorem receive_y : (receive helloY (receive helloX start).2).1 = some .native := by
  unfold receive processIncomingPeerHello validateNodeHello NodeHello.checks
  rw [verify_x, verify_y]
  decide

theorem receive_again : (receive helloAgain (receive helloX start).2).1 = some .native := by
  unfold receive processIncomingPeerHello validateNodeHello NodeHello.checks
  rw [verify_x, verify_again]
  decide
/-- The first node votes, and the height is bound to another tip afterwards. -/
def reboundActs : List RoundAct :=
  [.accepted helloX, .proposed 1#64 0#32 binding "P", .attested "x" vote,
    .proposed 1#64 0#32 otherBinding "P"]

/-- The two nodes vote. -/
def sharedKeyActs : List RoundAct :=
  [.accepted helloX, .accepted helloY, .proposed 1#64 0#32 binding "P", .attested "x" vote,
    .attested "y" vote]

def oneVote : HandshakeState :=
  voted (cfg 1#8) (proposed binding (receive helloX start).2) "x"

def twoVotes : HandshakeState :=
  voted (cfg 2#8) (voted (cfg 2#8)
    (proposed binding (receive helloY (receive helloX start).2).2) "x") "y"

theorem receive_known {hello : NodeHello} {hs : HandshakeState} {cls : PeerClass}
    (h : (receive hello hs).1 = some cls) :
    (receive hello hs).2.trustedPeers =
        Function.update hs.trustedPeers hello.nodeId hello.trustedPeer ∧
      (receive hello hs).2.rounds = hs.rounds := by
  cases receive_accepted (cfg 0#8) h with
  | accepted hok => exact (processIncomingPeerHello_ok hok).2

/-- The peers after the hello of the first node. -/
def peersX : TrustedPeers := Function.update start.trustedPeers "x" helloX.trustedPeer

theorem gate_of_vote {hs : HandshakeState} (hpeers : hs.trustedPeers = peersX)
    (hrounds : hs.rounds = start.rounds) :
    runClusterGate (cfg 1#8) (voted (cfg 1#8) (proposed binding hs) "x").rounds 0#64 = true ∧
      runClusterGate (cfg 1#8)
        (proposed otherBinding (voted (cfg 1#8) (proposed binding hs) "x")).rounds 0#64 = true := by
  simp only [voted, proposed, hpeers, hrounds]
  constructor
  · decide +kernel
  · decide +kernel

theorem gate_of_votes {hs : HandshakeState}
    (hpeers : hs.trustedPeers = Function.update peersX "y" helloY.trustedPeer)
    (hrounds : hs.rounds = start.rounds) :
    runClusterGate (cfg 2#8)
      (voted (cfg 2#8) (voted (cfg 2#8) (proposed binding hs) "x") "y").rounds 0#64 = true := by
  simp only [voted, proposed, hpeers, hrounds]
  decide +kernel

theorem gate_oneVote : runClusterGate (cfg 1#8) oneVote.rounds 0#64 = true :=
  (gate_of_vote (receive_known receive_x).1 (receive_known receive_x).2).1

theorem gate_rebound :
    runClusterGate (cfg 1#8) (proposed otherBinding oneVote).rounds 0#64 = true :=
  (gate_of_vote (receive_known receive_x).1 (receive_known receive_x).2).2

theorem gate_twoVotes : runClusterGate (cfg 2#8) twoVotes.rounds 0#64 = true := by
  have hpeers := (receive_known receive_y).1
  have hrounds := (receive_known receive_y).2
  rw [(receive_known receive_x).1] at hpeers
  rw [(receive_known receive_x).2] at hrounds
  exact gate_of_votes hpeers hrounds

theorem run_oneVote : Run (fun hs act hs' => RoundStep crypto (cfg 1#8) hs act hs' ∧
      act.KeepsBinding hs) start
    [.accepted helloX, .proposed 1#64 0#32 binding "P", .attested "x" vote] oneVote := by
  refine (Run.single ⟨receive_accepted _ receive_x, trivial⟩).snoc ⟨.proposed _ _ _ _ _ none, ?_⟩ |>.snoc
    ⟨.attested _ _ _, trivial⟩
  intro entry hentry
  rw [(receive_known receive_x).2] at hentry
  cases hentry

theorem run_rebound : Run (RoundStep crypto (cfg 1#8)) start reboundActs
    (proposed otherBinding oneVote) :=
  (run_oneVote.mono fun _ _ _ h => h.1).snoc (.proposed _ _ _ _ _ none)

theorem run_sharedKey : Run (RoundStep crypto (cfg 2#8)) start sharedKeyActs twoVotes :=
  (Run.single (receive_accepted _ receive_x)).snoc (receive_accepted _ receive_y)
    |>.snoc (.proposed _ _ _ _ _ none) |>.snoc (.attested _ _ _) |>.snoc (.attested _ _ _)

end OneKey

/-- The run with one vote has a quorum of one for its binding. -/
theorem quorum_for_binding_oneVote :
    OneKey.start.Fresh ∧ runClusterGate (OneKey.cfg 1#8) OneKey.oneVote.rounds 0#64 = true ∧
      QuorumVoted OneKey.crypto (OneKey.cfg 1#8)
        [.accepted OneKey.helloX, .proposed 1#64 0#32 OneKey.binding "P",
          .attested "x" OneKey.vote] OneKey.oneVote.rounds 0#64 :=
  ⟨OneKey.start_fresh, OneKey.gate_oneVote,
    (quorum_for_binding OneKey.start_fresh OneKey.run_oneVote).2 _ OneKey.gate_oneVote⟩

/-- After the height is bound to another candidate, the gate lets it pass on the earlier vote. -/
theorem stale_vote_counts :
    OneKey.start.Fresh ∧
      Run (RoundStep OneKey.crypto (OneKey.cfg 1#8)) OneKey.start OneKey.reboundActs
        (OneKey.proposed OneKey.otherBinding OneKey.oneVote) ∧
      runClusterGate (OneKey.cfg 1#8) (OneKey.proposed OneKey.otherBinding OneKey.oneVote).rounds
        0#64 = true ∧
      ¬ QuorumVoted OneKey.crypto (OneKey.cfg 1#8) OneKey.reboundActs
        (OneKey.proposed OneKey.otherBinding OneKey.oneVote).rounds 0#64 := by
  refine ⟨OneKey.start_fresh, OneKey.run_rebound, OneKey.gate_rebound, ?_⟩
  rintro ⟨entry, proposer, voters, hentry, -, -, hcount, hvoters⟩
  have hpos : 0 < voters.length := Nat.lt_of_lt_of_le (by decide) hcount
  obtain ⟨memberId, hmember⟩ := List.exists_mem_of_length_pos hpos
  obtain ⟨-, -, _, before, after, hello, msg, hacts, -, -, hbinding, -⟩ := hvoters memberId hmember
  have hnow : entry.binding = OneKey.otherBinding := by
    obtain ⟨found, heq, hbound, -⟩ := recordClusterProp_eq OneKey.oneVote.rounds 1#64 0#32
      OneKey.otherBinding "P" none
    simp only [OneKey.proposed, heq] at hentry
    obtain rfl := Option.some.inj hentry
    exact hbound
  have hmem : RoundAct.attested hello.nodeId msg ∈ OneKey.reboundActs := by
    rw [hacts]
    simp
  have hmsg : msg = OneKey.vote := by
    simp only [OneKey.reboundActs, List.mem_cons, RoundAct.attested.injEq, reduceCtorEq, or_false,
      false_or, List.not_mem_nil] at hmem
    exact hmem.2
  rw [hmsg, hnow] at hbinding
  revert hbinding
  decide

/-- The run in which one key votes for two members. -/
theorem votes_by_hello_keys_sharedKey :
    OneKey.start.Fresh ∧ ∀ key entry, OneKey.twoVotes.rounds key = some entry →
      (entry.attesters.map Prod.fst).Nodup ∧ ∀ vote ∈ entry.attesters, ∃ binding,
        Voted OneKey.crypto (OneKey.cfg 2#8) OneKey.sharedKeyActs vote.1 key binding vote.2 :=
  ⟨OneKey.start_fresh, (votes_by_hello_keys OneKey.start_fresh OneKey.run_sharedKey).1⟩

/-- Two hellos with one key make a quorum of two, and a later hello replaces the key of a node. -/
theorem one_key_two_votes :
    OneKey.start.Fresh ∧
      Run (RoundStep OneKey.crypto (OneKey.cfg 2#8)) OneKey.start OneKey.sharedKeyActs
        OneKey.twoVotes ∧
      runClusterGate (OneKey.cfg 2#8) OneKey.twoVotes.rounds 0#64 = true ∧
      (∀ hello, .accepted hello ∈ OneKey.sharedKeyActs → hello.pubkey = OneKey.votePk) ∧
      ∃ hs hs', Run (RoundStep OneKey.crypto (OneKey.cfg 2#8)) OneKey.start
          [.accepted OneKey.helloX] hs ∧
        hs.trustedPeers "x" = some OneKey.helloX.trustedPeer ∧
        RoundStep OneKey.crypto (OneKey.cfg 2#8) hs (.accepted OneKey.helloAgain) hs' ∧
        hs'.trustedPeers "x" = some OneKey.helloAgain.trustedPeer ∧
        OneKey.helloAgain.pubkey ≠ OneKey.helloX.pubkey := by
  refine ⟨OneKey.start_fresh, OneKey.run_sharedKey, OneKey.gate_twoVotes, ?_, _, _,
    Run.single (OneKey.receive_accepted _ OneKey.receive_x), ?_,
    OneKey.receive_accepted _ OneKey.receive_again, ?_, by decide⟩
  · intro hello hmem
    simp only [OneKey.sharedKeyActs, List.mem_cons, RoundAct.accepted.injEq, reduceCtorEq, or_false,
      List.not_mem_nil] at hmem
    rcases hmem with rfl | rfl <;> rfl
  · rw [(OneKey.receive_known OneKey.receive_x).1]
    exact Function.update_self _ _ _
  · rw [(OneKey.receive_known OneKey.receive_again).1]
    exact Function.update_self _ _ _

end Pwm
