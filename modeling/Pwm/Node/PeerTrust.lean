import Pwm.Node.HelloReplay

/-!
# Trust that hellos give and take

All that a hello does to the trust of a node: the tables of trusted and of
live peers, the guard that blocks user transactions after a genesis mismatch,
and the refusal of federation trust. The guard is set before the signature of
a hello is looked at, and the refusal is lifted by every hello that is
accepted, also by one of another shard.
-/

namespace Pwm

open BitVec Attempt

/-! ## State -/

inductive PeerStatus
  | accepted
  | rejected
  | connected
  | disconnected
  | retrying
  deriving DecidableEq

def PeerStatus.isLiveish : PeerStatus → Bool
  | .accepted | .connected | .retrying => true
  | .rejected | .disconnected => false

structure PeerRecord where
  nodeId : String
  domainHi : U8
  cls : PeerClass
  lastSeenMs : U64
  status : PeerStatus
  deriving DecidableEq

/-- The part of a trusted peer that says where it belongs. -/
structure TrustedHome where
  nodeId : String
  clusterId : String
  domainHi : U8
  deriving DecidableEq

structure GenesisMismatchSnapshot where
  expectedHash : Option String
  receivedHash : Option String
  peerNodeId : String
  peerHint : String
  atUnixMs : U64
  deriving DecidableEq

structure GenesisGuardState where
  blocked : Bool := false
  mismatchTotal : U64 := 0#64
  lastMismatch : Option GenesisMismatchSnapshot := none
  deriving DecidableEq

structure BridgeTrustState where
  refused : Bool := false
  refusalTotal : U64 := 0#64
  refusalReason : Option String := none
  deriving DecidableEq

/-- The handshake state with the tables and flags that decide about trust. -/
structure PeerState extends HandshakeState where
  trustedHomes : String → Option TrustedHome := fun _ => none
  peers : String → Option PeerRecord := fun _ => none
  genesisGuard : GenesisGuardState := {}
  bridgeTrust : BridgeTrustState := {}

/-! ## The effects of a hello -/

/-- What a hello that failed its validation leaves behind; `label` is the reason. -/
def PeerState.rejectInvalid (s : PeerState) (hello : NodeHello) (nowMs : U64) (peerHint : String)
    (label : String) : PeerState :=
  if label = HandshakeRejectReason.genesisMismatch.asLabel then
    { s with genesisGuard :=
      { blocked := true
        mismatchTotal := s.genesisGuard.mismatchTotal.saturatingAdd 1#64
        lastMismatch := some
          { expectedHash := s.validationCtx.expectedGenesisHash
            receivedHash := hello.genesisHash
            peerNodeId := hello.nodeId
            peerHint := peerHint
            atUnixMs := nowMs } } }
  else s

def bridgeRefusal (expected received : String) : String :=
  "bridge_federation_trust_refused expected_bridge_commitment=" ++ expected ++
    " received_bridge_commitment=" ++ received

def PeerState.refuseBridge (s : PeerState) (expected received : String) : PeerState :=
  { s with bridgeTrust :=
    { refused := true
      refusalTotal := s.bridgeTrust.refusalTotal.saturatingAdd 1#64
      refusalReason := some (bridgeRefusal expected received) } }

/-- Replicas of one shard agree on the bridge commitment; other shards are not compared. -/
def checkBridgeCommitment (cls : PeerClass) (expectedBridgeCommitment received : Option String) :
    EStateM String PeerState Unit :=
  match cls, expectedBridgeCommitment with
  | .native, some expected =>
      if received = some expected then pure ()
      else do
        modify fun s => s.refuseBridge expected (received.getD "")
        throw "bridge_federation_trust_refused"
  | _, _ => pure ()

/-- A hello that fits makes its peer live and trusted, and restores federation trust. -/
def PeerState.acceptPeer (s : PeerState) (hello : NodeHello) (nowMs : U64) (cls : PeerClass) :
    PeerState :=
  { s with
    bridgeTrust := { s.bridgeTrust with refused := false, refusalReason := none }
    peers := Function.update s.peers hello.nodeId
      (some ⟨hello.nodeId, hello.domainHi, cls, nowMs, .connected⟩)
    trustedPeers := Function.update s.trustedPeers hello.nodeId (some hello.trustedPeer)
    trustedHomes := Function.update s.trustedHomes hello.nodeId
      (some ⟨hello.nodeId, hello.clusterId, hello.domainHi⟩) }

/-- The checks of a valid hello against the node. -/
def admitPeer (hello : NodeHello) (nowMs : U64) (expectedBridgeCommitment : Option String)
    (expectedClusterId : String) : EStateM String PeerState PeerClass := do
  let s ← get
  let cls := classifyPeer s.localDomainHi hello.domainHi
  require (cls = .native → hello.clusterId = expectedClusterId) "same_shard_cluster_id_mismatch"
  require (cls = .native → activeConflict s.toHandshakeState hello = false)
    "same_validator_active_conflict"
  liftExcept HandshakeRejectReason.asLabel (protocolCompat hello.capabilities.protocolVersion)
  require (hello.capabilities.syncProfile.isSome → hello.capabilities.supportsSyncV1 = true)
    (if cls = .native then "same_shard_sync_profile_incompatible"
      else "inter_shard_sync_profile_incompatible")
  checkBridgeCommitment cls expectedBridgeCommitment hello.bridgeCommitment
  modify fun s => s.acceptPeer hello nowMs cls
  pure cls

def processPeerHello (C : Crypto) (hello : NodeHello) (nowMs : U64) (peerHint : String)
    (expectedBridgeCommitment : Option String) (expectedClusterId : String) :
    EStateM String PeerState PeerClass := fun s =>
  match validateNodeHello C hello nowMs s.toHandshakeState with
  | .error label hs =>
      .error label ({ s with toHandshakeState := hs }.rejectInvalid hello nowMs peerHint label)
  | .ok _ hs =>
      admitPeer hello nowMs expectedBridgeCommitment expectedClusterId
        { s with toHandshakeState := hs }

/-- A hello that passes its checks goes on to the trust of the peer. -/
theorem processPeerHello_of_valid {C : Crypto} {hello : NodeHello} {nowMs : U64} {peerHint : String}
    {bridge : Option String} {clusterId : String} {s : PeerState} {hs : HandshakeState}
    (h : validateNodeHello C hello nowMs s.toHandshakeState = .ok () hs) :
    processPeerHello C hello nowMs peerHint bridge clusterId s =
      admitPeer hello nowMs bridge clusterId { s with toHandshakeState := hs } := by
  unfold processPeerHello
  rw [h]

/-! ## Gates on the trust -/

inductive InitPhase
  | starting
  | loadingSnapshot
  | ready
  | readyDegraded
  deriving DecidableEq

def InitPhase.asStr : InitPhase → String
  | .starting => "starting"
  | .loadingSnapshot => "loading_snapshot"
  | .ready => "ready"
  | .readyDegraded => "ready_degraded"

def ensureReady (phase : InitPhase) : Except (Nat × String) Unit :=
  check (phase = .ready ∨ phase = .readyDegraded)
    (503, "node is not ready (phase=" ++ phase.asStr ++ ")")

def ensureUserTxAllowed (phase : InitPhase) (s : PeerState) : Except (Nat × String) Unit := do
  ensureReady phase
  check (phase ≠ .readyDegraded)
    (503, "user tx blocked: snapshot persistence is degraded (save/load failed); fix storage " ++
      "before submitting txs")
  check (s.genesisGuard.blocked = false)
    (503, "user tx blocked: genesis/hash mismatch detected during shard join; check /v1/status " ++
      "genesis diagnostics and recover via stop -> fix bundle -> restart verify")

def ensureBridgeFederationOk (s : PeerState) : Except (Nat × String) Unit :=
  check (s.bridgeTrust.refused = false)
    (409, s.bridgeTrust.refusalReason.getD "bridge_federation_trust_refused")

/-! ## What came of a hello -/

section Outcomes

variable {C : Crypto} {hello : NodeHello} {nowMs : U64} {peerHint : String}
  {expectedBridge : Option String} {clusterId : String} {s s' : PeerState}

theorem checkBridgeCommitment_ok_iff {cls : PeerClass} {received : Option String} {u : Unit} :
    checkBridgeCommitment cls expectedBridge received s = .ok u s' ↔
      (cls = .native → ∀ expected, expectedBridge = some expected → received = some expected) ∧
        s = s' := by
  unfold checkBridgeCommitment
  split
  · split
    · simp_all
    · simp_all [bind_ok_iff]
  · simp_all

theorem checkBridgeCommitment_error {cls : PeerClass} {received : Option String} {reason : String}
    (h : checkBridgeCommitment cls expectedBridge received s = .error reason s') :
    cls = .native ∧ ∃ expected, expectedBridge = some expected ∧ received ≠ some expected ∧
      reason = "bridge_federation_trust_refused" ∧
      s' = s.refuseBridge expected (received.getD "") := by
  unfold checkBridgeCommitment at h
  split at h
  · split at h
    · cases h
    · rename_i expected hne
      simp only [bind_error_iff, modify_error_iff, false_or, modify_ok_iff, throw_error_iff] at h
      obtain ⟨-, _, rfl, rfl, rfl⟩ := h
      exact ⟨rfl, expected, rfl, hne, rfl, rfl⟩
  · cases h

theorem admitPeer_ok_iff {cls : PeerClass} :
    admitPeer hello nowMs expectedBridge clusterId s = .ok cls s' ↔
      admitHello s.toHandshakeState hello expectedBridge clusterId = .ok cls ∧
        s' = s.acceptPeer hello nowMs cls := by
  simp only [admitPeer, admitHello, bind_ok_iff, get_ok_iff, require_ok_iff, liftExcept_ok_iff,
    checkBridgeCommitment_ok_iff, modify_ok_iff, pure_ok_iff, except_bind_ok_iff, check_ok_iff,
    mapError_ok_iff]
  constructor
  · rintro ⟨_, _, ⟨rfl, rfl⟩, _, _, ⟨hcluster, rfl⟩, _, _, ⟨hactive, rfl⟩, _, _, ⟨hproto, rfl⟩,
      _, _, ⟨hsync, rfl⟩, _, _, ⟨hbridge, rfl⟩, _, _, rfl, rfl, rfl⟩
    exact ⟨⟨(), hcluster, (), hactive, (), hproto, (), hsync, (), hbridge, rfl⟩, rfl⟩
  · rintro ⟨⟨_, hcluster, _, hactive, _, hproto, _, hsync, _, hbridge, hcls⟩, rfl⟩
    cases hcls
    exact ⟨s, s, ⟨rfl, rfl⟩, (), s, ⟨hcluster, rfl⟩, (), s, ⟨hactive, rfl⟩, (), s, ⟨hproto, rfl⟩,
      (), s, ⟨hsync, rfl⟩, (), s, ⟨hbridge, rfl⟩, (), _, rfl, rfl, rfl⟩

/-- A hello that does not fit leaves the state, or refuses federation trust. -/
theorem admitPeer_error {reason : String}
    (h : admitPeer hello nowMs expectedBridge clusterId s = .error reason s') :
    admitHello s.toHandshakeState hello expectedBridge clusterId = .error reason ∧
    (s' = s ∨ hello.domainHi = s.localDomainHi ∧ ∃ expected, expectedBridge = some expected ∧
      hello.bridgeCommitment ≠ some expected ∧ reason = "bridge_federation_trust_refused" ∧
      s' = s.refuseBridge expected (hello.bridgeCommitment.getD "")) := by
  simp only [admitPeer, bind_error_iff, get_ok_iff, get_error_iff, require_ok_iff,
    require_error_iff, liftExcept_ok_iff, liftExcept_error_iff, modify_ok_iff, modify_error_iff,
    pure_error_iff, false_or] at h
  simp only [admitHello, except_bind_error_iff, check_ok_iff, check_error_iff, mapError_ok_iff,
    mapError_error_iff]
  obtain ⟨_, _, ⟨rfl, rfl⟩, h⟩ := h
  rcases h with ⟨hcluster, rfl, rfl⟩ | ⟨_, _, ⟨hcluster, rfl⟩, h⟩
  · exact ⟨.inl ⟨hcluster, rfl⟩, .inl rfl⟩
  rcases h with ⟨hactive, rfl, rfl⟩ | ⟨_, _, ⟨hactive, rfl⟩, h⟩
  · exact ⟨.inr ⟨(), hcluster, .inl ⟨hactive, rfl⟩⟩, .inl rfl⟩
  rcases h with ⟨d, hproto, rfl, rfl⟩ | ⟨_, _, ⟨hproto, rfl⟩, h⟩
  · exact ⟨.inr ⟨(), hcluster, .inr ⟨(), hactive, .inl ⟨d, hproto, rfl⟩⟩⟩, .inl rfl⟩
  rcases h with ⟨hsync, rfl, rfl⟩ | ⟨_, _, ⟨hsync, rfl⟩, h⟩
  · exact ⟨.inr ⟨(), hcluster, .inr ⟨(), hactive, .inr ⟨(), hproto, .inl ⟨hsync, rfl⟩⟩⟩⟩, .inl rfl⟩
  rcases h with h | ⟨_, _, _, _, _, _, hfalse⟩
  · obtain ⟨hcls, expected, hexpected, hne, rfl, rfl⟩ := checkBridgeCommitment_error h
    refine ⟨.inr ⟨(), hcluster, .inr ⟨(), hactive, .inr ⟨(), hproto, .inr ⟨(), hsync,
      .inl ⟨?_, rfl⟩⟩⟩⟩⟩, .inr ⟨?_, expected, hexpected, hne, rfl, rfl⟩⟩
    · intro hall
      exact hne (hall hcls expected hexpected)
    · unfold classifyPeer at hcls
      split at hcls
      · assumption
      · cases hcls
  · exact hfalse.elim

/-- Under the tables and flags the hello is processed as the handshake state alone says. -/
theorem processPeerHello_ok {cls : PeerClass}
    (h : processPeerHello C hello nowMs peerHint expectedBridge clusterId s = .ok cls s') :
    ∃ hs, validateNodeHello C hello nowMs s.toHandshakeState = .ok () hs ∧
      admitHello hs hello expectedBridge clusterId = .ok cls ∧
      s' = { s with toHandshakeState := hs }.acceptPeer hello nowMs cls := by
  unfold processPeerHello at h
  cases hvalid : validateNodeHello C hello nowMs s.toHandshakeState with
  | error label hs =>
      rw [hvalid] at h
      cases h
  | ok u hs =>
      rw [hvalid] at h
      obtain ⟨hadmitted, hs'⟩ := admitPeer_ok_iff.mp h
      exact ⟨hs, rfl, hadmitted, hs'⟩

theorem processPeerHello_error {reason : String}
    (h : processPeerHello C hello nowMs peerHint expectedBridge clusterId s = .error reason s') :
    ∃ hs, (validateNodeHello C hello nowMs s.toHandshakeState = .error reason hs ∧
        s' = { s with toHandshakeState := hs }.rejectInvalid hello nowMs peerHint reason) ∨
      (validateNodeHello C hello nowMs s.toHandshakeState = .ok () hs ∧
        admitPeer hello nowMs expectedBridge clusterId { s with toHandshakeState := hs } =
          .error reason s') := by
  unfold processPeerHello at h
  cases hvalid : validateNodeHello C hello nowMs s.toHandshakeState with
  | error label hs =>
      rw [hvalid] at h
      cases h
      exact ⟨hs, .inl ⟨rfl, rfl⟩⟩
  | ok u hs =>
      rw [hvalid] at h
      exact ⟨hs, .inr ⟨rfl, h⟩⟩

theorem rejectInvalid_handshake (label : String) :
    (s.rejectInvalid hello nowMs peerHint label).toHandshakeState = s.toHandshakeState := by
  unfold PeerState.rejectInvalid
  split <;> rfl

theorem rejectInvalid_bridgeTrust (label : String) :
    (s.rejectInvalid hello nowMs peerHint label).bridgeTrust = s.bridgeTrust := by
  unfold PeerState.rejectInvalid
  split <;> rfl

/-- The keys and nonces move as in the model of the handshake state alone. -/
theorem processPeerHello_refines :
    match processPeerHello C hello nowMs peerHint expectedBridge clusterId s with
    | .ok cls s' => processIncomingPeerHello C hello nowMs expectedBridge clusterId
        s.toHandshakeState = .ok cls s'.toHandshakeState
    | .error reason s' => processIncomingPeerHello C hello nowMs expectedBridge clusterId
        s.toHandshakeState = .error reason s'.toHandshakeState := by
  cases hres : processPeerHello C hello nowMs peerHint expectedBridge clusterId s with
  | ok cls s' =>
      obtain ⟨hs, hvalid, hadmitted, rfl⟩ := processPeerHello_ok hres
      simp only [processIncomingPeerHello, bind_ok_iff, liftExcept_ok_iff]
      exact ⟨(), hs, hvalid, hs, hs, rfl, cls, hs, ⟨hadmitted, rfl⟩, (), _, rfl, rfl⟩
  | error reason s' =>
      simp only [processIncomingPeerHello, bind_error_iff]
      obtain ⟨hs, ⟨hvalid, rfl⟩ | ⟨hvalid, hadmitted⟩⟩ := processPeerHello_error hres
      · rw [rejectInvalid_handshake]
        exact .inl hvalid
      · obtain ⟨hfails, hstate⟩ := admitPeer_error hadmitted
        have hkept : s'.toHandshakeState = hs := by
          rcases hstate with rfl | ⟨-, expected, -, -, -, rfl⟩
          · rfl
          · rfl
        rw [hkept]
        refine .inr ⟨(), hs, hvalid, .inr ⟨hs, hs, rfl, .inl ?_⟩⟩
        rw [liftExcept_error_iff]
        exact ⟨reason, hfails, rfl, rfl⟩

end Outcomes

/-! ## Hellos without a signature -/

/-- All that decides whom the node trusts and whether it takes transactions of users. -/
structure TrustView where
  blocked : Bool
  bridgeTrust : BridgeTrustState
  peers : String → Option PeerRecord
  trustedPeers : TrustedPeers
  trustedHomes : String → Option TrustedHome
  acceptedNonces : ReplayNonceCache

def PeerState.trust (s : PeerState) : TrustView :=
  ⟨s.genesisGuard.blocked, s.bridgeTrust, s.peers, s.trustedPeers, s.trustedHomes, s.replay⟩

/-- The hello is of this network and well formed and names another genesis. -/
def NodeHello.NamesOtherGenesis (hello : NodeHello) (ctx : HandshakeValidationCtx) : Prop :=
  hello.mandatoryFieldsOk = true ∧ hello.networkId = ctx.expectedNetworkId ∧
    ∃ expected, ctx.expectedGenesisHash = some expected ∧ hello.genesisHash ≠ some expected

section Unsigned

variable {C : Crypto} {hello : NodeHello}

/-- Without a signature a hello fails, and before its signature is looked at when it names
another genesis. -/
theorem checks_unsigned (hsig : hello.verifySignature C = false) (ctx : HandshakeValidationCtx)
    (nowMs : U64) :
    ∃ reason, hello.checks C ctx nowMs = .error reason ∧
      (reason = .genesisMismatch ↔ hello.NamesOtherGenesis ctx) := by
  unfold NodeHello.checks NodeHello.NamesOtherGenesis
  by_cases hfields : hello.mandatoryFieldsOk = true
  · by_cases hnetwork : hello.networkId = ctx.expectedNetworkId
    · by_cases hgenesis : ∀ expected, ctx.expectedGenesisHash = some expected →
          hello.genesisHash = some expected
      · refine ⟨.badSignature, ?_, iff_of_false nofun ?_⟩
        · simp only [check, if_pos hfields, if_pos hnetwork, if_pos hgenesis, hsig]
          rfl
        · rintro ⟨-, -, expected, hexpected, hne⟩
          exact hne (hgenesis expected hexpected)
      · refine ⟨.genesisMismatch, ?_, iff_of_true rfl ?_⟩
        · simp only [check, if_pos hfields, if_pos hnetwork, if_neg hgenesis]
          rfl
        · push Not at hgenesis
          exact ⟨hfields, hnetwork, hgenesis⟩
    · refine ⟨.networkMismatch, ?_, iff_of_false nofun fun h => hnetwork h.2.1⟩
      simp only [check, if_pos hfields, if_neg hnetwork]
      rfl
  · refine ⟨.malformed, ?_, iff_of_false nofun fun h => hfields h.1⟩
    simp only [check, if_neg hfields]
    rfl

theorem asLabel_genesisMismatch {reason : HandshakeRejectReason} :
    reason.asLabel = HandshakeRejectReason.genesisMismatch.asLabel ↔
      reason = .genesisMismatch := by
  cases reason <;> decide

/-- A hello without a signature is refused; only the guard may move. -/
theorem unsigned_refused (hsig : hello.verifySignature C = false) (s : PeerState) (nowMs : U64)
    (peerHint : String) (expectedBridge : Option String) (clusterId : String) :
    ∃ reason s', processPeerHello C hello nowMs peerHint expectedBridge clusterId s =
        .error reason s' ∧
      s'.trust = { s.trust with blocked := s'.genesisGuard.blocked } ∧
      (s'.genesisGuard.blocked = true ↔
        s.genesisGuard.blocked = true ∨ hello.NamesOtherGenesis s.validationCtx) := by
  obtain ⟨reason, hchecks, hreason⟩ := checks_unsigned hsig s.validationCtx nowMs
  have hvalid : validateNodeHello C hello nowMs s.toHandshakeState =
      .error reason.asLabel s.toHandshakeState := by
    simp only [validateNodeHello, bind_error_iff, get_ok_iff, liftExcept_error_iff]
    exact .inr ⟨_, _, ⟨rfl, rfl⟩, .inl ⟨reason, hchecks, rfl, rfl⟩⟩
  refine ⟨reason.asLabel, s.rejectInvalid hello nowMs peerHint reason.asLabel, ?_, ?_⟩
  · unfold processPeerHello
    rw [hvalid]
  · unfold PeerState.rejectInvalid
    by_cases hgenesis : reason = .genesisMismatch
    · rw [if_pos (asLabel_genesisMismatch.mpr hgenesis)]
      exact ⟨rfl, iff_of_true rfl (.inr (hreason.mp hgenesis))⟩
    · rw [if_neg fun h => hgenesis (asLabel_genesisMismatch.mp h)]
      refine ⟨rfl, Iff.symm (or_iff_left fun h => hgenesis (hreason.mpr h))⟩

/-- A hello that does not verify leaves the trust alone unless it names another genesis while
user transactions are not blocked; then it blocks them. -/
theorem unsignedHello_keeps_trust (hsig : hello.verifySignature C = false) (s : PeerState)
    (nowMs : U64) (peerHint : String) (expectedBridge : Option String) (clusterId : String) :
    (∃ reason s', processPeerHello C hello nowMs peerHint expectedBridge clusterId s =
        .error reason s' ∧ s'.trust = s.trust ∧
        ∀ phase, ensureUserTxAllowed phase s' = ensureUserTxAllowed phase s) ↔
      ¬ (s.genesisGuard.blocked = false ∧ hello.NamesOtherGenesis s.validationCtx) := by
  obtain ⟨reason, s', hres, htrust, hblocked⟩ :=
    unsigned_refused hsig s nowMs peerHint expectedBridge clusterId
  constructor
  · rintro ⟨_, _, hres', hsame, -⟩ ⟨hopen, hgenesis⟩
    rw [hres] at hres'
    cases hres'
    have hnow : s'.genesisGuard.blocked = true := hblocked.mpr (.inr hgenesis)
    have hview : s'.genesisGuard.blocked = s.genesisGuard.blocked := congrArg TrustView.blocked hsame
    rw [hnow, hopen] at hview
    cases hview
  · intro hnot
    have hview : s'.genesisGuard.blocked = s.genesisGuard.blocked := by
      rw [Bool.eq_iff_iff, hblocked]
      constructor
      · rintro (h | h)
        · exact h
        · exact Bool.eq_true_of_not_eq_false fun hopen => hnot ⟨hopen, h⟩
      · exact .inl
    refine ⟨reason, s', hres, ?_, fun phase => ?_⟩
    · rw [htrust, hview]
      rfl
    · unfold ensureUserTxAllowed
      rw [hview]

end Unsigned

/-! ## An unsigned hello of another genesis -/

namespace OtherGenesis

open OneKey

def node : PeerState where
  validationCtx := ⟨"devnet", some "genesis-a", 60000#64⟩
  localDomainHi := 17#8

/-- No key was used for this hello. -/
def forged : NodeHello :=
  { hello "x" "T1" votePk 1#8 0#512 with genesisHash := some "genesis-b", signature := none }

/-- Whether user transactions are blocked after a hello. -/
def blockedAfter : EStateM.Result String PeerState PeerClass → Bool
  | .ok _ s => s.genesisGuard.blocked
  | .error _ s => s.genesisGuard.blocked

theorem forged_keeps_trust_iff :
    (∃ reason s', processPeerHello crypto forged 1000#64 "http" none "cluster-a" node =
        .error reason s' ∧ s'.trust = node.trust ∧
        ∀ phase, ensureUserTxAllowed phase s' = ensureUserTxAllowed phase node) ↔
      ¬ (node.genesisGuard.blocked = false ∧ forged.NamesOtherGenesis node.validationCtx) :=
  unsignedHello_keeps_trust (by decide) node 1000#64 "http" none "cluster-a"

/-- A hello without a signature blocks the transactions of all users. -/
theorem forged_blocks_users :
    ¬ ∀ (C : Crypto) (hello : NodeHello) (s : PeerState) (nowMs : U64) (peerHint : String)
        (expectedBridge : Option String) (clusterId : String), hello.verifySignature C = false →
      ∃ reason s', processPeerHello C hello nowMs peerHint expectedBridge clusterId s =
        .error reason s' ∧ s'.trust = s.trust := by
  intro hclaim
  have hsig : forged.verifySignature crypto = false := by decide
  obtain ⟨reason, s', hres, htrust⟩ :=
    hclaim crypto forged node 1000#64 "http" none "cluster-a" hsig
  have hblocked : blockedAfter (processPeerHello crypto forged 1000#64 "http" none "cluster-a"
      node) = true := by decide
  rw [hres] at hblocked
  have hview : s'.genesisGuard.blocked = false := congrArg TrustView.blocked htrust
  exact Bool.false_ne_true (hview.symm.trans hblocked)

end OtherGenesis

/-! ## Runs of hellos -/

/-- A hello as it is processed, with what the node holds against it and what came of it. -/
structure HelloEvent where
  hello : NodeHello
  nowMs : U64
  peerHint : String
  localCommitment : String
  clusterId : String
  outcome : Except String PeerClass

def PeerStep (C : Crypto) (s : PeerState) (ev : HelloEvent) (s' : PeerState) : Prop :=
  processPeerHello C ev.hello ev.nowMs ev.peerHint (some ev.localCommitment) ev.clusterId s =
    match ev.outcome with
    | .ok cls => .ok cls s'
    | .error reason => .error reason s'

/-- The hello of a replica whose commitment is the local one was accepted. -/
def HelloEvent.Matches (ev : HelloEvent) (domainHi : U8) : Prop :=
  ev.hello.domainHi = domainHi ∧ ev.hello.bridgeCommitment = some ev.localCommitment ∧
    ∃ cls, ev.outcome = .ok cls

/-- The refusal of a replica without the local commitment. -/
def HelloEvent.Refuses (ev : HelloEvent) (domainHi : U8) : Prop :=
  ev.hello.domainHi = domainHi ∧ ev.hello.bridgeCommitment ≠ some ev.localCommitment ∧
    ev.outcome = .error "bridge_federation_trust_refused"

/-- While federation trust is refused a hello of another shard comes that passes its checks. -/
def HelloEvent.FromOtherShard (C : Crypto) (ev : HelloEvent) (s : PeerState) : Prop :=
  s.bridgeTrust.refused = true ∧ ev.hello.domainHi ≠ s.localDomainHi ∧
    ev.hello.checks C s.validationCtx ev.nowMs = .ok () ∧
    (∀ p ∈ s.remembered ev.nowMs, p.1 ≠ ev.hello.nonce) ∧
    protocolCompat ev.hello.capabilities.protocolVersion = .ok () ∧
    (ev.hello.capabilities.syncProfile.isSome → ev.hello.capabilities.supportsSyncV1 = true)

/-- Wherever the run has trust refused, it stays so up to a hello that matches. -/
def RefusalStays (C : Crypto) (s : PeerState) (events : List HelloEvent) : Prop :=
  ∀ before later rest mid s', events = before ++ later ++ rest →
    Run (PeerStep C) s before mid → mid.bridgeTrust.refused = true →
    Run (PeerStep C) mid later s' →
    s'.bridgeTrust.refused = true ∨ ∃ ev ∈ later, ev.Matches s.localDomainHi

namespace PeerStep

variable {C : Crypto} {s s' : PeerState} {ev : HelloEvent}

theorem deterministic {a b : PeerState} (ha : PeerStep C s ev a) (hb : PeerStep C s ev b) :
    a = b := by
  unfold PeerStep at ha hb
  rw [ha] at hb
  cases hout : ev.outcome with
  | ok cls =>
      rw [hout] at hb
      cases hb
      rfl
  | error reason =>
      rw [hout] at hb
      cases hb
      rfl

theorem of_ok {cls : PeerClass} (h : PeerStep C s ev s') (hout : ev.outcome = .ok cls) :
    ∃ hs, validateNodeHello C ev.hello ev.nowMs s.toHandshakeState = .ok () hs ∧
      admitHello hs ev.hello (some ev.localCommitment) ev.clusterId = .ok cls ∧
      s' = { s with toHandshakeState := hs }.acceptPeer ev.hello ev.nowMs cls := by
  unfold PeerStep at h
  rw [hout] at h
  exact processPeerHello_ok h

theorem of_error {reason : String} (h : PeerStep C s ev s') (hout : ev.outcome = .error reason) :
    ∃ hs, (validateNodeHello C ev.hello ev.nowMs s.toHandshakeState = .error reason hs ∧
        s' = { s with toHandshakeState := hs }.rejectInvalid ev.hello ev.nowMs ev.peerHint reason) ∨
      (validateNodeHello C ev.hello ev.nowMs s.toHandshakeState = .ok () hs ∧
        admitPeer ev.hello ev.nowMs (some ev.localCommitment) ev.clusterId
          { s with toHandshakeState := hs } = .error reason s') := by
  unfold PeerStep at h
  rw [hout] at h
  exact processPeerHello_error h

theorem keeps_domain (h : PeerStep C s ev s') : s'.localDomainHi = s.localDomainHi := by
  cases hout : ev.outcome with
  | ok cls =>
      obtain ⟨hs, hvalid, -, rfl⟩ := h.of_ok hout
      obtain ⟨-, -, rfl⟩ := validateNodeHello_ok_iff.mp hvalid
      rfl
  | error reason =>
      obtain ⟨hs, ⟨hvalid, rfl⟩ | ⟨hvalid, hadmitted⟩⟩ := h.of_error hout
      · rw [rejectInvalid_handshake]
        rcases validateNodeHello_refused hvalid with rfl | rfl
        · rfl
        · rfl
      · obtain ⟨-, -, rfl⟩ := validateNodeHello_ok_iff.mp hvalid
        rcases (admitPeer_error hadmitted).2 with rfl | ⟨-, expected, -, -, -, rfl⟩
        · rfl
        · rfl

/-- A refused hello keeps the trust, or is the one that refuses it. -/
theorem bridge_of_error {reason : String} (h : PeerStep C s ev s')
    (hout : ev.outcome = .error reason) :
    s'.bridgeTrust = s.bridgeTrust ∨
      ev.Refuses s.localDomainHi ∧ s'.bridgeTrust.refused = true := by
  obtain ⟨hs, ⟨-, rfl⟩ | ⟨hvalid, hadmitted⟩⟩ := h.of_error hout
  · exact .inl (rejectInvalid_bridgeTrust reason)
  · obtain ⟨-, -, rfl⟩ := validateNodeHello_ok_iff.mp hvalid
    obtain ⟨-, rfl | ⟨hdomain, expected, hexpected, hne, rfl, rfl⟩⟩ := admitPeer_error hadmitted
    · exact .inl rfl
    · cases hexpected
      exact .inr ⟨⟨hdomain, hne, hout⟩, rfl⟩

/-- An accepted hello restores the trust; of the node's shard it matches. -/
theorem bridge_of_ok {cls : PeerClass} (h : PeerStep C s ev s') (hout : ev.outcome = .ok cls) :
    s'.bridgeTrust.refused = false ∧
      (ev.hello.domainHi = s.localDomainHi → ev.Matches s.localDomainHi) := by
  obtain ⟨hs, hvalid, hadmitted, rfl⟩ := h.of_ok hout
  obtain ⟨-, -, rfl⟩ := validateNodeHello_ok_iff.mp hvalid
  refine ⟨rfl, fun hdomain => ⟨hdomain, ?_, cls, hout⟩⟩
  simp only [admitHello, except_bind_ok_iff, check_ok_iff, mapError_ok_iff] at hadmitted
  obtain ⟨_, -, _, -, _, -, _, -, _, hbridge, -⟩ := hadmitted
  exact hbridge (if_pos hdomain) _ rfl

/-- Of another shard a hello is accepted exactly when it passes its checks. -/
theorem otherShard_ok_iff (h : PeerStep C s ev s')
    (hother : ev.hello.domainHi ≠ s.localDomainHi) :
    (∃ cls, ev.outcome = .ok cls) ↔
      ev.hello.checks C s.validationCtx ev.nowMs = .ok () ∧
      (∀ p ∈ s.remembered ev.nowMs, p.1 ≠ ev.hello.nonce) ∧
      protocolCompat ev.hello.capabilities.protocolVersion = .ok () ∧
      (ev.hello.capabilities.syncProfile.isSome →
        ev.hello.capabilities.supportsSyncV1 = true) := by
  have hcls : classifyPeer s.localDomainHi ev.hello.domainHi ≠ .native := by
    rw [classifyPeer, if_neg hother]
    exact nofun
  constructor
  · rintro ⟨cls, hout⟩
    obtain ⟨hs, hvalid, hadmitted, -⟩ := h.of_ok hout
    obtain ⟨hchecks, hfresh, rfl⟩ := validateNodeHello_ok_iff.mp hvalid
    simp only [admitHello, except_bind_ok_iff, check_ok_iff, mapError_ok_iff] at hadmitted
    obtain ⟨_, -, _, -, _, hproto, _, hsync, -⟩ := hadmitted
    exact ⟨hchecks, hfresh, hproto, hsync⟩
  · rintro ⟨hchecks, hfresh, hproto, hsync⟩
    have hvalid := validateNodeHello_ok_iff.mpr ⟨hchecks, hfresh, rfl⟩
    cases hout : ev.outcome with
    | ok cls => exact ⟨cls, rfl⟩
    | error reason =>
        exfalso
        obtain ⟨hs, ⟨hfails, -⟩ | ⟨hvalid', hadmitted⟩⟩ := h.of_error hout
        · rw [hvalid] at hfails
          cases hfails
        · obtain ⟨-, -, rfl⟩ := validateNodeHello_ok_iff.mp hvalid'
          obtain ⟨hfails, -⟩ := admitPeer_error hadmitted
          have hpasses : admitHello
              { s.toHandshakeState with
                replay := (ev.hello.nonce, ev.nowMs) :: s.remembered ev.nowMs }
              ev.hello (some ev.localCommitment) ev.clusterId =
              .ok (classifyPeer s.localDomainHi ev.hello.domainHi) := by
            simp only [admitHello, except_bind_ok_iff, check_ok_iff, mapError_ok_iff]
            exact ⟨(), fun h => absurd h hcls, (), fun h => absurd h hcls, (), hproto, (), hsync,
              (), fun h => absurd h hcls, rfl⟩
          rw [hpasses] at hfails
          cases hfails

end PeerStep

section Runs

variable {C : Crypto} {s mid s' : PeerState} {events later : List HelloEvent}

theorem runs_keep_domain (hrun : Run (PeerStep C) s events s') :
    s'.localDomainHi = s.localDomainHi :=
  hrun.invariant (I := fun t => t.localDomainHi = s.localDomainHi)
    (fun _ _ _ ih hstep => hstep.keeps_domain.trans ih) rfl

/-- Only a replica without the local commitment sets the refusal. -/
theorem refusal_set_by_replica {ev : HelloEvent} (h : PeerStep C s ev s')
    (hbefore : s.bridgeTrust.refused = false) (hafter : s'.bridgeTrust.refused = true) :
    ev.Refuses s.localDomainHi := by
  cases hout : ev.outcome with
  | ok cls =>
      rw [(h.bridge_of_ok hout).1] at hafter
      cases hafter
  | error reason =>
      rcases h.bridge_of_error hout with hsame | ⟨hrefuses, -⟩
      · rw [hsame, hbefore] at hafter
        cases hafter
      · exact hrefuses

/-- One step: a refusal outlasts every hello but one that matches, or one of another shard. -/
theorem refused_step {ev : HelloEvent} (h : PeerStep C s ev s')
    (hrefused : s.bridgeTrust.refused = true) (hother : ¬ ev.FromOtherShard C s) :
    s'.bridgeTrust.refused = true ∨ ev.Matches s.localDomainHi := by
  cases hout : ev.outcome with
  | ok cls =>
      by_cases hdomain : ev.hello.domainHi = s.localDomainHi
      · exact .inr ((h.bridge_of_ok hout).2 hdomain)
      · exact absurd ⟨hrefused, hdomain, (h.otherShard_ok_iff hdomain).mp ⟨cls, hout⟩⟩ hother
  | error reason =>
      rcases h.bridge_of_error hout with hsame | ⟨-, hset⟩
      · rw [hsame]
        exact .inl hrefused
      · exact .inl hset

/-- A refusal outlasts a run up to a hello that matches. -/
theorem refused_run (hrun : Run (PeerStep C) mid later s')
    (hrefused : mid.bridgeTrust.refused = true)
    (hother : ∀ before ev rest t, later = before ++ ev :: rest → Run (PeerStep C) mid before t →
      ¬ ev.FromOtherShard C t) :
    s'.bridgeTrust.refused = true ∨ ∃ ev ∈ later, ev.Matches mid.localDomainHi := by
  induction hrun with
  | nil => exact .inl hrefused
  | @snoc t u ls ev hinit hlast ih =>
      have hearlier : ∀ before e rest x, ls = before ++ e :: rest →
          Run (PeerStep C) mid before x → ¬ e.FromOtherShard C x := by
        intro before e rest x hls hbefore
        refine hother before e (rest ++ [ev]) x ?_ hbefore
        rw [hls, List.append_assoc, List.cons_append]
      rcases ih hearlier with hstays | ⟨e, he, hmatches⟩
      · rcases refused_step hlast hstays (hother ls ev [] t rfl hinit) with hnext | hmatches
        · exact .inl hnext
        · rw [runs_keep_domain hinit] at hmatches
          exact .inr ⟨ev, List.mem_append_right _ (List.mem_singleton_self _), hmatches⟩
      · exact .inr ⟨e, List.mem_append_left _ he, hmatches⟩

/-- A refusal of federation trust ends only with a hello that matches, exactly when no hello of
another shard that passes its checks comes while trust is refused. -/
theorem refusal_cleared_by_match (hrun : Run (PeerStep C) s events s') :
    RefusalStays C s events ↔
      ∀ before ev rest mid, events = before ++ ev :: rest → Run (PeerStep C) s before mid →
        ¬ ev.FromOtherShard C mid := by
  constructor
  · rintro hstays before ev rest mid rfl hbefore hother
    obtain ⟨mid', next, hbefore', hstep⟩ := hrun.step_at
    have hmid : mid' = mid :=
      hbefore'.deterministic (fun _ _ _ _ ha hb => ha.deterministic hb) hbefore
    subst hmid
    have hdomain : ev.hello.domainHi ≠ s.localDomainHi := by
      rw [← runs_keep_domain hbefore]
      exact hother.2.1
    obtain ⟨cls, hout⟩ := (hstep.otherShard_ok_iff hother.2.1).mpr hother.2.2
    have hevents : before ++ ev :: rest = before ++ [ev] ++ rest := by
      rw [List.append_assoc, List.singleton_append]
    rcases hstays before [ev] rest mid' next hevents hbefore hother.1 (.single hstep) with
      hset | ⟨e, he, hmatches⟩
    · rw [(hstep.bridge_of_ok hout).1] at hset
      cases hset
    · obtain rfl := List.mem_singleton.mp he
      exact hdomain hmatches.1
  · rintro hother before later rest mid t rfl hbefore hrefused hlater
    rw [← runs_keep_domain hbefore]
    refine refused_run hlater hrefused fun front ev back u hsplit hfront => ?_
    refine hother (before ++ front) ev (back ++ rest) u ?_ (hbefore.append hfront)
    rw [hsplit]
    simp only [List.append_assoc, List.cons_append]

end Runs

/-! ## A refusal lifted by another shard -/

namespace OtherShard

open OneKey

def node : PeerState where
  toHandshakeState := OneKey.start

/-- A replica with another bridge commitment. -/
def replica : NodeHello :=
  { hello "x" "T1" votePk 1#8 0x6f5fe7731602bbba846b82c3071668270fdaa3b98bd50f7e7115ac253bf8eed156ff242362cc6e24f70188400e3106eaced35768a207361927c839ebc4cffd0f#512 with
    bridgeCommitment := some "cafebabe" }

/-- A peer of another shard, without a commitment. -/
def stranger : NodeHello :=
  { hello "y" "T2" otherPk 2#8 0x9f3a435b75b4bb3a7a9351a055c810b4d7d4a837233ee3540592a958f2d04ff5a0e0202b37f4ebd31f55903bc248ff8d4e39c286baef80967bb6cec00581c30c#512 with
    domainHi := 34#8
    clusterId := "cluster-b" }

def crypto : Crypto :=
  .ofTables [] [⟨8#256, votePk, [(replica.signingPayload, replica.signature.getD 0#512)]⟩,
    ⟨9#256, otherPk, [(stranger.signingPayload, stranger.signature.getD 0#512)]⟩]

def replicaEvent : HelloEvent :=
  ⟨replica, 1000#64, "peer-x", "deadbeef", "cluster-a", .error "bridge_federation_trust_refused"⟩
def strangerEvent : HelloEvent :=
  ⟨stranger, 1000#64, "peer-y", "deadbeef", "cluster-a", .ok .foreign⟩

/-- The state after the replica, and after the stranger. -/
def refusing : PeerState :=
  { node with replay := [([1#8], 1000#64)] }.refuseBridge "deadbeef" "cafebabe"
def restored : PeerState :=
  { refusing with replay := [([2#8], 1000#64), ([1#8], 1000#64)] }.acceptPeer stranger 1000#64
    .foreign

theorem verify_replica : replica.verifySignature crypto = true := by
  rw [NodeHello.verifySignature_some rfl]
  refine Crypto.ofTables_verify [] List.mem_cons_self rfl ?_
  rw [Crypto.signature_cons_self]
  rfl

theorem verify_stranger : stranger.verifySignature crypto = true := by
  rw [NodeHello.verifySignature_some rfl]
  refine Crypto.ofTables_verify [] (List.mem_cons_of_mem _ List.mem_cons_self) rfl ?_
  rw [Crypto.signature_cons_self]
  rfl

theorem replica_valid : validateNodeHello crypto replica 1000#64 node.toHandshakeState =
    .ok () { node.toHandshakeState with replay := [([1#8], 1000#64)] } := by
  refine validateNodeHello_ok_iff.mpr ⟨?_, by decide, rfl⟩
  rw [NodeHello.checks, verify_replica]
  decide

theorem stranger_valid : validateNodeHello crypto stranger 1000#64 refusing.toHandshakeState =
    .ok () { refusing.toHandshakeState with
      replay := [([2#8], 1000#64), ([1#8], 1000#64)] } := by
  refine validateNodeHello_ok_iff.mpr ⟨?_, by decide, rfl⟩
  rw [NodeHello.checks, verify_stranger]
  decide

theorem replica_step : PeerStep crypto node replicaEvent refusing :=
  (processPeerHello_of_valid replica_valid).trans rfl

theorem stranger_step : PeerStep crypto refusing strangerEvent restored :=
  (processPeerHello_of_valid stranger_valid).trans rfl

theorem refusalStays_iff_node :
    RefusalStays crypto node ([replicaEvent] ++ [strangerEvent]) ↔
      ∀ before ev rest mid, [replicaEvent] ++ [strangerEvent] = before ++ ev :: rest →
        Run (PeerStep crypto) node before mid → ¬ ev.FromOtherShard crypto mid :=
  refusal_cleared_by_match ((Run.single replica_step).snoc stranger_step)

/-- The replica is refused, and the next hello of another shard restores the trust. -/
theorem stranger_restores_trust :
    ¬ ∀ (C : Crypto) (s s' : PeerState) (events : List HelloEvent),
      s.bridgeTrust.refused = false → Run (PeerStep C) s events s' → RefusalStays C s events := by
  intro hclaim
  have hstays := hclaim crypto node restored _ rfl
    ((Run.single replica_step).snoc stranger_step)
  rcases hstays [replicaEvent] [strangerEvent] [] refusing restored rfl (.single replica_step)
    rfl (.single stranger_step) with hset | ⟨ev, hev, hmatches⟩
  · exact Bool.false_ne_true hset
  · obtain rfl := List.mem_singleton.mp hev
    exact absurd hmatches.1 (by decide)

end OtherShard

end Pwm
