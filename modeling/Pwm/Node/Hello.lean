import Pwm.Node.Attest
import Pwm.Lib.Attempt

/-!
# Hellos of peers

A peer introduces itself with a signed hello. When the hello passes the checks
below, what it declares replaces what the node held about the peer of that
name: its key, its cluster role and the member it speaks for.
-/

namespace Pwm

open Attempt

/-! ## JSON -/

/-- The characters of a text. -/
abbrev Json := List Char

/-- A string with its quotes, escaped as the serializer does. -/
def jsonStr (s : String) : Json :=
  let escape (c : Char) : Json :=
    if c.toNat = 34 then ['\\', '"']
    else if c.toNat = 92 then ['\\', '\\']
    else if c.toNat = 8 then ['\\', 'b']
    else if c.toNat = 9 then ['\\', 't']
    else if c.toNat = 10 then ['\\', 'n']
    else if c.toNat = 12 then ['\\', 'f']
    else if c.toNat = 13 then ['\\', 'r']
    else if c.toNat < 32 then
      ['\\', 'u', '0', '0', Nat.digitChar (c.toNat / 16), Nat.digitChar (c.toNat % 16)]
    else [c]
  ['"'] ++ s.toList.flatMap escape ++ ['"']

def jsonOpt {α : Type} (render : α → Json) (x : Option α) : Json :=
  x.elim "null".toList render

def jsonArr {α : Type} (render : α → Json) (xs : List α) : Json :=
  ['['] ++ [','].intercalate (xs.map render) ++ [']']

def jsonObj (fields : List (String × Json)) : Json :=
  ['{'] ++ [','].intercalate (fields.map fun p => jsonStr p.1 ++ [':'] ++ p.2) ++ ['}']

def jsonBool (b : Bool) : Json :=
  (if b then "true" else "false").toList

def jsonNat {w : Nat} (x : BitVec w) : Json :=
  Nat.toDigits 10 x.toNat

/-! ## The hello -/

inductive DeploymentProfile
  | singleSealer
  | multiSealerExperimental
  deriving DecidableEq

inductive SealRole
  | active
  | standby
  deriving DecidableEq

def DeploymentProfile.json : DeploymentProfile → Json
  | .singleSealer => jsonStr "single_sealer"
  | .multiSealerExperimental => jsonStr "multi_sealer_experimental"

def SealRole.json : SealRole → Json
  | .active => jsonStr "active"
  | .standby => jsonStr "standby"

def ClusterRole.json : ClusterRole → Json
  | .none => jsonStr "none"
  | .proposer => jsonStr "proposer"
  | .attester => jsonStr "attester"

def syncWireV1 : U16 := 1#16
def syncHdrMax : U16 := 512#16
def syncBlkMax : U16 := 64#16
def syncTxMax : U16 := 2048#16
def pwmProtocolVersion : String := "0.1.0"

structure NodeHelloSyncProfile where
  syncWireVersion : U16
  maxHeadersPerMsg : U16
  maxBlocksPerMsg : U16
  maxTxsPerMsg : U16
  supportsEpochCatchup : Bool
  deriving DecidableEq

structure NodeHelloCapabilities where
  protocolVersion : String
  txFeatures : List String
  services : List String
  syncProfile : Option NodeHelloSyncProfile := none
  deploymentProfile : DeploymentProfile := .singleSealer
  sealRole : SealRole := .active
  validatorIdentityHash : Option String := none
  nodeInstanceId : Option String := none
  leaseOwnerId : Option String := none
  leaseTerm : Option U64 := none
  leaseExpiresAtMs : Option U64 := none
  leaseLastTip : Option U64 := none
  leaseFence : Option U64 := none
  clusterAttestEnabled : Bool := false
  clusterRole : ClusterRole := .none
  clusterMembers : List String := []
  clusterQuorumK : Option U8 := none
  clusterQuorumN : Option U8 := none
  deriving DecidableEq

/-- A hello; the signature is none when it has not 64 bytes. -/
structure NodeHello where
  networkId : String
  genesisHash : Option String
  domainHi : U8
  clusterId : String
  nodeId : String
  pubkey : Bytes32
  capabilities : NodeHelloCapabilities
  nonce : List U8
  timestampMs : U64
  signature : Option Bytes64
  chainTipHeight : Option U64 := none
  federationShardId : Option String := none
  bridgeCommitment : Option String := none
  deriving DecidableEq

def NodeHelloSyncProfile.json (p : NodeHelloSyncProfile) : Json :=
  jsonObj [("sync_wire_version", jsonNat p.syncWireVersion),
    ("max_headers_per_msg", jsonNat p.maxHeadersPerMsg),
    ("max_blocks_per_msg", jsonNat p.maxBlocksPerMsg), ("max_txs_per_msg", jsonNat p.maxTxsPerMsg),
    ("supports_epoch_catchup", jsonBool p.supportsEpochCatchup)]

def NodeHelloCapabilities.json (c : NodeHelloCapabilities) : Json :=
  jsonObj [("protocol_version", jsonStr c.protocolVersion),
    ("tx_features", jsonArr jsonStr c.txFeatures), ("services", jsonArr jsonStr c.services),
    ("sync_profile", jsonOpt NodeHelloSyncProfile.json c.syncProfile),
    ("deployment_profile", c.deploymentProfile.json), ("seal_role", c.sealRole.json),
    ("validator_identity_hash", jsonOpt jsonStr c.validatorIdentityHash),
    ("node_instance_id", jsonOpt jsonStr c.nodeInstanceId),
    ("lease_owner_id", jsonOpt jsonStr c.leaseOwnerId), ("lease_term", jsonOpt jsonNat c.leaseTerm),
    ("lease_expires_at_ms", jsonOpt jsonNat c.leaseExpiresAtMs),
    ("lease_last_tip", jsonOpt jsonNat c.leaseLastTip),
    ("lease_fence", jsonOpt jsonNat c.leaseFence),
    ("cluster_attest_enabled", jsonBool c.clusterAttestEnabled),
    ("cluster_role", c.clusterRole.json), ("cluster_members", jsonArr jsonStr c.clusterMembers),
    ("cluster_quorum_k", jsonOpt jsonNat c.clusterQuorumK),
    ("cluster_quorum_n", jsonOpt jsonNat c.clusterQuorumN)]

/-- The UTF-8 bytes of characters. -/
def charBytes (cs : Json) : List U8 :=
  cs.flatMap fun c => (String.utf8EncodeChar c).map UInt8.toBitVec

/-- The bytes that the signature of a hello covers. -/
def NodeHello.signingPayload (hello : NodeHello) : List U8 :=
  let skipNone {α : Type} (name : String) (render : α → Json) (x : Option α) :=
    (x.map fun v => (name, render v)).toList
  charBytes (jsonObj ([("network_id", jsonStr hello.networkId),
    ("genesis_hash", jsonOpt jsonStr hello.genesisHash),
    ("cluster", jsonObj [("domain_hi", jsonNat hello.domainHi),
      ("cluster_id", jsonStr hello.clusterId)]),
    ("node", jsonObj [("node_id", jsonStr hello.nodeId),
      ("pubkey", jsonArr jsonNat (hello.pubkey.beBytes 32))]),
    ("capabilities", hello.capabilities.json), ("nonce", jsonArr jsonNat hello.nonce),
    ("timestamp_ms", jsonNat hello.timestampMs)] ++
    skipNone "chain_tip_height" jsonNat hello.chainTipHeight ++
    skipNone "federation_shard_id" jsonStr hello.federationShardId ++
    skipNone "bridge_commitment" jsonStr hello.bridgeCommitment))

/-- A text trimmed, none when nothing is left. -/
def trimmedNonempty (s : Option String) : Option String :=
  (s.map trim).filter fun t => decide (t ≠ "")

def NodeHelloCapabilities.supportsSyncV1 (c : NodeHelloCapabilities) : Bool :=
  match c.syncProfile with
  | none => false
  | some p => decide ("sync" ∈ c.services ∧ p.syncWireVersion = syncWireV1 ∧
      0#16 < p.maxHeadersPerMsg ∧ p.maxHeadersPerMsg ≤ syncHdrMax ∧
      0#16 < p.maxBlocksPerMsg ∧ p.maxBlocksPerMsg ≤ syncBlkMax ∧
      0#16 < p.maxTxsPerMsg ∧ p.maxTxsPerMsg ≤ syncTxMax)

/-! ## Checks of a hello -/

inductive HandshakeRejectReason
  | badSignature
  | replayNonce
  | networkMismatch
  | genesisMismatch
  | timestampSkew
  | malformed
  | protocolVersionMalformed
  | protocolVersionMajorMismatch
  deriving DecidableEq

def HandshakeRejectReason.asLabel : HandshakeRejectReason → String
  | .badSignature => "bad_signature"
  | .replayNonce => "replay_nonce"
  | .networkMismatch => "network_mismatch"
  | .genesisMismatch => "genesis_mismatch"
  | .timestampSkew => "timestamp_skew"
  | .malformed => "malformed"
  | .protocolVersionMalformed => "protocol_version_malformed"
  | .protocolVersionMajorMismatch => "protocol_version_major_mismatch"

structure HandshakeValidationCtx where
  expectedNetworkId : String
  expectedGenesisHash : Option String
  skewWindowMs : U64
  deriving DecidableEq

/-- The nonces seen, with the time each was seen at. -/
abbrev ReplayNonceCache := List (List U8 × U64)

def ReplayNonceCache.prune (seen : ReplayNonceCache) (nowMs windowMs : U64) : ReplayNonceCache :=
  seen.filter fun p => decide (nowMs.saturatingSub p.2 ≤ windowMs)

/-- Whether a nonce is new within the window; it is remembered then. -/
def ReplayNonceCache.checkAndInsert (seen : ReplayNonceCache) (nonce : List U8)
    (nowMs windowMs : U64) : Bool × ReplayNonceCache :=
  let kept := seen.prune nowMs windowMs
  if kept.any fun p => decide (p.1 = nonce) then (false, kept) else (true, (nonce, nowMs) :: kept)

def NodeHello.verifySignature (C : Crypto) (hello : NodeHello) : Bool :=
  match hello.signature with
  | none => false
  | some sig => C.verify hello.pubkey hello.signingPayload sig

theorem NodeHello.verifySignature_some {C : Crypto} {hello : NodeHello} {sig : Bytes64}
    (h : hello.signature = some sig) :
    hello.verifySignature C = C.verify hello.pubkey hello.signingPayload sig := by
  rw [NodeHello.verifySignature, h]

def NodeHello.mandatoryFieldsOk (hello : NodeHello) : Bool :=
  let blank (s : String) : Bool := decide (trim s = "")
  let caps := hello.capabilities
  !(blank hello.networkId || blank hello.clusterId || blank hello.nodeId ||
    blank caps.protocolVersion || hello.nonce.isEmpty) &&
  !(caps.txFeatures.any blank || caps.services.any blank) &&
  !(caps.validatorIdentityHash.any blank || caps.nodeInstanceId.any blank ||
    caps.clusterMembers.any blank)

/-- A number in decimal digits that fits into 64 bits; a plus sign may come first. -/
def parseU64 (digits : List Char) : Option Nat :=
  let body := match digits with
    | '+' :: rest => rest
    | _ => digits
  if body = [] ∨ ¬ body.all Char.isDigit then none
  else
    let n := body.foldl (fun n c => n * 10 + (c.toNat - '0'.toNat)) 0
    if n < 2 ^ 64 then some n else none

structure ProtocolVersion where
  major : Nat
  minor : Nat
  patch : Nat
  deriving DecidableEq

def ProtocolVersion.parse (raw : String) : Option ProtocolVersion :=
  match (trim raw).toList.splitOn '.' with
  | [majorS, minorS, patchS] => do
      let major ← parseU64 majorS
      let minor ← parseU64 minorS
      let patch ← parseU64 patchS
      some ⟨major, minor, patch⟩
  | _ => none

/-- A different minor or patch version only warns. -/
def protocolCompat (remoteRaw : String) : Except HandshakeRejectReason Unit :=
  match ProtocolVersion.parse pwmProtocolVersion, ProtocolVersion.parse remoteRaw with
  | some ours, some remote =>
      if ours.major ≠ remote.major then .error .protocolVersionMajorMismatch else .ok ()
  | _, _ => .error .protocolVersionMalformed

/-! ## What a hello does to the handshake state -/

/-- The part of the handshake state that hellos and cluster frames read and write. -/
structure HandshakeState where
  validationCtx : HandshakeValidationCtx
  localDomainHi : U8
  replay : ReplayNonceCache := []
  trustedPeers : TrustedPeers := fun _ => none
  deploymentProfile : DeploymentProfile := .singleSealer
  localSealRole : SealRole := .active
  localValidatorHash : Option String := none
  localInstanceId : Option String := none
  rounds : ClusterRounds := fun _ => none

inductive PeerClass
  | native
  | foreign
  deriving DecidableEq

def classifyPeer (localDomainHi peerDomainHi : U8) : PeerClass :=
  if peerDomainHi = localDomainHi then .native else .foreign

/-- The checks of a hello by itself. -/
def NodeHello.checks (C : Crypto) (hello : NodeHello) (ctx : HandshakeValidationCtx) (nowMs : U64) :
    Except HandshakeRejectReason Unit := do
  check (hello.mandatoryFieldsOk = true) .malformed
  check (hello.networkId = ctx.expectedNetworkId) .networkMismatch
  check (∀ expected, ctx.expectedGenesisHash = some expected → hello.genesisHash = some expected)
    .genesisMismatch
  check (hello.verifySignature C = true) .badSignature
  let skew := max nowMs.toNat hello.timestampMs.toNat - min nowMs.toNat hello.timestampMs.toNat
  check (skew ≤ ctx.skewWindowMs.toNat) .timestampSkew

/-- A hello that passes its checks uses up its nonce. -/
def validateNodeHello (C : Crypto) (hello : NodeHello) (nowMs : U64) :
    EStateM String HandshakeState Unit := do
  let hs ← get
  liftExcept HandshakeRejectReason.asLabel (hello.checks C hs.validationCtx nowMs)
  let (fresh, seen) := hs.replay.checkAndInsert hello.nonce nowMs hs.validationCtx.skewWindowMs
  modify fun hs => { hs with replay := seen }
  require (fresh = true) HandshakeRejectReason.replayNonce.asLabel

/-- Two active instances of one validator; refused under the single-sealer profile. -/
def activeConflict (hs : HandshakeState) (hello : NodeHello) : Bool :=
  match trimmedNonempty hs.localValidatorHash,
      trimmedNonempty hello.capabilities.validatorIdentityHash with
  | some localHash, some remoteHash =>
      let remoteInstance := trimmedNonempty hello.capabilities.nodeInstanceId
      let sameInstance := decide (remoteInstance.isSome ∧
        remoteInstance = trimmedNonempty hs.localInstanceId)
      decide (localHash = remoteHash ∧ sameInstance = false ∧
        hs.deploymentProfile = .singleSealer ∧ hs.localSealRole = .active ∧
        hello.capabilities.sealRole = .active)
  | _, _ => false

/-- What the node holds about a peer from its hello on. -/
def NodeHello.trustedPeer (hello : NodeHello) : TrustedPeer :=
  ⟨hello.pubkey, hello.capabilities.nodeInstanceId, hello.capabilities.clusterAttestEnabled,
    hello.capabilities.clusterRole⟩

/-- Whether a valid hello fits to the node. -/
def admitHello (hs : HandshakeState) (hello : NodeHello) (expectedBridgeCommitment : Option String)
    (expectedClusterId : String) : Except String PeerClass := do
  let cls := classifyPeer hs.localDomainHi hello.domainHi
  check (cls = .native → hello.clusterId = expectedClusterId) "same_shard_cluster_id_mismatch"
  check (cls = .native → activeConflict hs hello = false) "same_validator_active_conflict"
  (protocolCompat hello.capabilities.protocolVersion).mapError HandshakeRejectReason.asLabel
  check (hello.capabilities.syncProfile.isSome → hello.capabilities.supportsSyncV1 = true)
    (if cls = .native then "same_shard_sync_profile_incompatible"
      else "inter_shard_sync_profile_incompatible")
  check (cls = .native → ∀ expected, expectedBridgeCommitment = some expected →
    hello.bridgeCommitment = some expected) "bridge_federation_trust_refused"
  pure cls

def processIncomingPeerHello (C : Crypto) (hello : NodeHello) (nowMs : U64)
    (expectedBridgeCommitment : Option String) (expectedClusterId : String) :
    EStateM String HandshakeState PeerClass := do
  validateNodeHello C hello nowMs
  let hs ← get
  let cls ← liftExcept id (admitHello hs hello expectedBridgeCommitment expectedClusterId)
  modify fun hs => { hs with
    trustedPeers := Function.update hs.trustedPeers hello.nodeId hello.trustedPeer }
  pure cls

end Pwm
