import Pwm.Lib.Digits
import Pwm.Node.Hello
import Pwm.Node.LedgerFacts
import Pwm.Node.SyncQueue

/-!
# Frames of the peer wire

A message goes out as its JSON text after the length of the text. The sender
bounds rows, blocks and transactions, the receiver bounds bytes: a frame is
read exactly if its text has at most a mebibyte, and a full table of
cross-shard facts never has.
-/

namespace Pwm

open Attempt

/-! ## Messages -/

structure SyncWireHdr where
  shardId : U8
  peerSessionId : String
  seqNo : U64
  timestampMs : U64

structure SyncCatchupChunkWire where
  epochId : U64
  chunkIndex : U32
  firstPrevHash : String
  lastHash : String
  headers : List SyncHeaderWire
  blocks : List SyncBlockWire

structure ClusterProposeWire where
  height : U64
  round : U32
  voteObject : String
  candidateHash : String
  candidateRef : Option String
  tailBlocks : List SyncBlockWire

structure ClusterAttestWire where
  height : U64
  round : U32
  voteObject : String
  candidateHash : String
  signature : String
  candidateRef : Option String
  attesterTipHeight : Option U64

structure PeerAccountViewWire where
  id : AccountId
  domainHi : U8
  balancePwm : U128
  initialized : Bool
  nonce : U64
  observedAtMs : U64

structure FedGossipWireRow where
  shardId : String
  latestHeight : U64
  lastSeenUnixMs : U64
  sourceNodeId : String

/-- The messages that a node sends. -/
inductive PeerWireMsg
  | hello (nodeHello : NodeHello)
  | helloAck (accepted : Bool) (reason : Option String) (nodeHello : Option NodeHello)
  | heartbeat (unixMs : U64) (chainTipHeight : Option U64) (leaseOwnerId : Option String)
      (leaseTerm leaseExpiresAtMs leaseLastTip leaseFence : Option U64)
      (federationShardId : Option String) (federationGossip : Option (List FedGossipWireRow))
  | heartbeatAck (unixMs : U64)
  | crossShardFacts (facts : List CrossShardFact)
  | accountViews (rows : List PeerAccountViewWire)
  | syncTipAnnounce (hdr : SyncWireHdr) (headHeight : U64) (headHash : String)
      (finalizedHeight : U64) (finalizedHash : Option String)
  | syncHeadersReq (hdr : SyncWireHdr) (fromHeight : U64) (limit : U16)
  | syncHeadersBatch (hdr : SyncWireHdr) (headers : List SyncHeaderWire)
  | syncBlocksReq (hdr : SyncWireHdr) (blockHashes : List String)
      (blockHeights : Option (List U64))
  | syncBlocksBatch (hdr : SyncWireHdr) (blocks : List SyncBlockWire)
  | syncTxBatch (hdr : SyncWireHdr) (txs : List SignedTx)
  | syncNack (hdr : SyncWireHdr) (reasonCode : String) (retryAfterMs : U32)
  | syncCatchupReq (hdr : SyncWireHdr) (startHeight endHeight epochId : U64) (anchorHash : String)
  | syncCatchupChunk (hdr : SyncWireHdr) (chunk : SyncCatchupChunkWire)
  | syncCatchupDone (hdr : SyncWireHdr) (epochId lastHeight : U64) (lastHash : String)
  | clusterPropose (msg : ClusterProposeWire)
  | clusterAttest (msg : ClusterAttestWire)

/-! ## Their JSON -/

/-- A field that is left out when there is no value. -/
def jsonSkipNone {α : Type} (name : String) (render : α → Json) (x : Option α) :
    List (String × Json) :=
  (x.map fun v => (name, render v)).toList

/-- A field that is left out when the list is empty. -/
def jsonSkipEmpty {α : Type} (name : String) (render : α → Json) (xs : List α) :
    List (String × Json) :=
  if xs = [] then [] else [(name, jsonArr render xs)]

/-- Bytes as a text of hexadecimal digits. -/
def jsonHex (bytes : List U8) : Json :=
  jsonStr (String.ofList (Digits.hexDigits bytes))

def jsonHex32 (x : Bytes32) : Json := jsonHex (x.beBytes 32)
def jsonSig64 (x : Bytes64) : Json := jsonHex (x.beBytes 64)

/-- Bytes as an array of numbers. -/
def jsonBytes32 (x : Bytes32) : Json := jsonArr jsonNat (x.beBytes 32)

/-- An amount of a transaction as a decimal text. -/
def jsonU128 (x : U128) : Json := jsonStr (String.ofList (Nat.toDigits 10 x.toNat))

def serU128Hex (x : U128) : Json := jsonStr (String.ofList ('0' :: 'x' :: Nat.toDigits 16 x.toNat))

def ActivationMode.json : ActivationMode → Json
  | .dormant => jsonStr "dormant"
  | .immediately => jsonStr "immediately"
  | .deferred activateAtHeight =>
      jsonObj [("deferred", jsonObj [("activate_at_height", jsonNat activateAtHeight)])]

def PolicyKind.json : PolicyKind → Json
  | .routingSameDomainOnly => jsonStr "routing.same_domain_only"
  | .routingEmergencyRedirect => jsonStr "routing.emergency_redirect"
  | .senderFilter => jsonStr "sender_filter"
  | .defaultBehavior => jsonStr "default_behavior"
  | .cosignRequired => jsonStr "cosign_required"

def PolicyAction.json : PolicyAction → Json
  | .setPolicy policy activation =>
      jsonObj [("set_policy", jsonObj [("policy", policy.json), ("activation", activation.json)])]
  | .activatePolicy policyId activationTarget =>
      jsonObj [("activate_policy", jsonObj ([("policy_id", jsonNat policyId)] ++
        jsonSkipNone "activation_target" jsonHex32 activationTarget))]
  | .deactivatePolicy policyId =>
      jsonObj [("deactivate_policy", jsonObj [("policy_id", jsonNat policyId)])]

def CosignRole.json : CosignRole → Json
  | .rescue => jsonStr "rescue"
  | .organization => jsonStr "organization"
  | .witness => jsonStr "witness"

def Cosignature.json (c : Cosignature) : Json :=
  jsonObj [("signer_pk", jsonHex32 c.signerPk), ("role", c.role.json),
    ("signature", jsonSig64 c.signature)]

def InitPolicyEntry.json (row : InitPolicyEntry) : Json :=
  jsonObj [("policy", row.policy.json), ("activation", row.activation.json)]

def CosignPolicy.json (p : CosignPolicy) : Json :=
  jsonObj [("min_signers", jsonNat p.minSigners)]

def InitV4Extension.json (ext : InitV4Extension) : Json :=
  jsonObj ([("owner_kind", jsonStr ext.ownerKind),
    ("owner_display_name", jsonStr ext.ownerDisplayName),
    ("owner_country_hint", jsonStr ext.ownerCountryHint),
    ("company_metadata_commitment", jsonHex32 ext.companyMetadataCommitment),
    ("external_verification_ref", jsonStr ext.externalVerificationRef),
    ("requested_domain_lo", jsonNat ext.requestedDomainLo)] ++
    jsonSkipNone "rescue_address" jsonHex32 ext.rescueAddress ++
    jsonSkipEmpty "initial_policies" InitPolicyEntry.json ext.initialPolicies ++
    jsonSkipNone "cosign_policy" CosignPolicy.json ext.cosignPolicy)

def TxBody.json : TxBody → Json
  | .init index flags =>
      jsonObj [("init", jsonObj [("index", jsonNat index), ("flags", jsonNat flags)])]
  | .transfer toId amount fee =>
      jsonObj [("transfer", jsonObj [("to", jsonHex32 toId), ("amount", jsonU128 amount),
        ("fee", jsonU128 fee)])]
  | .stake amount => jsonObj [("stake", jsonObj [("amount", jsonU128 amount)])]
  | .unstake amount => jsonObj [("unstake", jsonObj [("amount", jsonU128 amount)])]
  | .burnMark markAmount beneficiary =>
      jsonObj [("burn_mark", jsonObj [("mark_amount", jsonNat markAmount),
        ("beneficiary", jsonOpt jsonHex32 beneficiary)])]
  | .claimIPv4Batch phase batchRoot registrySig =>
      jsonObj [("claim_ipv4_batch", jsonObj [("phase", jsonNat phase),
        ("batch_root", jsonHex32 batchRoot), ("registry_sig", jsonSig64 registrySig)])]
  | .exportTx toId targetDomain amount fee =>
      jsonObj [("export", jsonObj [("to", jsonHex32 toId), ("target_domain", jsonNat targetDomain),
        ("amount", jsonU128 amount), ("fee", jsonU128 fee)])]
  | .importTx toId amount exportId =>
      jsonObj [("import", jsonObj [("to", jsonHex32 toId), ("amount", jsonU128 amount),
        ("export_id", jsonHex32 exportId)])]
  | .policy targetAccount action fee =>
      jsonObj [("policy", jsonObj [("target_account", jsonHex32 targetAccount),
        ("action", action.json), ("fee", jsonU128 fee)])]

def ExportProvenance.json (p : ExportProvenance) : Json :=
  jsonObj [("to", jsonHex32 p.toId), ("target_domain", jsonNat p.targetDomain),
    ("amount", jsonU128 p.amount)]

def SignedTx.json (tx : SignedTx) : Json :=
  jsonObj ([("domain_code", jsonNat tx.domainCode), ("signer_pk", jsonHex32 tx.signerPk),
    ("derivation_index", jsonNat tx.derivationIndex), ("nonce", jsonNat tx.nonce),
    ("body", tx.body.json)] ++
    jsonSkipNone "burn_purpose" jsonStr tx.burnPurpose ++
    jsonSkipNone "import_fee" jsonU128 tx.importFee ++
    jsonSkipNone "import_provenance" ExportProvenance.json tx.importProvenance ++
    jsonSkipNone "init_v4" InitV4Extension.json tx.initV4 ++
    jsonSkipEmpty "cosigns" Cosignature.json tx.cosigns ++
    [("signature", jsonSig64 tx.signature)])

def BlockHdr.json (hdr : BlockHdr) : Json :=
  jsonObj [("height", jsonNat hdr.height), ("prev_hash", jsonHex32 hdr.prevHash),
    ("ts", jsonNat hdr.ts), ("prod_idx", jsonNat hdr.prodIdx), ("tx_root", jsonHex32 hdr.txRoot),
    ("state_root", jsonHex32 hdr.stateRoot), ("sig", jsonSig64 hdr.sig)]

def Block.json (blk : Block) : Json :=
  jsonObj [("hdr", blk.hdr.json), ("txs", jsonArr SignedTx.json blk.txs)]

def CrossShardStatus.json : CrossShardStatus → Json
  | .exported => jsonStr "exported"
  | .registered => jsonStr "registered"
  | .imported => jsonStr "imported"

def CrossShardOrigin.json : CrossShardOrigin → Json
  | .localNode => jsonStr "local"
  | .trustedPeer => jsonStr "trusted_peer"

def CrossShardFact.json (fact : CrossShardFact) : Json :=
  jsonObj [("export_id", jsonBytes32 fact.exportId),
    ("source_domain_hi", jsonNat fact.sourceDomainHi),
    ("target_domain_hi", jsonNat fact.targetDomainHi), ("amount", serU128Hex fact.amount),
    ("status", fact.status.json), ("first_height", jsonNat fact.firstHeight),
    ("last_height", jsonNat fact.lastHeight), ("source", jsonOpt jsonBytes32 fact.source),
    ("to", jsonBytes32 fact.toId), ("intent_id", jsonOpt jsonBytes32 fact.intentId),
    ("origin", fact.origin.json)]

def PeerAccountViewWire.json (row : PeerAccountViewWire) : Json :=
  jsonObj [("id", jsonBytes32 row.id), ("domain_hi", jsonNat row.domainHi),
    ("balance_pwm", serU128Hex row.balancePwm), ("initialized", jsonBool row.initialized),
    ("nonce", jsonNat row.nonce), ("observed_at_ms", jsonNat row.observedAtMs)]

def FedGossipWireRow.json (row : FedGossipWireRow) : Json :=
  jsonObj [("shard_id", jsonStr row.shardId), ("latest_height", jsonNat row.latestHeight),
    ("last_seen_unix_ms", jsonNat row.lastSeenUnixMs),
    ("source_node_id", jsonStr row.sourceNodeId)]

def NodeHello.json (hello : NodeHello) : Json :=
  jsonObj [("network_id", jsonStr hello.networkId), ("genesis_hash", jsonOpt jsonStr hello.genesisHash),
    ("cluster", jsonObj [("domain_hi", jsonNat hello.domainHi),
      ("cluster_id", jsonStr hello.clusterId)]),
    ("node", jsonObj [("node_id", jsonStr hello.nodeId), ("pubkey", jsonBytes32 hello.pubkey)]),
    ("capabilities", hello.capabilities.json), ("nonce", jsonArr jsonNat hello.nonce),
    ("timestamp_ms", jsonNat hello.timestampMs),
    ("signature", jsonArr jsonNat (hello.signature.elim [] fun sig => sig.beBytes 64)),
    ("chain_tip_height", jsonOpt jsonNat hello.chainTipHeight),
    ("federation_shard_id", jsonOpt jsonStr hello.federationShardId),
    ("bridge_commitment", jsonOpt jsonStr hello.bridgeCommitment)]

def SyncWireHdr.json (hdr : SyncWireHdr) : Json :=
  jsonObj [("shard_id", jsonNat hdr.shardId), ("peer_session_id", jsonStr hdr.peerSessionId),
    ("seq_no", jsonNat hdr.seqNo), ("timestamp_ms", jsonNat hdr.timestampMs)]

def SyncHeaderWire.json (hdr : SyncHeaderWire) : Json :=
  jsonObj [("height", jsonNat hdr.height), ("hash", jsonStr hdr.hash),
    ("prev_hash", jsonStr hdr.prevHash)]

def SyncBlockWire.json (row : SyncBlockWire) : Json :=
  jsonObj ([("height", jsonNat row.height), ("hash", jsonStr row.hash)] ++
    jsonSkipNone "block" Block.json row.block)

def SyncCatchupChunkWire.json (chunk : SyncCatchupChunkWire) : Json :=
  jsonObj [("epoch_id", jsonNat chunk.epochId), ("chunk_index", jsonNat chunk.chunkIndex),
    ("first_prev_hash", jsonStr chunk.firstPrevHash), ("last_hash", jsonStr chunk.lastHash),
    ("headers", jsonArr SyncHeaderWire.json chunk.headers),
    ("blocks", jsonArr SyncBlockWire.json chunk.blocks)]

def ClusterProposeWire.json (msg : ClusterProposeWire) : Json :=
  jsonObj ([("height", jsonNat msg.height), ("round", jsonNat msg.round),
    ("vote_object", jsonStr msg.voteObject), ("candidate_hash", jsonStr msg.candidateHash)] ++
    jsonSkipNone "candidate_ref" jsonStr msg.candidateRef ++
    jsonSkipEmpty "tail_blocks" SyncBlockWire.json msg.tailBlocks)

def ClusterAttestWire.json (msg : ClusterAttestWire) : Json :=
  jsonObj ([("height", jsonNat msg.height), ("round", jsonNat msg.round),
    ("vote_object", jsonStr msg.voteObject), ("candidate_hash", jsonStr msg.candidateHash),
    ("signature", jsonStr msg.signature)] ++
    jsonSkipNone "candidate_ref" jsonStr msg.candidateRef ++
    jsonSkipNone "attester_tip_height" jsonNat msg.attesterTipHeight)

/-- The fields of a message, the tag first. -/
def PeerWireMsg.fields : PeerWireMsg → List (String × Json)
  | .hello nodeHello => [("type", jsonStr "hello"), ("node_hello", nodeHello.json)]
  | .helloAck accepted reason nodeHello =>
      [("type", jsonStr "hello_ack"), ("accepted", jsonBool accepted)] ++
        jsonSkipNone "reason" jsonStr reason ++ jsonSkipNone "node_hello" NodeHello.json nodeHello
  | .heartbeat unixMs chainTipHeight leaseOwnerId leaseTerm leaseExpiresAtMs leaseLastTip leaseFence
      federationShardId federationGossip =>
      [("type", jsonStr "heartbeat"), ("unix_ms", jsonNat unixMs),
        ("chain_tip_height", jsonOpt jsonNat chainTipHeight),
        ("lease_owner_id", jsonOpt jsonStr leaseOwnerId), ("lease_term", jsonOpt jsonNat leaseTerm),
        ("lease_expires_at_ms", jsonOpt jsonNat leaseExpiresAtMs),
        ("lease_last_tip", jsonOpt jsonNat leaseLastTip),
        ("lease_fence", jsonOpt jsonNat leaseFence),
        ("federation_shard_id", jsonOpt jsonStr federationShardId),
        ("federation_gossip", jsonOpt (jsonArr FedGossipWireRow.json) federationGossip)]
  | .heartbeatAck unixMs => [("type", jsonStr "heartbeat_ack"), ("unix_ms", jsonNat unixMs)]
  | .crossShardFacts facts =>
      [("type", jsonStr "cross_shard_facts"), ("facts", jsonArr CrossShardFact.json facts)]
  | .accountViews rows =>
      [("type", jsonStr "account_views"), ("rows", jsonArr PeerAccountViewWire.json rows)]
  | .syncTipAnnounce hdr headHeight headHash finalizedHeight finalizedHash =>
      [("type", jsonStr "sync_tip_announce"), ("hdr", hdr.json),
        ("head_height", jsonNat headHeight), ("head_hash", jsonStr headHash),
        ("finalized_height", jsonNat finalizedHeight)] ++
        jsonSkipNone "finalized_hash" jsonStr finalizedHash
  | .syncHeadersReq hdr fromHeight limit =>
      [("type", jsonStr "sync_headers_req"), ("hdr", hdr.json),
        ("from_height", jsonNat fromHeight), ("limit", jsonNat limit)]
  | .syncHeadersBatch hdr headers =>
      [("type", jsonStr "sync_headers_batch"), ("hdr", hdr.json),
        ("headers", jsonArr SyncHeaderWire.json headers)]
  | .syncBlocksReq hdr blockHashes blockHeights =>
      [("type", jsonStr "sync_blocks_req"), ("hdr", hdr.json),
        ("block_hashes", jsonArr jsonStr blockHashes)] ++
        jsonSkipNone "block_heights" (jsonArr jsonNat) blockHeights
  | .syncBlocksBatch hdr blocks =>
      [("type", jsonStr "sync_blocks_batch"), ("hdr", hdr.json),
        ("blocks", jsonArr SyncBlockWire.json blocks)]
  | .syncTxBatch hdr txs =>
      [("type", jsonStr "sync_tx_batch"), ("hdr", hdr.json), ("txs", jsonArr SignedTx.json txs)]
  | .syncNack hdr reasonCode retryAfterMs =>
      [("type", jsonStr "sync_nack"), ("hdr", hdr.json), ("reason_code", jsonStr reasonCode),
        ("retry_after_ms", jsonNat retryAfterMs)]
  | .syncCatchupReq hdr startHeight endHeight epochId anchorHash =>
      [("type", jsonStr "sync_catchup_req"), ("hdr", hdr.json),
        ("start_height", jsonNat startHeight), ("end_height", jsonNat endHeight),
        ("epoch_id", jsonNat epochId), ("anchor_hash", jsonStr anchorHash)]
  | .syncCatchupChunk hdr chunk =>
      [("type", jsonStr "sync_catchup_chunk"), ("hdr", hdr.json), ("chunk", chunk.json)]
  | .syncCatchupDone hdr epochId lastHeight lastHash =>
      [("type", jsonStr "sync_catchup_done"), ("hdr", hdr.json), ("epoch_id", jsonNat epochId),
        ("last_height", jsonNat lastHeight), ("last_hash", jsonStr lastHash)]
  | .clusterPropose msg => [("type", jsonStr "cluster_propose"), ("msg", msg.json)]
  | .clusterAttest msg => [("type", jsonStr "cluster_attest"), ("msg", msg.json)]

/-- The bytes of a message before they are framed. -/
def PeerWireMsg.payload (msg : PeerWireMsg) : List U8 :=
  charBytes (jsonObj msg.fields)

/-! ## Frames -/

def wireMaxFrameLen : Nat := 1024 * 1024

/-- The bytes that a message is sent as. -/
def writeWireMsg (msg : PeerWireMsg) : Except String (List U8) :=
  let payload := msg.payload
  if payload.length < 2 ^ 32 then
    .ok ((BitVec.ofNat 32 payload.length).beBytes 4 ++ payload)
  else .error "wire_payload_too_large"

section Read

variable (fromSlice : List U8 → Except String PeerWireMsg)

def decodeWireMsgPayload (payload : List U8) : Except String PeerWireMsg :=
  (fromSlice payload).mapError fun e => "wire_decode_failed: " ++ e

/-- Reads one message off the stream: the message, and what is left. -/
def readWireMsg (stream : List U8) : Except String (PeerWireMsg × List U8) := do
  check (4 ≤ stream.length) "wire_read_len_failed: early eof"
  let len := Digits.ofBeBytes (stream.take 4)
  check (len ≠ 0 ∧ len ≤ wireMaxFrameLen) ("wire_invalid_frame_len=" ++ toString len)
  let stream := stream.drop 4
  check (len ≤ stream.length) "wire_read_payload_failed: early eof"
  let msg ← decodeWireMsgPayload fromSlice (stream.take len)
  .ok (msg, stream.drop len)

/-- The message is written, and read back whatever follows it. -/
def Delivered (msg : PeerWireMsg) : Prop :=
  ∃ bytes, writeWireMsg msg = .ok bytes ∧
    ∀ rest, readWireMsg fromSlice (bytes ++ rest) = .ok (msg, rest)

end Read

section Frames

variable {fromSlice : List U8 → Except String PeerWireMsg} {msg : PeerWireMsg} {cs : Json}

theorem length_le_charBytes (cs : Json) : cs.length ≤ (charBytes cs).length := by
  induction cs with
  | nil => exact Nat.zero_le _
  | cons c rest ih =>
      have hpos := c.utf8Size_pos
      have hhead : ((String.utf8EncodeChar c).map UInt8.toBitVec).length = c.utf8Size := by
        rw [List.length_map, String.length_utf8EncodeChar]
      rw [charBytes, List.flatMap_cons, List.length_append, hhead, List.length_cons]
      have hrest : (rest.flatMap fun c => (String.utf8EncodeChar c).map UInt8.toBitVec).length =
          (charBytes rest).length := rfl
      omega

theorem payload_pos (msg : PeerWireMsg) : 0 < msg.payload.length := by
  have hle := length_le_charBytes (jsonObj msg.fields)
  have hbrace : 0 < (jsonObj msg.fields).length := by
    rw [jsonObj, List.length_append, List.length_append, List.length_singleton]
    omega
  exact hbrace.trans_le hle

theorem writeWireMsg_ok_iff {bytes : List U8} : writeWireMsg msg = .ok bytes ↔
    msg.payload.length < 2 ^ 32 ∧
      bytes = (BitVec.ofNat 32 msg.payload.length).beBytes 4 ++ msg.payload := by
  unfold writeWireMsg
  dsimp only
  split
  · rename_i hfits
    simp only [Except.ok.injEq, hfits, true_and, eq_comm]
  · rename_i hover
    simp only [reduceCtorEq, hover, false_and]

/-- The receiver reads the length that the sender wrote. -/
theorem frame_length (hfits : msg.payload.length < 2 ^ 32) (rest : List U8) :
    Digits.ofBeBytes ((((BitVec.ofNat 32 msg.payload.length).beBytes 4 ++ msg.payload) ++ rest).take
      4) = msg.payload.length := by
  rw [List.append_assoc, List.take_left' (BitVec.length_beBytes 4 _), Digits.ofBeBytes_beBytes,
    BitVec.toNat_ofNat, Nat.mod_eq_of_lt hfits]
  exact Nat.mod_eq_of_lt hfits

theorem delivered_length (h : Delivered fromSlice msg) :
    msg.payload.length ≤ wireMaxFrameLen := by
  obtain ⟨bytes, hwrite, hread⟩ := h
  obtain ⟨hfits, rfl⟩ := writeWireMsg_ok_iff.mp hwrite
  have hfirst := hread []
  simp only [readWireMsg, except_bind_ok_iff, check_ok_iff, frame_length hfits] at hfirst
  obtain ⟨-, -, -, hlength, -⟩ := hfirst
  exact hlength.2

/-- A frame is read back exactly if its text has at most a mebibyte. -/
theorem delivered_iff (hround : fromSlice msg.payload = .ok msg) :
    Delivered fromSlice msg ↔ msg.payload.length ≤ wireMaxFrameLen := by
  constructor
  · exact delivered_length
  · intro hlength
    have hmax : wireMaxFrameLen < 2 ^ 32 := by decide
    have hfits := hlength.trans_lt hmax
    have hpos := payload_pos msg
    have hdrop : ∀ rest, (((BitVec.ofNat 32 msg.payload.length).beBytes 4 ++ msg.payload) ++
        rest).drop 4 = msg.payload ++ rest := by
      intro rest
      rw [List.append_assoc, List.drop_left' (BitVec.length_beBytes 4 _)]
    refine ⟨_, writeWireMsg_ok_iff.mpr ⟨hfits, rfl⟩, fun rest => ?_⟩
    simp only [readWireMsg, except_bind_ok_iff, check_ok_iff, frame_length hfits, hdrop]
    refine ⟨(), ?_, (), ⟨by omega, hlength⟩, (), ?_, msg, ?_, ?_⟩
    · rw [List.length_append, List.length_append, BitVec.length_beBytes]
      omega
    · rw [List.length_append]
      omega
    · rw [List.take_left' rfl, decodeWireMsgPayload, hround]
      rfl
    · rw [List.drop_left' rfl]

end Frames

/-! ## A full table of facts -/

section Sizes

theorem length_intercalate (xs : List Json) :
    ([','].intercalate xs).length = (xs.map List.length).sum + (xs.length - 1) := by
  induction xs with
  | nil => rfl
  | cons x rest ih =>
      cases rest with
      | nil => simp
      | cons y rest =>
          rw [List.intercalate_cons_cons, List.length_append, List.length_append, ih,
            List.length_singleton]
          simp only [List.map_cons, List.sum_cons, List.length_cons]
          omega

theorem length_jsonObj (fields : List (String × Json)) :
    (jsonObj fields).length =
      (fields.map fun p => (jsonStr p.1).length + 1 + p.2.length).sum + (fields.length - 1) + 2 := by
  have hfields : (fields.map fun p => jsonStr p.1 ++ [':'] ++ p.2).map List.length =
      fields.map fun p => (jsonStr p.1).length + 1 + p.2.length := by
    rw [List.map_map]
    apply List.map_congr_left
    intro p _
    simp only [Function.comp, List.length_append, List.length_singleton]
  rw [jsonObj, List.length_append, List.length_append, length_intercalate, hfields,
    List.length_map, List.length_singleton, List.length_singleton]
  omega

theorem length_jsonArr {α : Type} (render : α → Json) (xs : List α) :
    (jsonArr render xs).length =
      (xs.map fun x => (render x).length).sum + (xs.length - 1) + 2 := by
  rw [jsonArr, List.length_append, List.length_append, length_intercalate, List.map_map,
    List.length_map, List.length_singleton, List.length_singleton]
  have hmap : (xs.map (List.length ∘ render)) = xs.map fun x => (render x).length := rfl
  rw [hmap]
  omega

/-- Numbers have a digit at least. -/
theorem length_jsonNat_pos {w : Nat} (x : BitVec w) : 0 < (jsonNat x).length :=
  Nat.length_toDigits_pos

/-- Bytes in decimal are longer than in hexadecimal. -/
theorem length_jsonBytes32 (x : Bytes32) : 65 ≤ (jsonBytes32 x).length := by
  have hdigits : (x.beBytes 32).length ≤ ((x.beBytes 32).map fun b => (jsonNat b).length).sum := by
    have hsum := List.length_le_sum_of_one_le ((x.beBytes 32).map fun b => (jsonNat b).length) ?_
    · rwa [List.length_map] at hsum
    · intro n hn
      obtain ⟨b, -, rfl⟩ := List.mem_map.mp hn
      exact length_jsonNat_pos b
  rw [BitVec.length_beBytes] at hdigits
  rw [jsonBytes32, length_jsonArr, BitVec.length_beBytes]
  omega

/-- The names of its fields and its two ids alone take more than a fact has room for. -/
theorem length_factJson (fact : CrossShardFact) : 274 ≤ fact.json.length := by
  have hexport := length_jsonBytes32 fact.exportId
  have hto := length_jsonBytes32 fact.toId
  rw [CrossShardFact.json, length_jsonObj]
  simp only [List.map_cons, List.map_nil, List.sum_cons, List.sum_nil, List.length_cons,
    List.length_nil]
  have hnames : (jsonStr "export_id").length = 11 ∧ (jsonStr "source_domain_hi").length = 18 ∧
      (jsonStr "target_domain_hi").length = 18 ∧ (jsonStr "amount").length = 8 ∧
      (jsonStr "status").length = 8 ∧ (jsonStr "first_height").length = 14 ∧
      (jsonStr "last_height").length = 13 ∧ (jsonStr "source").length = 8 ∧
      (jsonStr "to").length = 4 ∧ (jsonStr "intent_id").length = 11 ∧
      (jsonStr "origin").length = 8 := by
    decide
  omega

/-- A message with a full table of facts is too long, whatever the facts are. -/
theorem facts_not_delivered {fromSlice : List U8 → Except String PeerWireMsg}
    {facts : List CrossShardFact} (hfull : factCap ≤ facts.length) :
    ¬ Delivered fromSlice (.crossShardFacts facts) := by
  intro hdelivered
  have hlength := delivered_length hdelivered
  have hbytes := length_le_charBytes (jsonObj (PeerWireMsg.crossShardFacts facts).fields)
  have hrows : 274 * facts.length ≤ (facts.map fun fact => fact.json.length).sum := by
    have hsum := List.card_nsmul_le_sum (facts.map fun fact => fact.json.length) 274 ?_
    · rw [List.length_map, smul_eq_mul] at hsum
      omega
    · intro n hn
      obtain ⟨fact, -, rfl⟩ := List.mem_map.mp hn
      exact length_factJson fact
  have hcap : factCap = 4096 := rfl
  have hmax : wireMaxFrameLen = 1048576 := rfl
  rw [PeerWireMsg.payload] at hlength
  rw [PeerWireMsg.fields, length_jsonObj] at hbytes
  simp only [List.map_cons, List.map_nil, List.sum_cons, List.sum_nil, length_jsonArr] at hbytes
  rw [PeerWireMsg.fields] at hlength
  omega

end Sizes

/-- The facts of a ledger, as they are sent to a peer. -/
def CrossShardLedger.factRows (l : CrossShardLedger) : List CrossShardFact :=
  l.facts.toList.map Prod.snd

def sendCrossShardFacts (l : CrossShardLedger) : PeerWireMsg :=
  .crossShardFacts l.factRows

namespace FullLedger

/-- An export that a peer reports. -/
def fact (n : Nat) : CrossShardFact where
  exportId := BitVec.ofNat 256 n
  sourceDomainHi := 0x32#8
  targetDomainHi := 0x9f#8
  amount := 500#128
  status := .exported
  firstHeight := 1#64
  lastHeight := 1#64
  toId := EarlyImport.importerRow.acct

/-- The ledger after as many reports. -/
def filled (n : Nat) : CrossShardLedger :=
  (List.range n).foldl (fun l i => (l.insertPeerFact (fact i)).1) {}

theorem filled_succ (n : Nat) : filled (n + 1) = ((filled n).insertPeerFact (fact n)).1 := by
  rw [filled, List.range_succ, List.foldl_append]
  rfl

/-- Each report is a new fact, as long as there is room. -/
theorem filled_size {n : Nat} (hn : n ≤ factCap) : (filled n).facts.size = n ∧
    ∀ (id : Bytes32) (f : CrossShardFact), (filled n).facts[id]? = some f → id.toNat < n := by
  induction n with
  | zero =>
      constructor
      · rfl
      · intro id f hf
        cases hf
  | succ n ih =>
      obtain ⟨hsize, hids⟩ := ih (by omega)
      have hcap : factCap = 4096 := rfl
      have hid : (BitVec.ofNat 256 n).toNat = n := by
        rw [BitVec.toNat_ofNat]
        exact Nat.mod_eq_of_lt (by omega)
      have hnew : (filled n).facts[BitVec.ofNat 256 n]? = none := by
        rw [Option.eq_none_iff_forall_ne_some]
        intro f hf
        have hlt := hids _ f hf
        omega
      have hfacts : (filled (n + 1)).facts =
          (filled n).facts.insert (BitVec.ofNat 256 n) { fact n with origin := .trustedPeer } := by
        have hroom : ((filled n).facts.insert (BitVec.ofNat 256 n)
            { fact n with origin := .trustedPeer }).size ≤ factCap := by
          have hle := Std.ExtTreeMap.size_insert_le (t := (filled n).facts)
            (k := BitVec.ofNat 256 n) (v := { fact n with origin := .trustedPeer })
          omega
        rw [filled_succ, CrossShardLedger.insertPeerFact, CrossShardLedger.upsert]
        simp only [fact, hnew]
        exact CrossShardLedger.evict_of_le hroom
      rw [hfacts]
      constructor
      · rw [Std.ExtTreeMap.size_insert, if_neg, hsize]
        rw [Std.ExtTreeMap.contains_iff_mem, Std.ExtTreeMap.mem_iff_isSome_getElem?, hnew]
        exact Bool.false_ne_true
      · intro id f hf
        rw [Std.ExtTreeMap.getElem?_insert] at hf
        split at hf
        · rename_i heq
          rw [← Std.LawfulEqCmp.eq_of_compare heq, hid]
          omega
        · have hlt := hids id f hf
          omega

end FullLedger

/-- As many facts of peers as the ledger holds make a frame that no peer reads. -/
theorem fullLedger_not_delivered : (FullLedger.filled factCap).facts.size = factCap ∧
    ∀ fromSlice, ¬ Delivered fromSlice (sendCrossShardFacts (FullLedger.filled factCap)) := by
  have hsize := (FullLedger.filled_size le_rfl).1
  refine ⟨hsize, fun fromSlice => facts_not_delivered ?_⟩
  rw [CrossShardLedger.factRows, List.length_map, Std.ExtTreeMap.length_toList, hsize]

/-- A single fact is read back. -/
theorem singleFact_delivered :
    Delivered (fun bytes =>
      if bytes = (PeerWireMsg.crossShardFacts [FullLedger.fact 0]).payload then
        .ok (.crossShardFacts [FullLedger.fact 0])
      else .error "expected value at line 1 column 1") (.crossShardFacts [FullLedger.fact 0]) := by
  refine (delivered_iff ?_).mpr ?_
  · rw [if_pos rfl]
  · decide +kernel

end Pwm
