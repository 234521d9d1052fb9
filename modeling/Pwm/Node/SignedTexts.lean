import Pwm.Node.PeerTrust
import Pwm.Node.Inner
import Pwm.Wallet.AccountCodec
import Pwm.Lib.Joined

/-!
# What signed texts bind

The handoff of an export and the attestation of a vote are signed as texts
whose fields are joined by a separator. A text binds its fields when no other
fields have it. Fields that nothing checks may hold the separator, and an
absent reference is written as an empty one.
-/

namespace Pwm

open BitVec Attempt Joined

/-! ## Handoffs -/

/-- The arguments of the message of a handoff. -/
structure HandoffBinding where
  networkId : Text
  sourceDomainHi : U8
  sourceClusterId : Text
  sourceNodeId : Text
  intentId : Text
  exportId : Text
  source : Text
  toId : Text
  targetDomain : U16
  amount : Text
  status : IntentStatus
  deriving DecidableEq

def IntentStatus.asStr : IntentStatus → String
  | .queued => "queued"
  | .exported => "exported"
  | .relayed => "relayed"
  | .imported => "imported"
  | .expired => "expired"
  | .failed => "failed"

/-- A byte as two upper-case hexadecimal digits. -/
def domainHiText (domainHi : U8) : Text :=
  upperHex 2 domainHi.toNat

namespace HandoffBinding

/-- The fields that the export itself fixes. -/
def tailFields (b : HandoffBinding) : List Text :=
  [b.exportId, b.source, b.toId, Nat.toDigits 10 b.targetDomain.toNat, b.amount,
    b.status.asStr.toList]

def fields (b : HandoffBinding) : List Text :=
  ["pwm-export-handoff-v1".toList, b.networkId, domainHiText b.sourceDomainHi, b.sourceClusterId,
    b.sourceNodeId, b.intentId] ++ b.tailFields

end HandoffBinding

def handoffMsg (b : HandoffBinding) : List U8 :=
  charBytes (['|'].intercalate b.fields)

structure ExportHandoffOut extends HandoffBinding where
  proofVersion : U8
  sourceNodePubkey : Text
  signature : Text
  deriving DecidableEq

/-! ## The checks of a handoff -/

/-- The bytes of a text of hexadecimal digits, when they are as many as wanted. -/
def decodeHandoffHex (n : Nat) (what : String) (value : Text) : Except (Nat × String) (List U8) :=
  match Text.hexDecode (Text.trim value) with
  | none => .error (400, "invalid handoff " ++ what)
  | some bytes =>
      if bytes.length = n then .ok bytes else .error (400, "invalid handoff " ++ what ++ " length")

def verifyHandoff (C : Crypto) (input : ExportHandoffOut) : Except (Nat × String) Unit := do
  check (input.proofVersion = 1#8) (400, "invalid handoff proof_version")
  check (input.status = .relayed)
    (400, "export handoff must be finalized with status=relayed")
  let pk ← decodeHandoffHex 32 "source_node_pubkey" input.sourceNodePubkey
  let sig ← decodeHandoffHex 64 "signature" input.signature
  check (C.verify (bytes32 pk) (handoffMsg input.toHandoffBinding)
    (BitVec.ofNat 512 (Digits.ofBeBytes sig)) = true) (400, "invalid handoff signature")

/-- The source is a trusted and live peer, the one that the handoff names. -/
def ensureTrustedHandoffSource (s : PeerState) (input : ExportHandoffOut) :
    Except (Nat × String) Unit := do
  let pk ← decodeHandoffHex 32 "source_node_pubkey" input.sourceNodePubkey
  let nodeId := String.ofList input.sourceNodeId
  let notTrusted := (403, "export handoff source peer is not trusted by handshake state")
  let peer ← orFail (s.trustedPeers nodeId) notTrusted
  let home ← orFail (s.trustedHomes nodeId) notTrusted
  check (home.nodeId = nodeId ∧ home.clusterId = String.ofList input.sourceClusterId ∧
      home.domainHi = input.sourceDomainHi ∧ peer.pubkey = bytes32 pk)
    (403, "export handoff source identity does not match trusted peer state")
  let live ← orFail (s.peers nodeId) (403, "export handoff source peer is not live")
  check (live.status.isLiveish = true) (403, "export handoff source peer is not live")

def parseHandoffId (field : String) (value : Text) : Except (Nat × String) Bytes32 :=
  match Text.hexDecode (Text.trim value) with
  | none => .error (400, "invalid " ++ field)
  | some bytes => if bytes.length = 32 then .ok (bytes32 bytes) else .error (400, "invalid " ++ field)

def parseHandoffAmount (value : Text) : Except (Nat × String) U128 :=
  (Digits.parseUnsigned 128 (Text.trim value)).mapError fun _ => (400, "invalid handoff amount")

/-- The parts of a node that a handoff is checked against. -/
structure HandoffNode where
  networkId : Text
  shardEnforced : Bool
  clusterDomainHi : U8
  phase : InitPhase
  peers : PeerState
  inner : Inner

/-- Where a refused handoff is named. -/
def handoffIds (input : ExportHandoffOut) : String :=
  " export_id=" ++ String.ofList input.exportId ++ " intent_id=" ++ String.ofList input.intentId

/-- The checks of the export that is handed over; whether it is known already. -/
def checkHandoffExport (node : HandoffNode) (input : ExportHandoffOut) :
    Except (Nat × String) Bool := do
  let exportId ← parseHandoffId "export_id" input.exportId
  let source ← parseHandoffId "source" input.source
  let toId ← parseHandoffId "to" input.toId
  let amount ← parseHandoffAmount input.amount
  (validateRecipientAddressPolicy toId).mapError fun e => (400, e)
  check (domainOfAccountId toId = input.targetDomain)
    (400, "export handoff recipient domain does not match target_domain" ++ handoffIds input)
  check (node.shardEnforced = true → hiByte input.targetDomain = node.clusterDomainHi)
    (409, "export handoff target_domain does not belong to this target node" ++ handoffIds input)
  check (exportId ∉ node.inner.chain.st.importedSet)
    (409, "export handoff already imported" ++ handoffIds input)
  match node.inner.crossShard.fact exportId with
  | none => pure false
  | some existing =>
      check (existing.toId = toId ∧ existing.amount = amount ∧
          existing.targetDomainHi = hiByte input.targetDomain ∧ existing.source = some source)
        (400, "export handoff conflicts with registered provenance" ++ handoffIds input)
      pure true

/-- The checks of a handoff before it is recorded. -/
def registerHandoffChecks (C : Crypto) (node : HandoffNode) (input : ExportHandoffOut) :
    Except (Nat × String) Bool := do
  ensureUserTxAllowed node.phase node.peers
  check (input.networkId = node.networkId)
    (400, "export handoff network_id does not match target node" ++ handoffIds input)
  verifyHandoff C input
  ensureTrustedHandoffSource node.peers input
  checkHandoffExport node input

/-! ## Texts and their bytes -/

/-- A text is known from its bytes. -/
theorem charBytes_injective : Function.Injective charBytes := by
  intro cs ds h
  have hbytes : cs.flatMap String.utf8EncodeChar = ds.flatMap String.utf8EncodeChar := by
    have htoBitVec : Function.Injective UInt8.toBitVec := fun a b hab => UInt8.toBitVec_inj.mp hab
    apply List.map_injective_iff.mpr htoBitVec
    rw [List.map_flatMap, List.map_flatMap]
    exact h
  have hstring : String.ofList cs = String.ofList ds := by
    apply String.toByteArray_inj.mp
    rw [String.toByteArray_ofList, String.toByteArray_ofList, List.utf8Encode, List.utf8Encode,
      hbytes]
  exact String.ofList_injective hstring

theorem handoffMsg_eq_iff {a b : HandoffBinding} :
    handoffMsg a = handoffMsg b ↔
      a.fields.flatMap (List.splitOn '|') = b.fields.flatMap (List.splitOn '|') := by
  rw [handoffMsg, handoffMsg, charBytes_injective.eq_iff]
  exact text_eq_iff (List.cons_ne_nil _ _) (List.cons_ne_nil _ _)

/-! ## What an accepted handoff looks like -/

section Accepted

variable {C : Crypto} {node : HandoffNode} {input : ExportHandoffOut} {known : Bool}

theorem not_bar_of_hex {c : Char} (h : Text.isWhite c = true ∨ Text.isHexDigit c = true) :
    c ≠ '|' := by
  rintro rfl
  revert h
  decide

theorem not_bar_of_digit {c : Char} (h : c = '+' ∨ c.isDigit = true) : c ≠ '|' := by
  rintro rfl
  revert h
  decide

theorem parseHandoffId_free {field : String} {value : Text} {id : Bytes32}
    (h : parseHandoffId field value = .ok id) : '|' ∉ value := by
  unfold parseHandoffId at h
  intro hbar
  cases hdecode : Text.hexDecode (Text.trim value) with
  | none =>
      rw [hdecode] at h
      cases h
  | some bytes => exact not_bar_of_hex (Text.char_of_hexDecode hdecode hbar) rfl

theorem parseHandoffAmount_free {value : Text} {amount : U128}
    (h : parseHandoffAmount value = .ok amount) : '|' ∉ value := by
  intro hbar
  rw [parseHandoffAmount, mapError_ok_iff] at h
  rcases Text.mem_trim_or_white hbar with hwhite | htrim
  · exact not_bar_of_hex (.inl hwhite) rfl
  · exact not_bar_of_digit (Digits.char_of_parseUnsigned h htrim) rfl

theorem verifyHandoff_ok_iff : verifyHandoff C input = .ok () ↔
    input.proofVersion = 1#8 ∧ input.status = .relayed ∧
    ∃ pk, decodeHandoffHex 32 "source_node_pubkey" input.sourceNodePubkey = .ok pk ∧
    ∃ sig, decodeHandoffHex 64 "signature" input.signature = .ok sig ∧
      C.verify (bytes32 pk) (handoffMsg input.toHandoffBinding)
        (BitVec.ofNat 512 (Digits.ofBeBytes sig)) = true := by
  simp only [verifyHandoff, except_bind_ok_iff, check_ok_iff]
  constructor
  · rintro ⟨_, hversion, _, hstatus, rest⟩
    exact ⟨hversion, hstatus, rest⟩
  · rintro ⟨hversion, hstatus, rest⟩
    exact ⟨(), hversion, (), hstatus, rest⟩

theorem registerHandoffChecks_ok_iff : registerHandoffChecks C node input = .ok known ↔
    ensureUserTxAllowed node.phase node.peers = .ok () ∧ input.networkId = node.networkId ∧
    verifyHandoff C input = .ok () ∧ ensureTrustedHandoffSource node.peers input = .ok () ∧
    checkHandoffExport node input = .ok known := by
  simp only [registerHandoffChecks, except_bind_ok_iff, check_ok_iff]
  constructor
  · rintro ⟨_, hallowed, _, hnetwork, _, hverify, _, htrusted, hexport⟩
    exact ⟨hallowed, hnetwork, hverify, htrusted, hexport⟩
  · rintro ⟨hallowed, hnetwork, hverify, htrusted, hexport⟩
    exact ⟨(), hallowed, (), hnetwork, (), hverify, (), htrusted, hexport⟩

/-- The fields of the export hold no bar. -/
theorem tail_free (h : registerHandoffChecks C node input = .ok known) :
    ∀ f ∈ input.tailFields, '|' ∉ f := by
  obtain ⟨-, -, hverify, -, hexport⟩ := registerHandoffChecks_ok_iff.mp h
  obtain ⟨-, hstatus, -⟩ := verifyHandoff_ok_iff.mp hverify
  simp only [checkHandoffExport, except_bind_ok_iff] at hexport
  obtain ⟨_, hexportId, _, hsource, _, hto, _, hamount, -⟩ := hexport
  simp only [HandoffBinding.tailFields, List.forall_mem_cons]
  refine ⟨parseHandoffId_free hexportId, parseHandoffId_free hsource, parseHandoffId_free hto,
    fun hbar => not_bar_of_digit (.inr (Digits.isDigit_of_mem_decimal hbar)) rfl,
    parseHandoffAmount_free hamount, ?_, List.forall_mem_nil _⟩
  rw [hstatus]
  decide

end Accepted

/-! ## When a handoff is bound by its text -/

namespace HandoffBinding

variable {a b : HandoffBinding}

/-- The names hold no bar, and no later part of the network id reads as a domain. -/
def Unambiguous (b : HandoffBinding) : Prop :=
  '|' ∉ b.sourceClusterId ∧ '|' ∉ b.sourceNodeId ∧ '|' ∉ b.intentId ∧
    ∀ part ∈ (b.networkId.splitOn '|').tail, ∀ domainHi, part ≠ domainHiText domainHi

/-- The parts of the three names. -/
def nameParts (b : HandoffBinding) : List Text :=
  b.sourceClusterId.splitOn '|' ++ b.sourceNodeId.splitOn '|' ++ b.intentId.splitOn '|'

theorem domainHiText_free (domainHi : U8) : '|' ∉ domainHiText domainHi := by
  intro h
  obtain ⟨d, hd, hbar⟩ := mem_upperHex h
  have hdigit := (upperDigit d hd).1
  rw [← hbar] at hdigit
  exact absurd hdigit (by decide)

theorem ofHex_domainHiText (domainHi : U8) :
    Text.ofHex (domainHiText domainHi) = domainHi.toNat :=
  ofHex_upperHex 2 domainHi.toNat

theorem domainHiText_injective : Function.Injective domainHiText := by
  intro x y h
  apply BitVec.eq_of_toNat_eq
  rw [← ofHex_domainHiText x, h, ofHex_domainHiText]

theorem decimal_injective {w : Nat} {x y : BitVec w}
    (h : Nat.toDigits 10 x.toNat = Nat.toDigits 10 y.toNat) : x = y := by
  have hx := Digits.parseUnsigned_decimal x
  rw [h, Digits.parseUnsigned_decimal] at hx
  exact (Except.ok.inj hx).symm

theorem parts_eq (hfree : ∀ f ∈ b.tailFields, '|' ∉ f) :
    b.fields.flatMap (List.splitOn '|') =
      "pwm-export-handoff-v1".toList :: b.networkId.splitOn '|' ++
        domainHiText b.sourceDomainHi :: b.nameParts ++ b.tailFields := by
  have hversion : "pwm-export-handoff-v1".toList.splitOn '|' = ["pwm-export-handoff-v1".toList] :=
    List.splitOn_eq_singleton (by decide)
  rw [fields, List.flatMap_append, flatMap_splitOn_of_free hfree]
  simp only [List.flatMap_cons, List.flatMap_nil, hversion,
    List.splitOn_eq_singleton (domainHiText_free _), nameParts, List.append_nil, List.nil_append,
    List.cons_append, List.append_assoc]

theorem three_le_nameParts : 3 ≤ b.nameParts.length := by
  have hcluster := @one_le_length_splitOn Char _ '|' b.sourceClusterId
  have hnode := @one_le_length_splitOn Char _ '|' b.sourceNodeId
  have hintent := @one_le_length_splitOn Char _ '|' b.intentId
  rw [nameParts, List.length_append, List.length_append]
  omega

theorem nameParts_of_free (hcluster : '|' ∉ b.sourceClusterId) (hnode : '|' ∉ b.sourceNodeId)
    (hintent : '|' ∉ b.intentId) :
    b.nameParts = [b.sourceClusterId, b.sourceNodeId, b.intentId] := by
  rw [nameParts, List.splitOn_eq_singleton hcluster, List.splitOn_eq_singleton hnode,
    List.splitOn_eq_singleton hintent]
  rfl

theorem free_of_length_nameParts (h : b.nameParts.length = 3) :
    '|' ∉ b.sourceClusterId ∧ '|' ∉ b.sourceNodeId ∧ '|' ∉ b.intentId := by
  have hcluster := @one_le_length_splitOn Char _ '|' b.sourceClusterId
  have hnode := @one_le_length_splitOn Char _ '|' b.sourceNodeId
  have hintent := @one_le_length_splitOn Char _ '|' b.intentId
  rw [nameParts, List.length_append, List.length_append] at h
  exact ⟨length_splitOn_eq_one.mp (by omega), length_splitOn_eq_one.mp (by omega),
    length_splitOn_eq_one.mp (by omega)⟩

/-- No other binding with an export of as many fields has the text of an unambiguous one. -/
theorem eq_of_msg_eq (ha : ∀ f ∈ a.tailFields, '|' ∉ f) (hb : ∀ f ∈ b.tailFields, '|' ∉ f)
    (hstatus : b.status = a.status) (hbinds : a.Unambiguous)
    (hmsg : handoffMsg b = handoffMsg a) : b = a := by
  obtain ⟨hcluster, hnode, hintent, hnetwork⟩ := hbinds
  have hparts := handoffMsg_eq_iff.mp hmsg
  rw [parts_eq ha, parts_eq hb] at hparts
  obtain ⟨hfront, htail⟩ := List.append_inj' hparts rfl
  rw [List.cons_append, List.cons_append, List.cons.injEq] at hfront
  replace hfront := hfront.2
  rw [nameParts_of_free hcluster hnode hintent] at hfront
  have hthree := @three_le_nameParts b
  have hlength := congrArg List.length hfront
  simp only [List.length_append, List.length_cons, List.length_nil] at hlength
  -- more parts in the names leave fewer to the network, and the domain is one of its parts then
  have hnames : b.nameParts.length = 3 := by
    by_contra hmore
    have hprefix : b.networkId.splitOn '|' ++ [domainHiText b.sourceDomainHi] <+:
        a.networkId.splitOn '|' := by
      have hlong : b.networkId.splitOn '|' ++ [domainHiText b.sourceDomainHi] <+:
          a.networkId.splitOn '|' ++ [domainHiText a.sourceDomainHi, a.sourceClusterId,
            a.sourceNodeId, a.intentId] :=
        ⟨b.nameParts, by rw [List.append_assoc, List.singleton_append, hfront]⟩
      apply List.prefix_of_prefix_length_le hlong (List.prefix_append _ _)
      rw [List.length_append, List.length_singleton]
      omega
    obtain ⟨rest, hrest⟩ := hprefix
    refine hnetwork (domainHiText b.sourceDomainHi) ?_ _ rfl
    rw [← hrest, List.append_assoc, List.tail_append_of_ne_nil (List.splitOn_ne_nil _ _)]
    exact List.mem_append_right _ List.mem_cons_self
  obtain ⟨hcluster', hnode', hintent'⟩ := free_of_length_nameParts hnames
  rw [nameParts_of_free hcluster' hnode' hintent'] at hfront
  obtain ⟨hnet, hrest⟩ := List.append_inj' hfront rfl
  have hnetworkId : b.networkId = a.networkId := by
    have htext := congrArg ['|'].intercalate hnet
    rwa [List.intercalate_splitOn, List.intercalate_splitOn] at htext
  simp only [List.cons.injEq, and_true] at hrest
  obtain ⟨hdomain, hclusterId, hnodeId, hintentId⟩ := hrest
  simp only [tailFields, List.cons.injEq, and_true] at htail
  obtain ⟨hexportId, hsource, hto, htarget, hamount, -⟩ := htail
  obtain ⟨⟩ := a
  obtain ⟨⟩ := b
  rw [HandoffBinding.mk.injEq]
  exact ⟨hnetworkId, domainHiText_injective hdomain, hclusterId, hnodeId, hintentId, hexportId,
    hsource, hto, decimal_injective htarget, hamount, hstatus⟩

/-- The same export from another place, under another intent. -/
def renamed (a : HandoffBinding) (networkId : Text) (domainHi : U8)
    (clusterId nodeId intentId : Text) : HandoffBinding :=
  { a with
    networkId := networkId
    sourceDomainHi := domainHi
    sourceClusterId := clusterId
    sourceNodeId := nodeId
    intentId := intentId }

theorem renamed_msg (ha : ∀ f ∈ a.tailFields, '|' ∉ f) {networkId : Text} {domainHi : U8}
    {clusterId nodeId intentId : Text}
    (hparts : networkId.splitOn '|' ++ domainHiText domainHi ::
        (clusterId.splitOn '|' ++ nodeId.splitOn '|' ++ intentId.splitOn '|') =
      a.networkId.splitOn '|' ++ domainHiText a.sourceDomainHi :: a.nameParts) :
    handoffMsg (a.renamed networkId domainHi clusterId nodeId intentId) = handoffMsg a := by
  have htail : (a.renamed networkId domainHi clusterId nodeId intentId).tailFields =
      a.tailFields := rfl
  rw [handoffMsg_eq_iff, parts_eq ha, parts_eq (htail ▸ ha), htail]
  exact congrArg (fun parts => "pwm-export-handoff-v1".toList :: parts ++ a.tailFields) hparts

theorem part_free {part : Text} (h : part ∈ a.nameParts) : '|' ∉ part := by
  rw [nameParts, List.mem_append, List.mem_append] at h
  rcases h with (h | h) | h
  · exact free_of_mem_splitOn h
  · exact free_of_mem_splitOn h
  · exact free_of_mem_splitOn h

/-- A later part of the network id that reads as a domain can be the domain. -/
theorem exists_other_network (ha : ∀ f ∈ a.tailFields, '|' ∉ f) {domainHi : U8}
    (hpart : domainHiText domainHi ∈ (a.networkId.splitOn '|').tail) :
    ∃ networkId domainHi clusterId nodeId intentId,
      a.renamed networkId domainHi clusterId nodeId intentId ≠ a ∧
        handoffMsg (a.renamed networkId domainHi clusterId nodeId intentId) = handoffMsg a := by
  obtain ⟨first, later, hsplit⟩ := List.exists_cons_of_ne_nil
    (List.splitOn_ne_nil '|' a.networkId)
  rw [hsplit, List.tail_cons] at hpart
  obtain ⟨front, back, rfl⟩ := List.append_of_mem hpart
  rw [← List.cons_append] at hsplit
  have hfree : ∀ part ∈ back ++ domainHiText a.sourceDomainHi :: a.nameParts, '|' ∉ part := by
    intro part hmem
    rcases List.mem_append.mp hmem with hback | hrest
    · refine free_of_mem_splitOn (hsplit ▸ List.mem_append_right _ ?_)
      exact List.mem_cons_of_mem _ hback
    · rcases List.mem_cons.mp hrest with rfl | hname
      · exact domainHiText_free _
      · exact part_free hname
  have hlength : 4 ≤ (back ++ domainHiText a.sourceDomainHi :: a.nameParts).length := by
    have hthree := @three_le_nameParts a
    rw [List.length_append, List.length_cons]
    omega
  obtain ⟨cluster, node, rest, hrest, hne⟩ : ∃ cluster node rest,
      back ++ domainHiText a.sourceDomainHi :: a.nameParts = cluster :: node :: rest ∧
        rest ≠ [] := by
    match hall : back ++ domainHiText a.sourceDomainHi :: a.nameParts with
    | [] | [_] | [_, _] =>
        rw [hall] at hlength
        simp at hlength
    | cluster :: node :: third :: rest =>
        exact ⟨cluster, node, third :: rest, rfl, List.cons_ne_nil _ _⟩
  rw [hrest] at hfree
  obtain ⟨hcluster, hfree⟩ := List.forall_mem_cons.mp hfree
  obtain ⟨hnode, hfree⟩ := List.forall_mem_cons.mp hfree
  have hcut := splitOn_cut (List.cons_ne_nil first front) hsplit
  refine ⟨['|'].intercalate (first :: front), domainHi, cluster, node, ['|'].intercalate rest,
    fun hsame => ?_, renamed_msg ha ?_⟩
  · have hnetwork : ['|'].intercalate (first :: front) = a.networkId :=
      congrArg HandoffBinding.networkId hsame
    rw [hnetwork, hsplit] at hcut
    have hlengths := congrArg List.length hcut
    rw [List.length_append, List.length_cons (a := domainHiText domainHi)] at hlengths
    omega
  · have hrow : domainHiText domainHi :: back ++ domainHiText a.sourceDomainHi :: a.nameParts =
        domainHiText domainHi :: cluster :: node :: rest :=
      congrArg (domainHiText domainHi :: ·) hrest
    rw [hcut, List.splitOn_eq_singleton hcluster, List.splitOn_eq_singleton hnode,
      List.splitOn_intercalate '|' hfree hne, hsplit,
      List.append_assoc (first :: front) (domainHiText domainHi :: back), hrow]
    rfl

/-- A binding that is not unambiguous shares its text with another one. -/
theorem exists_other (ha : ∀ f ∈ a.tailFields, '|' ∉ f) (hnot : ¬ a.Unambiguous) :
    ∃ networkId domainHi clusterId nodeId intentId,
      a.renamed networkId domainHi clusterId nodeId intentId ≠ a ∧
        handoffMsg (a.renamed networkId domainHi clusterId nodeId intentId) = handoffMsg a := by
  by_cases hcluster : '|' ∈ a.sourceClusterId
  · obtain ⟨front, back, heq⟩ := List.append_of_mem hcluster
    refine ⟨a.networkId, a.sourceDomainHi, front, back, a.sourceNodeId ++ '|' :: a.intentId,
      fun hsame => front_ne ((congrArg sourceClusterId hsame).trans heq), renamed_msg ha ?_⟩
    simp only [nameParts, heq, List.splitOn_append_cons_self, List.append_assoc]
  by_cases hnode : '|' ∈ a.sourceNodeId
  · obtain ⟨front, back, heq⟩ := List.append_of_mem hnode
    refine ⟨a.networkId, a.sourceDomainHi, a.sourceClusterId ++ '|' :: front, back, a.intentId,
      fun hsame => front_ne (congrArg sourceClusterId hsame).symm, renamed_msg ha ?_⟩
    simp only [nameParts, heq, List.splitOn_append_cons_self, List.append_assoc]
  by_cases hintent : '|' ∈ a.intentId
  · obtain ⟨front, back, heq⟩ := List.append_of_mem hintent
    refine ⟨a.networkId, a.sourceDomainHi, a.sourceClusterId, a.sourceNodeId ++ '|' :: front, back,
      fun hsame => front_ne (congrArg sourceNodeId hsame).symm, renamed_msg ha ?_⟩
    simp only [nameParts, heq, List.splitOn_append_cons_self, List.append_assoc]
  · have hnetwork : ∃ domainHi, domainHiText domainHi ∈ (a.networkId.splitOn '|').tail := by
      by_contra hnone
      push Not at hnone
      refine hnot ⟨hcluster, hnode, hintent, fun part hpart domainHi heq => ?_⟩
      exact hnone domainHi (heq ▸ hpart)
    obtain ⟨domainHi, hpart⟩ := hnetwork
    exact exists_other_network ha hpart

end HandoffBinding

/-- The handoff of a binding, signed with a key. -/
def signedHandoff (C : Crypto) (sk : SigningKey) (b : HandoffBinding) : ExportHandoffOut :=
  { b with
    proofVersion := 1#8
    sourceNodePubkey := Digits.hexDigits ((C.verifyingKey sk).beBytes 32)
    signature := Digits.hexDigits ((C.sign sk (handoffMsg b)).beBytes 64) }

/-- The node in the network of a handoff, once the hello of its source was accepted. -/
def HandoffNode.trusting (node : HandoffNode) (pk : Bytes32) (b : HandoffBinding) : HandoffNode :=
  let nodeId := String.ofList b.sourceNodeId
  { node with
    networkId := b.networkId
    peers := { node.peers with
      trustedPeers := Function.update node.peers.trustedPeers nodeId (some ⟨pk, none, false, .none⟩)
      trustedHomes := Function.update node.peers.trustedHomes nodeId
        (some ⟨nodeId, String.ofList b.sourceClusterId, b.sourceDomainHi⟩)
      peers := Function.update node.peers.peers nodeId
        (some ⟨nodeId, b.sourceDomainHi, .foreign, 0#64, .connected⟩) } }

section Resigned

variable {C : Crypto} {sk : SigningKey} {node : HandoffNode} {a : ExportHandoffOut} {known : Bool}

theorem decodeHandoffHex_hexDigits (n : Nat) (what : String) (x : BitVec (8 * n)) :
    decodeHandoffHex n what (Digits.hexDigits (x.beBytes n)) = .ok (x.beBytes n) := by
  unfold decodeHandoffHex
  rw [Text.trim_hexDigits, Text.hexDecode_hexDigits]
  exact if_pos (BitVec.length_beBytes n x)

theorem verifyHandoff_signed (hsign : C.SignsVerify sk) {b : HandoffBinding}
    (hstatus : b.status = .relayed) : verifyHandoff C (signedHandoff C sk b) = .ok () := by
  rw [verifyHandoff_ok_iff]
  refine ⟨rfl, hstatus, _, decodeHandoffHex_hexDigits 32 _ _, _, decodeHandoffHex_hexDigits 64 _ _,
    ?_⟩
  rw [bytes32_beBytes, Digits.ofNat_ofBeBytes 64]
  exact hsign (handoffMsg b)

theorem ensureTrusted_signed (b : HandoffBinding) :
    ensureTrustedHandoffSource (node.trusting (C.verifyingKey sk) b).peers (signedHandoff C sk b) =
      .ok () := by
  simp only [ensureTrustedHandoffSource, except_bind_ok_iff, orFail_ok_iff, check_ok_iff]
  refine ⟨_, decodeHandoffHex_hexDigits 32 _ _, _, Function.update_self _ _ _, _,
    Function.update_self _ _ _, (), ⟨rfl, rfl, rfl, ?_⟩, _, Function.update_self _ _ _, rfl⟩
  exact (bytes32_beBytes _).symm

/-- The checks of the export do not look at where it comes from. -/
theorem checkHandoffExport_signed {networkId : Text} {domainHi : U8}
    {clusterId nodeId intentId : Text} (pk : Bytes32)
    (h : checkHandoffExport node a = .ok known) :
    checkHandoffExport
      (node.trusting pk (a.renamed networkId domainHi clusterId nodeId intentId))
      (signedHandoff C sk (a.renamed networkId domainHi clusterId nodeId intentId)) =
        .ok known := by
  simp only [checkHandoffExport, except_bind_ok_iff, check_ok_iff, mapError_ok_iff] at h ⊢
  obtain ⟨exportId, hexport, source, hsource, toId, hto, amount, hamount, _, hpolicy, _, hdomain,
    _, hshard, _, hnew, hfact⟩ := h
  refine ⟨exportId, hexport, source, hsource, toId, hto, amount, hamount, (), hpolicy, (), hdomain,
    (), hshard, (), hnew, ?_⟩
  change (match node.inner.crossShard.fact exportId with
    | none => pure false
    | some existing => _) = Except.ok known
  cases hfound : node.inner.crossShard.fact exportId with
  | none =>
      rw [hfound] at hfact
      exact hfact
  | some existing =>
      rw [hfound] at hfact
      simp only [except_bind_ok_iff, check_ok_iff] at hfact ⊢
      exact hfact

theorem accepts_signed (hsign : C.SignsVerify sk)
    (h : registerHandoffChecks C node a = .ok known) (networkId : Text) (domainHi : U8)
    (clusterId nodeId intentId : Text) :
    registerHandoffChecks C
      (node.trusting (C.verifyingKey sk)
        (a.renamed networkId domainHi clusterId nodeId intentId))
      (signedHandoff C sk (a.renamed networkId domainHi clusterId nodeId intentId)) =
        .ok known := by
  obtain ⟨hallowed, -, hverify, -, hexport⟩ := registerHandoffChecks_ok_iff.mp h
  obtain ⟨-, hstatus, -⟩ := verifyHandoff_ok_iff.mp hverify
  exact registerHandoffChecks_ok_iff.mpr ⟨hallowed, rfl, verifyHandoff_signed hsign hstatus,
    ensureTrusted_signed _, checkHandoffExport_signed _ hexport⟩

/-- Every accepted handoff with the text of this one has its fields. -/
def HandoffBinds (C : Crypto) (a : ExportHandoffOut) : Prop :=
  ∀ node b known, registerHandoffChecks C node b = .ok known →
    handoffMsg b.toHandoffBinding = handoffMsg a.toHandoffBinding →
    b.toHandoffBinding = a.toHandoffBinding

theorem handoffBinds_iff (hsign : C.SignsVerify sk)
    (h : registerHandoffChecks C node a = .ok known) :
    HandoffBinds C a ↔ a.Unambiguous := by
  have hfree := tail_free h
  constructor
  · intro hbinds
    by_contra hnot
    obtain ⟨networkId, domainHi, clusterId, nodeId, intentId, hne, hmsg⟩ :=
      HandoffBinding.exists_other hfree hnot
    exact hne (hbinds _ _ known (accepts_signed hsign h networkId domainHi clusterId nodeId intentId)
      hmsg)
  · intro hbinds node' b known' hb hmsg
    obtain ⟨-, -, hverify, -⟩ := registerHandoffChecks_ok_iff.mp h
    obtain ⟨-, -, hverify', -⟩ := registerHandoffChecks_ok_iff.mp hb
    have hstatus := (verifyHandoff_ok_iff.mp hverify).2.1
    have hstatus' := (verifyHandoff_ok_iff.mp hverify').2.1
    exact HandoffBinding.eq_of_msg_eq hfree (tail_free hb) (hstatus'.trans hstatus.symm) hbinds hmsg

end Resigned

/-! ## Attestations -/

namespace ClusterBinding

variable {height h : U64} {round r : U32} {binding b : ClusterBinding}

/-- The lines of the signed text. -/
def lines (binding : ClusterBinding) (height : U64) (round : U32) : List Text :=
  [Nat.toDigits 10 height.toNat, Nat.toDigits 10 round.toNat, binding.voteObject.toList,
    binding.candidateHash.toList, (binding.candidateRef.getD "").toList]

/-- The texts hold no line break, and the reference is there and not empty. -/
def Unambiguous (binding : ClusterBinding) : Prop :=
  '\n' ∉ binding.voteObject.toList ∧ '\n' ∉ binding.candidateHash.toList ∧
    ∃ ref, binding.candidateRef = some ref ∧ ref ≠ "" ∧ '\n' ∉ ref.toList

theorem charBytes_lines (fields : List Text) :
    charBytes (['\n'].intercalate fields) = [10#8].intercalate (fields.map charBytes) := by
  have hbreak : charBytes ['\n'] = [10#8] := by decide
  induction fields with
  | nil => rfl
  | cons f rest ih =>
      cases rest with
      | nil => simp
      | cons g more =>
          rw [List.intercalate_cons_cons, List.map_cons, List.map_cons, List.intercalate_cons_cons,
            ← List.map_cons, ← ih, ← hbreak]
          simp only [charBytes, List.flatMap_append]

/-- A decimal digit is one byte. -/
theorem utf8_digit {c : Char} (h : c.isDigit = true) :
    (String.utf8EncodeChar c).map UInt8.toBitVec = [BitVec.ofNat 8 c.toNat] := by
  simp only [Char.isDigit, Bool.and_eq_true, decide_eq_true_eq, ge_iff_le,
    UInt32.le_iff_toNat_le, Char.toNat_val] at h
  have hle : c.val.toNat ≤ 127 := by
    have hnine : c.val.toNat ≤ 57 := h.2
    omega
  rw [String.utf8EncodeChar]
  simp only [hle, if_true]
  rfl

theorem charBytes_decimal (n : Nat) :
    charBytes (Nat.toDigits 10 n) = (Nat.toDigits 10 n).map fun c => BitVec.ofNat 8 c.toNat :=
  calc charBytes (Nat.toDigits 10 n)
      = (Nat.toDigits 10 n).flatMap fun c => [BitVec.ofNat 8 c.toNat] :=
        List.flatMap_congr fun _ hc => utf8_digit (Digits.isDigit_of_mem_decimal hc)
    _ = (Nat.toDigits 10 n).map fun c => BitVec.ofNat 8 c.toNat :=
        List.flatMap_pure_eq_map _ _

theorem clusterSigMsg_eq :
    clusterSigMsg height round binding =
      charBytes (['\n'].intercalate (binding.lines height round)) := by
  rw [charBytes_lines]
  simp only [clusterSigMsg, lines, List.map_cons, List.map_nil, charBytes_decimal]
  rfl

theorem clusterSigMsg_eq_iff :
    clusterSigMsg h r b = clusterSigMsg height round binding ↔
      (b.lines h r).flatMap (List.splitOn '\n') =
        (binding.lines height round).flatMap (List.splitOn '\n') := by
  rw [clusterSigMsg_eq, clusterSigMsg_eq, charBytes_injective.eq_iff]
  exact text_eq_iff (List.cons_ne_nil _ _) (List.cons_ne_nil _ _)

theorem decimal_free (n : Nat) : '\n' ∉ Nat.toDigits 10 n := by
  intro hbreak
  exact absurd (Digits.isDigit_of_mem_decimal hbreak) (by decide)

/-- Every attestation with this text has its height, round and binding. -/
def Binds (binding : ClusterBinding) (height : U64) (round : U32) : Prop :=
  ∀ h r b, clusterSigMsg h r b = clusterSigMsg height round binding →
    h = height ∧ r = round ∧ b = binding

theorem binds_of_unambiguous (hbinds : binding.Unambiguous) : binding.Binds height round := by
  intro h r b hmsg
  obtain ⟨hvote, hcand, ref, href, hne, hfree⟩ := hbinds
  rw [clusterSigMsg_eq, clusterSigMsg_eq] at hmsg
  have hlines : b.lines h r = binding.lines height round := by
    refine fields_eq ?_ rfl (charBytes_injective hmsg)
    simp only [lines, href, List.forall_mem_cons]
    exact ⟨decimal_free _, decimal_free _, hvote, hcand, hfree, nofun⟩
  simp only [lines, href, List.cons.injEq, and_true, String.toList_inj] at hlines
  obtain ⟨hheight, hround, hvote', hcand', href'⟩ := hlines
  refine ⟨HandoffBinding.decimal_injective hheight, HandoffBinding.decimal_injective hround, ?_⟩
  obtain ⟨vote, cand, ref'⟩ := b
  obtain ⟨vote₁, cand₁, ref₁⟩ := binding
  rw [ClusterBinding.mk.injEq]
  refine ⟨hvote', hcand', ?_⟩
  cases ref' with
  | none => exact absurd href'.symm hne
  | some ref' => rw [show ref₁ = some ref from href, ← show ref' = ref from href']

/-- The texts shift by a line when one of them holds a break. -/
theorem exists_other (hnot : ¬ binding.Unambiguous) :
    ∃ b ≠ binding, clusterSigMsg height round b = clusterSigMsg height round binding := by
  by_cases hvote : '\n' ∈ binding.voteObject.toList
  · obtain ⟨front, back, heq⟩ := List.append_of_mem hvote
    refine ⟨⟨String.ofList front, String.ofList back, some (String.ofList
      (binding.candidateHash.toList ++ '\n' :: (binding.candidateRef.getD "").toList))⟩,
      fun hsame => ?_, clusterSigMsg_eq_iff.mpr ?_⟩
    · have htext := congrArg String.toList (congrArg voteObject hsame)
      rw [String.toList_ofList, heq] at htext
      exact front_ne htext
    · simp only [lines, List.flatMap_cons, String.toList_ofList, Option.getD_some, heq,
        List.splitOn_append_cons_self, List.append_assoc]
  by_cases hcand : '\n' ∈ binding.candidateHash.toList
  · obtain ⟨front, back, heq⟩ := List.append_of_mem hcand
    refine ⟨⟨binding.voteObject, String.ofList front, some (String.ofList
      (back ++ '\n' :: (binding.candidateRef.getD "").toList))⟩,
      fun hsame => ?_, clusterSigMsg_eq_iff.mpr ?_⟩
    · have htext := congrArg String.toList (congrArg candidateHash hsame)
      rw [String.toList_ofList, heq] at htext
      exact front_ne htext
    · simp only [lines, List.flatMap_cons, String.toList_ofList, Option.getD_some, heq,
        List.splitOn_append_cons_self, List.append_assoc]
  cases href : binding.candidateRef with
  | none =>
      refine ⟨{ binding with candidateRef := some "" }, fun hsame => ?_, ?_⟩
      · have hnone := (congrArg candidateRef hsame).trans href
        cases hnone
      · simp only [clusterSigMsg, href, Option.getD_some, Option.getD_none]
  | some ref =>
      by_cases hempty : ref = ""
      · refine ⟨{ binding with candidateRef := none }, fun hsame => ?_, ?_⟩
        · have hsome := (congrArg candidateRef hsame).trans href
          cases hsome
        · simp only [clusterSigMsg, href, hempty, Option.getD_some, Option.getD_none]
      · have hbreak : '\n' ∈ ref.toList := by
          by_contra hfree
          exact hnot ⟨hvote, hcand, ref, href, hempty, hfree⟩
        obtain ⟨front, back, heq⟩ := List.append_of_mem hbreak
        refine ⟨⟨String.ofList (binding.voteObject.toList ++ '\n' :: binding.candidateHash.toList),
          String.ofList front, some (String.ofList back)⟩,
          fun hsame => ?_, clusterSigMsg_eq_iff.mpr ?_⟩
        · have htext := congrArg String.toList (congrArg voteObject hsame)
          rw [String.toList_ofList] at htext
          exact front_ne htext.symm
        · simp only [lines, List.flatMap_cons, String.toList_ofList, Option.getD_some, href, heq,
            List.splitOn_append_cons_self, List.append_assoc]

theorem binds_iff : binding.Binds height round ↔ binding.Unambiguous := by
  constructor
  · intro hbinds
    by_contra hnot
    obtain ⟨b, hne, hmsg⟩ := @exists_other height round binding hnot
    exact hne (hbinds height round b hmsg).2.2
  · exact binds_of_unambiguous

end ClusterBinding

/-! ## Both texts -/

/-- The text of an accepted handoff binds its fields exactly when its names hold no bar; the text
of an attestation binds them exactly when its texts hold no line break and it has a reference. -/
theorem signedTexts_bind (C : Crypto) (sk : SigningKey) (hsign : C.SignsVerify sk) :
    (∀ node a known, registerHandoffChecks C node a = .ok known →
      (HandoffBinds C a ↔ a.Unambiguous)) ∧
    ∀ height round (binding : ClusterBinding),
      binding.Binds height round ↔ binding.Unambiguous :=
  ⟨fun _ _ _ h => handoffBinds_iff hsign h, fun _ _ _ => ClusterBinding.binds_iff⟩

/-! ## One signature for two handoffs -/

namespace SharedText

set_option maxRecDepth 8192

open OneKey

/-- A handoff of a node of one operator, under a node name and an intent. -/
def handoff (nodeId intentId : String) : ExportHandoffOut where
  networkId := "devnet".toList
  sourceDomainHi := 17#8
  sourceClusterId := "cluster-a".toList
  sourceNodeId := nodeId.toList
  intentId := intentId.toList
  exportId := "0a0a0a0a0a0a0a0a0a0a0a0a0a0a0a0a0a0a0a0a0a0a0a0a0a0a0a0a0a0a0a0a".toList
  source := "0b0b0b0b0b0b0b0b0b0b0b0b0b0b0b0b0b0b0b0b0b0b0b0b0b0b0b0b0b0b0b0b".toList
  toId := "03000c0c0c0c0c0c0c0c0c0c0c0c0c0c0c0c0c0c0c0c0c0c0c0c0c0c0c0c0c0c".toList
  targetDomain := 0x0300#16
  amount := "5".toList
  status := .relayed
  proofVersion := 1#8
  sourceNodePubkey := "76706d78eb6d8851da3431fe8aa4f18d3ff81b385c3115392d091c8d3838f305".toList
  signature := "9b086cf6e2f5dd94293aecc13e6013e5bc8d13137d53331ea5e82422f2381f93c47055e6937d7747c487a070e492bec99be852fd262c794f7727906ad10ffb0a".toList

def crypto : Crypto :=
  .ofTables [] [⟨8#256, votePk, [(handoffMsg (handoff "x" "y|i1").toHandoffBinding,
    0x9b086cf6e2f5dd94293aecc13e6013e5bc8d13137d53331ea5e82422f2381f93c47055e6937d7747c487a070e492bec99be852fd262c794f7727906ad10ffb0a#512)]⟩]

/-- A node that took the hellos of two nodes of one operator, with one key. -/
def node : HandoffNode where
  networkId := "devnet".toList
  shardEnforced := false
  clusterDomainHi := 3#8
  phase := .ready
  peers :=
    { toHandshakeState := { OneKey.start with
        trustedPeers := fun id => if id = "x" ∨ id = "x|y" then some ⟨votePk, none, false, .none⟩
          else none }
      trustedHomes := fun id => if id = "x" ∨ id = "x|y" then some ⟨id, "cluster-a", 17#8⟩ else none
      peers := fun id => if id = "x" ∨ id = "x|y" then some ⟨id, 17#8, .foreign, 0#64, .connected⟩
        else none }
  inner := { chain := ⟨devNet, [devNetSk], [], 0#64, devNet.state0, .wallClock⟩ }

theorem signs : crypto.SignsVerify 8#256 :=
  Crypto.ofTables_signsVerify _ _ ⟨_, List.mem_singleton_self _, rfl⟩

theorem signedTexts_bind_crypto :
    (∀ node a known, registerHandoffChecks crypto node a = .ok known →
      (HandoffBinds crypto a ↔ a.Unambiguous)) ∧
    ∀ height round (binding : ClusterBinding),
      binding.Binds height round ↔ binding.Unambiguous :=
  signedTexts_bind crypto 8#256 signs

theorem first_accepted : registerHandoffChecks crypto node (handoff "x" "y|i1") = .ok false := by
  unfold crypto node handoff
  -- the texts as lists of characters, which are slow to compute
  repeat rw [String.toList_ofList]
  decide +kernel

theorem second_accepted : registerHandoffChecks crypto node (handoff "x|y" "i1") = .ok false := by
  unfold crypto node handoff
  repeat rw [String.toList_ofList]
  decide +kernel

/-- One key, one text and one signature serve two nodes and two intents, and a missing reference is
an empty one. -/
theorem texts_do_not_bind :
    (¬ ∀ (C : Crypto) (node : HandoffNode) (a b : ExportHandoffOut) (ka kb : Bool),
      registerHandoffChecks C node a = .ok ka → registerHandoffChecks C node b = .ok kb →
      handoffMsg a.toHandoffBinding = handoffMsg b.toHandoffBinding →
      a.toHandoffBinding = b.toHandoffBinding) ∧
    ¬ ∀ (h₁ h₂ : U64) (r₁ r₂ : U32) (b₁ b₂ : ClusterBinding),
      clusterSigMsg h₁ r₁ b₁ = clusterSigMsg h₂ r₂ b₂ → h₁ = h₂ ∧ r₁ = r₂ ∧ b₁ = b₂ := by
  constructor
  · intro hclaim
    have hmsg : handoffMsg (handoff "x" "y|i1").toHandoffBinding =
        handoffMsg (handoff "x|y" "i1").toHandoffBinding := by
      unfold handoff
      repeat rw [String.toList_ofList]
      decide
    have hsame := hclaim crypto node _ _ false false first_accepted second_accepted hmsg
    exact absurd (congrArg HandoffBinding.sourceNodeId hsame) (by decide)
  · intro hclaim
    have hsame := hclaim 1#64 1#64 0#32 0#32 ⟨"vo1:1", "cand-1", none⟩ ⟨"vo1:1", "cand-1", some ""⟩
      (by decide)
    exact absurd (congrArg ClusterBinding.candidateRef hsame.2.2) (by decide)

end SharedText

end Pwm
