import Pwm.Ledger.StateRoot

/-!
# What the signing message binds

The message of a transaction whose shape is valid determines the transaction,
up to the signatures and up to optional fields that the message of its body
leaves out while the shape check lets them through.
-/

namespace Pwm

open BitVec Bincode

/-- Two transactions with the same content: everything but the signature and the cosignatures, with
the burn purposes trimmed. -/
structure SameContent (x y : SignedTx) : Prop where
  domainCode : x.domainCode = y.domainCode
  signerPk : x.signerPk = y.signerPk
  derivationIndex : x.derivationIndex = y.derivationIndex
  nonce : x.nonce = y.nonce
  body : x.body = y.body
  burnPurpose : x.burnPurpose.map normalizeBurnPurpose = y.burnPurpose.map normalizeBurnPurpose
  importFee : x.importFee = y.importFee
  importProvenance : x.importProvenance = y.importProvenance
  initV4 : x.initV4 = y.initV4

/-- The bodies whose message leaves an optional field out that their shape check does not look at. -/
def TxBody.LeavesOut : TxBody → Prop
  | .init _ _ => True
  | .burnMark _ _ => True
  | .claimIPv4Batch _ _ _ => True
  | _ => False

/-- The two transactions agree on the optional fields that the message of the first one's body
leaves out. -/
def SameLeftOut (x y : SignedTx) : Prop :=
  match x.body with
  | .init _ _ =>
      x.burnPurpose.map normalizeBurnPurpose = y.burnPurpose.map normalizeBurnPurpose ∧
        x.importFee = y.importFee ∧ x.importProvenance = y.importProvenance
  | .burnMark _ _ => x.importFee = y.importFee ∧ x.importProvenance = y.importProvenance
  | .claimIPv4Batch _ _ _ => x.importFee = y.importFee ∧ x.importProvenance = y.importProvenance
  | _ => True

/-! ## Parts of the message -/

section Parts

theorem binds_pushOptAccountId : Binds (fun _ _ => True) pushOptAccountId id := by
  have hsame : pushOptAccountId = optionBytes idBytes := by
    funext value
    cases value <;> rfl
  rw [hsame]
  intro a b _
  exact binds_optionBytes binds_id fun _ _ _ _ => trivial

theorem binds_activationBytes : Binds (fun _ _ => True) activationBytes id := by
  intro a b _ x y hbytes
  cases a <;> cases b
  case deferred.deferred height height' =>
      simp only [activationBytes, List.cons_append] at hbytes
      obtain ⟨hheight, hend⟩ := binds_int 8 trivial (List.cons.inj hbytes).2
      exact ⟨congrArg ActivationMode.deferred hheight, hend⟩
  all_goals
    obtain ⟨htag, hend⟩ := List.cons.inj hbytes
    first
      | exact ⟨rfl, hend⟩
      | exact absurd htag (by decide)

theorem policyId_injective : Function.Injective PolicyKind.policyId := by
  intro p q h
  have hkind := congrArg PolicyKind.fromPolicyId h
  rw [PolicyKind.fromPolicyId_policyId, PolicyKind.fromPolicyId_policyId] at hkind
  exact Option.some.inj hkind

theorem binds_policyId : Binds (fun _ _ => True) (fun p : PolicyKind => [p.policyId]) id :=
  binds_of_length (fun _ _ => rfl) fun _ _ h => policyId_injective (List.singleton_inj.mp h)

theorem binds_initPolicyEntry :
    Binds (fun _ _ => True)
      (fun row : InitPolicyEntry => row.policy.policyId :: activationBytes row.activation) id := by
  have hrow := (binds_policyId.free InitPolicyEntry.policy).append
    (binds_activationBytes.free InitPolicyEntry.activation) (R := fun _ _ => True)
  refine hrow.map fun a b h => ?_
  cases a
  cases b
  simp_all

theorem binds_pushPolicyActionSigning :
    Binds (fun _ _ => True) pushPolicyActionSigning id := by
  intro a b _ x y hbytes
  cases a <;> cases b
  case setPolicy.setPolicy policy activation policy' activation' =>
      have hrow := binds_initPolicyEntry (a := ⟨policy, activation⟩) (b := ⟨policy', activation'⟩)
        trivial (List.cons.inj hbytes).2
      obtain ⟨hentry, hend⟩ := hrow
      cases hentry
      exact ⟨rfl, hend⟩
  case activatePolicy.activatePolicy policyId target policyId' target' =>
      obtain ⟨hid, hrest⟩ := List.cons.inj (List.cons.inj hbytes).2
      obtain ⟨htarget, hend⟩ := binds_pushOptAccountId trivial hrest
      exact ⟨congrArg₂ PolicyAction.activatePolicy hid htarget, hend⟩
  case deactivatePolicy.deactivatePolicy policyId policyId' =>
      obtain ⟨hid, hend⟩ := List.cons.inj (List.cons.inj hbytes).2
      exact ⟨congrArg PolicyAction.deactivatePolicy hid, hend⟩
  all_goals exact absurd (List.cons.inj hbytes).1 (by decide)

theorem lenU16_inj {xs ys : List U8} (hxs : xs.length ≤ 0xFFFF) (hys : ys.length ≤ 0xFFFF)
    (h : lenU16 xs = lenU16 ys) : xs.length = ys.length := by
  have hnat := congrArg BitVec.toNat h
  rw [lenU16, lenU16, BitVec.toNat_ofNat, BitVec.toNat_ofNat, Nat.min_eq_left hxs,
    Nat.min_eq_left hys] at hnat
  omega

/-- A string that is short enough for its length. -/
theorem binds_pushLenPrefixedBytes :
    Binds (fun s t => (strBytes s).length ≤ 0xFFFF ∧ (strBytes t).length ≤ 0xFFFF)
      (fun s => pushLenPrefixedBytes (strBytes s)) id := by
  intro s t hlen x y hbytes
  simp only [pushLenPrefixedBytes, List.append_assoc] at hbytes
  obtain ⟨hcount, hrest⟩ := List.append_inj hbytes (by simp)
  have hsame := lenU16_inj hlen.1 hlen.2 (leBytes_injective 2 hcount)
  obtain ⟨hstr, hend⟩ := List.append_inj hrest hsame
  exact ⟨strBytes_injective hstr, hend⟩

/-- The policies of an extension, behind their number. -/
def policyRowsBytes (rows : List InitPolicyEntry) : List U8 :=
  let polCount : U8 := BitVec.ofNat 8 (min rows.length 0xFF)
  [polCount] ++ (rows.take polCount.toNat).flatMap
    fun row => row.policy.policyId :: activationBytes row.activation

theorem binds_policyRowsBytes :
    Binds (fun xs ys => xs.length ≤ initMaxPolicies ∧ ys.length ≤ initMaxPolicies) policyRowsBytes
      id := by
  have hcount : ∀ {rows : List InitPolicyEntry}, rows.length ≤ initMaxPolicies →
      (BitVec.ofNat 8 (min rows.length 0xFF)).toNat = rows.length := by
    intro rows hlen
    rw [initMaxPolicies] at hlen
    rw [BitVec.toNat_ofNat]
    omega
  intro xs ys hlen x y hbytes
  simp only [policyRowsBytes, hcount hlen.1, hcount hlen.2, List.take_length, List.append_assoc]
    at hbytes
  obtain ⟨hword, hrest⟩ := List.append_inj hbytes rfl
  have hsame := congrArg BitVec.toNat (List.singleton_inj.mp hword)
  rw [hcount hlen.1, hcount hlen.2] at hsame
  exact binds_flatMap binds_initPolicyEntry ⟨hsame, fun _ _ => trivial⟩ hrest

def cosignPolicyBytes : Option CosignPolicy → List U8
  | some cosign => [1#8, cosign.minSigners]
  | none => [0#8]

theorem binds_cosignPolicyBytes : Binds (fun _ _ => True) cosignPolicyBytes id := by
  intro a b _ x y hbytes
  cases a <;> cases b
  case some.some cosign cosign' =>
      obtain ⟨hmin, hend⟩ := List.cons.inj (List.cons.inj hbytes).2
      cases cosign
      cases cosign'
      exact ⟨congrArg (some ∘ CosignPolicy.mk) hmin, hend⟩
  all_goals
    obtain ⟨htag, hend⟩ := List.cons.inj hbytes
    first
      | exact ⟨rfl, hend⟩
      | exact absurd htag (by decide)

end Parts

/-! ## The extension of an INIT -/

/-- The bounds that the shape check sets to the strings and the policies of an extension. -/
structure InitV4Extension.Bounded (ext : InitV4Extension) : Prop where
  ownerKind : (strBytes ext.ownerKind).length ≤ initOwnerKindMax
  ownerDisplayName : (strBytes ext.ownerDisplayName).length ≤ initOwnerNameMax
  ownerCountryHint : (strBytes ext.ownerCountryHint).length ≤ initOwnerCountryMax
  externalVerificationRef : (strBytes ext.externalVerificationRef).length ≤ initExtRefMax
  initialPolicies : ext.initialPolicies.length ≤ initMaxPolicies

section Extension

/-- A check that was passed. -/
theorem of_guard {p : Prop} [Decidable p] {e : TxError} {rest : Except TxError Unit}
    (h : (if p then throw e else rest) = .ok ()) : ¬ p ∧ rest = .ok () := by
  split at h
  · cases h
  next hp => exact ⟨hp, h⟩

theorem bounded_of_validateInitV4Ext {ext : InitV4Extension}
    (h : validateInitV4Ext ext = .ok ()) : ext.Bounded := by
  simp only [validateInitV4Ext] at h
  obtain ⟨hkind, h⟩ := of_guard h
  obtain ⟨hname, h⟩ := of_guard h
  obtain ⟨hcountry, h⟩ := of_guard h
  obtain ⟨href, h⟩ := of_guard h
  obtain ⟨hpolicies, _⟩ := of_guard h
  push Not at hkind hname hcountry
  exact ⟨hkind.2, hname.2, hcountry.2, Nat.le_of_not_lt href, Nat.le_of_not_lt hpolicies⟩

theorem initV4Bytes_eq (ext : InitV4Extension) :
    initV4Bytes ext = [1#8] ++ (pushLenPrefixedBytes (strBytes ext.ownerKind) ++
      pushLenPrefixedBytes (strBytes ext.ownerDisplayName) ++
      pushLenPrefixedBytes (strBytes ext.ownerCountryHint) ++
      idBytes ext.companyMetadataCommitment ++
      pushLenPrefixedBytes (strBytes ext.externalVerificationRef) ++ [ext.requestedDomainLo] ++
      pushOptAccountId ext.rescueAddress ++ policyRowsBytes ext.initialPolicies ++
      cosignPolicyBytes ext.cosignPolicy) := by
  cases hcosign : ext.cosignPolicy <;>
    simp only [initV4Bytes, policyRowsBytes, cosignPolicyBytes, idBytes, List.append_assoc, hcosign]

theorem binds_initV4Bytes :
    Binds (fun a b => a.Bounded ∧ b.Bounded) initV4Bytes id := by
  have hstr : ∀ (p : InitV4Extension → String) (n : Nat), n ≤ 0xFFFF →
      (∀ {e : InitV4Extension}, e.Bounded → (strBytes (p e)).length ≤ n) →
      Binds (fun a b : InitV4Extension => a.Bounded ∧ b.Bounded)
        (fun e => pushLenPrefixedBytes (strBytes (p e))) p := by
    intro p n hn hp
    exact binds_pushLenPrefixedBytes.field p
      fun a b h => ⟨(hp h.1).trans hn, (hp h.2).trans hn⟩
  have hfields := ((((((((hstr InitV4Extension.ownerKind _ (by decide) fun h => h.ownerKind).append
    (hstr InitV4Extension.ownerDisplayName _ (by decide) fun h => h.ownerDisplayName)).append
    (hstr InitV4Extension.ownerCountryHint _ (by decide) fun h => h.ownerCountryHint)).append
    (binds_id.free InitV4Extension.companyMetadataCommitment)).append
    (hstr InitV4Extension.externalVerificationRef _ (by decide)
      fun h => h.externalVerificationRef)).append
    ((binds_byte fun _ _ => True).free InitV4Extension.requestedDomainLo)).append
    (binds_pushOptAccountId.free InitV4Extension.rescueAddress)).append
    (binds_policyRowsBytes.field InitV4Extension.initialPolicies
      fun a b h => ⟨h.1.initialPolicies, h.2.initialPolicies⟩)).append
    (binds_cosignPolicyBytes.free InitV4Extension.cosignPolicy)
  intro a b hR x y hbytes
  rw [initV4Bytes_eq, initV4Bytes_eq, List.append_assoc [1#8], List.append_assoc [1#8]] at hbytes
  obtain ⟨hsame, hend⟩ := hfields hR (List.append_cancel_left hbytes)
  refine ⟨?_, hend⟩
  cases a
  cases b
  simp_all

/-- Whether there is an extension is seen from where the message ends. -/
theorem optInitV4_eq {a b : Option InitV4Extension} (ha : ∀ ext ∈ a, ext.Bounded)
    (hb : ∀ ext ∈ b, ext.Bounded)
    (h : a.elim [] initV4Bytes = b.elim [] initV4Bytes) : a = b := by
  cases a with
  | none =>
      cases b with
      | none => rfl
      | some ext =>
          rw [Option.elim_none, Option.elim_some, initV4Bytes_eq] at h
          cases h
  | some ext =>
      cases b with
      | none =>
          rw [Option.elim_none, Option.elim_some, initV4Bytes_eq] at h
          cases h
      | some ext' => exact congrArg some (binds_initV4Bytes.eq ⟨ha ext rfl, hb ext' rfl⟩ h)

end Extension

/-! ## Bodies -/

/-- What the shape check says of the optional fields. -/
def SignedTx.OptionalFields (tx : SignedTx) : Prop :=
  match tx.body with
  | .init _ _ => ∀ ext ∈ tx.initV4, ext.Bounded
  | .burnMark _ _ =>
      tx.initV4 = none ∧ ∃ purpose, tx.burnPurpose.map normalizeBurnPurpose = some purpose ∧
        (strBytes purpose).length ≤ 80
  | .claimIPv4Batch _ _ _ => tx.initV4 = none ∧ tx.burnPurpose = none
  | .importTx _ _ _ => tx.initV4 = none ∧ tx.burnPurpose = none ∧ tx.importFee.isSome
  | _ =>
      tx.initV4 = none ∧ tx.burnPurpose = none ∧ tx.importFee = none ∧ tx.importProvenance = none

/-- Two transactions with the same body and the same optional fields. -/
structure SameBody (x y : SignedTx) : Prop where
  body : x.body = y.body
  burnPurpose : x.burnPurpose.map normalizeBurnPurpose = y.burnPurpose.map normalizeBurnPurpose
  importFee : x.importFee = y.importFee
  importProvenance : x.importProvenance = y.importProvenance
  initV4 : x.initV4 = y.initV4

section Bodies

variable {x y : SignedTx}

theorem length_of_validateBurnPurpose {purpose : String}
    (h : validateBurnPurpose purpose = .ok ()) : (strBytes purpose).length ≤ 80 := by
  simp only [validateBurnPurpose] at h
  obtain ⟨hlen, _⟩ := of_guard h
  push Not at hlen
  exact hlen.2

theorem optionalFields_of_validateBodyShape {tx : SignedTx} {aid : AccountId}
    (h : validateBodyShape tx aid = .ok ()) : tx.OptionalFields := by
  cases hbody : tx.body with
  | init index flags =>
      simp only [validateBodyShape, SignedTx.OptionalFields, hbody] at h ⊢
      intro ext hext
      rw [Option.mem_def.mp hext] at h
      exact bounded_of_validateInitV4Ext h
  | burnMark markAmount beneficiary =>
      simp only [validateBodyShape, SignedTx.OptionalFields, hbody] at h ⊢
      obtain ⟨hinit, h⟩ := of_guard h
      refine ⟨Option.not_isSome_iff_eq_none.mp hinit, ?_⟩
      split at h
      · cases h
      next purpose hpurpose => exact ⟨purpose, hpurpose, length_of_validateBurnPurpose h⟩
  | claimIPv4Batch phase batchRoot registrySig =>
      simp only [validateBodyShape, SignedTx.OptionalFields, hbody] at h ⊢
      obtain ⟨hinit, h⟩ := of_guard h
      obtain ⟨hpurpose, _⟩ := of_guard h
      exact ⟨Option.not_isSome_iff_eq_none.mp hinit, Option.not_isSome_iff_eq_none.mp hpurpose⟩
  | importTx toId amount exportId =>
      simp only [validateBodyShape, SignedTx.OptionalFields, hbody] at h ⊢
      obtain ⟨hinit, h⟩ := of_guard h
      obtain ⟨hpurpose, h⟩ := of_guard h
      obtain ⟨hfee, _⟩ := of_guard h
      refine ⟨Option.not_isSome_iff_eq_none.mp hinit, Option.not_isSome_iff_eq_none.mp hpurpose, ?_⟩
      -- a missing fee counts as zero, which is below the minimum
      cases hpaid : tx.importFee with
      | none =>
          rw [hpaid] at hfee
          exact absurd (by decide) hfee
      | some fee => rfl
  | _ =>
      simp only [validateBodyShape, SignedTx.OptionalFields, hbody] at h ⊢
      obtain ⟨hinit, h⟩ := of_guard h
      obtain ⟨hpurpose, h⟩ := of_guard h
      obtain ⟨himport, _⟩ := of_guard h
      push Not at himport
      exact ⟨Option.not_isSome_iff_eq_none.mp hinit, Option.not_isSome_iff_eq_none.mp hpurpose,
        Option.not_isSome_iff_eq_none.mp himport.1, Option.not_isSome_iff_eq_none.mp himport.2⟩

/-- The first byte of the body's share of the message. -/
def TxBody.tag : TxBody → U8
  | .init _ _ => 1#8
  | .transfer _ _ _ => 2#8
  | .stake _ => 3#8
  | .unstake _ => 4#8
  | .burnMark _ _ => 5#8
  | .exportTx _ _ _ _ => 6#8
  | .importTx _ _ _ => 7#8
  | .claimIPv4Batch _ _ _ => 8#8
  | .policy _ _ _ => 9#8

theorem head_bodyBytes (tx : SignedTx) : tx.bodyBytes.head? = some tx.body.tag := by
  cases hbody : tx.body <;> simp [SignedTx.bodyBytes, TxBody.tag, hbody]

/-- The bytes of an IMPORT's provenance. -/
def provenanceBytes : Option ExportProvenance → List U8
  | some p => 1#8 :: (p.toId.beBytes 32 ++ p.targetDomain.leBytes 2 ++ p.amount.leBytes 16)
  | none => [0#8]

theorem provenanceBytes_injective : Function.Injective provenanceBytes := by
  intro a b h
  cases a <;> cases b
  case some.some p p' =>
      obtain ⟨h, hamount⟩ := List.append_inj (List.cons.inj h).2 (by simp)
      obtain ⟨hto, hdomain⟩ := List.append_inj h (by simp)
      cases p
      cases p'
      cases beBytes_injective 32 hto
      cases leBytes_injective 2 hdomain
      cases leBytes_injective 16 hamount
      rfl
  case none.none => rfl
  all_goals exact absurd (List.cons.inj h).1 (by decide)

/-- The optional fields of a body that allows none of them. -/
theorem SameBody.of_none (hbody : x.body = y.body)
    (hx : x.initV4 = none ∧ x.burnPurpose = none ∧ x.importFee = none ∧ x.importProvenance = none)
    (hy : y.initV4 = none ∧ y.burnPurpose = none ∧ y.importFee = none ∧ y.importProvenance = none) :
    SameBody x y where
  body := hbody
  burnPurpose := by rw [hx.2.1, hy.2.1]
  importFee := hx.2.2.1.trans hy.2.2.1.symm
  importProvenance := hx.2.2.2.trans hy.2.2.2.symm
  initV4 := hx.1.trans hy.1.symm

/-- Two bodies of a valid shape with the same bytes, field by field. -/
theorem sameBody_of_bodyBytes (hx : x.OptionalFields) (hy : y.OptionalFields)
    (h : x.bodyBytes = y.bodyBytes) (hleft : SameLeftOut x y) : SameBody x y := by
  have htag : x.body.tag = y.body.tag := by
    have hhead := congrArg List.head? h
    rw [head_bodyBytes, head_bodyBytes] at hhead
    exact Option.some.inj hhead
  cases hbx : x.body <;> cases hby : y.body
  case init.init index flags index' flags' =>
      simp only [SignedTx.OptionalFields, SameLeftOut, hbx] at hx hleft
      simp only [SignedTx.OptionalFields, hby] at hy
      simp only [SignedTx.bodyBytes, hbx, hby] at h
      obtain ⟨hfixed, hext⟩ := List.append_inj h (by simp)
      obtain ⟨hindex, hflags⟩ := List.append_inj hfixed (by simp)
      have hsame : x.body = y.body := by
        rw [hbx, hby, leBytes_injective 4 (List.append_cancel_left hindex), leBytes_injective 4 hflags]
      exact ⟨hsame, hleft.1, hleft.2.1, hleft.2.2, optInitV4_eq hx hy hext⟩
  case transfer.transfer toId amount fee toId' amount' fee' =>
      simp only [SignedTx.OptionalFields, hbx, hby] at hx hy
      simp only [SignedTx.bodyBytes, hbx, hby] at h
      obtain ⟨h, hfee⟩ := List.append_inj h (by simp)
      obtain ⟨h, hamount⟩ := List.append_inj h (by simp)
      refine SameBody.of_none ?_ hx hy
      rw [hbx, hby, beBytes_injective 32 (List.append_cancel_left h), leBytes_injective 16 hamount,
        leBytes_injective 16 hfee]
  case stake.stake amount amount' =>
      simp only [SignedTx.OptionalFields, hbx, hby] at hx hy
      simp only [SignedTx.bodyBytes, hbx, hby] at h
      refine SameBody.of_none ?_ hx hy
      rw [hbx, hby, leBytes_injective 16 (List.append_cancel_left h)]
  case unstake.unstake amount amount' =>
      simp only [SignedTx.OptionalFields, hbx, hby] at hx hy
      simp only [SignedTx.bodyBytes, hbx, hby] at h
      refine SameBody.of_none ?_ hx hy
      rw [hbx, hby, leBytes_injective 16 (List.append_cancel_left h)]
  case burnMark.burnMark markAmount beneficiary markAmount' beneficiary' =>
      simp only [SignedTx.OptionalFields, SameLeftOut, hbx] at hx hleft
      simp only [SignedTx.OptionalFields, hby] at hy
      obtain ⟨hxInit, purpose, hxPurpose, hxLen⟩ := hx
      obtain ⟨hyInit, purpose', hyPurpose, hyLen⟩ := hy
      simp only [SignedTx.bodyBytes, hbx, hby, hxPurpose, hyPurpose, Option.getD_some,
        List.append_assoc] at h
      obtain ⟨hmark, h⟩ := List.append_inj (List.append_cancel_left h) (by simp)
      obtain ⟨hpurpose, h⟩ := binds_pushLenPrefixedBytes ⟨by omega, by omega⟩ h
      have hbeneficiary := binds_pushOptAccountId.eq trivial h
      refine ⟨?_, ?_, hleft.1, hleft.2, hxInit.trans hyInit.symm⟩
      · rw [hbx, hby, leBytes_injective 4 hmark]
        exact congrArg (TxBody.burnMark markAmount') hbeneficiary
      · rw [hxPurpose, hyPurpose]
        exact congrArg some hpurpose
  case claimIPv4Batch.claimIPv4Batch phase batchRoot registrySig phase' batchRoot' registrySig' =>
      simp only [SignedTx.OptionalFields, SameLeftOut, hbx] at hx hleft
      simp only [SignedTx.OptionalFields, hby] at hy
      simp only [SignedTx.bodyBytes, hbx, hby] at h
      obtain ⟨h, hsig⟩ := List.append_inj h (by simp)
      obtain ⟨h, hroot⟩ := List.append_inj h (by simp)
      have hphase : phase = phase' := by simpa using h
      refine ⟨?_, ?_, hleft.1, hleft.2, hx.1.trans hy.1.symm⟩
      · rw [hbx, hby, hphase, beBytes_injective 32 hroot, beBytes_injective 64 hsig]
      · rw [hx.2, hy.2]
  case exportTx.exportTx toId targetDomain amount fee toId' targetDomain' amount' fee' =>
      simp only [SignedTx.OptionalFields, hbx, hby] at hx hy
      simp only [SignedTx.bodyBytes, hbx, hby] at h
      obtain ⟨h, hfee⟩ := List.append_inj h (by simp)
      obtain ⟨h, hamount⟩ := List.append_inj h (by simp)
      obtain ⟨h, hdomain⟩ := List.append_inj h (by simp)
      refine SameBody.of_none ?_ hx hy
      rw [hbx, hby, beBytes_injective 32 (List.append_cancel_left h), leBytes_injective 2 hdomain,
        leBytes_injective 16 hamount, leBytes_injective 16 hfee]
  case importTx.importTx toId amount exportId toId' amount' exportId' =>
      simp only [SignedTx.OptionalFields, hbx, hby] at hx hy
      obtain ⟨hxInit, hxPurpose, hxFee⟩ := hx
      obtain ⟨hyInit, hyPurpose, hyFee⟩ := hy
      simp only [SignedTx.bodyBytes, hbx, hby, List.append_assoc] at h
      obtain ⟨hto, h⟩ := List.append_inj (List.append_cancel_left h) (by simp)
      obtain ⟨hamount, h⟩ := List.append_inj h (by simp)
      obtain ⟨hfee, h⟩ := List.append_inj h (by simp)
      obtain ⟨hexport, hprovenance⟩ := List.append_inj h (by simp)
      refine ⟨?_, ?_, ?_, provenanceBytes_injective hprovenance, hxInit.trans hyInit.symm⟩
      · rw [hbx, hby, beBytes_injective 32 hto, leBytes_injective 16 hamount,
          beBytes_injective 32 hexport]
      · rw [hxPurpose, hyPurpose]
      · obtain ⟨fee, hfx⟩ := Option.isSome_iff_exists.mp hxFee
        obtain ⟨fee', hfy⟩ := Option.isSome_iff_exists.mp hyFee
        rw [hfx, hfy] at hfee ⊢
        exact congrArg some (leBytes_injective 16 hfee)
  case policy.policy targetAccount action fee targetAccount' action' fee' =>
      simp only [SignedTx.OptionalFields, hbx, hby] at hx hy
      simp only [SignedTx.bodyBytes, hbx, hby, List.append_assoc] at h
      obtain ⟨htarget, h⟩ := List.append_inj (List.append_cancel_left h) (by simp)
      obtain ⟨haction, hfee⟩ := binds_pushPolicyActionSigning trivial h
      have hsameAction : action = action' := haction
      refine SameBody.of_none ?_ hx hy
      rw [hbx, hby, beBytes_injective 32 htarget, hsameAction, leBytes_injective 16 hfee]
  all_goals
    rw [hbx, hby] at htag
    exact absurd htag (by simp [TxBody.tag])

end Bodies

/-! ## The whole message -/

section Message

variable {C : Crypto} {x y : SignedTx} {checkSig checkSig' : Bool}

theorem bodyBytes_of_signingMessage (h : x.signingMessage = y.signingMessage) :
    x.domainCode = y.domainCode ∧ x.bodyBytes = y.bodyBytes := by
  simp only [SignedTx.signingMessage] at h
  obtain ⟨h, hbody⟩ := List.append_inj h (by simp)
  obtain ⟨h, _⟩ := List.append_inj h (by simp)
  obtain ⟨h, _⟩ := List.append_inj h (by simp)
  obtain ⟨h, _⟩ := List.append_inj h (by simp)
  exact ⟨leBytes_injective 2 (List.append_cancel_left h), hbody⟩

theorem validateBodyShape_of_inner (h : validateTxShapeInner C x checkSig = .ok ()) :
    validateBodyShape x (x.computedAccountId C) = .ok () := by
  simp only [validateTxShapeInner] at h
  obtain ⟨_, h⟩ := of_guard h
  obtain ⟨_, h⟩ := of_guard h
  cases hbody : x.body with
  | transfer toId amount fee =>
      simp only [hbody] at h
      exact (of_guard h).2
  | _ =>
      simp only [hbody] at h
      exact h

/-- Equal messages of valid shapes, from the fields that they leave out to the whole content. -/
theorem sameContent_of_sameLeftOut (hx : validateTxShapeInner C x checkSig = .ok ())
    (hy : validateTxShapeInner C y checkSig' = .ok ()) (h : x.signingMessage = y.signingMessage)
    (hleft : SameLeftOut x y) : SameContent x y := by
  obtain ⟨hdomain, hbytes⟩ := bodyBytes_of_signingMessage h
  obtain ⟨hpk, hindex, hnonce⟩ := SignedTx.header_of_signingMessage h
  have hbody := sameBody_of_bodyBytes
    (optionalFields_of_validateBodyShape (validateBodyShape_of_inner hx))
    (optionalFields_of_validateBodyShape (validateBodyShape_of_inner hy)) hbytes hleft
  exact ⟨hdomain, hpk, hindex, hnonce, hbody.body, hbody.burnPurpose, hbody.importFee,
    hbody.importProvenance, hbody.initV4⟩

theorem SameContent.sameLeftOut (h : SameContent x y) : SameLeftOut x y := by
  cases hbody : x.body <;>
    simp [SameLeftOut, hbody, h.burnPurpose, h.importFee, h.importProvenance]

theorem sameLeftOut_of_not_leavesOut (h : ¬ x.body.LeavesOut) : SameLeftOut x y := by
  cases hbody : x.body <;> simp_all [SameLeftOut, TxBody.LeavesOut]

/-- The import fee of a body that leaves it out is neither signed nor looked at. -/
theorem importFee_unseen (hbody : x.body.LeavesOut) (fee : Option U128) :
    ({ x with importFee := fee } : SignedTx).signingMessage = x.signingMessage ∧
      validateTxShapeInner C { x with importFee := fee } checkSig =
        validateTxShapeInner C x checkSig := by
  have hmsg : ({ x with importFee := fee } : SignedTx).signingMessage = x.signingMessage := by
    cases hb : x.body <;> simp_all [SignedTx.signingMessage, SignedTx.bodyBytes, TxBody.LeavesOut]
  have haid : SignedTx.computedAccountId C { x with importFee := fee } = x.computedAccountId C := rfl
  have hshape : ∀ aid, validateBodyShape { x with importFee := fee } aid =
      validateBodyShape x aid := by
    intro aid
    cases hb : x.body <;> simp_all [validateBodyShape, TxBody.LeavesOut]
  refine ⟨hmsg, ?_⟩
  simp only [validateTxShapeInner, SignedTx.verifySig, hmsg, haid, hshape]

/-- Transactions of a valid shape with the same message have the same content exactly if they agree
on what the message leaves out, and there is nothing it leaves out exactly if the body is neither an
INIT, nor a burn of marks, nor a claim of a batch. -/
theorem signingMessage_binds (hx : validateTxShapeInner C x checkSig = .ok ()) :
    (∀ y checkSig', validateTxShapeInner C y checkSig' = .ok () →
        x.signingMessage = y.signingMessage → (SameContent x y ↔ SameLeftOut x y)) ∧
      ((∀ y, validateTxShapeInner C y checkSig = .ok () → x.signingMessage = y.signingMessage →
        SameContent x y) ↔ ¬ x.body.LeavesOut) := by
  refine ⟨fun y checkSig' hy h => ⟨fun hsame => hsame.sameLeftOut,
    sameContent_of_sameLeftOut hx hy h⟩, ?_⟩
  constructor
  · intro hbinds hbody
    -- a fee differs from being left out, or from one unit
    obtain ⟨fee, hfee⟩ : ∃ fee, x.importFee ≠ fee := by
      cases x.importFee with
      | none => exact ⟨some 1#128, by simp⟩
      | some fee => exact ⟨none, by simp⟩
    obtain ⟨hmsg, hvalid⟩ := importFee_unseen hbody fee
    exact hfee (hbinds _ (hvalid.trans hx) hmsg.symm).importFee
  · intro hbody y hy h
    exact sameContent_of_sameLeftOut hx hy h (sameLeftOut_of_not_leavesOut hbody)

end Message

/-- An INIT with an import fee carries the signature of the INIT without. -/
theorem signingMessage_leaves_fee :
    validateTxShapeInner SelfDrain.crypto SelfDrain.initTx true = .ok () ∧
      validateTxShapeInner SelfDrain.crypto { SelfDrain.initTx with importFee := some 7#128 } true =
        .ok () ∧
      SelfDrain.initTx.signingMessage =
        ({ SelfDrain.initTx with importFee := some 7#128 } : SignedTx).signingMessage ∧
      ¬ SameContent SelfDrain.initTx { SelfDrain.initTx with importFee := some 7#128 } := by
  refine ⟨by decide +kernel, by decide +kernel, by decide, fun h => ?_⟩
  exact absurd h.importFee (by decide)

/-- Nothing of a transfer is left out. -/
theorem signingMessage_binds_transfer :
    ¬ SelfDrain.transferTx.body.LeavesOut ∧
      ∀ y, validateTxShapeInner SelfDrain.crypto y true = .ok () →
        SelfDrain.transferTx.signingMessage = y.signingMessage →
          SameContent SelfDrain.transferTx y := by
  have hvalid : validateTxShapeInner SelfDrain.crypto SelfDrain.transferTx true = .ok () := by
    decide +kernel
  have hbody : ¬ SelfDrain.transferTx.body.LeavesOut := id
  exact ⟨hbody, (signingMessage_binds hvalid).2.mpr hbody⟩

end Pwm
