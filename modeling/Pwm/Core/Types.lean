import Pwm.Lib.MachineInt

/-!
# Identifiers, account rows and policies

Byte arrays of a fixed length are integers read most significant byte first,
so that the order of the integers is the order of the arrays. Hashing and
signatures are supplied by `Crypto`; the code of the ledger only calls them.
-/

namespace Pwm

abbrev U8 := BitVec 8
abbrev U16 := BitVec 16
abbrev U32 := BitVec 32
abbrev U64 := BitVec 64
abbrev U128 := BitVec 128
abbrev Bytes32 := BitVec 256
abbrev Bytes64 := BitVec 512

abbrev AccountId := Bytes32

/-- Byte arrays are the keys of the ordered maps. -/
instance transCmp_bytes32 : Std.TransCmp (compare : Bytes32 → Bytes32 → Ordering) := inferInstance

instance lawfulEqCmp_bytes32 : Std.LawfulEqCmp (compare : Bytes32 → Bytes32 → Ordering) :=
  inferInstance

/-- A secret signing key, as its 32 bytes. -/
abbrev SigningKey := Bytes32

/-- The hash and the signature scheme that the ledger calls. -/
structure Crypto where
  blake3 : List U8 → Bytes32
  verify : Bytes32 → List U8 → Bytes64 → Bool
  verifyingKey : SigningKey → Bytes32
  sign : SigningKey → List U8 → Bytes64

/-- The UTF-8 bytes of a string. -/
def strBytes (s : String) : List U8 :=
  s.toList.flatMap fun c => (String.utf8EncodeChar c).map UInt8.toBitVec

/-- The bytes of a string are those it is kept as. -/
theorem strBytes_eq_data (s : String) :
    strBytes s = s.toByteArray.data.toList.map UInt8.toBitVec := by
  have hdata : s.toByteArray.data.toList = s.toList.flatMap String.utf8EncodeChar := by
    rw [← String.utf8Encode_toList, List.utf8Encode, List.data_toByteArray]
  rw [strBytes, hdata, List.map_flatMap]

/-- The bytes of an id as two hexadecimal digits each. -/
def hexEncode (id : Bytes32) : String :=
  String.ofList ((id.beBytes 32).flatMap fun b =>
    [Nat.digitChar (b.toNat / 16), Nat.digitChar (b.toNat % 16)])

def pwmRawScale : U128 := 1000000#128
def marksCap : U32 := BitVec.allOnes 32
def ppmDenom : U128 := 1000000#128

/-! ## Addresses -/

def cosignNonDisableable : U32 := 1#32
def conservation : U32 := 2#32

/-- The domain code: the first two bytes. -/
def domainOfAccountId (id : AccountId) : U16 :=
  id.extractLsb' 240 16

/-- The first byte of a domain code. -/
def hiByte (domain : U16) : U8 :=
  domain.extractLsb' 8 8

/-- The flags of an address: bytes two to five. -/
def addressFlags (id : AccountId) : U32 :=
  id.extractLsb' 208 32

def cosignNonDis (id : AccountId) : Bool :=
  decide (addressFlags id &&& cosignNonDisableable ≠ 0#32)

def conservationFlag (id : AccountId) : Bool :=
  decide (addressFlags id &&& conservation ≠ 0#32)

def sameHiDomain (src dst : AccountId) : Bool :=
  decide (hiByte (domainOfAccountId src) = hiByte (domainOfAccountId dst))

/-- Raw address: the hash of the public key and the derivation index. -/
def accountIdFromParts (C : Crypto) (pubkey : Bytes32) (derivationIndex : U32) : AccountId :=
  C.blake3 (pubkey.beBytes 32 ++ derivationIndex.leBytes 4)

/-! ## Policies -/

inductive ActivationMode
  | dormant
  | immediately
  | deferred (activateAtHeight : U64)
  deriving DecidableEq

inductive PolicyKind
  | routingSameDomainOnly
  | routingEmergencyRedirect
  | senderFilter
  | defaultBehavior
  | cosignRequired
  deriving DecidableEq

namespace PolicyKind

def policyId : PolicyKind → U8
  | routingSameDomainOnly => 0#8
  | routingEmergencyRedirect => 1#8
  | senderFilter => 2#8
  | defaultBehavior => 3#8
  | cosignRequired => 4#8

def bit (p : PolicyKind) : U16 :=
  1#16 <<< p.policyId.toNat

def fromPolicyId (id : U8) : Option PolicyKind :=
  if id = 0#8 then some routingSameDomainOnly
  else if id = 1#8 then some routingEmergencyRedirect
  else if id = 2#8 then some senderFilter
  else if id = 3#8 then some defaultBehavior
  else if id = 4#8 then some cosignRequired
  else none

def isReversible : PolicyKind → Bool
  | routingEmergencyRedirect => false
  | _ => true

@[simp] theorem fromPolicyId_policyId (p : PolicyKind) : fromPolicyId p.policyId = some p := by
  cases p <;> rfl

end PolicyKind

inductive PolicyAction
  | setPolicy (policy : PolicyKind) (activation : ActivationMode)
  | activatePolicy (policyId : U8) (activationTarget : Option AccountId)
  | deactivatePolicy (policyId : U8)
  deriving DecidableEq

def policyWeakensCosign : PolicyAction → Bool
  | .setPolicy policy activation =>
      decide (policy = .cosignRequired ∧ activation ≠ .immediately)
  | .deactivatePolicy policyId => decide (policyId = PolicyKind.cosignRequired.policyId)
  | .activatePolicy _ _ => false

structure DeferredPolicyEntry where
  policy : PolicyKind
  activateAtHeight : U64
  deriving DecidableEq

/-! ## Account rows -/

/-- One row of the ledger; the default row is the one the code starts stubs from. -/
structure Account where
  signingPubkey : Bytes32 := 0#256
  derivationIndex : U32 := 0#32
  balancePwm : U128 := 0#128
  stakedPwmRaw : U128 := 0#128
  storedMarks : U32 := 0#32
  marksLastBlock : U64 := 0#64
  initialized : Bool := false
  index : U32 := 0#32
  flags : U32 := 0#32
  nonce : U64 := 0#64
  rescueAddress : Option AccountId := none
  activePolicies : U16 := 0#16
  dormantPolicies : U16 := 0#16
  deferredPolicies : List DeferredPolicyEntry := []
  ipv4ClaimedPhase : Option U8 := none
  finalized : Bool := false
  ownerKind : String := ""
  ownerDisplayName : String := ""
  ownerCountryHint : String := ""
  companyMetadataCommitment : Option Bytes32 := none
  externalVerificationRef : Option String := none
  requestedDomainLo : Option U8 := none
  deriving DecidableEq

def policyIsActiveAt (acc : Account) (policy : PolicyKind) (chainTipHeight : U64) : Bool :=
  decide (acc.activePolicies &&& policy.bit ≠ 0#16) ||
    acc.deferredPolicies.any fun row =>
      decide (row.policy = policy ∧ row.activateAtHeight ≤ chainTipHeight)

def setPolMode (acc : Account) (policy : PolicyKind) (activation : ActivationMode) (inclH : U64) :
    Account :=
  let bit := policy.bit
  let acc := { acc with
    activePolicies := acc.activePolicies &&& ~~~bit
    dormantPolicies := acc.dormantPolicies &&& ~~~bit
    deferredPolicies := acc.deferredPolicies.filter fun row => decide (row.policy ≠ policy) }
  match activation with
  | .dormant => { acc with dormantPolicies := acc.dormantPolicies ||| bit }
  | .immediately => { acc with activePolicies := acc.activePolicies ||| bit }
  | .deferred activateAtHeight =>
      { acc with
        deferredPolicies := acc.deferredPolicies ++ [⟨policy, activateAtHeight⟩]
        activePolicies :=
          if activateAtHeight ≤ inclH then acc.activePolicies ||| bit else acc.activePolicies }

end Pwm
