import Pwm.Lib.Attempt
import Pwm.Lib.Digits
import Pwm.Snapshot.Types

/-!
# Values as text in a snapshot

The text of byte arrays, amounts and policies, what is accepted on the way
back, and that what was written is read back.
-/

namespace Pwm

open Attempt Digits

/-! ## Byte arrays -/

/-- Lower-case hexadecimal without a prefix. -/
def hexOf (n : Nat) (bytes : BitVec (8 * n)) : String :=
  String.ofList (hexDigits (bytes.beBytes n))

def hexV2 (n : Nat) (value field : String) : Except String (BitVec (8 * n)) := do
  let size := (strBytes value).length
  check (size = n * 2)
    (field ++ ": invalid hex length " ++ toString size ++ ", expected " ++ toString (n * 2))
  check (value.toList.all isLowerHex)
    (field ++ ": invalid hex; expected lowercase [0-9a-f] without 0x")
  .ok (BitVec.ofNat (8 * n) (ofBeBytes (ofHexDigits value.toList)))

theorem length_strBytes_ascii {cs : List Char} (h : ∀ c ∈ cs, c.utf8Size = 1) :
    (strBytes (String.ofList cs)).length = cs.length := by
  rw [strBytes, String.toList_ofList]
  induction cs with
  | nil => rfl
  | cons c rest ih =>
      rw [List.flatMap_cons, List.length_append, List.length_map, String.length_utf8EncodeChar,
        h c List.mem_cons_self, ih fun d hd => h d (List.mem_cons_of_mem c hd), List.length_cons,
        Nat.add_comm]

theorem utf8Size_of_isLowerHex {c : Char} (h : isLowerHex c = true) : c.utf8Size = 1 := by
  have hle : c.val.toNat ≤ 127 := by
    simp only [isLowerHex, Char.isDigit, Bool.or_eq_true, Bool.and_eq_true, decide_eq_true_eq,
      Char.le_def, UInt32.le_iff_toNat_le] at h
    have hnine : ('9' : Char).val.toNat = 57 := rfl
    have hf : ('f' : Char).val.toNat = 102 := rfl
    omega
  rw [Char.utf8Size, if_pos (by rw [UInt32.le_iff_toNat_le]; exact hle)]

/-- A byte array is read back from its text. -/
@[simp] theorem hexV2_hexOf (n : Nat) (bytes : BitVec (8 * n)) (field : String) :
    hexV2 n (hexOf n bytes) field = .ok bytes := by
  have hhex : ∀ c ∈ hexDigits (bytes.beBytes n), isLowerHex c = true := fun c =>
    isLowerHex_of_mem_hexDigits
  have hsize : (strBytes (hexOf n bytes)).length = n * 2 := by
    rw [hexOf, length_strBytes_ascii fun c hc => utf8Size_of_isLowerHex (hhex c hc),
      length_hexDigits, BitVec.length_beBytes, Nat.mul_comm]
  have hdigits : (hexOf n bytes).toList = hexDigits (bytes.beBytes n) := String.toList_ofList
  simp only [hexV2, except_bind_ok_iff, check_ok_iff]
  refine ⟨(), hsize, (), ?_, ?_⟩
  · rw [hdigits, List.all_eq_true]
    exact hhex
  · rw [hdigits, ofHexDigits_hexDigits, ofNat_ofBeBytes]

/-! ## Numbers -/

def decOf (value : U128) : String :=
  Nat.repr value.toNat

def decOfU32 (value : U32) : String :=
  Nat.repr value.toNat

def decV2 (value field : String) : Except String U128 := do
  check (value ≠ "") (field ++ ": invalid decimal string: empty")
  check (value.toList.all Char.isDigit)
    (field ++ ": invalid decimal string; expected digits only")
  check (¬ (1 < value.toList.length ∧ value.toList.head? = some '0'))
    (field ++ ": invalid decimal string; leading zeros are not canonical")
  (parseUnsigned 128 value.toList).mapError fun e =>
    field ++ ": invalid u128 decimal string: " ++ e

/-- Marks as they are, or raw units of the older scale, up to the cap. -/
def decV2Marks (value field : String) : Except String U32 := do
  let raw ← decV2 value field
  if raw ≤ marksCap.setWidth 128 then .ok (raw.setWidth 32)
  else .ok (asMarksU32 (raw / pwmRawScale))

def decV2U32 (value field : String) : Except String U32 := do
  let raw ← decV2 value field
  .ok (asMarksU32 raw)

theorem decV2_repr {n : Nat} (hn : n < 2 ^ 128) (field : String) :
    decV2 (Nat.repr n) field = .ok (BitVec.ofNat 128 n) := by
  have hdigits : (Nat.repr n).toList = Nat.toDigits 10 n := Nat.toList_repr
  simp only [decV2, except_bind_ok_iff, check_ok_iff, mapError_ok_iff, hdigits]
  refine ⟨(), ?_, (), ?_, (), ?_, ?_⟩
  · intro hempty
    rw [hempty] at hdigits
    exact Nat.toDigits_ne_nil hdigits.symm
  · rw [List.all_eq_true]
    exact fun c => isDigit_of_mem_decimal
  · rintro ⟨hlen, hhead⟩
    exact head_decimal hlen hhead
  · have hparse := parseUnsigned_decimal (BitVec.ofNat 128 n)
    rwa [BitVec.toNat_ofNat, Nat.mod_eq_of_lt hn] at hparse

@[simp] theorem decV2_decOf (value : U128) (field : String) :
    decV2 (decOf value) field = .ok value := by
  rw [decOf, decV2_repr value.isLt, BitVec.ofNat_toNat, BitVec.setWidth_eq]

theorem setWidth_le_marksCap (value : U32) :
    (value.setWidth 128 : U128) ≤ marksCap.setWidth 128 := by
  have hcap : (marksCap.setWidth 128 : U128).toNat = 2 ^ 32 - 1 := rfl
  have hlt := value.isLt
  rw [BitVec.le_def, hcap, BitVec.toNat_setWidth, Nat.mod_eq_of_lt (by omega)]
  omega

theorem setWidth_setWidth_u32 (value : U32) : (value.setWidth 128 : U128).setWidth 32 = value := by
  rw [BitVec.setWidth_setWidth_of_le value (by omega), BitVec.setWidth_eq]

theorem asMarksU32_setWidth (value : U32) : asMarksU32 (value.setWidth 128) = value := by
  rw [asMarksU32, if_pos (setWidth_le_marksCap value), setWidth_setWidth_u32]

theorem decV2_decOfU32 (value : U32) (field : String) :
    decV2 (decOfU32 value) field = .ok (value.setWidth 128) := by
  rw [decOfU32, decV2_repr (lt_of_lt_of_le value.isLt (by omega)), BitVec.ofNat_toNat]

@[simp] theorem decV2Marks_decOfU32 (value : U32) (field : String) :
    decV2Marks (decOfU32 value) field = .ok value := by
  refine except_bind_ok_iff.mpr ⟨_, decV2_decOfU32 value field, ?_⟩
  rw [if_pos (setWidth_le_marksCap value), setWidth_setWidth_u32]

@[simp] theorem decV2U32_decOfU32 (value : U32) (field : String) :
    decV2U32 (decOfU32 value) field = .ok value := by
  refine except_bind_ok_iff.mpr ⟨_, decV2_decOfU32 value field, ?_⟩
  rw [asMarksU32_setWidth]

/-! ## Policies -/

def policyKindToStr : PolicyKind → String
  | .routingSameDomainOnly => "routing.same_domain_only"
  | .routingEmergencyRedirect => "routing.emergency_redirect"
  | .senderFilter => "sender_filter"
  | .defaultBehavior => "default_behavior"
  | .cosignRequired => "cosign_required"

def policyKindFromStr (raw path : String) : Except String PolicyKind :=
  match raw with
  | "routing.same_domain_only" => .ok .routingSameDomainOnly
  | "routing.emergency_redirect" => .ok .routingEmergencyRedirect
  | "sender_filter" => .ok .senderFilter
  | "default_behavior" => .ok .defaultBehavior
  | "cosign_required" => .ok .cosignRequired
  | _ => .error (path ++ ": unknown policy kind '" ++ raw ++ "'")

@[simp] theorem policyKindFromStr_toStr (kind : PolicyKind) (path : String) :
    policyKindFromStr (policyKindToStr kind) path = .ok kind := by
  cases kind <;> simp [policyKindFromStr, policyKindToStr]

def activationToStr : ActivationMode → String
  | .dormant => "dormant"
  | .immediately => "immediately"
  | .deferred activateAtHeight => "deferred:" ++ Nat.repr activateAtHeight.toNat

/-- What follows the given start of a text. -/
def afterStart (start text : String) : Option (List Char) :=
  if start.toList.isPrefixOf text.toList then some (text.toList.drop start.toList.length) else none

def deferredFromStr (height : List Char) (path : String) : Except String ActivationMode :=
  ((parseUnsigned 64 height).mapError fun e =>
    path ++ ": invalid deferred activation height '" ++ String.ofList height ++ "': " ++ e).map
      .deferred

def activationFromStr (raw path : String) : Except String ActivationMode :=
  match afterStart "deferred:" raw, afterStart "deferred/" raw with
  | some height, _ => deferredFromStr height path
  | none, some height => deferredFromStr height path
  | none, none =>
      match raw with
      | "dormant" => .ok .dormant
      | "immediately" => .ok .immediately
      | "deferred" =>
          .error (path ++ ": deferred activation requires height (expected deferred:<u64>)")
      | _ => .error (path ++ ": expected dormant|immediately|deferred:<u64>")

theorem afterStart_append (start : String) (rest : String) :
    afterStart start (start ++ rest) = some rest.toList := by
  rw [afterStart, String.toList_append, if_pos (by simp), List.drop_left]

@[simp] theorem activationFromStr_toStr (mode : ActivationMode) (path : String) :
    activationFromStr (activationToStr mode) path = .ok mode := by
  cases mode with
  | dormant => rfl
  | immediately => rfl
  | deferred height =>
      have hdigits : (Nat.repr height.toNat).toList = Nat.toDigits 10 height.toNat :=
        Nat.toList_repr
      simp only [activationFromStr, activationToStr, afterStart_append, deferredFromStr, hdigits,
        parseUnsigned_decimal]
      rfl

end Pwm
