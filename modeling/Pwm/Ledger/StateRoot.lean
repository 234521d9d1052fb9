import Pwm.Core.Crypto
import Pwm.Ledger.Nonce

/-!
# What the state root binds

The root is a hash of the serialised state. The serialisation does not say
which of the optional fields of an account row it leaves out, so it determines
the state only together with that. Two rows that leave out different fields
may have the same bytes.
-/

namespace Pwm

open BitVec Bincode Std

/-! ## Items -/

theorem strBytes_injective : Function.Injective strBytes := by
  intro s t h
  have hbytes : ∀ u : String, (strBytes u).map UInt8.ofBitVec = u.toList.flatMap String.utf8EncodeChar := by
    intro u
    rw [strBytes, List.map_flatMap]
    simp [Function.comp_def]
  have hflat : s.toList.utf8Encode = t.toList.utf8Encode := by
    rw [List.utf8Encode, List.utf8Encode, ← hbytes, ← hbytes, h]
  rw [String.utf8Encode_toList, String.utf8Encode_toList] at hflat
  exact String.toByteArray_inj.mp hflat

section Items

theorem binds_idBytes (R : Bytes32 → Bytes32 → Prop) : Binds R idBytes id :=
  binds_beBytes 32 R

end Items

/-! ## Records -/

section Records

/-- An id, and an amount as a decimal string, of any value. -/
theorem binds_id : Binds (fun _ _ => True) idBytes id := binds_idBytes _

/-- An integer of `n` bytes, of any value. -/
theorem binds_int (n : Nat) :
    Binds (fun _ _ => True) (BitVec.leBytes n : BitVec (8 * n) → List U8) id :=
  binds_leBytes n _

end Records

/-! ## Account rows -/

/-- Which of the optional fields of a row are left out. -/
def Account.skipped (a : Account) : List Bool :=
  [a.rescueAddress.isSome, decide (a.activePolicies = 0#16), decide (a.dormantPolicies = 0#16),
    decide (a.deferredPolicies = []), a.ipv4ClaimedPhase.isSome, decide (a.finalized = false),
    decide (a.ownerKind = ""), decide (a.ownerDisplayName = ""), decide (a.ownerCountryHint = ""),
    a.companyMetadataCommitment.isSome, a.externalVerificationRef.isSome,
    a.requestedDomainLo.isSome]

/-- Lists and strings are as long as a machine word can say. -/
structure Account.Sized (a : Account) : Prop where
  deferredPolicies : a.deferredPolicies.length < 2 ^ 64
  ownerKind : (strBytes a.ownerKind).length < 2 ^ 64
  ownerDisplayName : (strBytes a.ownerDisplayName).length < 2 ^ 64
  ownerCountryHint : (strBytes a.ownerCountryHint).length < 2 ^ 64
  externalVerificationRef :
    ∀ ref ∈ a.externalVerificationRef, (strBytes ref).length < 2 ^ 64

instance (a : Account) : Decidable a.Sized :=
  decidable_of_iff (a.deferredPolicies.length < 2 ^ 64 ∧ (strBytes a.ownerKind).length < 2 ^ 64 ∧
      (strBytes a.ownerDisplayName).length < 2 ^ 64 ∧
      (strBytes a.ownerCountryHint).length < 2 ^ 64 ∧
      ∀ ref ∈ a.externalVerificationRef, (strBytes ref).length < 2 ^ 64)
    ⟨fun ⟨h₁, h₂, h₃, h₄, h₅⟩ => ⟨h₁, h₂, h₃, h₄, h₅⟩,
      fun ⟨h₁, h₂, h₃, h₄, h₅⟩ => ⟨h₁, h₂, h₃, h₄, h₅⟩⟩

/-- Rows that leave out the same fields. -/
structure Account.SameShape (a b : Account) : Prop where
  skipped : a.skipped = b.skipped
  left : a.Sized
  right : b.Sized

/-- Which optional fields the rows leave out, in the order of their ids. -/
def State.skipped (st : State) : List (List Bool) :=
  st.accounts.toList.map fun p => p.2.skipped

/-- Every length in the state fits in a machine word. -/
structure State.Sized (st : State) : Prop where
  accounts : st.accounts.toList.length < 2 ^ 64
  rows : ∀ p ∈ st.accounts.toList, p.2.Sized
  importedSet : st.importedSet.toList.length < 2 ^ 64
  exportedRegistry : st.exportedRegistry.toList.length < 2 ^ 64
  activeValidatorIndices : st.activeValidatorIndices.length < 2 ^ 64
  crossShardLocks : st.crossShardLocks.length < 2 ^ 64
  evidenceLog : st.evidenceLog.length < 2 ^ 64
  pendingConservation : st.pendingConservation.length < 2 ^ 64

instance (st : State) : Decidable st.Sized :=
  decidable_of_iff (st.accounts.toList.length < 2 ^ 64 ∧
      (∀ p ∈ st.accounts.toList, p.2.Sized) ∧ st.importedSet.toList.length < 2 ^ 64 ∧
      st.exportedRegistry.toList.length < 2 ^ 64 ∧
      st.activeValidatorIndices.length < 2 ^ 64 ∧ st.crossShardLocks.length < 2 ^ 64 ∧
      st.evidenceLog.length < 2 ^ 64 ∧ st.pendingConservation.length < 2 ^ 64)
    ⟨fun ⟨h₁, h₂, h₃, h₄, h₅, h₆, h₇, h₈⟩ => ⟨h₁, h₂, h₃, h₄, h₅, h₆, h₇, h₈⟩,
      fun ⟨h₁, h₂, h₃, h₄, h₅, h₆, h₇, h₈⟩ => ⟨h₁, h₂, h₃, h₄, h₅, h₆, h₇, h₈⟩⟩

structure State.SameShape (s t : State) : Prop where
  skipped : s.skipped = t.skipped
  left : s.Sized
  right : t.Sized

theorem eq_of_mem_zip {α β : Type} {f : α → β} {xs ys : List α} (h : xs.map f = ys.map f) :
    ∀ p ∈ xs.zip ys, f p.1 = f p.2 := by
  induction xs generalizing ys with
  | nil => simp
  | cons x xs ih =>
      cases ys with
      | nil => simp
      | cons y ys =>
          obtain ⟨hhead, htail⟩ := List.cons.inj h
          intro p hp
          rcases List.mem_cons.mp hp with rfl | hp
          · exact hhead
          · exact ih htail p hp

theorem State.SameShape.rows {s t : State} (h : s.SameShape t) :
    ∀ p ∈ s.accounts.toList.zip t.accounts.toList, p.1.2.SameShape p.2.2 := by
  intro p hp
  obtain ⟨hleft, hright⟩ := List.of_mem_zip hp
  exact ⟨eq_of_mem_zip h.skipped p hp, h.left.rows _ hleft, h.right.rows _ hright⟩

section Swap

variable {s : State} {id : AccountId} {a : Account}

end Swap

namespace SameRoot

/-- The sender filter, installed as active and as dormant. -/
def nowTx : SignedTx where
  domainCode := 0x32bc#16
  signerPk := devNetRow.pubkey
  derivationIndex := 0#32
  nonce := 0#64
  body := .policy devNetRow.acct (.setPolicy .senderFilter .immediately) 1#128
  signature := 0xbfa4c90c9483af7e1983e52038fe1f186b9d3f76e912746ce5a0b99e770e75ce2ebf3537a9117d5514d3b0714808aac27778268b1b8003ef24231f08ada8ea0c#512

def laterTx : SignedTx :=
  { nowTx with
    body := .policy devNetRow.acct (.setPolicy .senderFilter .dormant) 1#128
    signature := 0xfd352cf2e3c1923a42113bff72d8617165df9e7bda14082efba1707e1b39e91d02a0c7ef284b35b8605cc9850ec979a8add2c81240c6280c1d36fc734ef00505#512 }

def crypto : Crypto :=
  .ofTables [(devNetRow.pubkey.beBytes 32 ++ (0#32).leBytes 4, devNetRow.acct)]
    [⟨devNetSk, devNetRow.pubkey, [(nowTx.signingMessage, nowTx.signature),
      (laterTx.signingMessage, laterTx.signature)]⟩]

def afterNow : State := endState (applyTxWithCtx crypto devNet nowTx 1#64 0#64 devNet.state0)
/-- The state at genesis and with the filter, told apart by this hash. -/
def tellApart : Crypto :=
  .ofTables [(afterNow.bytes, 1#256)] []

end SameRoot

end Pwm
