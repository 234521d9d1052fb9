import Pwm.Core.Types

/-!
# Assumptions on the hash and the signatures

A hash function has collisions, so the results that need it to tell apart the
byte strings of a run say which strings these are. A scheme given by tables
has the values of the real one on the entries of the tables.
-/

namespace Pwm

namespace Crypto

/-- No two byte strings of the set have the same hash. -/
def CollisionFree (C : Crypto) (inputs : Set (List U8)) : Prop :=
  Set.InjOn C.blake3 inputs

/-- What the key signs is accepted under its verifying key. -/
def SignsVerify (C : Crypto) (sk : SigningKey) : Prop :=
  ∀ msg, C.verify (C.verifyingKey sk) msg (C.sign sk msg) = true

theorem CollisionFree.mono {C : Crypto} {P Q : Set (List U8)} (h : C.CollisionFree Q)
    (hPQ : P ⊆ Q) : C.CollisionFree P :=
  Set.InjOn.mono hPQ h

/-- A signing key, its verifying key and known signatures. -/
structure KnownKey where
  sk : SigningKey
  pk : Bytes32
  sigs : List (List U8 × Bytes64)

/-- The known signature of a message, zero when there is none. -/
def KnownKey.signature (key : KnownKey) (msg : List U8) : Bytes64 :=
  (key.sigs.find? fun p => decide (p.1 = msg)).elim 0#512 Prod.snd

/-- The scheme with these hash values and keys. -/
def ofTables (hashes : List (List U8 × Bytes32)) (keys : List KnownKey) : Crypto where
  blake3 bytes := (hashes.find? fun p => decide (p.1 = bytes)).elim 0#256 Prod.snd
  verify pk msg sig := keys.any fun key => decide (key.pk = pk ∧ key.signature msg = sig)
  verifyingKey sk := (keys.find? fun key => decide (key.sk = sk)).elim 0#256 KnownKey.pk
  sign sk msg := (keys.find? fun key => decide (key.sk = sk)).elim 0#512 fun key => key.signature msg

theorem signature_cons_self (sk : SigningKey) (pk : Bytes32) (msg : List U8) (sig : Bytes64)
    (sigs : List (List U8 × Bytes64)) :
    KnownKey.signature ⟨sk, pk, (msg, sig) :: sigs⟩ msg = sig := by
  simp [KnownKey.signature]

theorem signature_cons_of_ne (sk : SigningKey) (pk : Bytes32) {m msg : List U8} (h : m ≠ msg)
    (sig : Bytes64) (sigs : List (List U8 × Bytes64)) :
    KnownKey.signature ⟨sk, pk, (m, sig) :: sigs⟩ msg = KnownKey.signature ⟨sk, pk, sigs⟩ msg := by
  simp [KnownKey.signature, h]

/-- A key verifies its signatures. -/
theorem ofTables_verify (hashes : List (List U8 × Bytes32)) {keys : List KnownKey} {key : KnownKey}
    (hkey : key ∈ keys) {pk : Bytes32} (hpk : key.pk = pk) {msg : List U8} {sig : Bytes64}
    (hsig : key.signature msg = sig) : (ofTables hashes keys).verify pk msg sig = true :=
  List.any_eq_true.mpr ⟨key, hkey, decide_eq_true ⟨hpk, hsig⟩⟩

theorem ofTables_signsVerify (hashes : List (List U8 × Bytes32)) (keys : List KnownKey)
    {sk : SigningKey} (h : ∃ key ∈ keys, key.sk = sk) : (ofTables hashes keys).SignsVerify sk := by
  intro msg
  obtain ⟨key, hkey, hsk⟩ := h
  have hsome : (keys.find? fun key => decide (key.sk = sk)).isSome := by
    simpa using ⟨key, hkey, hsk⟩
  obtain ⟨found, hfound⟩ := Option.isSome_iff_exists.mp hsome
  have hmem : found ∈ keys := List.mem_of_find?_eq_some hfound
  simp only [ofTables, hfound, Option.elim_some, List.any_eq_true, decide_eq_true_eq]
  exact ⟨found, hmem, rfl, rfl⟩

end Crypto

end Pwm
