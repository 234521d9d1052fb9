import Pwm.Core.Tx
import Pwm.Lib.Bincode

/-!
# Blocks

Block headers with their signature, the Merkle root of the transactions and
the header hash that links a block to the one before it.
-/

namespace Pwm

open BitVec

structure BlockHdr where
  height : U64
  prevHash : Bytes32
  ts : U64
  prodIdx : U32
  txRoot : Bytes32
  stateRoot : Bytes32
  sig : Bytes64
  deriving DecidableEq

namespace BlockHdr

/-- The signed fields of a header. -/
def signBytes (hdr : BlockHdr) : List U8 :=
  strBytes "PWMv0/BLOCKHDR" ++ hdr.height.leBytes 8 ++ hdr.prevHash.beBytes 32 ++
    hdr.ts.leBytes 8 ++ hdr.prodIdx.leBytes 4 ++ hdr.txRoot.beBytes 32 ++ hdr.stateRoot.beBytes 32

/-- Canonical preimage for the block signature. -/
def signPreimage (C : Crypto) (hdr : BlockHdr) : Bytes32 :=
  C.blake3 hdr.signBytes

def verifySig (C : Crypto) (hdr : BlockHdr) (prodPk : Bytes32) : Bool :=
  C.verify prodPk ((hdr.signPreimage C).beBytes 32) hdr.sig

def signWith (C : Crypto) (sk : SigningKey) (hdr : BlockHdr) : BlockHdr :=
  { hdr with sig := C.sign sk ((hdr.signPreimage C).beBytes 32) }

/-- The serialised header, signature included. -/
def bytes (hdr : BlockHdr) : List U8 :=
  hdr.height.leBytes 8 ++ hdr.prevHash.beBytes 32 ++ hdr.ts.leBytes 8 ++ hdr.prodIdx.leBytes 4 ++
    hdr.txRoot.beBytes 32 ++ hdr.stateRoot.beBytes 32 ++
    Bincode.seqBytes (fun b => [b]) (hdr.sig.beBytes 64)

@[simp] theorem signPreimage_signWith (C : Crypto) (sk : SigningKey) (hdr : BlockHdr) :
    (hdr.signWith C sk).signPreimage C = hdr.signPreimage C := rfl

/-- A header signed with a key is accepted under its verifying key. -/
theorem verifySig_signWith (C : Crypto) {sk : SigningKey} (hdr : BlockHdr)
    (h : ∀ msg, C.verify (C.verifyingKey sk) msg (C.sign sk msg) = true) :
    (hdr.signWith C sk).verifySig C (C.verifyingKey sk) = true := by
  rw [verifySig, signPreimage_signWith]
  exact h _

end BlockHdr

structure Block where
  hdr : BlockHdr
  txs : List SignedTx
  deriving DecidableEq

/-- One level of the Merkle tree; a last leaf without a partner is paired with itself. -/
def txNodes (C : Crypto) : List Bytes32 → List Bytes32
  | [] => []
  | [a] => [C.blake3 (strBytes "PWMv0/TXNODE" ++ a.beBytes 32 ++ a.beBytes 32)]
  | a :: b :: rest =>
      C.blake3 (strBytes "PWMv0/TXNODE" ++ a.beBytes 32 ++ b.beBytes 32) :: txNodes C rest

theorem length_txNodes (C : Crypto) (leaves : List Bytes32) :
    (txNodes C leaves).length = (leaves.length + 1) / 2 := by
  induction leaves using txNodes.induct with
  | case1 => rfl
  | case2 a => simp [txNodes]
  | case3 a b rest ih =>
      simp only [txNodes, List.length_cons, ih]
      omega

/-- The levels up to the root, at most as many as the fuel. -/
def merkleLoop (C : Crypto) : Nat → List Bytes32 → List Bytes32
  | 0, leaves => leaves
  | fuel + 1, leaves => if 1 < leaves.length then merkleLoop C fuel (txNodes C leaves) else leaves

/-- As many levels as there are leaves end in a single root. -/
theorem length_merkleLoop (C : Crypto) (fuel : Nat) {leaves : List Bytes32}
    (hne : 0 < leaves.length) (hfuel : leaves.length ≤ fuel) :
    (merkleLoop C fuel leaves).length = 1 := by
  induction fuel generalizing leaves with
  | zero => omega
  | succ fuel ih =>
      rw [merkleLoop]
      by_cases hlen : 1 < leaves.length
      · rw [if_pos hlen]
        have hnodes := length_txNodes C leaves
        exact ih (by omega) (by omega)
      · rw [if_neg hlen]
        omega

/-- Binary Merkle root over the transaction hashes. -/
def txsRoot (C : Crypto) (txs : List SignedTx) : Bytes32 :=
  let leaves := txs.map fun tx => tx.txHash C
  if leaves = [] then C.blake3 (strBytes "PWMv0/EMPTYTX")
  else (merkleLoop C leaves.length leaves).headD 0#256

/-- Full header hash for the link to the previous block. -/
def hdrHash (C : Crypto) (hdr : BlockHdr) : Bytes32 :=
  C.blake3 hdr.bytes

end Pwm
