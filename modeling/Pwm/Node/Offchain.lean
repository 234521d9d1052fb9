import Pwm.Wallet.AccountText
import Pwm.Core.Crypto
import Pwm.Lib.PairTree

/-!
# Proofs of inclusion for offchain batches

The entries of a batch are hashed into leaves and the leaves into a root. A
proof lists the partners of a leaf on its way up, each with its side. A proof
that leads from the leaf of an entry to the root is one of an entry of the
batch.
-/

namespace Pwm

open PairTree

structure BatchEntry where
  accountId : AccountId
  amount : U128
  nonce : U64
  deriving DecidableEq

/-- A partner of a proof: its side as a word and its hash as digits. -/
structure ProofStep where
  position : String
  hash : Text
  deriving DecidableEq

section Offchain

variable (sha256 : List U8 → Bytes32)

def leafBytes (entry : BatchEntry) : List U8 :=
  strBytes "PWMv1/OFFLEAF" ++ entry.accountId.beBytes 32 ++ entry.amount.beBytes 16 ++
    entry.nonce.beBytes 8

def entryLeaf (entry : BatchEntry) : Bytes32 :=
  sha256 (leafBytes entry)

def nodeBytes (left right : Bytes32) : List U8 :=
  strBytes "PWMv1/OFFNODE" ++ left.beBytes 32 ++ right.beBytes 32

def nodeHash (left right : Bytes32) : Bytes32 :=
  sha256 (nodeBytes left right)

def merkleRoot (leaves : List Bytes32) : Bytes32 :=
  if leaves = [] then sha256 (strBytes "PWMv1/OFFEMPTY")
  else (levelsUp (nodeHash sha256) leaves.length leaves).headD 0#256

/-- A stored batch; the leaves and the root are those of its entries. -/
structure BatchRecord where
  batchId : U64
  root : Bytes32
  anchorTxHash : Bytes32
  entries : List BatchEntry
  leaves : List Bytes32
  leaves_eq : leaves = entries.map (entryLeaf sha256)
  root_eq : root = merkleRoot sha256 leaves

def anchorHash (batchId : U64) (root tipHash : Bytes32) (tipHeight : U64) : Bytes32 :=
  sha256 (strBytes "PWMv1/OFFANCHOR" ++ batchId.beBytes 8 ++ root.beBytes 32 ++
    tipHash.beBytes 32 ++ tipHeight.beBytes 8)

/-- The record of a new batch. -/
def BatchRecord.ofEntries (batchId : U64) (entries : List BatchEntry) (tipHash : Bytes32)
    (tipHeight : U64) : BatchRecord sha256 :=
  let leaves := entries.map (entryLeaf sha256)
  let root := merkleRoot sha256 leaves
  ⟨batchId, root, anchorHash sha256 batchId root tipHash tipHeight, entries, leaves, rfl, rfl⟩

def merkleProof (record : BatchRecord sha256) (index : Nat) : Option (List ProofStep) :=
  if record.leaves.length ≤ index then none
  else some ((partners (nodeHash sha256) record.leaves.length record.leaves index).map fun step =>
    ⟨if step.1 then "left" else "right", Digits.hexDigits (step.2.beBytes 32)⟩)

/-- The hash that the digits of a step stand for. -/
def ProofStep.sibling (step : ProofStep) : Option Bytes32 :=
  (Text.hexDecode step.hash).bind fun raw => if raw.length = 32 then some (bytes32 raw) else none

/-- The steps of a proof, when all their digits stand for hashes. -/
def readSteps (proof : List ProofStep) : Option (List (Bool × Bytes32)) :=
  proof.mapM fun step => step.sibling.map fun hash => (decide (step.position = "left"), hash)

def verifyProof (leaf : Bytes32) (proof : List ProofStep) (root : Bytes32) : Bool :=
  match readSteps proof with
  | none => false
  | some steps => decide (climb (nodeHash sha256) leaf steps = root)

/-- Everything that is hashed for the root of a batch and along a proof for an entry. -/
def proofInputs (entries : List BatchEntry) (entry : BatchEntry) (proof : List ProofStep) :
    Set (List U8) :=
  {m | ∃ e ∈ entry :: entries, m = leafBytes e} ∪
    {m | ∃ p ∈ joined (nodeHash sha256) (Nat.clog 2 entries.length)
          (entries.map (entryLeaf sha256)) ∪
        climbed (nodeHash sha256) (entryLeaf sha256 entry) ((readSteps proof).getD []),
      m = nodeBytes p.1 p.2}

variable {sha256} {record : BatchRecord sha256} {entry : BatchEntry} {proof : List ProofStep}

theorem leafBytes_injective : Function.Injective leafBytes := by
  rintro ⟨id, amount, nonce⟩ ⟨id', amount', nonce'⟩ h
  simp only [leafBytes, List.append_assoc] at h
  have htail := List.append_cancel_left h
  obtain ⟨hid, hrest⟩ := List.append_inj htail (by simp)
  obtain ⟨hamount, hnonce⟩ := List.append_inj hrest (by simp)
  rw [BatchEntry.mk.injEq]
  exact ⟨BitVec.beBytes_injective 32 hid, BitVec.beBytes_injective 16 hamount,
    BitVec.beBytes_injective 8 hnonce⟩

theorem nodeBytes_injective {p q : Bytes32 × Bytes32}
    (h : nodeBytes p.1 p.2 = nodeBytes q.1 q.2) : p = q := by
  simp only [nodeBytes, List.append_assoc] at h
  obtain ⟨hleft, hright⟩ := List.append_inj (List.append_cancel_left h) (by simp)
  exact Prod.ext (BitVec.beBytes_injective 32 hleft) (BitVec.beBytes_injective 32 hright)

/-- A leaf is not hashed from the bytes of a node. -/
theorem leafBytes_ne_nodeBytes (e : BatchEntry) (left right : Bytes32) :
    leafBytes e ≠ nodeBytes left right := by
  intro h
  have hlen := congrArg List.length h
  have htags : (strBytes "PWMv1/OFFLEAF").length = (strBytes "PWMv1/OFFNODE").length := by decide
  simp only [leafBytes, nodeBytes, List.length_append, BitVec.length_beBytes, htags] at hlen
  omega

theorem sibling_hexDigits (position : String) (hash : Bytes32) :
    (ProofStep.mk position (Digits.hexDigits (hash.beBytes 32))).sibling = some hash := by
  rw [ProofStep.sibling, Text.hexDecode_hexDigits, Option.bind_some,
    if_pos (BitVec.length_beBytes 32 hash), bytes32, Digits.ofNat_ofBeBytes 32 hash]

/-- The steps of a proof are read back from their words and digits. -/
theorem readSteps_map (steps : List (Bool × Bytes32)) :
    readSteps (steps.map fun step =>
      ⟨if step.1 then "left" else "right", Digits.hexDigits (step.2.beBytes 32)⟩) = some steps := by
  induction steps with
  | nil => rfl
  | cons step rest ih =>
      obtain ⟨side, hash⟩ := step
      have hside : decide ((if side then "left" else "right") = "left") = side := by
        cases side with
        | true => rfl
        | false => decide
      rw [readSteps] at ih ⊢
      rw [List.map_cons, List.mapM_cons, sibling_hexDigits, ih, Option.map_some, hside]
      rfl

/-- The root of a batch is the top of the rows over its leaves. -/
theorem levelsUp_root (hne : record.entries ≠ []) :
    levelsUp (nodeHash sha256) record.leaves.length record.leaves = [record.root] := by
  have hleaves : record.leaves ≠ [] := by
    rw [record.leaves_eq]
    simpa using hne
  have hone := length_row (nodeHash sha256) hleaves rfl
  rw [← levelsUp_eq_row _ _ le_rfl] at hone
  obtain ⟨r, hr⟩ := List.length_eq_one_iff.mp hone
  rw [record.root_eq, merkleRoot, if_neg hleaves, hr]
  rfl

/-- A proof of an entry is accepted. -/
theorem verifyProof_merkleProof {index : Nat} (hentry : record.entries[index]? = some entry) :
    ∃ proof, merkleProof sha256 record index = some proof ∧
      verifyProof sha256 (entryLeaf sha256 entry) proof record.root = true := by
  have hne : record.entries ≠ [] := by
    intro hnil
    rw [hnil] at hentry
    exact absurd hentry (by simp)
  have hleaf : record.leaves[index]? = some (entryLeaf sha256 entry) := by
    rw [record.leaves_eq, List.getElem?_map, hentry, Option.map_some]
  have hlt : index < record.leaves.length := (List.getElem?_eq_some_iff.mp hleaf).1
  have hclimb := climb_partners (nodeHash sha256) record.leaves.length le_rfl hleaf
  rw [levelsUp_root hne] at hclimb
  refine ⟨_, if_neg (by omega), ?_⟩
  rw [verifyProof, readSteps_map]
  exact decide_eq_true (List.singleton_inj.mp hclimb).symm

/-- An entry whose proof is accepted is one of the batch. -/
theorem mem_entries_of_verifyProof (hne : record.entries ≠ [])
    (hfree : Set.InjOn sha256 (proofInputs sha256 record.entries entry proof))
    (h : verifyProof sha256 (entryLeaf sha256 entry) proof record.root = true) :
    entry ∈ record.entries := by
  cases hsteps : readSteps proof with
  | none =>
      rw [verifyProof, hsteps] at h
      exact absurd h Bool.false_ne_true
  | some steps =>
      rw [verifyProof, hsteps] at h
      have hroot : climb (nodeHash sha256) (entryLeaf sha256 entry) steps = record.root :=
        of_decide_eq_true h
      have hlen : record.leaves.length = record.entries.length := by
        rw [record.leaves_eq, List.length_map]
      have hrow := levelsUp_root hne
      rw [levelsUp_eq_row _ _ le_rfl, hlen] at hrow
      have hleafIn : ∀ e ∈ entry :: record.entries,
          leafBytes e ∈ proofInputs sha256 record.entries entry proof := fun e he =>
        Or.inl ⟨e, he, rfl⟩
      have hnodeIn : ∀ p ∈ joined (nodeHash sha256) (Nat.clog 2 record.entries.length)
            record.leaves ∪ climbed (nodeHash sha256) (entryLeaf sha256 entry) steps,
          nodeBytes p.1 p.2 ∈ proofInputs sha256 record.entries entry proof := by
        intro p hp
        refine Or.inr ⟨p, ?_, rfl⟩
        rw [hsteps, Option.getD_some, ← record.leaves_eq]
        exact hp
      -- no leaf of the batch, nor the one shown, is the hash of a pair
      have hapart : ∀ e ∈ entry :: record.entries,
          ∀ p ∈ joined (nodeHash sha256) (Nat.clog 2 record.entries.length) record.leaves ∪
            climbed (nodeHash sha256) (entryLeaf sha256 entry) steps,
          entryLeaf sha256 e ≠ nodeHash sha256 p.1 p.2 := fun e he p hp heq =>
        leafBytes_ne_nodeBytes e p.1 p.2 (hfree (hleafIn e he) (hnodeIn p hp) heq)
      have hinj : Set.InjOn (fun p : Bytes32 × Bytes32 => nodeHash sha256 p.1 p.2)
          (joined (nodeHash sha256) (Nat.clog 2 record.entries.length) record.leaves ∪
            climbed (nodeHash sha256) (entryLeaf sha256 entry) steps) := fun p hp q hq heq =>
        nodeBytes_injective (hfree (hnodeIn p hp) (hnodeIn q hq) heq)
      have hnoLeaf : ∀ p ∈ climbed (nodeHash sha256) (entryLeaf sha256 entry) steps,
          nodeHash sha256 p.1 p.2 ∉ record.leaves := by
        intro p hp hmem
        rw [record.leaves_eq] at hmem
        obtain ⟨e, he, heq⟩ := List.mem_map.mp hmem
        exact hapart e (List.mem_cons_of_mem entry he) p (Or.inr hp) heq
      obtain ⟨j, hj, hmem⟩ := mem_row_of_climb hinj hnoLeaf (by
        rw [hroot, hrow]
        exact List.mem_singleton_self _)
      cases j with
      | zero =>
          rw [row, record.leaves_eq] at hmem
          obtain ⟨e, he, heq⟩ := List.mem_map.mp hmem
          have hsame : e = entry := leafBytes_injective (hfree
            (hleafIn e (List.mem_cons_of_mem entry he)) (hleafIn entry List.mem_cons_self) heq)
          exact hsame ▸ he
      | succ j =>
          obtain ⟨p, hp, heq⟩ := mem_row_succ hmem
          have hjoined := joined_mono (nodeHash sha256) hj record.leaves hp
          exact absurd heq (hapart entry List.mem_cons_self p (Or.inl hjoined))

/-- For every batch the proof of each of its entries is accepted, and only entries of the batch have
accepted proofs. -/
theorem offchainProofs_exact (sha256 : List U8 → Bytes32) (record : BatchRecord sha256)
    (hne : record.entries ≠ []) :
    (∀ index entry, record.entries[index]? = some entry →
      ∃ proof, merkleProof sha256 record index = some proof ∧
        verifyProof sha256 (entryLeaf sha256 entry) proof record.root = true) ∧
    ∀ entry proof, Set.InjOn sha256 (proofInputs sha256 record.entries entry proof) →
      verifyProof sha256 (entryLeaf sha256 entry) proof record.root = true →
      entry ∈ record.entries :=
  ⟨fun _ _ => verifyProof_merkleProof, fun _ _ => mem_entries_of_verifyProof hne⟩

end Offchain

namespace TwoEntries

def first : BatchEntry := ⟨1#256, 10#128, 7#64⟩
def second : BatchEntry := ⟨2#256, 11#128, 8#64⟩

def firstLeaf : Bytes32 :=
  0xcf97fbc6a55328a7815bfa0e8ad5379af2dd7baf2b21cee11d5225c08ff3db9c#256
def secondLeaf : Bytes32 :=
  0xcc1d217665fbc95c4f1ea4498c551070e59d7ae33d16c0307edd96ca5ac620c3#256
def top : Bytes32 :=
  0x565b9988276588a2e48176232318489bcfcffda334203c8b64946ac2ceab061f#256

/-- The hash of the two leaves and of their node. -/
def sha256 (bytes : List U8) : Bytes32 :=
  if bytes = leafBytes first then firstLeaf
  else if bytes = leafBytes second then secondLeaf
  else if bytes = nodeBytes firstLeaf secondLeaf then top
  else 0#256

def batch : BatchRecord sha256 :=
  .ofEntries sha256 1#64 [first, second] 0#256 0#64

/-- The first entry is the left one of two. -/
def proof : List ProofStep :=
  [⟨"right", Digits.hexDigits (secondLeaf.beBytes 32)⟩]

theorem entryLeaf_first : entryLeaf sha256 first = firstLeaf := by
  rw [entryLeaf, sha256, if_pos rfl]

theorem entryLeaf_second : entryLeaf sha256 second = secondLeaf := by
  have hother : leafBytes second ≠ leafBytes first := by decide
  rw [entryLeaf, sha256, if_neg hother, if_pos rfl]

theorem sha256_top : sha256 (nodeBytes firstLeaf secondLeaf) = top := by
  rw [sha256, if_neg (leafBytes_ne_nodeBytes _ _ _).symm,
    if_neg (leafBytes_ne_nodeBytes _ _ _).symm, if_pos rfl]

theorem readSteps_proof : readSteps proof = some [(false, secondLeaf)] :=
  readSteps_map [(false, secondLeaf)]

theorem inputs_subset : proofInputs sha256 batch.entries first proof ⊆
    {leafBytes first, leafBytes second, nodeBytes firstLeaf secondLeaf} := by
  have hdepth : Nat.clog 2 [first, second].length = 1 := by decide
  rintro m (⟨e, he, rfl⟩ | ⟨p, hp, rfl⟩)
  · change e ∈ [first, first, second] at he
    simp only [List.mem_cons, List.not_mem_nil, or_false] at he
    rcases he with rfl | rfl | rfl
    · exact Or.inl rfl
    · exact Or.inl rfl
    · exact Or.inr (Or.inl rfl)
  · have hpair : p = (firstLeaf, secondLeaf) := by
      change p ∈ joined _ (Nat.clog 2 [first, second].length)
        [entryLeaf sha256 first, entryLeaf sha256 second] ∪ _ at hp
      rw [hdepth, readSteps_proof, entryLeaf_first, entryLeaf_second] at hp
      rcases hp with (hp | hp) | (hp | hp)
      · exact List.mem_singleton.mp hp
      · exact absurd hp (Set.notMem_empty p)
      · exact hp
      · exact absurd hp (Set.notMem_empty p)
    rw [hpair]
    exact Or.inr (Or.inr rfl)

theorem sha256_injOn : Set.InjOn sha256 (proofInputs sha256 batch.entries first proof) := by
  have hfirst : sha256 (leafBytes first) = firstLeaf := entryLeaf_first
  have hsecond : sha256 (leafBytes second) = secondLeaf := entryLeaf_second
  intro m hm m' hm' heq
  rcases inputs_subset hm with rfl | rfl | rfl <;> rcases inputs_subset hm' with rfl | rfl | rfl <;>
    first | rfl | (simp only [hfirst, hsecond, sha256_top] at heq; revert heq; decide)

theorem verifyProof_first :
    verifyProof sha256 (entryLeaf sha256 first) proof batch.root = true := by
  have hroot : batch.root = top := by
    change merkleRoot sha256 [entryLeaf sha256 first, entryLeaf sha256 second] = top
    rw [entryLeaf_first, entryLeaf_second]
    exact sha256_top
  rw [verifyProof, readSteps_proof, hroot, entryLeaf_first]
  exact decide_eq_true sha256_top

end TwoEntries

/-- The batch of two entries and the proof of the first. -/
theorem twoEntries_exact :
    TwoEntries.batch.entries ≠ [] ∧
      (∃ proof, merkleProof TwoEntries.sha256 TwoEntries.batch 1 = some proof ∧
        verifyProof TwoEntries.sha256 (entryLeaf TwoEntries.sha256 TwoEntries.second) proof
          TwoEntries.batch.root = true) ∧
      TwoEntries.first ∈ TwoEntries.batch.entries := by
  have hne : TwoEntries.batch.entries ≠ [] := List.cons_ne_nil _ _
  obtain ⟨hcomplete, hsound⟩ := offchainProofs_exact TwoEntries.sha256 TwoEntries.batch hne
  exact ⟨hne, hcomplete 1 TwoEntries.second rfl,
    hsound TwoEntries.first TwoEntries.proof TwoEntries.sha256_injOn TwoEntries.verifyProof_first⟩

end Pwm
