import Pwm.Ledger.Nonce
import Pwm.Lib.PairTree

/-!
# What the root of the transactions binds

The root is the top of a binary tree over the transaction hashes in which an
odd row repeats its last entry. It binds the hashes up to those repetitions,
and up to a row of nodes that could be a row of leaves.
-/

namespace Pwm

open BitVec PairTree

/-- The bytes hashed for a node. -/
def txNodeBytes (a b : Bytes32) : List U8 :=
  strBytes "PWMv0/TXNODE" ++ a.beBytes 32 ++ b.beBytes 32

/-- A node of the tree. -/
def txNode (C : Crypto) (a b : Bytes32) : Bytes32 :=
  C.blake3 (txNodeBytes a b)

/-- The hashes of the transactions, in order. -/
def txHashes (C : Crypto) (txs : List SignedTx) : List Bytes32 :=
  txs.map fun tx => tx.txHash C

/-- The number of levels over the transactions. -/
def rootDepth (txs : List SignedTx) : Nat :=
  Nat.clog 2 txs.length

/-- Everything that is hashed for a root. -/
def rootInputs (C : Crypto) (txs : List SignedTx) : Set (List U8) :=
  {strBytes "PWMv0/EMPTYTX"} ∪ {m | ∃ tx ∈ txs, m = tx.signingMessage} ∪
    {m | ∃ p ∈ joined (txNode C) (rootDepth txs) (txHashes C txs), m = txNodeBytes p.1 p.2}

/-- The row of the tree this many levels under its root. -/
def rowUnder (C : Crypto) (d : Nat) (txs : List SignedTx) : List Bytes32 :=
  row (txNode C) (rootDepth txs - d) (txHashes C txs)

/-- Two lists of different lengths with the same row at the height of the shallower tree's leaves,
once the repetitions of the odd rows above are written out. -/
structure Ambiguous (C : Crypto) (xs ys : List SignedTx) : Prop where
  left : xs ≠ []
  right : ys ≠ []
  lengths : xs.length ≠ ys.length
  alike : complete (min (rootDepth xs) (rootDepth ys)) Bytes32
      (rowUnder C (min (rootDepth xs) (rootDepth ys)) xs) =
    complete (min (rootDepth xs) (rootDepth ys)) Bytes32
      (rowUnder C (min (rootDepth xs) (rootDepth ys)) ys)

section Root

variable {C : Crypto} {xs ys txs : List SignedTx}

theorem txNodes_eq_pairs (leaves : List Bytes32) :
    txNodes C leaves = (pairs leaves).map fun p => txNode C p.1 p.2 := by
  induction leaves using pairs.induct with
  | case1 => rfl
  | case2 a => rfl
  | case3 a b rest ih =>
      rw [txNodes, pairs, List.map_cons, ih]
      rfl

/-- The loop builds as many rows as the list needs. -/
theorem merkleLoop_eq_row (fuel : Nat) {leaves : List Bytes32} (hfuel : leaves.length ≤ fuel) :
    merkleLoop C fuel leaves = row (txNode C) (Nat.clog 2 leaves.length) leaves := by
  induction fuel generalizing leaves with
  | zero =>
      have hnil : leaves = [] := List.length_eq_zero_iff.mp (Nat.le_zero.mp hfuel)
      subst hnil
      simp [merkleLoop, row]
  | succ fuel ih =>
      rw [merkleLoop]
      by_cases hlen : 1 < leaves.length
      · have hnodes := length_txNodes C leaves
        have hclog := Nat.clog_of_two_le (b := 2) (n := leaves.length) (by omega) hlen
        rw [if_pos hlen, ih (by omega), hnodes, hclog, row, ← txNodes_eq_pairs]
        rfl
      · rw [if_neg hlen, Nat.clog_of_right_le_one (by omega), row]

theorem length_txHashes : (txHashes C txs).length = txs.length := by
  rw [txHashes, List.length_map]

/-- The root of some transactions is the single entry of the top row. -/
theorem txsRoot_eq_row (hne : txs ≠ []) :
    row (txNode C) (rootDepth txs) (txHashes C txs) = [txsRoot C txs] := by
  have hleaves : txHashes C txs ≠ [] := by
    rw [txHashes]
    simpa using hne
  have hone := length_row (txNode C) hleaves rfl
  rw [length_txHashes] at hone
  obtain ⟨r, hr⟩ := List.length_eq_one_iff.mp hone
  have hroot : txsRoot C txs = r := by
    simp only [txsRoot]
    rw [← txHashes, if_neg hleaves, merkleLoop_eq_row _ le_rfl, length_txHashes, hr]
    rfl
  rw [hroot]
  exact hr

theorem txNodeBytes_injective {p q : Bytes32 × Bytes32}
    (h : txNodeBytes p.1 p.2 = txNodeBytes q.1 q.2) : p = q := by
  have hlen : (strBytes "PWMv0/TXNODE" ++ p.1.beBytes 32).length =
      (strBytes "PWMv0/TXNODE" ++ q.1.beBytes 32).length := by
    simp
  obtain ⟨hleft, hright⟩ := List.append_inj h hlen
  exact Prod.ext (beBytes_injective 32 (List.append_cancel_left hleft)) (beBytes_injective 32 hright)

/-- The nodes of a tree tell their pairs apart. -/
theorem txNode_injOn {s : Set (Bytes32 × Bytes32)} {inputs : Set (List U8)}
    (hfree : C.CollisionFree inputs) (hs : ∀ p ∈ s, txNodeBytes p.1 p.2 ∈ inputs) :
    Set.InjOn (fun p : Bytes32 × Bytes32 => txNode C p.1 p.2) s := by
  intro p hp q hq h
  exact txNodeBytes_injective (hfree (hs p hp) (hs q hq) h)

/-- Two roots are the same exactly when the trees agree down to the leaves of the shallower one. -/
theorem txsRoot_eq_iff (hxs : xs ≠ []) (hys : ys ≠ [])
    (hfree : C.CollisionFree (rootInputs C xs ∪ rootInputs C ys)) {d : Nat}
    (hdx : d ≤ rootDepth xs) (hdy : d ≤ rootDepth ys) :
    txsRoot C xs = txsRoot C ys ↔
      complete d Bytes32 (rowUnder C d xs) = complete d Bytes32 (rowUnder C d ys) := by
  have htop : ∀ {txs : List SignedTx}, txs ≠ [] → d ≤ rootDepth txs →
      row (txNode C) d (rowUnder C d txs) = [txsRoot C txs] := by
    intro txs hne hd
    rw [rowUnder, ← row_add, Nat.sub_add_cancel hd, txsRoot_eq_row hne]
  have hjoined : ∀ {txs : List SignedTx}, d ≤ rootDepth txs →
      ∀ p ∈ joined (txNode C) d (rowUnder C d txs), txNodeBytes p.1 p.2 ∈ rootInputs C txs := by
    intro txs hd p hp
    have hsub := joined_row_subset (txNode C) (rootDepth txs - d) d (txHashes C txs)
    rw [Nat.sub_add_cancel hd] at hsub
    exact .inr ⟨p, hsub hp, rfl⟩
  rw [← List.singleton_inj, ← htop hxs hdx, ← htop hys hdy]
  refine row_eq_iff d (txNode_injOn hfree ?_)
  rintro p (hp | hp)
  · exact .inl (hjoined hdx p hp)
  · exact .inr (hjoined hdy p hp)

theorem length_signingMessage (tx : SignedTx) : 54 ≤ tx.signingMessage.length := by
  have htag : (strBytes "PWMv0/TX").length = 8 := by decide
  simp only [SignedTx.signingMessage, List.length_append, length_leBytes, length_beBytes, htag]
  omega

/-- The root of some transactions is the hash of a message or of a node. -/
theorem txsRoot_input (hne : txs ≠ []) :
    ∃ m ∈ rootInputs C txs, txsRoot C txs = C.blake3 m ∧ 54 ≤ m.length := by
  have hrow := txsRoot_eq_row (C := C) hne
  have hmem : txsRoot C txs ∈ row (txNode C) (rootDepth txs) (txHashes C txs) := by
    rw [hrow]
    exact List.mem_singleton.mpr rfl
  cases hdepth : rootDepth txs with
  | zero =>
      rw [hdepth, row] at hmem
      obtain ⟨tx, htx, hhash⟩ := List.mem_map.mp hmem
      exact ⟨tx.signingMessage, .inl (.inr ⟨tx, htx, rfl⟩), hhash.symm, length_signingMessage tx⟩
  | succ k =>
      rw [hdepth] at hmem
      obtain ⟨p, hp, hnode⟩ := mem_row_succ hmem
      refine ⟨txNodeBytes p.1 p.2, .inr ⟨p, hdepth ▸ hp, rfl⟩, hnode, ?_⟩
      simp only [txNodeBytes, List.length_append, length_beBytes]
      omega

/-- No list of transactions has the root of the empty one. -/
theorem txsRoot_ne_empty (hne : txs ≠ []) (hfree : C.CollisionFree (rootInputs C txs)) :
    txsRoot C txs ≠ txsRoot C [] := by
  obtain ⟨m, hm, hroot, hlen⟩ := txsRoot_input (C := C) hne
  intro h
  have hempty : txsRoot C [] = C.blake3 (strBytes "PWMv0/EMPTYTX") := rfl
  rw [hroot, hempty] at h
  have heq := hfree hm (.inl (.inl rfl)) h
  rw [heq] at hlen
  revert hlen
  decide

/-- Lists of one length with alike trees have the same hashes. -/
theorem txHashes_eq_of_length (hlen : xs.length = ys.length)
    (halike : complete (min (rootDepth xs) (rootDepth ys)) Bytes32
        (rowUnder C (min (rootDepth xs) (rootDepth ys)) xs) =
      complete (min (rootDepth xs) (rootDepth ys)) Bytes32
        (rowUnder C (min (rootDepth xs) (rootDepth ys)) ys)) :
    txHashes C xs = txHashes C ys := by
  have hdepth : rootDepth xs = rootDepth ys := by
    rw [rootDepth, rootDepth, hlen]
  rw [hdepth, Nat.min_self, rowUnder, rowUnder, hdepth, Nat.sub_self, row, row] at halike
  refine complete_injective ?_ halike
  rw [length_txHashes, length_txHashes, hlen]

theorem Ambiguous.txHashes_ne (h : Ambiguous C xs ys) : txHashes C xs ≠ txHashes C ys := by
  intro hsame
  have hlen := congrArg List.length hsame
  rw [length_txHashes, length_txHashes] at hlen
  exact h.lengths hlen

/-- Repeating the last of an odd number of transactions adds no level, and no pair. -/
theorem rootDepth_repeat (tx : SignedTx) (hne : txs ≠ []) (heven : txs.length % 2 = 0) :
    rootDepth (txs ++ [tx, tx]) = rootDepth (txs ++ [tx]) ∧ 0 < rootDepth (txs ++ [tx]) := by
  have hpos := List.length_pos_of_ne_nil hne
  have hhalf : (txs.length + 2 + 1) / 2 = (txs.length + 1 + 1) / 2 := by
    omega
  simp only [rootDepth, List.length_append, List.length_cons, List.length_nil, Nat.zero_add]
  constructor
  · calc Nat.clog 2 (txs.length + 2) = Nat.clog 2 ((txs.length + 2 + 1) / 2) + 1 :=
          Nat.clog_of_two_le (by omega) (by omega)
      _ = Nat.clog 2 ((txs.length + 1 + 1) / 2) + 1 := by rw [hhalf]
      _ = Nat.clog 2 (txs.length + 1) := (Nat.clog_of_two_le (by omega) (by omega)).symm
  · exact Nat.clog_pos (by omega) (by omega)

theorem pairs_txHashes_repeat (C : Crypto) (tx : SignedTx) (heven : txs.length % 2 = 0) :
    pairs (txHashes C (txs ++ [tx, tx])) = pairs (txHashes C (txs ++ [tx])) := by
  simp only [txHashes, List.map_append, List.map_cons, List.map_nil]
  exact pairs_repeat (by rw [List.length_map, heven])

/-- Whatever the hash, an odd number of transactions has the root of the list that repeats the
last. -/
theorem txsRoot_repeat_eq (C : Crypto) (tx : SignedTx) (hne : txs ≠ [])
    (heven : txs.length % 2 = 0) : txsRoot C (txs ++ [tx, tx]) = txsRoot C (txs ++ [tx]) := by
  obtain ⟨hdepth, hdeep⟩ := rootDepth_repeat tx hne heven
  obtain ⟨k, hk⟩ := Nat.exists_eq_succ_of_ne_zero hdeep.ne'
  rw [← List.singleton_inj, ← txsRoot_eq_row (by simp), ← txsRoot_eq_row (by simp), hdepth, hk, row,
    row, pairs_txHashes_repeat C tx heven]

/-- A list of odd length is ambiguous with the list that repeats its last transaction. -/
theorem ambiguous_repeat (C : Crypto) (tx : SignedTx) (hne : txs ≠ [])
    (heven : txs.length % 2 = 0) : Ambiguous C (txs ++ [tx]) (txs ++ [tx, tx]) := by
  obtain ⟨hdepth, hdeep⟩ := rootDepth_repeat tx hne heven
  obtain ⟨k, hk⟩ := Nat.exists_eq_succ_of_ne_zero hdeep.ne'
  refine ⟨by simp, by simp, by simp, ?_⟩
  rw [hdepth, Nat.min_self, rowUnder, rowUnder, hdepth, Nat.sub_self, row, row, hk, complete,
    complete, pairs_txHashes_repeat C tx heven]

/-- Without collisions among what is hashed for them, equal roots give equal hashes exactly for the
lists that are not ambiguous. -/
theorem txsRoot_binds_iff (hfree : C.CollisionFree (rootInputs C xs ∪ rootInputs C ys)) :
    (txsRoot C xs = txsRoot C ys → txHashes C xs = txHashes C ys) ↔ ¬ Ambiguous C xs ys := by
  by_cases hxs : xs = []
  · subst hxs
    refine ⟨fun _ h => h.left rfl, fun _ hroot => ?_⟩
    by_cases hys : ys = []
    · rw [hys]
    · have hne := txsRoot_ne_empty hys (hfree.mono Set.subset_union_right)
      exact absurd hroot.symm hne
  · by_cases hys : ys = []
    · subst hys
      refine ⟨fun _ h => h.right rfl, fun _ hroot => ?_⟩
      have hne := txsRoot_ne_empty hxs (hfree.mono Set.subset_union_left)
      exact absurd hroot hne
    · have hiff := txsRoot_eq_iff hxs hys hfree (Nat.min_le_left _ _) (Nat.min_le_right _ _)
      constructor
      · intro hbinds hambiguous
        exact hambiguous.txHashes_ne (hbinds (hiff.mpr hambiguous.alike))
      · intro hclear hroot
        by_cases hlen : xs.length = ys.length
        · exact txHashes_eq_of_length hlen (hiff.mp hroot)
        · exact absurd ⟨hxs, hys, hlen, hiff.mp hroot⟩ hclear

end Root

/-! ## A repeated last transaction -/

namespace RepeatedTx

def three : List SignedTx :=
  [SelfDrain.initTx, SelfDrain.transferTx, SelfDrain.activateTx]

def four : List SignedTx :=
  [SelfDrain.initTx, SelfDrain.transferTx, SelfDrain.activateTx, SelfDrain.activateTx]

/-- A hash that tells the first two transactions apart. -/
def tellApart : Crypto :=
  .ofTables
    [(strBytes "PWMv0/EMPTYTX", 1#256), (SelfDrain.initTx.signingMessage, 2#256),
      (SelfDrain.transferTx.signingMessage, 3#256)] []

end RepeatedTx

/-- Three transactions have the root of the four that repeat the last, whatever the hash. -/
theorem txsRoot_repeats_last :
    (∀ tx ∈ RepeatedTx.four, validateTxShape SelfDrain.crypto tx = .ok ()) ∧
      ∀ C, txsRoot C RepeatedTx.three = txsRoot C RepeatedTx.four ∧
        txHashes C RepeatedTx.three ≠ txHashes C RepeatedTx.four ∧
        Ambiguous C RepeatedTx.three RepeatedTx.four := by
  refine ⟨by decide +kernel, fun C => ?_⟩
  have hambiguous : Ambiguous C RepeatedTx.three RepeatedTx.four :=
    @ambiguous_repeat [SelfDrain.initTx, SelfDrain.transferTx] C SelfDrain.activateTx (by simp) rfl
  refine ⟨?_, hambiguous.txHashes_ne, hambiguous⟩
  exact (@txsRoot_repeat_eq [SelfDrain.initTx, SelfDrain.transferTx] C SelfDrain.activateTx
    (by simp) rfl).symm

theorem rootInputs_single (C : Crypto) (tx : SignedTx) :
    rootInputs C [tx] ⊆ {strBytes "PWMv0/EMPTYTX", tx.signingMessage} := by
  have hdepth : rootDepth [tx] = 0 := Nat.clog_of_right_le_one le_rfl 2
  rintro m ((hempty | ⟨other, hother, rfl⟩) | ⟨p, hp, -⟩)
  · exact .inl hempty
  · rw [List.mem_singleton.mp hother]
    exact .inr rfl
  · rw [hdepth, joined] at hp
    exact absurd hp (Set.notMem_empty p)

/-- Two blocks of one transaction each are told apart. -/
theorem txsRoot_binds_single :
    txHashes RepeatedTx.tellApart [SelfDrain.initTx] ≠
        txHashes RepeatedTx.tellApart [SelfDrain.transferTx] ∧
      txsRoot RepeatedTx.tellApart [SelfDrain.initTx] ≠
        txsRoot RepeatedTx.tellApart [SelfDrain.transferTx] := by
  have hempty : RepeatedTx.tellApart.blake3 (strBytes "PWMv0/EMPTYTX") = 1#256 := by
    decide
  have hinit : RepeatedTx.tellApart.blake3 SelfDrain.initTx.signingMessage = 2#256 := by
    set_option maxRecDepth 8192 in
    decide
  have htransfer : RepeatedTx.tellApart.blake3 SelfDrain.transferTx.signingMessage = 3#256 := by
    decide
  have hfree : RepeatedTx.tellApart.CollisionFree
      (rootInputs RepeatedTx.tellApart [SelfDrain.initTx] ∪
        rootInputs RepeatedTx.tellApart [SelfDrain.transferTx]) := by
    intro m hm m' hm' hhash
    have hmem : ∀ m ∈ rootInputs RepeatedTx.tellApart [SelfDrain.initTx] ∪
        rootInputs RepeatedTx.tellApart [SelfDrain.transferTx],
        m = strBytes "PWMv0/EMPTYTX" ∨ m = SelfDrain.initTx.signingMessage ∨
          m = SelfDrain.transferTx.signingMessage := by
      rintro m (h | h)
      · rcases rootInputs_single _ _ h with h | h
        · exact .inl h
        · exact .inr (.inl h)
      · rcases rootInputs_single _ _ h with h | h
        · exact .inl h
        · exact .inr (.inr h)
    rcases hmem m hm with rfl | rfl | rfl <;> rcases hmem m' hm' with rfl | rfl | rfl <;>
      first | rfl | (simp only [hempty, hinit, htransfer] at hhash; revert hhash; decide)
  have hdiffer : txHashes RepeatedTx.tellApart [SelfDrain.initTx] ≠
      txHashes RepeatedTx.tellApart [SelfDrain.transferTx] := by
    simp only [txHashes, List.map_cons, List.map_nil, SignedTx.txHash, hinit, htransfer]
    decide
  refine ⟨hdiffer, fun hroot => hdiffer ?_⟩
  exact (txsRoot_binds_iff hfree).mpr (fun h => h.lengths rfl) hroot

end Pwm
