import Pwm.Node.SealQueue

/-!
# What a seal attempt loses

A transaction that an attempt takes from the queues ends in the sealed block or
in the pool, unless it fails on the ledger that the kept transactions before it
lead to. The conditions are those under which the queues, the duplicate filter
and the eviction drop nothing else.
-/

namespace Pwm

open BitVec Attempt

/-! ## Kept transactions -/

/-- Whether a transaction is in the block that an attempt sealed or in the pool after it. -/
def SealLoop.keeps (loop loop' : SealLoop) (tx : SignedTx) : Bool :=
  decide (tx ∈ loop'.pool.q) ||
    (decide (loop'.chain.tipH ≠ loop.chain.tipH) &&
      (loop'.chain.blocks.getLast?).any fun blk => decide (tx ∈ blk.txs))

/-- The ledger after those of a list of transactions that apply. -/
def ledgerAfter (C : Crypto) (genCfg : GenCfg) (height ts : U64) : List SignedTx → State → State
  | [], st => st
  | tx :: rest, st =>
      match applyTxWithCtx C genCfg tx height ts st with
      | .ok _ st' => ledgerAfter C genCfg height ts rest st'
      | .error _ _ => ledgerAfter C genCfg height ts rest st

/-- A transaction does not apply at the next height after these ones. -/
def FailsAfter (C : Crypto) (now : U64) (ch : Chain) (txs : List SignedTx) (tx : SignedTx) : Prop :=
  ∀ height ts, ch.nextApplyCtx now = .ok (height, ts) → ∀ st',
    applyTxWithCtx C ch.cfg tx height ts
      (ledgerAfter C ch.cfg height ts txs (ch.beforeTxs height)) ≠ .ok () st'

/-- Of what came in and what was drawn, everything is kept that applies after the kept
transactions drawn before it, each counted once. -/
def NothingLost (C : Crypto) (now : U64) (loop loop' : SealLoop) (incoming : List SignedTx)
    (drawn : List SealEntry) : Prop :=
  (∀ tx ∈ incoming, loop.keeps loop' tx = true ∨ ∃ entry ∈ drawn, entry.tx = tx) ∧
    ∀ pre entry post, drawn = pre ++ entry :: post → loop.keeps loop' entry.tx = true ∨
      FailsAfter C now loop.chain
        (((dedupSealEntries C pre).map SealEntry.tx).filter (loop.keeps loop')) entry.tx

section Keeps

variable {C : Crypto} {now : U64} {loop loop' : SealLoop} {tx : SignedTx}

theorem keeps_of_pool (h : tx ∈ loop'.pool.q) : loop.keeps loop' tx = true := by
  rw [SealLoop.keeps, decide_eq_true h, Bool.true_or]

theorem keeps_of_block {blk : Block} (htip : loop'.chain.tipH ≠ loop.chain.tipH)
    (hlast : loop'.chain.blocks.getLast? = some blk) (h : tx ∈ blk.txs) :
    loop.keeps loop' tx = true := by
  rw [SealLoop.keeps, hlast, Option.any_some, decide_eq_true h, decide_eq_true htip, Bool.and_true,
    Bool.or_true]

end Keeps

/-! ## The ledger after a list -/

section Ledger

variable {C : Crypto} {genCfg : GenCfg} {height ts : U64} {tx : SignedTx} {txs : List SignedTx}
  {st st' : State}

theorem ledgerAfter_of_forM
    (h : (txs.forM fun tx => applyTxWithCtx C genCfg tx height ts) st = .ok () st') :
    ledgerAfter C genCfg height ts txs st = st' := by
  induction txs generalizing st with
  | nil =>
      obtain ⟨_, rfl⟩ := pure_ok_iff.mp h
      rfl
  | cons tx rest ih =>
      obtain ⟨_, s₁, htx, hrest⟩ := bind_ok_iff.mp h
      simp only at htx
      simp only [ledgerAfter, htx]
      exact ih hrest

/-- Nonces never decrease. -/
theorem ledgerAfter_nonceOf_le (id : AccountId) :
    st.nonceOf id ≤ (ledgerAfter C genCfg height ts txs st).nonceOf id := by
  induction txs generalizing st with
  | nil => exact Nat.le_refl _
  | cons tx rest ih =>
      rw [ledgerAfter]
      cases h : applyTxWithCtx C genCfg tx height ts st with
      | ok u s₁ =>
          have hstep : LedgerStep C genCfg st (.applied tx) s₁ := .applied h
          exact (step_nonceOf_le hstep id).trans ih
      | error f s₁ => exact ih

end Ledger

theorem beforeTxs_nonceOf (ch : Chain) (height : U64) (id : AccountId) :
    (ch.beforeTxs height).nonceOf id = (ch.nonceAt id).toNat := by
  have hroll : (rollEpochIfNeeded ch.cfg ch.st height).accounts = ch.st.accounts := by
    unfold rollEpochIfNeeded
    split <;> rfl
  unfold Chain.beforeTxs
  rw [refundExpLocks_nonceOf, nonceOf_congr hroll, Chain.nonceAt]
  cases hrow : ch.st.accounts[id]? with
  | none => simp [State.nonceOf, MapSum.valueAt, hrow]
  | some a => exact nonceOf_of_row hrow

/-- A transaction below the nonce of its account on the chain does not apply any more. -/
theorem failsAfter_of_stale {C : Crypto} {now : U64} {ch : Chain} {txs : List SignedTx}
    {tx : SignedTx} (h : tx.nonce.toNat < (ch.nonceAt (tx.computedAccountId C)).toNat) :
    FailsAfter C now ch txs tx := by
  intro height ts _ st' hok
  obtain ⟨hnonce, _⟩ := applyTxImpl_nonces hok
  have hraised := @ledgerAfter_nonceOf_le C ch.cfg height ts txs (ch.beforeTxs height)
    (tx.computedAccountId C)
  rw [beforeTxs_nonceOf] at hraised
  omega

/-! ## The duplicate filter -/

section Dedup

variable {C : Crypto} {seen : List Bytes32} {entries pre post : List SealEntry} {entry : SealEntry}

theorem dedupFrom_sublist : (dedupFrom C seen entries).Sublist entries := by
  induction entries generalizing seen with
  | nil => exact .slnil
  | cons entry rest ih =>
      rw [dedupFrom]
      split
      · exact ih.cons entry
      · exact ih.cons_cons entry

/-- Of each hash that was not seen before an entry is left. -/
theorem exists_mem_dedupFrom (h : entry ∈ entries) (hnew : sealEntryHash C entry ∉ seen) :
    ∃ first ∈ dedupFrom C seen entries, sealEntryHash C first = sealEntryHash C entry := by
  induction entries generalizing seen with
  | nil => cases h
  | cons head rest ih =>
      rw [dedupFrom]
      by_cases hhead : sealEntryHash C head = sealEntryHash C entry
      · rw [if_neg (hhead ▸ hnew)]
        exact ⟨head, List.mem_cons_self, hhead⟩
      · have hrest : entry ∈ rest := by
          rcases List.mem_cons.mp h with rfl | hmem
          · exact absurd rfl hhead
          · exact hmem
        split
        · exact ih hrest hnew
        · have hnew' : sealEntryHash C entry ∉ sealEntryHash C head :: seen := by
            rw [List.mem_cons]
            rintro (heq | hmem)
            · exact hhead heq.symm
            · exact hnew hmem
          obtain ⟨first, hfirst, heq⟩ := ih hrest hnew'
          exact ⟨first, List.mem_cons_of_mem _ hfirst, heq⟩

theorem dedupFrom_hash_notMem (h : entry ∈ dedupFrom C seen entries) :
    sealEntryHash C entry ∉ seen := by
  induction entries generalizing seen with
  | nil => cases h
  | cons head rest ih =>
      rw [dedupFrom] at h
      split at h
      · exact ih h
      · rename_i hnew
        rcases List.mem_cons.mp h with rfl | hmem
        · exact hnew
        · exact fun hseen => ih hmem (List.mem_cons_of_mem _ hseen)

theorem dedupFrom_nodup : ((dedupFrom C seen entries).map (sealEntryHash C)).Nodup := by
  induction entries generalizing seen with
  | nil => exact .nil
  | cons head rest ih =>
      rw [dedupFrom]
      split
      · exact ih
      · rw [List.map_cons, List.nodup_cons]
        refine ⟨fun hmem => ?_, ih⟩
        obtain ⟨entry, hentry, heq⟩ := List.mem_map.mp hmem
        exact dedupFrom_hash_notMem hentry (heq ▸ List.mem_cons_self)

/-- What is left before the first entry of its hash. -/
theorem dedupFrom_split (hnew : sealEntryHash C entry ∉ seen)
    (hfirst : ∀ other ∈ pre, sealEntryHash C other ≠ sealEntryHash C entry) :
    ∃ rest, dedupFrom C seen (pre ++ entry :: post) = dedupFrom C seen pre ++ entry :: rest := by
  induction pre generalizing seen with
  | nil =>
      refine ⟨dedupFrom C (sealEntryHash C entry :: seen) post, ?_⟩
      simp only [List.nil_append, dedupFrom, if_neg hnew]
  | cons head pre ih =>
      have hhead := hfirst head List.mem_cons_self
      have hrest := fun other hother => hfirst other (List.mem_cons_of_mem _ hother)
      rw [List.cons_append, dedupFrom, dedupFrom]
      split
      · exact ih hnew hrest
      · have hnew' : sealEntryHash C entry ∉ sealEntryHash C head :: seen := by
          rw [List.mem_cons]
          rintro (heq | hmem)
          · exact hhead heq.symm
          · exact hnew hmem
        obtain ⟨rest, heq⟩ := ih hnew' hrest
        exact ⟨rest, by rw [heq, List.cons_append]⟩

theorem skipEvictedEntries_fresh {evicted : List Bytes32}
    (h : ∀ entry ∈ entries, sealEntryHash C entry ∉ evicted) :
    skipEvictedEntries C evicted entries = entries :=
  List.filter_eq_self.mpr fun entry hentry => decide_eq_true (h entry hentry)

end Dedup

/-! ## The queues -/

section Queues

variable {C : Crypto} {loop : SealLoop} {ingressFree validatedFree : Bool}

/-- Into a pool with room everything is pushed. -/
theorem drainIngress_q {pool : Mpool} {ingress : List SignedTx}
    (hroom : ingress = [] ∨ pool.q.length + ingress.length ≤ pool.cap) :
    (pool.drainIngress ingress).q = pool.q ++ ingress := by
  induction ingress generalizing pool with
  | nil => exact (List.append_nil _).symm
  | cons tx rest ih =>
      have hlen : pool.q.length + (rest.length + 1) ≤ pool.cap :=
        hroom.resolve_left (List.cons_ne_nil _ _)
      have hpush : pool.push tx = .ok { pool with q := pool.q ++ [tx] } := by
        rw [Mpool.push, if_neg (by omega)]
      have hrest : rest = [] ∨
          ({ pool with q := pool.q ++ [tx] } : Mpool).q.length + rest.length ≤ pool.cap := by
        refine .inr ?_
        simp only [List.length_append, List.length_singleton]
        omega
      have hstep : pool.drainIngress (tx :: rest) =
          ({ pool with q := pool.q ++ [tx] } : Mpool).drainIngress rest := by
        simp only [Mpool.drainIngress, List.foldl_cons, hpush]
      rw [hstep, ih hrest]
      simp

/-- What came in is drawn, or is in the pool still. -/
theorem draw_incoming {tx : SignedTx}
    (hroom : loop.ingress = [] ∨ loop.pool.q.length + loop.ingress.length ≤ loop.pool.cap)
    (h : tx ∈ loop.ingress) :
    tx ∈ (loop.draw true validatedFree).2.pool.q ∨
      ∃ entry ∈ (loop.draw true validatedFree).1, entry.tx = tx := by
  have hq : tx ∈ (loop.pool.drainIngress loop.ingress).q := by
    rw [drainIngress_q hroom]
    exact List.mem_append_right _ h
  simp only [SealLoop.draw, Mpool.take, if_true]
  generalize blockCap - _ = n
  rw [← List.take_append_drop n (loop.pool.drainIngress loop.ingress).q] at hq
  rcases List.mem_append.mp hq with htaken | hleft
  · exact .inr ⟨.raw tx, List.mem_append_right _ (List.mem_map_of_mem htaken), rfl⟩
  · exact .inl hleft

end Queues

/-! ## When nothing is lost -/

/-- The conditions under which an attempt of the loop drops only what does not apply. -/
structure LossFree (C : Crypto) (now : U64) (loop : SealLoop) (ingressFree validatedFree : Bool) :
    Prop where
  /-- The pool has room for what came in. -/
  room : ingressFree = true →
    loop.ingress = [] ∨ loop.pool.q.length + loop.ingress.length ≤ loop.pool.cap
  /-- Nothing drawn was evicted at this tip. -/
  fresh : ∀ entry ∈ (loop.draw ingressFree validatedFree).1,
    sealEntryHash C entry ∉ loop.evictedNow
  /-- Drawn transactions with one hash are one transaction. -/
  apart : ∀ a ∈ (loop.draw ingressFree validatedFree).1,
    ∀ b ∈ (loop.draw ingressFree validatedFree).1, sealEntryHash C a = sealEntryHash C b →
      a.tx = b.tx
  /-- A batch that fails fails in the dry run as well. -/
  plain : ∀ i e, SealFailsAt C now loop.chain (loop.entries C ingressFree validatedFree) i e →
    PlainBatch C now loop.chain (loop.entries C ingressFree validatedFree)
  /-- The transaction that fails was drawn once. -/
  once : ∀ i e bad, SealFailsAt C now loop.chain (loop.entries C ingressFree validatedFree) i e →
    ((loop.entries C ingressFree validatedFree).map SealEntry.tx)[i]? = some bad →
    (((loop.draw ingressFree validatedFree).1).map SealEntry.tx).count bad = 1
  /-- No later transaction of its sender carries the nonce of the account on the chain. -/
  followers : ∀ i e bad,
    SealFailsAt C now loop.chain (loop.entries C ingressFree validatedFree) i e →
    ((loop.entries C ingressFree validatedFree).map SealEntry.tx)[i]? = some bad →
    ∀ tx ∈ ((loop.entries C ingressFree validatedFree).map SealEntry.tx).drop (i + 1),
      tx.computedAccountId C = bad.computedAccountId C →
      tx.nonce ≠ loop.chain.nonceAt (bad.computedAccountId C)

section Attempts

variable {C : Crypto} {now later : U64} {loop loop' : SealLoop} {ingressFree validatedFree : Bool}

theorem LossFree.entries (h : LossFree C now loop ingressFree validatedFree) :
    loop.entries C ingressFree validatedFree =
      dedupSealEntries C (loop.draw ingressFree validatedFree).1 := by
  rw [SealLoop.entries, skipEvictedEntries_fresh h.fresh]

/-- Every drawn transaction is in the batch. -/
theorem LossFree.mem_batch (h : LossFree C now loop ingressFree validatedFree) {entry : SealEntry}
    (hentry : entry ∈ (loop.draw ingressFree validatedFree).1) :
    entry.tx ∈ (loop.entries C ingressFree validatedFree).map SealEntry.tx := by
  obtain ⟨first, hfirst, hhash⟩ := exists_mem_dedupFrom hentry List.not_mem_nil
  have hdrawn := dedupFrom_sublist.subset hfirst
  rw [h.entries, ← h.apart first hdrawn entry hentry hhash]
  exact List.mem_map_of_mem hfirst

/-- What came in is kept, if what stays in the pool is. -/
theorem LossFree.incoming (h : LossFree C now loop ingressFree validatedFree)
    (hpool : ∀ tx ∈ (loop.draw ingressFree validatedFree).2.pool.q, tx ∈ loop'.pool.q) :
    ∀ tx ∈ if ingressFree then loop.ingress else [], loop.keeps loop' tx = true ∨
      ∃ entry ∈ (loop.draw ingressFree validatedFree).1, entry.tx = tx := by
  intro tx htx
  cases ingressFree with
  | false => cases htx
  | true =>
      rcases @draw_incoming loop validatedFree tx (h.room rfl) htx with hleft | hdrawn
      · exact .inl (keeps_of_pool (hpool tx hleft))
      · exact .inr hdrawn

/-- The block of a seal that succeeds has the transactions of all its entries. -/
theorem keeps_of_sealed {entries : List SealEntry} {tx : SignedTx}
    (hseal : sealEntries C now loop.chain entries = .ok loop'.chain)
    (htx : tx ∈ entries.map SealEntry.tx) : loop.keeps loop' tx = true := by
  have htip : loop'.chain.tipH ≠ loop.chain.tipH := by
    have hnext := sealEntries_tipH hseal
    intro heq
    rw [heq] at hnext
    omega
  obtain ⟨height, ts, prodIdx, sk, st, st', _, _, _, _, _, happend⟩ := sealEntries_ok hseal
  have hlast := Chain.append_getLast? loop.chain (sealedBlock C loop.chain height ts prodIdx sk
    (entries.map SealEntry.tx) st') st'
  rw [← happend] at hlast
  exact keeps_of_block htip hlast htx

/-- After a seal that succeeds everything drawn is in the block. -/
theorem nothingLost_sealed {ch' : Chain} (h : LossFree C now loop ingressFree validatedFree)
    (hseal : sealEntries C now loop.chain (loop.entries C ingressFree validatedFree) = .ok ch')
    (hchain : loop'.chain = ch')
    (hpool : loop'.pool = (loop.draw ingressFree validatedFree).2.pool) :
    NothingLost C now loop loop' (if ingressFree then loop.ingress else [])
      (loop.draw ingressFree validatedFree).1 := by
  refine ⟨h.incoming fun tx htx => hpool ▸ htx, fun pre entry post hdrawn => .inl ?_⟩
  have hentry : entry ∈ (loop.draw ingressFree validatedFree).1 := by
    rw [hdrawn]
    exact List.mem_append_right _ List.mem_cons_self
  exact keeps_of_sealed (hchain ▸ hseal) (h.mem_batch hentry)

/-- An element of the batch is put back, or is the one evicted, or is stale. -/
theorem evictAt_cases {ch : Chain} {txs : List SignedTx} {i : Nat} {bad tx : SignedTx}
    (hbad : txs[i]? = some bad) (h : tx ∈ txs) :
    tx ∈ (ch.evictAt C txs i bad).1 ∨ tx = bad ∨
      ∃ stale ∈ ch.staleAfter C bad (txs.drop (i + 1)),
        stale.txHash C = tx.txHash C ∧ tx ∈ txs.drop (i + 1) := by
  obtain ⟨hlt, hget⟩ := List.getElem?_eq_some_iff.mp hbad
  have hsplit : txs = txs.take i ++ bad :: txs.drop (i + 1) := by
    rw [← hget, List.getElem_cons_drop hlt, List.take_append_drop]
  rw [hsplit] at h
  rcases List.mem_append.mp h with hbefore | hlater
  · exact .inl (List.mem_append_left _ hbefore)
  rcases List.mem_cons.mp hlater with rfl | hlater
  · exact .inr (.inl rfl)
  by_cases hstale : tx.txHash C ∈
      (ch.staleAfter C bad (txs.drop (i + 1))).map (SignedTx.txHash C)
  · obtain ⟨stale, hmem, hhash⟩ := List.mem_map.mp hstale
    exact .inr (.inr ⟨stale, hmem, hhash, hlater⟩)
  · exact .inl (List.mem_append_right _ (List.mem_filter.mpr ⟨hlater, decide_eq_true hstale⟩))

theorem LossFree.batch_nodup (h : LossFree C now loop ingressFree validatedFree) :
    ((loop.entries C ingressFree validatedFree).map SealEntry.tx).Nodup := by
  have hhashes : ((loop.entries C ingressFree validatedFree).map (sealEntryHash C)).Nodup := by
    rw [h.entries]
    exact dedupFrom_nodup
  refine List.Nodup.of_map (SignedTx.txHash C) ?_
  rw [List.map_map]
  exact hhashes

/-- The evicted transaction fails after the kept ones that were drawn before it. -/
theorem LossFree.failsAfter_bad (h : LossFree C now loop ingressFree validatedFree) {i : Nat}
    {e : TxError} {pre post : List SealEntry} {entry : SealEntry}
    (hfails : SealFailsAt C now loop.chain (loop.entries C ingressFree validatedFree) i e)
    (hbad : ((loop.entries C ingressFree validatedFree).map SealEntry.tx)[i]? = some entry.tx)
    (hkept : ∀ tx ∈ ((loop.entries C ingressFree validatedFree).map SealEntry.tx).take i,
      loop.keeps loop' tx = true)
    (hdrawn : (loop.draw ingressFree validatedFree).1 = pre ++ entry :: post) :
    FailsAfter C now loop.chain
      (((dedupSealEntries C pre).map SealEntry.tx).filter (loop.keeps loop')) entry.tx := by
  have hplain := h.plain i e hfails
  have honce := h.once i e entry.tx hfails hbad
  obtain ⟨height, ts, prodIdx, hctx, -, hstops⟩ := hfails
  obtain ⟨before, bad, after, s₁, s₂, hsplit, hlen, hrun, herr⟩ :=
    stopsAt_plain hplain.signed (hplain.passes height ts hctx) hstops
  obtain rfl : bad = entry.tx := by
    rw [hsplit, ← hlen, List.getElem?_append_right (Nat.le_refl _), Nat.sub_self] at hbad
    exact Option.some.inj hbad
  have hnotDrawn : entry.tx ∉ pre.map SealEntry.tx := by
    rw [hdrawn, List.map_append, List.map_cons, List.count_append, List.count_cons_self] at honce
    exact List.count_eq_zero.mp (by omega)
  have hfirst : ∀ other ∈ pre, sealEntryHash C other ≠ sealEntryHash C entry := by
    intro other hother hhash
    have hsame : other.tx = entry.tx := by
      refine h.apart other ?_ entry ?_ hhash
      · rw [hdrawn]
        exact List.mem_append_left _ hother
      · rw [hdrawn]
        exact List.mem_append_right _ List.mem_cons_self
    exact hnotDrawn (hsame ▸ List.mem_map_of_mem hother)
  have hpre : (dedupSealEntries C pre).map SealEntry.tx = before := by
    obtain ⟨rest, hrest⟩ := @dedupFrom_split C [] pre post entry List.not_mem_nil hfirst
    have hnodup := h.batch_nodup
    have hsame := hsplit
    rw [h.entries, hdrawn, dedupSealEntries, hrest, List.map_append, List.map_cons] at hsame
    rw [hsplit, List.nodup_append] at hnodup
    have hbefore : entry.tx ∉ before :=
      fun hmem => hnodup.2.2 _ hmem _ List.mem_cons_self rfl
    have hafter : entry.tx ∉ after := (List.nodup_cons.mp hnodup.2.1).1
    exact ((List.append_cons_inj_of_notMem hbefore hafter).mp hsame.symm).1.symm
  have hall : before.filter (loop.keeps loop') = before := by
    refine List.filter_eq_self.mpr fun tx htx => hkept tx ?_
    rw [hsplit, ← hlen, List.take_left']
    · exact htx
    · rfl
  rw [hpre, hall]
  intro height' ts' hctx' st' hok
  obtain ⟨rfl, rfl⟩ := Prod.mk.inj (Except.ok.inj (hctx.symm.trans hctx'))
  rw [ledgerAfter_of_forM hrun] at hok
  simp only [hok] at herr
  cases herr

/-- After a seal that fails everything drawn is back in the pool but what does not apply. -/
theorem nothingLost_requeued {msg : String} {txs replay : List SignedTx} {evicted : List Bytes32}
    (h : LossFree C now loop ingressFree validatedFree)
    (hseal : sealEntries C now loop.chain (loop.entries C ingressFree validatedFree) =
      .error (.abort msg txs))
    (hrequeue : loop.chain.requeue C later msg txs = .ok (replay, evicted))
    (hpool : loop'.pool.q = replay ++ (loop.draw ingressFree validatedFree).2.pool.q) :
    NothingLost C now loop loop' (if ingressFree then loop.ingress else [])
      (loop.draw ingressFree validatedFree).1 := by
  refine ⟨h.incoming fun tx htx => hpool ▸ List.mem_append_right _ htx,
    fun pre entry post hdrawn => ?_⟩
  have hdrew : entry ∈ (loop.draw ingressFree validatedFree).1 := by
    rw [hdrawn]
    exact List.mem_append_right _ List.mem_cons_self
  have hentry := h.mem_batch hdrew
  have hkeeps : ∀ tx ∈ replay, loop.keeps loop' tx = true := fun tx htx =>
    keeps_of_pool (hpool ▸ List.mem_append_left _ htx)
  obtain ⟨rfl, ⟨i, e, hfails, rfl⟩ | hother⟩ := sealEntries_abort hseal
  · obtain ⟨bad, hbad⟩ := hfails.exists_bad
    rw [requeue_of_failsAt (h.plain i e hfails) hfails hbad later] at hrequeue
    obtain rfl : (loop.chain.evictAt C _ i bad).1 = replay := by rw [Except.ok.inj hrequeue]
    rcases @evictAt_cases C loop.chain _ i bad _ hbad hentry with
      hback | rfl | ⟨stale, hmem, hhash, hlater⟩
    · exact .inl (hkeeps _ hback)
    · refine .inr (h.failsAfter_bad hfails hbad (fun tx htx => hkeeps tx ?_) hdrawn)
      exact List.mem_append_left _ htx
    · -- a stale transaction is below the nonce of its account
      obtain ⟨hstale, hcond⟩ := List.mem_filter.mp hmem
      obtain ⟨hsender, hle⟩ := of_decide_eq_true hcond
      obtain rfl : stale = entry.tx := by
        obtain ⟨other, hother, rfl⟩ := List.mem_map.mp (List.mem_of_mem_drop hstale)
        have hdrew' := h.entries ▸ hother
        exact h.apart other (dedupFrom_sublist.subset hdrew') entry hdrew hhash
      have hne := h.followers i e bad hfails hbad _ hstale hsender
      refine .inr (failsAfter_of_stale ?_)
      rw [hsender]
      have hle' := BitVec.le_def.mp hle
      have hne' : entry.tx.nonce.toNat ≠ (loop.chain.nonceAt (bad.computedAccountId C)).toNat :=
        fun heq => hne (BitVec.eq_of_toNat_eq heq)
      omega
  · rw [Chain.requeue, if_pos (by simp [hother])] at hrequeue
    obtain ⟨rfl, -⟩ := Prod.mk.inj (Except.ok.inj hrequeue)
    exact .inl (hkeeps _ hentry)

/-- An attempt of the loop loses nothing under these conditions, whether it seals or not; the
manual step loses nothing when its seal succeeds. -/
theorem seal_attempt_loses_nothing (C : Crypto) (now later : U64) (loop : SealLoop) :
    (∀ ingressFree validatedFree loop', LossFree C now loop ingressFree validatedFree →
      loop.sealOnce C now later ingressFree validatedFree = .ok loop' →
      NothingLost C now loop loop' (if ingressFree then loop.ingress else [])
        (loop.draw ingressFree validatedFree).1) ∧
      ∀ ch' loop', Chain.seal C now loop.chain (loop.pool.take blockCap).1 = .ok ch' →
        loop.stepSealCommit C now = .ok loop' →
        NothingLost C now loop loop' [] ((loop.pool.take blockCap).1.map SealEntry.raw) := by
  constructor
  · intro ingressFree validatedFree loop' hfree hattempt
    simp only [SealLoop.sealOnce] at hattempt
    cases hseal : sealEntries C now loop.chain (loop.entries C ingressFree validatedFree) with
    | ok ch' =>
        rw [hseal] at hattempt
        obtain rfl := Except.ok.inj hattempt
        exact nothingLost_sealed hfree hseal rfl rfl
    | error f =>
        rw [hseal] at hattempt
        cases f with
        | panic => cases hattempt
        | abort msg txs =>
            obtain ⟨⟨replay, evicted⟩, hrequeue, hend⟩ := except_bind_ok_iff.mp hattempt
            obtain rfl := Except.ok.inj hend
            exact nothingLost_requeued hfree hseal hrequeue rfl
  · intro ch' loop' hseal hattempt
    simp only [SealLoop.stepSealCommit, hseal] at hattempt
    obtain rfl := Except.ok.inj hattempt
    refine ⟨fun tx htx => absurd htx List.not_mem_nil, fun pre entry post hdrawn => .inl ?_⟩
    refine keeps_of_sealed hseal (List.mem_map_of_mem ?_)
    rw [hdrawn]
    exact List.mem_append_right _ List.mem_cons_self

end Attempts

namespace TwoQueues

open PolicyRace

/-- One transaction in the pool, one in the ingress queue. -/
def loop : SealLoop where
  chain := chain
  pool := { cap := 4096, q := [payTx] }
  ingress := [denyTx]

def entries : List SealEntry := [.raw payTx, .raw denyTx]

/-- The loop after an attempt of either kind. -/
def after (attempt : Except SealFault SealLoop) : SealLoop :=
  match attempt with
  | .ok loop' => loop'
  | .error _ => loop

theorem after_of_isOk {attempt : Except SealFault SealLoop} (h : attempt.isOk = true) :
    attempt = .ok (after attempt) := by
  cases attempt with
  | ok loop' => rfl
  | error e => cases h

theorem lossFree : LossFree crypto now loop true true := by
  have hdrawn : (loop.draw true true).1 = entries := by decide +kernel
  have hentries : loop.entries crypto true true = entries := by decide +kernel
  have hseals : ∀ i e, ¬ SealFailsAt crypto now chain entries i e := by
    intro i e hfails
    have hok := @seal_of_isOk entries (by decide +kernel)
    rw [sealEntries_of_failsAt hfails] at hok
    cases hok
  refine ⟨fun _ => .inr (by decide), by decide, ?_, ?_, ?_, ?_⟩
  · rw [hdrawn]
    decide +kernel
  · rw [hentries]
    exact fun i e hfails => absurd hfails (hseals i e)
  · rw [hentries]
    exact fun i e _ hfails => absurd hfails (hseals i e)
  · rw [hentries]
    exact fun i e _ hfails => absurd hfails (hseals i e)

end TwoQueues

/-- An attempt of the loop, and one of the manual step. -/
theorem seal_attempt_loses_nothing_twoQueues :
    NothingLost PolicyRace.crypto PolicyRace.now TwoQueues.loop
        (TwoQueues.after (TwoQueues.loop.sealOnce PolicyRace.crypto PolicyRace.now PolicyRace.now
          true true)) [PolicyRace.denyTx] (TwoQueues.loop.draw true true).1 ∧
      NothingLost PolicyRace.crypto PolicyRace.now TwoQueues.loop
        (TwoQueues.after (TwoQueues.loop.stepSealCommit PolicyRace.crypto PolicyRace.now)) []
        [.raw PolicyRace.payTx] := by
  obtain ⟨honce, hmanual⟩ := seal_attempt_loses_nothing PolicyRace.crypto PolicyRace.now
    PolicyRace.now TwoQueues.loop
  have hseal := @PolicyRace.seal_of_isOk [.raw PolicyRace.payTx] (by decide +kernel)
  exact ⟨honce true true _ TwoQueues.lossFree (TwoQueues.after_of_isOk (by decide +kernel)),
    hmanual _ _ hseal (TwoQueues.after_of_isOk (by decide +kernel))⟩

/-! ## A payment evicted with the one that was to follow it

The second payment of a sender arrived first. It fails, and the first one, which
carries the nonce of the account on the chain, is evicted with it as stale. -/

namespace OutOfOrder

open PolicyRace

/-- The payment after `payTx`. -/
def nextTx : SignedTx where
  domainCode := 0x32bc#16
  signerPk := devNetRow.pubkey
  derivationIndex := 0#32
  nonce := 1#64
  body := .transfer SelfDrain.rescuedId 10#128 1#128
  signature := 0xd68c75185809e88469d76e40ffe59516c60cceb2460e2daf1ed318b686c99698a1ae28c7725b461d7552022bce1f77b6040a7f74799d6c483a165e396581e104#512

def nextHash : Bytes32 :=
  0x73bf19478b935e76c4454c2411f3b01648a2d7766ed781f7ba1cd1102eb693f2#256

def crypto : Crypto :=
  .ofTables
    [(devNetRow.pubkey.beBytes 32 ++ (0#32).leBytes 4, devNetRow.acct),
      (payTx.signingMessage, payHash), (nextTx.signingMessage, nextHash)]
    [⟨devNetSk, devNetRow.pubkey, [(payTx.signingMessage, payTx.signature),
      (nextTx.signingMessage, nextTx.signature)]⟩]

def loop : SealLoop where
  chain := chain
  pool := { cap := 4096, q := [nextTx, payTx] }

/-- The loop after the attempt. -/
def after : SealLoop :=
  { loop with pool := { cap := 4096 }, evictedHashes := [nextHash, payHash], evictedTip := 0#64 }

/-- The ledger after the payment, had it been tried. -/
def afterPay : State :=
  endState (applyTxWithCtx crypto net payTx 1#64 now (chain.beforeTxs 1#64))

end OutOfOrder

/-- The payment that applies is neither sealed nor back in the pool. -/
theorem outOfOrder_lost :
    Chain.boot PolicyRace.net [devNetSk] = some OutOfOrder.loop.chain ∧
      OutOfOrder.loop.sealOnce OutOfOrder.crypto PolicyRace.now PolicyRace.now true true =
        .ok OutOfOrder.after ∧
      ¬ NothingLost OutOfOrder.crypto PolicyRace.now OutOfOrder.loop OutOfOrder.after []
        (OutOfOrder.loop.draw true true).1 := by
  refine ⟨by decide, by decide +kernel, fun hnothing => ?_⟩
  rcases hnothing.2 [.raw OutOfOrder.nextTx] (.raw PolicyRace.payTx) [] (by decide +kernel) with
    hkept | hfails
  · exact absurd hkept (by decide)
  · exact hfails 1#64 PolicyRace.now rfl OutOfOrder.afterPay (by decide +kernel)

end Pwm
