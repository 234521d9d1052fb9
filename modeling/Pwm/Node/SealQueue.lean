import Pwm.Ledger.Beside
import Pwm.Ledger.FastPath
import Pwm.Node.Liveness

/-!
# What the seal loop does with its queues

Before a seal the loop drains the ingress queue into the pool and draws a batch
from the validated queue and the pool. When a transaction makes the seal fail,
the loop looks for it in a dry run on the ledger of the tip, evicts it together
with later ones of its sender, and puts the rest back at the front of the pool.
-/

namespace Pwm

open BitVec Attempt

local instance : LawfulBEq Bytes32 := inferInstance

/-! ## The search for the failing transaction -/

section Search

variable (C : Crypto) (genCfg : GenCfg) (blkH blkTs : U64)

def firstBadTxFrom : Nat → List SignedTx → State → Except SealFault (Option (Nat × String))
  | _, [], _ => .ok none
  | i, tx :: rest, sim =>
      match applyTxWithCtx C genCfg tx blkH blkTs sim with
      | .ok _ sim' => firstBadTxFrom (i + 1) rest sim'
      | .error (.err err) _ => .ok (some (i, err.text))
      | .error .panic _ => .error .panic

/-- The first transaction that fails in a plain run on a copy of the ledger. -/
def firstBadTxCtx (st : State) (txs : List SignedTx) : Except SealFault (Option (Nat × String)) :=
  firstBadTxFrom C genCfg blkH blkTs 0 txs st

end Search

/-- Whether a seal failed because of a transaction. -/
def isTxFault (msg : String) : Bool :=
  "tx: ".toList.isPrefixOf msg.toList

section Requeue

variable (C : Crypto)

/-- The nonce of an account on the chain. -/
def Chain.nonceAt (ch : Chain) (id : AccountId) : U64 :=
  ((ch.st.accounts[id]?).map Account.nonce).getD 0#64

/-- Later transactions of the sender of a failing one that count as stale. -/
def Chain.staleAfter (ch : Chain) (bad : SignedTx) (later : List SignedTx) : List SignedTx :=
  let badSenderId := bad.computedAccountId C
  later.filter fun tx =>
    decide (tx.computedAccountId C = badSenderId ∧ tx.nonce ≤ ch.nonceAt badSenderId)

/-- What is put back when the transaction at an index is evicted, and the hashes evicted. -/
def Chain.evictAt (ch : Chain) (txs : List SignedTx) (i : Nat) (bad : SignedTx) :
    List SignedTx × List Bytes32 :=
  let later := txs.drop (i + 1)
  let staleHashes := (ch.staleAfter C bad later).map (SignedTx.txHash C)
  (txs.take i ++ later.filter fun tx => decide (tx.txHash C ∉ staleHashes),
    bad.txHash C :: staleHashes)

/-- What is put back after a failed seal, and the hashes evicted. -/
def Chain.requeue (ch : Chain) (now : U64) (msg : String) (txs : List SignedTx) :
    Except SealFault (List SignedTx × List Bytes32) :=
  if ¬ isTxFault msg then .ok (txs, [])
  else match ch.nextApplyCtx now with
  | .error .panic => .error .panic
  | .error (.abort _ _) => .ok (txs, [])
  | .ok (blkH, blkTs) => do
      match ← firstBadTxCtx C ch.cfg blkH blkTs ch.st txs with
      | none => .ok (txs, [])
      | some (i, _) =>
          let bad ← orFail txs[i]? .panic
          .ok (ch.evictAt C txs i bad)

end Requeue

/-! ## The queues -/

/-- What the seal loop works on. -/
structure SealLoop where
  chain : Chain
  pool : Mpool
  ingress : List SignedTx := []
  /-- Validated transactions with the height each was validated at. -/
  validated : List (SignedTx × U64) := []
  evictedHashes : List Bytes32 := []
  evictedTip : U64 := 0#64
  deriving DecidableEq

def blockCap : Nat := 64

/-- Push the ingress queue into the pool; what does not fit is gone. -/
def Mpool.drainIngress (pool : Mpool) (ingress : List SignedTx) : Mpool :=
  ingress.foldl (fun pool tx =>
    match pool.push tx with
    | .ok pool' => pool'
    | .error _ => pool) pool

def sealEntryHash (C : Crypto) (entry : SealEntry) : Bytes32 :=
  entry.tx.txHash C

/-- Keep the first entry of each hash. -/
def dedupFrom (C : Crypto) : List Bytes32 → List SealEntry → List SealEntry
  | _, [] => []
  | seen, entry :: rest =>
      if sealEntryHash C entry ∈ seen then dedupFrom C seen rest
      else entry :: dedupFrom C (sealEntryHash C entry :: seen) rest

def dedupSealEntries (C : Crypto) (entries : List SealEntry) : List SealEntry :=
  dedupFrom C [] entries

def skipEvictedEntries (C : Crypto) (evicted : List Bytes32) (entries : List SealEntry) :
    List SealEntry :=
  entries.filter fun entry => decide (sealEntryHash C entry ∉ evicted)

namespace SealLoop

/-- The queues after draining, and the entries drawn. A queue whose receiver is locked by another
task is left alone. -/
def draw (loop : SealLoop) (ingressFree validatedFree : Bool) : List SealEntry × SealLoop :=
  let pool := if ingressFree then loop.pool.drainIngress loop.ingress else loop.pool
  let ingress := if ingressFree then [] else loop.ingress
  let taken := if validatedFree then loop.validated.take blockCap else []
  let validated := if validatedFree then loop.validated.drop blockCap else loop.validated
  let (raw, pool) := pool.take (blockCap - taken.length)
  (taken.map (fun p => .preValidated p.1 p.2) ++ raw.map .raw,
    { loop with pool := pool, ingress := ingress, validated := validated })

/-- The hashes evicted at the present tip. -/
def evictedNow (loop : SealLoop) : List Bytes32 :=
  if loop.chain.tipH ≠ loop.evictedTip then [] else loop.evictedHashes

/-- The entries handed to the seal. -/
def entries (C : Crypto) (loop : SealLoop) (ingressFree validatedFree : Bool) : List SealEntry :=
  dedupSealEntries C
    (skipEvictedEntries C loop.evictedNow (loop.draw ingressFree validatedFree).1)

/-- One seal of the loop. -/
def sealOnce (C : Crypto) (now later : U64) (ingressFree validatedFree : Bool) (loop : SealLoop) :
    Except SealFault SealLoop :=
  let drawn := (loop.draw ingressFree validatedFree).2
  match sealEntries C now loop.chain (loop.entries C ingressFree validatedFree) with
  | .ok ch' => .ok { drawn with chain := ch', evictedHashes := [], evictedTip := ch'.tipH }
  | .error .panic => .error .panic
  | .error (.abort msg txs) => do
      let (replay, evicted) ← loop.chain.requeue C later msg txs
      .ok { drawn with
        pool := drawn.pool.prependBlock replay
        evictedHashes := loop.evictedNow ++ evicted
        evictedTip := loop.chain.tipH }

/-- The manual seal step: what it took is not put back when the seal fails. -/
def stepSealCommit (C : Crypto) (now : U64) (loop : SealLoop) : Except SealFault SealLoop :=
  let (txs, pool) := loop.pool.take blockCap
  match Chain.seal C now loop.chain txs with
  | .ok ch' => .ok { loop with chain := ch', pool := pool }
  | .error .panic => .error .panic
  | .error (.abort _ _) => .ok { loop with pool := pool }

/-- A seal that goes through leaves what was drawn out of the queues. -/
theorem sealOnce_of_ok {C : Crypto} {now : U64} {loop : SealLoop} {ingressFree validatedFree : Bool}
    {ch : Chain}
    (h : sealEntries C now loop.chain (loop.entries C ingressFree validatedFree) = .ok ch)
    (later : U64) :
    loop.sealOnce C now later ingressFree validatedFree =
      .ok { (loop.draw ingressFree validatedFree).2 with
        chain := ch, evictedHashes := [], evictedTip := ch.tipH } := by
  unfold sealOnce
  rw [h]

end SealLoop

/-! ## The fast path beside the plain path -/

section Plain

variable {C : Crypto} {genCfg : GenCfg} {ch : Chain} {tx : SignedTx} {height ts now : U64} {s : State}

/-- The prologues differ in a redirect at most, and only where the body is to go there anyway. -/
theorem txPrologue_plain (hpass : PolicyPasses C s tx height) :
    AgreeAt Eq (fun p q : Account × Option AccountId => p.1 = q.1 ∧ ∀ id acc,
        applyBody C genCfg tx height id acc p.2 = applyBody C genCfg tx height id acc q.2)
      (txPrologue C tx height true) (txPrologue C tx height false) s s := by
  obtain ⟨redirTo, hgate, hsame⟩ : ∃ redirTo, policyGate C s tx height false = .ok redirTo ∧
      ∀ id acc, applyBody C genCfg tx height id acc redirTo =
        applyBody C genCfg tx height id acc none := policyGate_of_passes hpass
  refine agreeAt_get_bind ?_
  refine (agreeAt_orThrow (optionRel_eq _) rfl).bind ?_
  rintro acc _ s' _ rfl rfl
  refine (agreeAt_require Iff.rfl rfl).bind ?_
  rintro _ _ s' _ - rfl
  refine (agreeAt_require Iff.rfl rfl).bind ?_
  rintro _ _ s' _ - rfl
  rw [hgate]
  refine AgreeAt.bind (Q := fun a b => a = none ∧ b = redirTo) ⟨⟨rfl, rfl⟩, rfl⟩ ?_
  rintro _ _ s' _ ⟨rfl, rfl⟩ rfl
  refine (agreeAt_require Iff.rfl rfl).bind ?_
  rintro _ _ s' _ - rfl
  exact agreeAt_pure ⟨rfl, fun id acc => (hsame id acc).symm⟩ rfl

/-- Where the policies pass, the fast path and the plain path come to the same. -/
theorem applyPrecheckedTx_plain (hshape : validateTxShape C tx = .ok ())
    (hpass : PolicyPasses C (initStub C tx s) tx height) :
    AgreeAt Eq Eq (applyPrecheckedTx C genCfg tx height now) (applyTxWithCtx C genCfg tx height now)
      s s := by
  have hstart : AgreeAt (fun s' t' => s' = s ∧ t' = s) Eq
      (liftExcept Fault.err (validateShapeNoSig C tx) : Ledger Unit)
      (liftExcept Fault.err (validateTxShape C tx)) s s := by
    rw [validateShapeNoSig_of_validateTxShape hshape, hshape]
    exact agreeAt_pure rfl ⟨rfl, rfl⟩
  have hstub : AgreeAt (fun s' t' => s' = initStub C tx s ∧ t' = initStub C tx s) Eq
      (modify (initStub C tx) : Ledger PUnit) (modify (initStub C tx)) s s :=
    agreeAt_modify ⟨rfl, rfl⟩
  refine hstart.bind_via ?_
  rintro _ _ _ _ - ⟨rfl, rfl⟩
  refine hstub.bind_via ?_
  rintro _ _ _ _ - ⟨rfl, rfl⟩
  have hprologue := @txPrologue_plain C genCfg tx height _ hpass
  refine hprologue.bind ?_
  rintro ⟨acc, skipped⟩ ⟨_, redirTo⟩ s' _ ⟨rfl, hsame⟩ rfl
  simp only
  rw [hsame]
  exact agreeAt_self _ s'

/-- An entry on the fast path is signed and passes its policies at its turn. -/
theorem applyEntry_plain {entry : SealEntry}
    (hsigned : ∀ tx, entry = .preValidated tx ch.tipH → validateTxShape C tx = .ok ())
    (hpass : EntryPasses C ch height s entry) :
    AgreeAt Eq Eq (applyEntry C ch height ts entry) (applyTxWithCtx C ch.cfg entry.tx height ts)
      s s := by
  cases entry with
  | raw tx => exact agreeAt_self _ s
  | preValidated tx atHeight =>
      rw [applyEntry]
      split
      · rename_i htip
        subst htip
        exact applyPrecheckedTx_plain (hsigned tx rfl) (hpass rfl)
      · exact agreeAt_self _ s

/-- A seal whose fast entries pass stops where a plain run stops. -/
theorem stopsAt_plain {entries : List SealEntry} {i : Nat} {f : Fault}
    (hsigned : ∀ tx, .preValidated tx ch.tipH ∈ entries → validateTxShape C tx = .ok ())
    (hpass : EntriesPass C ch height ts entries s)
    (h : StopsAt (applyEntry C ch height ts) entries s i f) :
    StopsAt (fun tx => applyTxWithCtx C ch.cfg tx height ts) (entries.map SealEntry.tx) s i f := by
  induction entries generalizing s i with
  | nil =>
      obtain ⟨pre, entry, post, _, _, hentries, -⟩ := h
      simp at hentries
  | cons entry rest ih =>
      obtain ⟨hfirst, hlater⟩ := hpass
      have hentry : AgreeAt Eq Eq (applyEntry C ch height ts entry)
          (applyTxWithCtx C ch.cfg entry.tx height ts) s s :=
        applyEntry_plain (fun tx htx => hsigned tx (by rw [htx]; exact List.mem_cons_self)) hfirst
      rcases h.cons_cases with ⟨rfl, s', herr⟩ | ⟨k, s', rfl, hok, hrest⟩
      · obtain ⟨t', herr'⟩ := hentry.of_error herr
        exact stopsAt_zero herr'
      · obtain ⟨_, _, hok', -, rfl⟩ := hentry.of_ok hok
        exact (ih (fun tx htx => hsigned tx (List.mem_cons_of_mem _ htx)) (hlater s' hok)
          hrest).cons hok'

end Plain

/-! ## The search agrees with the seal -/

section Stops

variable {C : Crypto} {genCfg : GenCfg} {blkH blkTs : U64} {txs : List SignedTx} {st : State}

theorem firstBadTxFrom_of_stops {i : Nat} {e : TxError} (k : Nat)
    (h : StopsAt (fun tx => applyTxWithCtx C genCfg tx blkH blkTs) txs st i (.err e)) :
    firstBadTxFrom C genCfg blkH blkTs k txs st = .ok (some (k + i, e.text)) := by
  induction txs generalizing st i k with
  | nil =>
      obtain ⟨pre, tx, post, _, _, htxs, -⟩ := h
      simp at htxs
  | cons tx rest ih =>
      rcases h.cons_cases with ⟨rfl, s', herr⟩ | ⟨j, s', rfl, hok, hrest⟩
      · rw [firstBadTxFrom, herr]
        rfl
      · rw [firstBadTxFrom, hok]
        simp only
        rw [ih (k + 1) hrest, Nat.add_assoc, Nat.add_comm 1 j]

end Stops

/-- A seal stops at one of its entries. -/
def SealFailsAt (C : Crypto) (now : U64) (ch : Chain) (entries : List SealEntry) (i : Nat)
    (e : TxError) : Prop :=
  ∃ height ts prodIdx, ch.nextApplyCtx now = .ok (height, ts) ∧
    pickProdIdx height (rollEpochIfNeeded ch.cfg ch.st height).activeValidatorIndices =
      .ok prodIdx ∧
    StopsAt (applyEntry C ch height ts) entries (ch.beforeTxs height) i (.err e)

section Fails

variable {C : Crypto} {now : U64} {ch : Chain} {entries : List SealEntry} {i : Nat} {e : TxError}

/-- The message of a seal that stopped at an entry. -/
theorem sealEntries_of_failsAt (h : SealFailsAt C now ch entries i e) :
    sealEntries C now ch entries = .error (.abort ("tx: " ++ e.text) (entries.map SealEntry.tx)) := by
  obtain ⟨height, ts, prodIdx, hctx, hpick, hstops⟩ := h
  obtain ⟨s', herr⟩ := hstops.forM_error
  unfold Chain.beforeTxs at herr
  simp only [sealEntries, hctx, hpick, bind, Except.bind, Except.mapError, herr, sealOutcome]

theorem isTxFault_tx (text : String) : isTxFault ("tx: " ++ text) = true := by
  rw [isTxFault, String.toList_append, List.isPrefixOf_iff_prefix]
  exact List.prefix_append _ _

theorem nextApplyCtx_error {f : SealFault} (h : ch.nextApplyCtx now = .error f) : f = .panic := by
  unfold Chain.nextApplyCtx at h
  split at h
  · exact (Except.error.inj h).symm
  · split at h <;> cases h

theorem pickProdIdx_error {height : U64} {idxs : List U16} {msg : String}
    (h : pickProdIdx height idxs = .error msg) : isTxFault msg = false := by
  unfold pickProdIdx at h
  split at h
  · obtain rfl := Except.error.inj h
    decide
  · cases h

theorem isTxFault_reward (text : String) :
    isTxFault ("reward invariant violated: producer account " ++ text) = false := by
  rw [isTxFault, String.toList_append]
  rfl

theorem sealOutcome_abort {α : Type} {txs txs' : List SignedTx} {r : EStateM.Result Fault State α}
    {msg : String} (h : sealOutcome txs r = .error (.abort msg txs')) :
    txs' = txs ∧ ∃ e st, r = .error (.err e) st ∧ msg = "tx: " ++ e.text := by
  cases r with
  | ok a st => cases h
  | error f st =>
      cases f with
      | panic => cases h
      | err e =>
          obtain ⟨rfl, rfl⟩ := SealFault.abort.inj (Except.error.inj h)
          exact ⟨rfl, e, st, rfl, rfl⟩

/-- A seal that fails without a panic hands back its transactions; it stopped at an entry, or it
has no producer, or the producer has no row. -/
theorem sealEntries_abort {msg : String} {txs : List SignedTx}
    (h : sealEntries C now ch entries = .error (.abort msg txs)) :
    txs = entries.map SealEntry.tx ∧
      ((∃ i e, SealFailsAt C now ch entries i e ∧ msg = "tx: " ++ e.text) ∨
        isTxFault msg = false) := by
  simp only [sealEntries, except_bind_error_iff, orFail_error_iff, check_error_iff,
    mapError_error_iff, and_false, exists_false, or_false, reduceCtorEq] at h
  rcases h with hctx | ⟨⟨height, ts⟩, hctx, h⟩
  · cases nextApplyCtx_error hctx
  rcases h with ⟨reason, hpick, hmsg⟩ | ⟨prodIdx, hpick, h⟩
  · obtain ⟨rfl, rfl⟩ := SealFault.abort.inj hmsg
    exact ⟨rfl, .inr (pickProdIdx_error hpick)⟩
  rw [mapError_ok_iff] at hpick
  rcases h with hrun | ⟨st, hrun, h⟩
  · obtain ⟨rfl, e, st, herr, rfl⟩ := sealOutcome_abort hrun
    obtain ⟨i, hstops⟩ := stopsAt_of_forM herr
    exact ⟨rfl, .inl ⟨i, e, ⟨height, ts, prodIdx, hctx, hpick, hstops⟩, rfl⟩⟩
  rcases h with hdrain | ⟨drained, hdrain, h⟩
  · obtain ⟨-, e, s', herr, -⟩ := sealOutcome_abort hdrain
    exact absurd ⟨e, rfl⟩ (neverFails_drain _ _ s' herr)
  rcases h with h | ⟨prodAcct, -, -, hmsg⟩
  · exact h.elim
  obtain ⟨rfl, rfl⟩ := SealFault.abort.inj hmsg
  refine ⟨rfl, .inr ?_⟩
  rw [String.append_assoc]
  exact isTxFault_reward _

end Fails

/-! ## When the search finds the failing transaction -/

/-- No lock that is due at a height is refunded to the signer, or is for the export that the
transaction imports. -/
def Chain.PastRefunds (C : Crypto) (ch : Chain) (height : U64) (tx : SignedTx) : Prop :=
  Unconcerned C (fun id => ∀ lock ∈ ch.st.dueLocks height, lock.refundAccount ≠ id)
    (fun exportId => ∃ lock ∈ ch.st.dueLocks height, lock.exportId = exportId) tx

/-- A batch for which a dry run on the ledger of the tip is as good as the seal. -/
structure PlainBatch (C : Crypto) (now : U64) (ch : Chain) (entries : List SealEntry) : Prop where
  /-- What takes the fast path is signed. -/
  signed : ∀ tx, .preValidated tx ch.tipH ∈ entries → validateTxShape C tx = .ok ()
  /-- What takes the fast path passes the policies at its turn. -/
  passes : SealPasses C now ch entries
  pastRefunds : ∀ height, ch.tipH.checkedAdd 1#64 = some height →
    ∀ entry ∈ entries, ch.PastRefunds C height entry.tx

section Search

variable {C : Crypto} {now later : U64} {ch : Chain} {entries : List SealEntry} {i : Nat}
  {e : TxError}

theorem rollEpochIfNeeded_dueLocks (genCfg : GenCfg) (s : State) (height h : U64) :
    (rollEpochIfNeeded genCfg s height).dueLocks h = s.dueLocks h := by
  unfold rollEpochIfNeeded
  split <;> rfl

/-- The ledger of the tip beside the one that the transactions of the next block find. -/
theorem beside_beforeTxs (ch : Chain) (height : U64) :
    Beside (fun id => ∀ lock ∈ ch.st.dueLocks height, lock.refundAccount ≠ id)
      (fun exportId => ∃ lock ∈ ch.st.dueLocks height, lock.exportId = exportId) ch.st
      (ch.beforeTxs height) := by
  have hdue := rollEpochIfNeeded_dueLocks ch.cfg ch.st height height
  refine Beside.of_roll (beside_refundExpLocks _ height ?_ ?_)
  · intro lock hlock hall
    rw [hdue] at hlock
    exact hall lock hlock rfl
  · intro lock hlock
    rw [hdue] at hlock
    exact ⟨lock, hlock, rfl⟩

theorem nextApplyCtx_at {height ts : U64} (hctx : ch.nextApplyCtx now = .ok (height, ts))
    (later : U64) : ∃ ts', ch.nextApplyCtx later = .ok (height, ts') := by
  have hnext := nextApplyCtx_height hctx
  unfold Chain.nextApplyCtx
  rw [hnext]
  cases ch.sealTimeMode with
  | wallClock => exact ⟨later, rfl⟩
  | deterministicHeight => exact ⟨_, rfl⟩

/-- The dry run stops where the seal stopped, with the same error. -/
theorem firstBadTxCtx_of_failsAt (hplain : PlainBatch C now ch entries)
    (hfails : SealFailsAt C now ch entries i e) (later : U64) :
    ∃ height ts, ch.nextApplyCtx later = .ok (height, ts) ∧
      firstBadTxCtx C ch.cfg height ts ch.st (entries.map SealEntry.tx) =
        .ok (some (i, e.text)) := by
  obtain ⟨height, ts, prodIdx, hctx, -, hstops⟩ := hfails
  obtain ⟨ts', hlater⟩ := nextApplyCtx_at hctx later
  refine ⟨height, ts', hlater, ?_⟩
  have hrun := stopsAt_plain hplain.signed (hplain.passes height ts hctx) hstops
  have htip : StopsAt (fun tx => applyTxWithCtx C ch.cfg tx height ts')
      (entries.map SealEntry.tx) ch.st i (.err e) := by
    refine StopsAt.of_agree (R := fun s t => Beside
      (fun id => ∀ lock ∈ ch.st.dueLocks height, lock.refundAccount ≠ id)
      (fun exportId => ∃ lock ∈ ch.st.dueLocks height, lock.exportId = exportId) t s) hrun ?_
      (beside_beforeTxs ch height)
    intro tx htx s t hbeside
    obtain ⟨entry, hentry, rfl⟩ := List.mem_map.mp htx
    have hpast := hplain.pastRefunds height (nextApplyCtx_height hctx) entry hentry
    exact (applyTxImpl_beside hbeside hpast ts' ts false).symm
  have hfound := firstBadTxFrom_of_stops 0 htip
  rwa [Nat.zero_add] at hfound

/-- A seal stops at an entry it was given. -/
theorem SealFailsAt.exists_bad (h : SealFailsAt C now ch entries i e) :
    ∃ bad, (entries.map SealEntry.tx)[i]? = some bad := by
  obtain ⟨height, ts, prodIdx, -, -, hstops⟩ := h
  obtain ⟨pre, entry, post, _, _, hentries, hlen, -⟩ := hstops
  refine ⟨entry.tx, ?_⟩
  rw [hentries, List.getElem?_map, ← hlen, List.getElem?_append_right (Nat.le_refl _),
    Nat.sub_self]
  rfl

/-- What is put back is shorter by the evicted transaction at least. -/
theorem evictAt_shorter {txs : List SignedTx} {bad : SignedTx} (hbad : txs[i]? = some bad) :
    (ch.evictAt C txs i bad).1.length < txs.length := by
  obtain ⟨hlt, -⟩ := List.getElem?_eq_some_iff.mp hbad
  have hkept := List.length_filter_le
    (fun tx => decide (tx.txHash C ∉
      (ch.staleAfter C bad (txs.drop (i + 1))).map (SignedTx.txHash C))) (txs.drop (i + 1))
  rw [List.length_drop] at hkept
  have htaken := List.length_take_le i txs
  calc (ch.evictAt C txs i bad).1.length
      = (txs.take i).length + _ := List.length_append
    _ ≤ i + (txs.length - (i + 1)) := Nat.add_le_add htaken hkept
    _ < txs.length := by omega

/-- What is put back is the batch without the transaction that the seal failed on. -/
theorem requeue_of_failsAt {bad : SignedTx} (hplain : PlainBatch C now ch entries)
    (hfails : SealFailsAt C now ch entries i e)
    (hbad : (entries.map SealEntry.tx)[i]? = some bad) (later : U64) :
    ch.requeue C later ("tx: " ++ e.text) (entries.map SealEntry.tx) =
      .ok (ch.evictAt C (entries.map SealEntry.tx) i bad) := by
  obtain ⟨height, ts, hctx, hfound⟩ := firstBadTxCtx_of_failsAt hplain hfails later
  simp only [Chain.requeue, isTxFault_tx, not_true_eq_false, if_false, hctx, hfound, hbad, orFail,
    bind, Except.bind]

/-- When a seal fails because of a transaction, the dry run finds that transaction, and what is
put back is shorter than the batch. -/
theorem failing_batch_shrinks {msg : String} {txs : List SignedTx} (later : U64)
    (hplain : PlainBatch C now ch entries)
    (hseal : sealEntries C now ch entries = .error (.abort msg txs))
    (htx : isTxFault msg = true) :
    ∃ i e height ts bad, SealFailsAt C now ch entries i e ∧
      ch.nextApplyCtx later = .ok (height, ts) ∧
      firstBadTxCtx C ch.cfg height ts ch.st txs = .ok (some (i, e.text)) ∧
      txs[i]? = some bad ∧
      ch.requeue C later msg txs = .ok (ch.evictAt C txs i bad) ∧
      (ch.evictAt C txs i bad).1.length < txs.length := by
  obtain ⟨rfl, ⟨i, e, hfails, rfl⟩ | hother⟩ := sealEntries_abort hseal
  · obtain ⟨height, ts, hctx, hfound⟩ := firstBadTxCtx_of_failsAt hplain hfails later
    obtain ⟨bad, hbad⟩ := hfails.exists_bad
    exact ⟨i, e, height, ts, bad, hfails, hctx, hfound, hbad,
      requeue_of_failsAt hplain hfails hbad later, evictAt_shorter hbad⟩
  · rw [hother] at htx
    cases htx

end Search

/-- Two payments with one nonce. -/
theorem failing_batch_shrinks_twice :
    PlainBatch PolicyRace.crypto PolicyRace.now PolicyRace.chain
        [.raw PolicyRace.payTx, .raw PolicyRace.payTx] ∧
      ∃ i e height ts bad, SealFailsAt PolicyRace.crypto PolicyRace.now PolicyRace.chain
          [.raw PolicyRace.payTx, .raw PolicyRace.payTx] i e ∧
        PolicyRace.chain.nextApplyCtx PolicyRace.now = .ok (height, ts) ∧
        firstBadTxCtx PolicyRace.crypto PolicyRace.chain.cfg height ts PolicyRace.chain.st
            [PolicyRace.payTx, PolicyRace.payTx] = .ok (some (i, e.text)) ∧
        [PolicyRace.payTx, PolicyRace.payTx][i]? = some bad ∧
        PolicyRace.chain.requeue PolicyRace.crypto PolicyRace.now "tx: conservation pending exists"
            [PolicyRace.payTx, PolicyRace.payTx] =
          .ok (PolicyRace.chain.evictAt PolicyRace.crypto [PolicyRace.payTx, PolicyRace.payTx]
            i bad) ∧
        (PolicyRace.chain.evictAt PolicyRace.crypto [PolicyRace.payTx, PolicyRace.payTx]
          i bad).1.length < 2 := by
  have hplain : PlainBatch PolicyRace.crypto PolicyRace.now PolicyRace.chain
      [.raw PolicyRace.payTx, .raw PolicyRace.payTx] := by
    refine ⟨fun tx htx => by simp at htx, fun height ts _ => ?_, fun height _ entry _ => ?_⟩
    · exact ⟨trivial, fun _ _ => ⟨trivial, fun _ _ => trivial⟩⟩
    · have hdue : PolicyRace.chain.st.dueLocks height = [] := rfl
      unfold Chain.PastRefunds
      simp [hdue, Unconcerned]
  exact ⟨hplain, failing_batch_shrinks PolicyRace.now hplain (by decide +kernel)
    (by decide)⟩

namespace PolicyRace

/-- The ledger at the third entry of a seal that follows `denyFirst` up with one more payment. -/
def beforeThird : State :=
  endState (denyFirst.forM (applyEntry crypto chain 1#64 now) (chain.beforeTxs 1#64))

end PolicyRace

/-- On the fast path a payment passes that the dry run stops at; the seal stops after it. -/
theorem failing_batch_misled :
    SealFailsAt PolicyRace.crypto PolicyRace.now PolicyRace.chain
        (PolicyRace.denyFirst ++ [.raw PolicyRace.payTx]) 2 .policyDenied ∧
      PolicyRace.chain.nextApplyCtx PolicyRace.now = .ok (1#64, PolicyRace.now) ∧
      firstBadTxCtx PolicyRace.crypto PolicyRace.chain.cfg 1#64 PolicyRace.now PolicyRace.chain.st
          [PolicyRace.denyTx, PolicyRace.payTx, PolicyRace.payTx] =
        .ok (some (1, "policy denied")) := by
  refine ⟨⟨1#64, PolicyRace.now, 0#32, rfl, by decide, ?_⟩, rfl, by decide +kernel⟩
  exact ⟨PolicyRace.denyFirst, .raw PolicyRace.payTx, [], PolicyRace.beforeThird,
    initStub PolicyRace.crypto PolicyRace.payTx PolicyRace.beforeThird, rfl, rfl,
    by decide, by decide +kernel⟩

end Pwm
