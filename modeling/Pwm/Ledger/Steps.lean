import Pwm.Core.ApplySpec
import Pwm.Core.Chain
import Pwm.Ledger.Atomicity
import Pwm.Lib.Run

/-!
# Runs of the ledger

The steps that change a ledger: a transaction that takes effect or fails, the
timeout pass over the locks, the drain of the delayed transfers, the reward of
a producer, an epoch boundary and recorded evidence. A label says what the
step did.
-/

namespace Pwm

open BitVec Attempt

/-! ## The drain as a sequence of moves -/

/-- A delayed transfer that a drain executed, between two states of the ledger. -/
structure DrainMove where
  pre : State
  row : PendingConservationTransfer
  post : State

/-- The account that a move credits, by the policies of the state it starts from. -/
def DrainMove.dst (h : U64) (m : DrainMove) : Option AccountId :=
  (conservationRecipientDst m.pre m.row.sender m.row.recipient h).toOption

section Moves

variable (genCfg : GenCfg) (h : U64)

/-- The moves made for these rows, in order. -/
def drainRowsMoves : List PendingConservationTransfer → State → List DrainMove
  | [], _ => []
  | row :: rest, st =>
      if h < row.executeAtHeight then drainRowsMoves rest (st.pushPending row)
      else match applyDueConservation genCfg h row st with
      | .ok _ st' => ⟨st, row, st'⟩ :: drainRowsMoves rest st'
      | .error (.err _) st' => drainRowsMoves rest (st'.pushPending row)
      | .error .panic _ => []

/-- The moves of a drain at this height. -/
def drainMoves (s : State) : List DrainMove :=
  drainRowsMoves genCfg h s.pendingConservation { s with pendingConservation := [] }

/-- A drain of the rows that ends without a panic. -/
inductive Drains : List PendingConservationTransfer → State → List DrainMove → State → Prop
  | nil (s : State) : Drains [] s [] s
  | kept {row rest s moves s'} (hrest : Drains rest (s.pushPending row) moves s') :
      Drains (row :: rest) s moves s'
  | executed {row rest s s₁ moves s'} (hrow : applyDueConservation genCfg h row s = .ok () s₁)
      (hrest : Drains rest s₁ moves s') : Drains (row :: rest) s (⟨s, row, s₁⟩ :: moves) s'

end Moves

section Drains

variable {genCfg : GenCfg} {h : U64}

theorem failsClean_applyDueConservation (row : PendingConservationTransfer) :
    FailsClean Fault.IsErr (applyDueConservation genCfg h row) := by
  refine .after_readOnly readOnly_get fun st => ?_
  refine .after_readOnly (readOnly_orThrow _ _) fun senderAcc => ?_
  refine .after_readOnly (readOnly_require _ _) fun _ => ?_
  refine .after_readOnly (readOnly_require _ _) fun _ => ?_
  refine .after_readOnly (readOnly_require _ _) fun _ => ?_
  refine .after_readOnly (readOnly_liftExcept _ _) fun dst => ?_
  refine .after_readOnly (readOnly_liftExcept _ _) fun _ => ?_
  refine .after_readOnly (readOnly_orThrow _ _) fun total => ?_
  refine .after_readOnly (readOnly_require _ _) fun _ => ?_
  refine (NeverFails.bind (neverFails_orThrow _ not_isErr_panic) fun balance => ?_).failsClean
  refine .bind (neverFails_orThrow _ not_isErr_panic) fun nonce => ?_
  refine .bind (neverFails_modify _) fun _ => ?_
  refine .bind neverFails_get fun st => ?_
  exact .bind (neverFails_orThrow _ not_isErr_panic) fun toAcc => neverFails_modify _

theorem drains_of_rows {rows : List PendingConservationTransfer} {s s' : State} {u : PUnit}
    (hok : (rows.forM fun row => drainRow genCfg h row) s = .ok u s') :
    Drains genCfg h rows s (drainRowsMoves genCfg h rows s) s' := by
  induction rows generalizing s with
  | nil =>
      obtain ⟨_, rfl⟩ := pure_ok_iff.mp hok
      exact .nil s
  | cons row rest ih =>
      obtain ⟨_, s₁, hrow, hrest⟩ := bind_ok_iff.mp hok
      have ih := ih hrest
      simp only [drainRow] at hrow
      rw [drainRowsMoves]
      by_cases hdue : h < row.executeAtHeight
      · rw [if_pos hdue] at hrow ⊢
        obtain ⟨_, rfl⟩ := EStateM.Result.ok.inj hrow
        exact .kept ih
      · rw [if_neg hdue] at hrow ⊢
        cases happly : applyDueConservation genCfg h row s with
        | ok _ s₂ =>
            simp only [happly] at hrow ⊢
            obtain ⟨_, rfl⟩ := EStateM.Result.ok.inj hrow
            exact .executed happly ih
        | error f s₂ =>
            cases f with
            | panic => simp [happly] at hrow
            | err e =>
                obtain rfl := failsClean_applyDueConservation row s _ s₂ happly ⟨e, rfl⟩
                simp only [happly] at hrow ⊢
                obtain ⟨_, rfl⟩ := EStateM.Result.ok.inj hrow
                exact .kept ih

/-- A drain that ends takes the rows out of the queue and makes its moves. -/
theorem drains_of_ok {s s' : State} {u : Unit}
    (hok : drainConservationAtHeight genCfg h s = .ok u s') :
    Drains genCfg h s.pendingConservation { s with pendingConservation := [] }
      (drainMoves genCfg h s) s' := by
  simp only [drainConservationAtHeight, bind_ok_iff, get_ok_iff, modify_ok_iff] at hok
  obtain ⟨_, _, ⟨rfl, rfl⟩, _, _, rfl, hrows⟩ := hok
  exact drains_of_rows hrows

/-- Every move of a drain is the execution of its row. -/
theorem Drains.move_ok {rows : List PendingConservationTransfer} {s s' : State}
    {moves : List DrainMove} (hd : Drains genCfg h rows s moves s') {m : DrainMove}
    (hm : m ∈ moves) : applyDueConservation genCfg h m.row m.pre = .ok () m.post := by
  induction hd with
  | nil => cases hm
  | kept _ ih => exact ih hm
  | executed hrow _ ih =>
      rcases List.mem_cons.mp hm with rfl | hm
      · exact hrow
      · exact ih hm

end Drains

/-! ## Steps and runs -/

/-- The state a computation ends in. -/
def endState (r : EStateM.Result Fault State Unit) : State :=
  match r with
  | .ok _ s => s
  | .error _ s => s

/-- The locks that the timeout pass refunds at a height. -/
def State.dueLocks (st : State) (h : U64) : List CrossShardLock :=
  st.crossShardLocks.filter fun lock => decide (lock.state = .locked ∧ lock.unlockHeight ≤ h)

/-- What a step of the ledger did. -/
inductive LedgerLabel
  | applied (tx : SignedTx)
  | failed (tx : SignedTx)
  | refunded (locks : List CrossShardLock)
  | drained (h : U64) (moves : List DrainMove)
  | rewarded
  | epoch
  | evidence

section Steps

variable (C : Crypto) (genCfg : GenCfg)

inductive LedgerStep : State → LedgerLabel → State → Prop
  | applied {s s' : State} {tx : SignedTx} {h now : U64} {skipPolicy : Bool}
      (hok : applyTxImpl C genCfg tx h now skipPolicy s = .ok () s') :
      LedgerStep s (.applied tx) s'
  | failed {s s' : State} {tx : SignedTx} {h now : U64} {skipPolicy : Bool} {e : TxError}
      (herr : applyTxImpl C genCfg tx h now skipPolicy s = .error (.err e) s') :
      LedgerStep s (.failed tx) s'
  | refunded (s : State) (h : U64) : LedgerStep s (.refunded (s.dueLocks h)) (s.refundExpLocks h)
  | drained {s s' : State} {h : U64} (hok : drainConservationAtHeight genCfg h s = .ok () s') :
      LedgerStep s (.drained h (drainMoves genCfg h s)) s'
  | rewarded (s : State) (prodAcct : AccountId) (h : U64) :
      LedgerStep s .rewarded (rewardBlock genCfg s prodAcct h)
  | epoch (s : State) (h : U64) : LedgerStep s .epoch (rollEpochIfNeeded genCfg s h)
  | evidence {s s' : State} {h : U64} {idx : U16} {ty : EvidenceType} {payload recordId : Bytes32}
      {reporter : Option AccountId}
      (hok : appendEvidence C h idx ty payload reporter s = .ok recordId s') :
      LedgerStep s .evidence s'

/-- The state of a chain before its first block. -/
def IsGenesis (s : State) : Prop :=
  ∃ activeIdxs, s = { genCfg.state0 with activeValidatorIndices := activeIdxs }

/-- Steps in which every applied transaction is one of the set. -/
def StepWithin (txs : Set SignedTx) (s : State) (l : LedgerLabel) (s' : State) : Prop :=
  LedgerStep C genCfg s l s' ∧ ∀ tx, l = .applied tx → tx ∈ txs

/-- The states reached from genesis when every transaction that takes effect is in the set. -/
def Reachable (txs : Set SignedTx) (s : State) : Prop :=
  ∃ s₀ ls, IsGenesis genCfg s₀ ∧ Run (StepWithin C genCfg txs) s₀ ls s

end Steps

/-- What every step keeps holds in every reachable state. -/
theorem Reachable.invariant {C : Crypto} {genCfg : GenCfg} {txs : Set SignedTx} {I : State → Prop}
    (hgen : ∀ s, IsGenesis genCfg s → I s)
    (hstep : ∀ s l s', I s → StepWithin C genCfg txs s l s' → I s') {s : State}
    (hs : Reachable C genCfg txs s) : I s := by
  obtain ⟨s₀, ls, h₀, hrun⟩ := hs
  exact hrun.invariant hstep (hgen s₀ h₀)

section Genesis

variable {genCfg : GenCfg} {s : State}

/-- Genesis only writes account rows. -/
theorem genesis_fields (h : IsGenesis genCfg s) :
    s.crossShardLocks = [] ∧ s.importedSet = ∅ ∧ s.exportedRegistry = ∅ ∧
      s.pendingConservation = [] := by
  obtain ⟨activeIdxs, rfl⟩ := h
  have hfold : ∀ (rows : List GRow) (st : State),
      let st' := rows.foldl (fun st r =>
        let acc := { Account.genesisFunded r.pubkey r.derIdx r.bal with
          storedMarks := asMarksU32 (r.bal / pwmRawScale) }
        { st with accounts := st.accounts.insert r.acct acc }) st
      st'.crossShardLocks = st.crossShardLocks ∧ st'.importedSet = st.importedSet ∧
        st'.exportedRegistry = st.exportedRegistry ∧
        st'.pendingConservation = st.pendingConservation := by
    intro rows
    induction rows with
    | nil => intro st; exact ⟨rfl, rfl, rfl, rfl⟩
    | cons r rest ih => intro st; exact ih _
  exact hfold genCfg.funding.accounts {}

end Genesis

end Pwm
