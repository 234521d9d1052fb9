import Pwm.Ledger.Supply

/-!
# Exactness of the drain

A drain executes a delayed transfer exactly when the amount and the fee leave
the sender, the amount reaches the destination, the fee reaches the pool and
the sender's nonce rises by one. That is so for the rows whose destination is
not their own sender and whose credits have room, and for no others.
-/

namespace Pwm

open BitVec Attempt MapSum

/-- The balance of an account, zero when it has no row. -/
def State.balanceOf (st : State) (id : AccountId) : Nat :=
  valueAt (fun a : Account => a.balancePwm.toNat) st.accounts id

theorem balanceOf_of_row {s : State} {id : AccountId} {a : Account}
    (h : s.accounts[id]? = some a) : s.balanceOf id = a.balancePwm.toNat := by
  simp [State.balanceOf, valueAt, h]

theorem balanceOf_putAcc (s : State) (id j : AccountId) (a : Account) :
    (s.putAcc id a).balanceOf j = if id = j then a.balancePwm.toNat else s.balanceOf j :=
  valueAt_insert _ _ _ _ _

/-- The move takes amount and fee from the sender, brings the amount to the destination and the
fee to the pool, and uses up the nonce of the sender. -/
def DrainMove.Exact (h : U64) (m : DrainMove) : Prop :=
  (∀ j, m.post.balanceOf j +
      (if m.row.sender = j then m.row.amountPwm.toNat + m.row.fee.toNat else 0) =
    m.pre.balanceOf j + if m.dst h = some j then m.row.amountPwm.toNat else 0) ∧
  m.post.feePool.toNat = m.pre.feePool.toNat + m.row.fee.toNat ∧
  BumpsNonce m.row.sender m.pre m.post

/-- The row goes to another account, and the pool and that account have room for it. -/
def DrainMove.Clean (h : U64) (m : DrainMove) : Prop :=
  m.dst h ≠ some m.row.sender ∧
  m.pre.feePool.toNat + m.row.fee.toNat < 2 ^ 128 ∧
  ∀ dst, m.dst h = some dst → m.pre.balanceOf dst + m.row.amountPwm.toNat < 2 ^ 128

section Moves

variable {genCfg : GenCfg} {h : U64} {m : DrainMove}

theorem exact_of_clean (hok : applyDueConservation genCfg h m.row m.pre = .ok () m.post)
    (hclean : m.Clean h) : m.Exact h ∧ m.post.supply = m.pre.supply := by
  obtain ⟨hself, hpool, hroom⟩ := hclean
  obtain ⟨_, hnonce⟩ := applyDueConservation_nonces hok
  rw [if_neg hself] at hnonce
  obtain ⟨senderAcc, dst, total, balance, nonce, toAcc, hsender, _, hdst, htotal, hbalance, _, hto,
    hpost⟩ := applyDueConservation_ok hok
  have hmdst : m.dst h = some dst := by
    rw [DrainMove.dst, hdst]
    rfl
  have hne : m.row.sender ≠ dst := by
    rintro rfl
    exact hself hmdst
  have hroom := hroom dst hmdst
  rw [balanceOf_of_row hto] at hroom
  have htot := checkedAdd_eq_some_iff.mp htotal
  obtain ⟨hle, hbal⟩ := checkedSub_eq_some_iff.mp hbalance
  have hcredit := toNat_saturatingAdd_of_fits hroom
  refine ⟨⟨?_, ?_, hnonce⟩, ?_⟩
  · intro j
    rw [hpost, balanceOf_putAcc, balanceOf_putAcc, hmdst]
    simp only [Option.some.injEq, creditedRow, debitedRow, hcredit]
    by_cases hj : dst = j
    · subst hj
      rw [if_pos rfl, if_neg hne, if_pos rfl, balanceOf_of_row hto, Nat.add_zero]
    · rw [if_neg hj, if_neg hj]
      by_cases hs : m.row.sender = j
      · subst hs
        rw [if_pos rfl, if_pos rfl, balanceOf_of_row hsender]
        omega
      · rw [if_neg hs, if_neg hs]
        rfl
  · rw [hpost]
    exact toNat_saturatingAdd_of_fits hpool
  · rw [hpost]
    exact supply_pay hne (wealthOf_of_row hsender) hto htotal hbalance ⟨rfl, rfl⟩ ⟨rfl, rfl⟩ hpool
      hroom

theorem clean_of_exact (hok : applyDueConservation genCfg h m.row m.pre = .ok () m.post)
    (hexact : m.Exact h) : m.Clean h := by
  obtain ⟨hmoney, hpool, hnonce⟩ := hexact
  have hself : m.dst h ≠ some m.row.sender := by
    intro hdst
    obtain ⟨_, hsame⟩ := applyDueConservation_nonces hok
    rw [if_pos hdst] at hsame
    have hup := hnonce m.row.sender
    rw [hsame, if_pos rfl] at hup
    omega
  refine ⟨hself, ?_, ?_⟩
  · rw [← hpool]
    exact m.post.feePool.isLt
  · intro dst hdst
    have hcredit := hmoney dst
    have hne : m.row.sender ≠ dst := by
      rintro rfl
      exact hself hdst
    rw [if_neg hne, if_pos hdst] at hcredit
    rw [← hcredit]
    obtain ⟨_, dst', _, _, _, toAcc, _, _, hdst', _, _, _, _, hpost⟩ := applyDueConservation_ok hok
    have heq : dst' = dst := by
      rw [DrainMove.dst, hdst'] at hdst
      exact Option.some.inj hdst
    subst heq
    rw [hpost, balanceOf_putAcc, if_pos rfl]
    exact isLt _

theorem drains_supply {rows : List PendingConservationTransfer} {s s' : State}
    {moves : List DrainMove} (hd : Drains genCfg h rows s moves s')
    (hclean : ∀ m ∈ moves, m.Clean h) : s'.supply = s.supply := by
  induction hd with
  | nil => rfl
  | kept _ ih => exact ih hclean
  | executed hrow _ ih =>
      have hfirst := hclean _ List.mem_cons_self
      have hrest := ih fun m hm => hclean m (List.mem_cons_of_mem _ hm)
      rw [hrest]
      exact (exact_of_clean hrow hfirst).2

/-- The nonce of an executed row is used up at the end of the drain. -/
theorem drains_used {rows : List PendingConservationTransfer} {s s' : State}
    {moves : List DrainMove} (hd : Drains genCfg h rows s moves s')
    (hclean : ∀ m ∈ moves, m.dst h ≠ some m.row.sender) :
    ∀ m ∈ moves, m.row.nonce.toNat < s'.nonceOf m.row.sender := by
  induction hd with
  | nil => simp
  | kept _ ih => exact ih hclean
  | @executed row rest s s₁ moves s' hrow hrest ih =>
      intro m hm
      rcases List.mem_cons.mp hm with rfl | hm
      · obtain ⟨hnonce, hbump⟩ := applyDueConservation_nonces hrow
        rw [if_neg (hclean _ List.mem_cons_self)] at hbump
        have hup := hbump row.sender
        rw [if_pos rfl] at hup
        have hlater := drains_nonceOf_le hrest row.sender
        simp only
        omega
      · exact ih (fun m hm => hclean m (List.mem_cons_of_mem _ hm)) m hm

end Moves

/-! ## No second time -/

/-- In no run from here is a transaction of this account and nonce applied or drained. -/
def NeverAgain (C : Crypto) (genCfg : GenCfg) (s : State) (id : AccountId) (nonce : Nat) : Prop :=
  ∀ ls s', Run (LedgerStep C genCfg) s ls s' →
    (id, nonce) ∉ ls.flatMap (LedgerLabel.effects C) ∧
    ∀ tx, .applied tx ∈ ls → tx.computedAccountId C = id → tx.nonce.toNat ≠ nonce

section Later

variable {C : Crypto} {genCfg : GenCfg} {s s' : State} {l : LedgerLabel}

theorem drains_effects_ge {h : U64} {rows : List PendingConservationTransfer}
    {moves : List DrainMove} (hd : Drains genCfg h rows s moves s') :
    ∀ m ∈ moves, s.nonceOf m.row.sender ≤ m.row.nonce.toNat := by
  induction hd with
  | nil => simp
  | kept _ ih => exact ih
  | executed hrow _ ih =>
      intro m hm
      rcases List.mem_cons.mp hm with rfl | hm
      · exact (applyDueConservation_nonces hrow).1.le
      · exact (applyDueConservation_nonceOf_le hrow _).trans (ih m hm)

/-- What takes effect in a step carries a nonce that was not used up. -/
theorem step_effects_ge (hstep : LedgerStep C genCfg s l s') {id : AccountId} {nonce : Nat}
    (hmem : (id, nonce) ∈ l.effects C) : s.nonceOf id ≤ nonce := by
  cases l with
  | applied tx =>
      obtain ⟨hnonce, _⟩ := step_applied_nonces hstep
      rw [LedgerLabel.effects] at hmem
      split at hmem
      · cases hmem
      · obtain ⟨rfl, rfl⟩ := Prod.mk.inj (List.mem_singleton.mp hmem)
        exact hnonce.le
  | drained h moves =>
      cases hstep with
      | drained hok =>
          obtain ⟨m, hm, heq⟩ := List.mem_map.mp hmem
          obtain ⟨rfl, rfl⟩ := Prod.mk.inj heq
          exact drains_effects_ge (drains_of_ok hok) m hm
  | _ => cases hmem

theorem neverAgain_of_used {id : AccountId} {nonce : Nat} (hused : nonce < s.nonceOf id) :
    NeverAgain C genCfg s id nonce := by
  intro ls s' hrun
  have hall : nonce < s'.nonceOf id ∧ (id, nonce) ∉ ls.flatMap (LedgerLabel.effects C) ∧
      ∀ tx, .applied tx ∈ ls → tx.computedAccountId C = id → tx.nonce.toNat ≠ nonce := by
    refine hrun.history_invariant (I := fun ls s => nonce < s.nonceOf id ∧
      (id, nonce) ∉ ls.flatMap (LedgerLabel.effects C) ∧
      ∀ tx, .applied tx ∈ ls → tx.computedAccountId C = id → tx.nonce.toNat ≠ nonce) ?_ ?_
    · rintro ls s l s' ⟨hused, heffects, happlied⟩ hstep
      refine ⟨hused.trans_le (step_nonceOf_le hstep id), ?_, ?_⟩
      · rw [List.flatMap_append, List.flatMap_singleton, List.mem_append]
        rintro (hmem | hmem)
        · exact heffects hmem
        · exact absurd (step_effects_ge hstep hmem) (by omega)
      · intro tx hmem hid
        rcases List.mem_append.mp hmem with hmem | hmem
        · exact happlied tx hmem hid
        · obtain rfl := List.mem_singleton.mp hmem
          obtain ⟨hnonce, _⟩ := step_applied_nonces hstep
          rw [hid] at hnonce
          omega
    · exact ⟨hused, by simp, by simp⟩
  exact hall.2

end Later

/-! ## The whole drain -/

/-- The supply is kept, every executed row is executed exactly, and none is executed or applied a
second time, if and only if every executed row goes to another account with room for it. -/
theorem drain_exact_iff {C : Crypto} {genCfg : GenCfg} {h : U64} {s s' : State}
    (hok : drainConservationAtHeight genCfg h s = .ok () s') :
    (s'.supply = s.supply ∧ (∀ m ∈ drainMoves genCfg h s, m.Exact h) ∧
      ((drainMoves genCfg h s).map fun m => (m.row.sender, m.row.nonce.toNat)).Nodup ∧
      ∀ m ∈ drainMoves genCfg h s, NeverAgain C genCfg s' m.row.sender m.row.nonce.toNat) ↔
    ∀ m ∈ drainMoves genCfg h s, m.Clean h := by
  have hd := drains_of_ok hok
  constructor
  · rintro ⟨_, hexact, _⟩ m hm
    exact clean_of_exact (hd.move_ok hm) (hexact m hm)
  · intro hclean
    have hself : ∀ m ∈ drainMoves genCfg h s, m.dst h ≠ some m.row.sender :=
      fun m hm => (hclean m hm).1
    have hsupply := drains_supply hd hclean
    refine ⟨hsupply, ?_, ?_, ?_⟩
    · exact fun m hm => (exact_of_clean (hd.move_ok hm) (hclean m hm)).1
    · exact (drains_consecutive hd hself).nodup
    · exact fun m hm => neverAgain_of_used (drains_used hd hself m hm)

/-- The transfer that comes back to its sender: its debit and its nonce are lost. -/
theorem selfDrain_creates_supply :
    Reachable SelfDrain.crypto devNet Set.univ SelfDrain.afterActivate ∧
      drainConservationAtHeight devNet 86401#64 SelfDrain.afterActivate =
        .ok () SelfDrain.afterDrain ∧
      drainMoves devNet 86401#64 SelfDrain.afterActivate ≠ [] ∧
      SelfDrain.afterDrain.supply = SelfDrain.afterActivate.supply + 11 ∧
      SelfDrain.afterDrain.nonceOf devNetRow.acct =
        SelfDrain.afterActivate.nonceOf devNetRow.acct := by
  refine ⟨⟨devNet.state0, _, ⟨_, rfl⟩, SelfDrain.run_afterActivate.mono ?_⟩, ?_⟩
  · exact fun _ _ _ hstep => ⟨hstep, fun _ _ => trivial⟩
  · refine ⟨?_, ?_, ?_, ?_⟩ <;> decide +kernel

/-- The same transfer drained before the redirect is activated. -/
def SelfDrain.afterPlainDrain : State :=
  endState (drainConservationAtHeight devNet 86401#64 SelfDrain.afterTransfer)

theorem drain_exact_afterTransfer :
    (SelfDrain.afterPlainDrain.supply = SelfDrain.afterTransfer.supply ∧
      (∀ m ∈ drainMoves devNet 86401#64 SelfDrain.afterTransfer, m.Exact 86401#64) ∧
      ((drainMoves devNet 86401#64 SelfDrain.afterTransfer).map
        fun m => (m.row.sender, m.row.nonce.toNat)).Nodup ∧
      ∀ m ∈ drainMoves devNet 86401#64 SelfDrain.afterTransfer,
        NeverAgain SelfDrain.crypto devNet SelfDrain.afterPlainDrain m.row.sender
          m.row.nonce.toNat) ↔
    ∀ m ∈ drainMoves devNet 86401#64 SelfDrain.afterTransfer, m.Clean 86401#64 :=
  drain_exact_iff (by decide +kernel)

end Pwm
