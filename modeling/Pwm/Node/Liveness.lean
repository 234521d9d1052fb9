import Pwm.Ledger.Frozen
import Pwm.Node.Replay

/-!
# The next empty block

Whether a chain can always be sealed further. Genesis stakes nothing, so a
chain that boots with an active validator has no minimum stake, and every
validator is active in every epoch.
-/

namespace Pwm

open BitVec Attempt MapSum

/-! ## A seal as a run of the ledger -/

section SealRun

variable {C : Crypto} {now : U64} {ch ch' : Chain} {entries : List SealEntry}

theorem applyEntry_step {height ts : U64} {entry : SealEntry} {s s' : State} {u : Unit}
    (hok : applyEntry C ch height ts entry s = .ok u s') :
    LedgerStep C ch.cfg s (.applied entry.tx) s' := by
  cases entry with
  | raw tx =>
      rw [applyEntry, applyTxWithCtx] at hok
      exact .applied hok
  | preValidated tx atHeight =>
      rw [applyEntry, applyPrecheckedTx, applyTxWithCtx] at hok
      split at hok
      · exact .applied hok
      · exact .applied hok

theorem forM_applyEntry_run {height ts : U64} {s s' : State} {u : PUnit}
    (hok : (entries.forM fun entry => applyEntry C ch height ts entry) s = .ok u s') :
    Run (LedgerStep C ch.cfg) s (entries.map fun entry => .applied entry.tx) s' := by
  induction entries generalizing s with
  | nil =>
      obtain ⟨_, rfl⟩ := pure_ok_iff.mp hok
      exact .nil s
  | cons entry rest ih =>
      obtain ⟨_, s₁, hfirst, hrest⟩ := bind_ok_iff.mp hok
      exact (Run.single (applyEntry_step hfirst)).append (ih hrest)

/-- The epoch roll, the timeouts, the entries, the timeouts again and the drain. -/
theorem drained_run {height ts : U64} {st drained : State} {u : PUnit} {v : Unit}
    (hrun : (entries.forM fun entry => applyEntry C ch height ts entry) (ch.beforeTxs height) =
      .ok u st)
    (hdrain : drainConservationAtHeight ch.cfg height (st.refundExpLocks height) = .ok v drained) :
    ∃ ls, Run (LedgerStep C ch.cfg) ch.st ls drained := by
  have hroll : LedgerStep C ch.cfg ch.st .epoch (rollEpochIfNeeded ch.cfg ch.st height) :=
    .epoch ch.st height
  have hstart := (Run.single hroll).snoc (.refunded _ height)
  have hrefund : LedgerStep C ch.cfg st _ (st.refundExpLocks height) := .refunded st height
  have hend := (Run.single hrefund).snoc (.drained hdrain)
  exact ⟨_, (hstart.append (forM_applyEntry_run hrun)).append hend⟩

end SealRun

/-! ## The active set of a block -/

section Epoch

variable {C : Crypto} {ch : Chain} {height ts : U64} {s s' : State} {u : Unit}

theorem applyEntry_epoch {entry : SealEntry}
    (hok : applyEntry C ch height ts entry s = .ok u s') : s'.epoch = s.epoch := by
  cases entry with
  | raw tx =>
      rw [applyEntry, applyTxWithCtx] at hok
      exact applyTxImpl_epoch hok
  | preValidated tx atHeight =>
      rw [applyEntry, applyPrecheckedTx, applyTxWithCtx] at hok
      split at hok
      · exact applyTxImpl_epoch hok
      · exact applyTxImpl_epoch hok

theorem forM_applyEntry_epoch {entries : List SealEntry}
    (hok : (entries.forM fun entry => applyEntry C ch height ts entry) s = .ok u s') :
    s'.epoch = s.epoch := by
  induction entries generalizing s with
  | nil =>
      obtain ⟨_, rfl⟩ := pure_ok_iff.mp hok
      rfl
  | cons entry rest ih =>
      obtain ⟨_, s₁, hentry, hrest⟩ := bind_ok_iff.mp hok
      rw [ih hrest, applyEntry_epoch hentry]

end Epoch

/-! ## Rows stay -/

section Rows

variable {C : Crypto} {genCfg : GenCfg} {s s' : State} {l : LedgerLabel} {j : AccountId}

theorem RowKept.isSome (h : RowKept j s s') (hrow : (s.accounts[j]?).isSome) :
    (s'.accounts[j]?).isSome := by
  obtain ⟨a, ha⟩ := Option.isSome_iff_exists.mp hrow
  obtain ⟨a', ha', _⟩ := h.row ha
  exact Option.isSome_iff_exists.mpr ⟨a', ha'⟩

/-- No step removes a row. -/
theorem step_isSome (hstep : LedgerStep C genCfg s l s') (hrow : (s.accounts[j]?).isSome) :
    (s'.accounts[j]?).isSome := by
  cases l with
  | applied tx =>
      by_cases hj : tx.computedAccountId C = j
      · subst hj
        cases hstep with
        | applied hok =>
            obtain ⟨acc, redirTo, hacc, _, _, _, hbody⟩ := applyTxImpl_ok hok
            obtain ⟨a', ha', _⟩ := applyBody_ownRow hacc rfl hbody
            exact Option.isSome_iff_exists.mpr ⟨a', ha'⟩
      · exact (step_rowKept hstep (by simpa [LedgerLabel.actors, eq_comm] using hj)).isSome hrow
  | failed tx =>
      obtain ⟨a, ha⟩ := Option.isSome_iff_exists.mp hrow
      exact (step_failed_rowKept hstep ha).isSome hrow
  | drained h moves =>
      cases hstep with
      | drained hok =>
          have hsame := congrArg Option.isSome (drains_policyFieldsOf (drains_of_ok hok) j)
          simp only [State.policyFieldsOf, Option.isSome_map] at hsame
          rw [hsame]
          exact hrow
  | _ => exact (step_rowKept hstep List.not_mem_nil).isSome hrow

theorem run_isSome {ls : List LedgerLabel} (hrun : Run (LedgerStep C genCfg) s ls s')
    (hrow : (s.accounts[j]?).isSome) : (s'.accounts[j]?).isSome :=
  hrun.invariant (I := fun s => (s.accounts[j]?).isSome)
    (fun _ _ _ hrow hstep => step_isSome hstep hrow) hrow

end Rows

/-! ## The active set -/

section Active

variable {cfg : GenCfg} {s : State}

/-- An active index points into the validator set, and its account has the minimum stake. -/
theorem mem_recomputeActiveIdxs {idx : U16} (h : idx ∈ recomputeActiveIdxs cfg s) :
    idx.toNat < cfg.vals.set.length ∧ ∃ v ∈ cfg.vals.set, ∃ acc,
      s.accounts[v.acct]? = some acc ∧ cfg.minValidatorStake ≤ acc.stakedPwmRaw := by
  obtain ⟨⟨v, i⟩, hmem, hpick⟩ := List.mem_filterMap.mp h
  obtain ⟨hi, hv⟩ := List.mem_zipIdx' hmem
  cases hrow : s.accounts[v.acct]? with
  | none => simp [hrow] at hpick
  | some acc =>
      simp only [hrow, Option.ite_none_right_eq_some, Option.some.injEq] at hpick
      obtain ⟨hstake, rfl⟩ := hpick
      refine ⟨?_, v, ?_, acc, hrow, hstake⟩
      · rw [BitVec.toNat_ofNat]
        exact (Nat.mod_le _ _).trans_lt hi
      · rw [hv]
        exact List.getElem_mem hi

/-- Without a minimum stake every validator with a row is active. -/
theorem recomputeActiveIdxs_ne_nil (hmin : cfg.minValidatorStake = 0#128)
    (hset : cfg.vals.set ≠ []) (hrows : ∀ v ∈ cfg.vals.set, (s.accounts[v.acct]?).isSome) :
    recomputeActiveIdxs cfg s ≠ [] := by
  obtain ⟨v, rest, hcons⟩ := List.exists_cons_of_ne_nil hset
  obtain ⟨acc, hacc⟩ := Option.isSome_iff_exists.mp (hrows v (by simp [hcons]))
  have hle : cfg.minValidatorStake ≤ acc.stakedPwmRaw := by
    rw [hmin]
    exact Nat.zero_le _
  rw [recomputeActiveIdxs, hcons, List.zipIdx_cons]
  simp [hacc, hle]

theorem pickProdIdx_of_active (height : U64) {activeIdxs : List U16} (h : activeIdxs ≠ []) :
    ∃ idx ∈ activeIdxs, pickProdIdx height activeIdxs = .ok (idx.setWidth 32) := by
  have hlt : height.toNat % activeIdxs.length < activeIdxs.length :=
    Nat.mod_lt _ (List.length_pos_iff.mpr h)
  refine ⟨activeIdxs[height.toNat % activeIdxs.length], List.getElem_mem hlt, ?_⟩
  rw [pickProdIdx, List.getElem?_eq_getElem hlt]

end Active

/-! ## The drain ends -/

section DrainEnds

variable {cfg : GenCfg} {h : U64}

theorem neverFails_drainRow (row : PendingConservationTransfer) :
    NeverFails Fault.IsErr (drainRow cfg h row) := by
  intro s f s' herr hkind
  obtain ⟨e, rfl⟩ := hkind
  unfold drainRow at herr
  split at herr
  · cases herr
  · split at herr <;> cases herr

/-- A row that fails with an error stays in the queue, so the drain itself can only panic. -/
theorem neverFails_drain : NeverFails Fault.IsErr (drainConservationAtHeight cfg h) := by
  refine .bind neverFails_get fun st => ?_
  exact .bind (neverFails_modify _) fun _ => neverFails_forM neverFails_drainRow _

theorem drain_ok_of_nonces {s : State}
    (hnonce : ∀ row ∈ s.pendingConservation, row.nonce ≠ BitVec.allOnes 64) :
    ∃ drained, drainConservationAtHeight cfg h s = .ok () drained := by
  cases hdrain : drainConservationAtHeight cfg h s with
  | ok _ drained => exact ⟨drained, rfl⟩
  | error f s' =>
      cases f with
      | err e => exact absurd ⟨e, rfl⟩ (neverFails_drain s _ s' hdrain)
      | panic =>
          obtain ⟨row, hrow, hlast⟩ := drainConservationAtHeight_panic hdrain
          exact absurd hlast (hnonce row hrow)

end DrainEnds

/-! ## A chain that can go on -/

/-- The validators have keys and rows, nothing is asked of their stake, and some are active. -/
structure SealReady (ch : Chain) : Prop where
  keys : ch.valSks.length = ch.cfg.vals.set.length
  rows : ∀ v ∈ ch.cfg.vals.set, (ch.st.accounts[v.acct]?).isSome
  noMinimum : ch.cfg.minValidatorStake = 0#128
  active : ch.st.activeValidatorIndices ≠ []
  inSet : ∀ idx ∈ ch.st.activeValidatorIndices, idx.toNat < ch.cfg.vals.set.length

section Ready

variable {C : Crypto} {now : U64} {ch ch' : Chain} {entries : List SealEntry}

theorem SealReady.set_ne_nil (h : SealReady ch) : ch.cfg.vals.set ≠ [] := by
  obtain ⟨idx, rest, hcons⟩ := List.exists_cons_of_ne_nil h.active
  have hlt := h.inSet idx (by simp [hcons])
  exact List.ne_nil_of_length_pos (by omega)

/-- The active set stays usable across an epoch boundary. -/
theorem SealReady.roll (h : SealReady ch) (height : U64) :
    (rollEpochIfNeeded ch.cfg ch.st height).activeValidatorIndices ≠ [] ∧
      ∀ idx ∈ (rollEpochIfNeeded ch.cfg ch.st height).activeValidatorIndices,
        idx.toNat < ch.cfg.vals.set.length := by
  unfold rollEpochIfNeeded
  split
  · refine ⟨recomputeActiveIdxs_ne_nil h.noMinimum h.set_ne_nil h.rows, ?_⟩
    exact fun idx hidx => (mem_recomputeActiveIdxs hidx).1
  · exact ⟨h.active, h.inSet⟩

/-- Genesis has no stake, so a minimum would leave no validator active. -/
theorem boot_sealReady {cfg : GenCfg} {valSks : List SigningKey}
    (hboot : Chain.boot cfg valSks = some ch) (hactive : ch.st.activeValidatorIndices ≠ []) :
    SealReady ch := by
  simp only [Chain.boot, Option.ite_none_right_eq_some, Option.some.injEq] at hboot
  obtain ⟨⟨hkeys, _, _, hrows⟩, rfl⟩ := hboot
  obtain ⟨idx, hidx⟩ := List.exists_mem_of_ne_nil _ hactive
  obtain ⟨_, v, _, acc, hacc, hmin⟩ := mem_recomputeActiveIdxs hidx
  obtain ⟨r, marks, rfl⟩ := genesis_row ⟨_, rfl⟩ hacc
  refine ⟨hkeys.symm, ?_, ?_, hactive, ?_⟩
  · exact List.all_eq_true.mp hrows
  · exact BitVec.le_zero_iff.mp hmin
  · exact fun idx hidx => (mem_recomputeActiveIdxs hidx).1

/-- A seal ends with a block when its entries and the drain do. -/
theorem sealEntries_of_ready {height ts : U64} {st drained : State} (hready : SealReady ch)
    (hctx : ch.nextApplyCtx now = .ok (height, ts))
    (hrun : (entries.forM fun entry => applyEntry C ch height ts entry) (ch.beforeTxs height) =
      .ok () st)
    (hdrain : drainConservationAtHeight ch.cfg height (st.refundExpLocks height) =
      .ok () drained) :
    ∃ ch', sealEntries C now ch entries = .ok ch' := by
  obtain ⟨hactive, hinSet⟩ := hready.roll height
  obtain ⟨idx, hidx, hpick⟩ := pickProdIdx_of_active height hactive
  have hlt : idx.toNat < ch.cfg.vals.set.length := hinSet idx hidx
  have hwide : (idx.setWidth 32).toNat = idx.toNat := by
    rw [toNat_setWidth]
    exact Nat.mod_eq_of_lt (idx.isLt.trans (by decide))
  have hprod : ch.cfg.prodAcct (idx.setWidth 32) = some ch.cfg.vals.set[idx.toNat].acct := by
    simp only [GenCfg.prodAcct, hwide, Nat.mod_eq_of_lt hlt]
    rw [List.getElem?_eq_getElem hlt, Option.map_some]
  have hkeys : idx.toNat < ch.valSks.length := hready.keys ▸ hlt
  have hkey : ch.valSks[(idx.setWidth 32 : U32).toNat]? = some ch.valSks[idx.toNat] := by
    rw [hwide]
    exact List.getElem?_eq_getElem hkeys
  obtain ⟨ls, hls⟩ := drained_run hrun hdrain
  have hrow := run_isSome hls (hready.rows _ (List.getElem_mem hlt))
  simp only [sealEntries, except_bind_ok_iff, orFail_ok_iff, check_ok_iff, mapError_ok_iff]
  refine ⟨_, (height, ts), hctx, idx.setWidth 32, hpick, st, ?_, drained, ?_, _, hprod, (), hrow, _,
    hkey, rfl⟩
  · exact congrArg (sealOutcome (entries.map SealEntry.tx)) hrun
  · exact congrArg (sealOutcome (entries.map SealEntry.tx)) hdrain

/-- A drain that panics takes the seal with it. -/
theorem sealEntries_of_panic {height ts : U64} {st s' : State} (hready : SealReady ch)
    (hctx : ch.nextApplyCtx now = .ok (height, ts))
    (hrun : (entries.forM fun entry => applyEntry C ch height ts entry) (ch.beforeTxs height) =
      .ok () st)
    (hdrain : drainConservationAtHeight ch.cfg height (st.refundExpLocks height) =
      .error .panic s') :
    sealEntries C now ch entries = .error .panic := by
  obtain ⟨idx, _, hpick⟩ := pickProdIdx_of_active height (hready.roll height).1
  unfold Chain.beforeTxs at hrun
  simp only [sealEntries, hctx, hpick, hrun, hdrain, sealOutcome, bind, Except.bind,
    Except.mapError]

theorem nextApplyCtx_of_room (now : U64) (hroom : ch.tipH ≠ BitVec.allOnes 64) :
    ∃ height ts, ch.nextApplyCtx now = .ok (height, ts) := by
  cases hnext : ch.tipH.checkedAdd 1#64 with
  | none =>
      have hbound := ch.tipH.isLt
      rw [checkedAdd_eq_none_iff, BitVec.toNat_ofNat] at hnext
      refine absurd (BitVec.eq_of_toNat_eq ?_) hroom
      rw [BitVec.toNat_allOnes]
      omega
  | some height =>
      cases hmode : ch.sealTimeMode with
      | wallClock => exact ⟨height, now, by rw [Chain.nextApplyCtx, hnext, hmode]⟩
      | deterministicHeight =>
          exact ⟨height, detSealTsBase.saturatingAdd height, by
            rw [Chain.nextApplyCtx, hnext, hmode]⟩

theorem nextApplyCtx_of_tip {height : U64} (now : U64)
    (htip : ch.tipH.toNat + 1 = height.toNat) :
    ∃ ts, ch.nextApplyCtx now = .ok (height, ts) := by
  have hroom : ch.tipH ≠ BitVec.allOnes 64 := by
    intro hlast
    have hbound := height.isLt
    rw [hlast, BitVec.toNat_allOnes] at htip
    omega
  obtain ⟨next, ts, hctx⟩ := nextApplyCtx_of_room now hroom
  obtain rfl : next = height := by
    apply BitVec.eq_of_toNat_eq
    rw [← htip]
    exact checkedAdd_eq_some_iff.mp (nextApplyCtx_height hctx)
  exact ⟨ts, hctx⟩

theorem sealEntries_tipH (hok : sealEntries C now ch entries = .ok ch') :
    ch'.tipH.toNat = ch.tipH.toNat + 1 := by
  obtain ⟨height, ts, prodIdx, sk, st, st', hctx, _, _, _, _, rfl⟩ := sealEntries_ok hok
  exact checkedAdd_eq_some_iff.mp (nextApplyCtx_height hctx)

theorem beforeTxs_pending (ch : Chain) (height : U64) :
    (ch.beforeTxs height).pendingConservation = ch.st.pendingConservation := by
  rw [Chain.beforeTxs, refundExpLocks_pending, rollEpochIfNeeded_pending]

/-- A block keeps the chain able to go on. -/
theorem SealReady.append {height ts : U64} {prodIdx : U32} {st st' : State} (hready : SealReady ch)
    (hrun : (entries.forM fun entry => applyEntry C ch height ts entry) (ch.beforeTxs height) =
      .ok () st)
    (hends : BlockEnds ch.cfg height prodIdx st st') (blk : Block) :
    SealReady (ch.append blk st') := by
  have hepoch : st'.epoch = (rollEpochIfNeeded ch.cfg ch.st height).epoch := by
    rw [hends.epoch, forM_applyEntry_epoch hrun, beforeTxs_epoch]
  have hidxs : st'.activeValidatorIndices =
      (rollEpochIfNeeded ch.cfg ch.st height).activeValidatorIndices := congrArg Prod.snd hepoch
  obtain ⟨hactive, hinSet⟩ := hready.roll height
  obtain ⟨drained, prodAcct, hdrain, _, _, rfl⟩ := hends
  obtain ⟨ls, hls⟩ := drained_run hrun hdrain
  have hreward := hls.snoc (.rewarded drained prodAcct height)
  constructor
  · rw [Chain.append_valSks, Chain.append_cfg]
    exact hready.keys
  · rw [Chain.append_cfg, Chain.append_st]
    exact fun v hv => run_isSome hreward (hready.rows v hv)
  · rw [Chain.append_cfg]
    exact hready.noMinimum
  · rw [Chain.append_st, hidxs]
    exact hactive
  · rw [Chain.append_st, Chain.append_cfg, hidxs]
    exact hinSet

/-- A seal keeps the chain able to go on. -/
theorem SealReady.step (hready : SealReady ch) (hok : sealEntries C now ch entries = .ok ch') :
    SealReady ch' := by
  obtain ⟨height, ts, prodIdx, sk, st, st', _, _, hrun, hends, _, rfl⟩ := sealEntries_ok hok
  exact hready.append hrun hends _

/-- The next empty block is sealed, or the seal panics on a counter that is used up; it is never
refused. -/
theorem SealReady.next_empty (hready : SealReady ch) (now : U64) :
    (∃ ch', sealEntries C now ch [] = .ok ch' ∧ ch'.tipH.toNat = ch.tipH.toNat + 1) ∨
      (sealEntries C now ch [] = .error .panic ∧ (ch.tipH = BitVec.allOnes 64 ∨
        ∃ row ∈ ch.st.pendingConservation, row.nonce = BitVec.allOnes 64)) := by
  by_cases hroom : ch.tipH = BitVec.allOnes 64
  · right
    refine ⟨?_, .inl hroom⟩
    have hnext : ch.tipH.checkedAdd 1#64 = none := by
      rw [hroom]
      decide
    simp only [sealEntries, Chain.nextApplyCtx, hnext, bind, Except.bind]
  obtain ⟨height, ts, hctx⟩ := nextApplyCtx_of_room now hroom
  have hempty : (List.forM [] fun entry => applyEntry C ch height ts entry) (ch.beforeTxs height) =
      .ok () (ch.beforeTxs height) := rfl
  cases hdrain : drainConservationAtHeight ch.cfg height
      ((ch.beforeTxs height).refundExpLocks height) with
  | ok _ drained =>
      left
      obtain ⟨ch', hok⟩ := sealEntries_of_ready hready hctx hempty hdrain
      exact ⟨ch', hok, sealEntries_tipH hok⟩
  | error f s' =>
      cases f with
      | err e => exact absurd ⟨e, rfl⟩ (neverFails_drain _ _ s' hdrain)
      | panic =>
          right
          refine ⟨sealEntries_of_panic hready hctx hempty hdrain, .inr ?_⟩
          obtain ⟨row, hrow, hlast⟩ := drainConservationAtHeight_panic hdrain
          rw [refundExpLocks_pending, beforeTxs_pending] at hrow
          exact ⟨row, hrow, hlast⟩

end Ready

/-! ## Runs of seals -/

/-- One sealed block, by its entries. -/
def SealStep (C : Crypto) (ch : Chain) (entries : List SealEntry) (ch' : Chain) : Prop :=
  ∃ now, sealEntries C now ch entries = .ok ch'

section Runs

variable {C : Crypto} {cfg : GenCfg} {valSks : List SigningKey} {ch₀ ch : Chain}
  {ls : List (List SealEntry)}

theorem run_sealReady (hrun : Run (SealStep C) ch₀ ls ch) (hready : SealReady ch₀) :
    SealReady ch :=
  hrun.invariant (fun _ _ _ hready ⟨_, hok⟩ => hready.step hok) hready

/-- After any run of seals the next empty block is sealed, until a counter of 64 bits is used up:
the height, or the nonce of the sender of a delayed transfer. Then the seal panics; it is never
refused. -/
theorem seal_empty (hboot : Chain.boot cfg valSks = some ch₀)
    (hactive : ch₀.st.activeValidatorIndices ≠ []) (hrun : Run (SealStep C) ch₀ ls ch)
    (now : U64) :
    (∃ ch', sealEntries C now ch [] = .ok ch' ∧ ch'.tipH.toNat = ch.tipH.toNat + 1) ∨
      (sealEntries C now ch [] = .error .panic ∧ (ch.tipH = BitVec.allOnes 64 ∨
        ∃ row ∈ ch.st.pendingConservation, row.nonce = BitVec.allOnes 64)) :=
  (run_sealReady hrun (boot_sealReady hboot hactive)).next_empty now

/-- An empty queue stays empty under empty blocks. -/
theorem seal_empty_pending {now : U64} {ch' : Chain} (hempty : ch.st.pendingConservation = [])
    (hok : sealEntries C now ch [] = .ok ch') : ch'.st.pendingConservation = [] := by
  obtain ⟨height, ts, prodIdx, sk, st, st', _, _, hrun, ⟨drained, prodAcct, hdrain, _, _, rfl⟩, _,
    rfl⟩ := sealEntries_ok hok
  obtain ⟨_, rfl⟩ := pure_ok_iff.mp hrun
  have hdrains := drains_of_ok hdrain
  rw [refundExpLocks_pending, beforeTxs_pending, hempty] at hdrains
  rw [Chain.append_st, rewardBlock_pending]
  generalize drainMoves ch.cfg height _ = moves at hdrains
  cases hdrains with
  | nil => rfl

/-- Empty blocks lead to every height. -/
theorem run_to_height (hboot : Chain.boot cfg valSks = some ch₀)
    (hactive : ch₀.st.activeValidatorIndices ≠ []) (hempty : ch₀.st.pendingConservation = [])
    {n : Nat} (hn : n < 2 ^ 64) :
    ∃ ls ch, Run (SealStep C) ch₀ ls ch ∧ ch.tipH.toNat = n ∧
      ch.st.pendingConservation = [] := by
  induction n with
  | zero =>
      have hgenesis : ch₀.tipH = 0#64 := by
        simp only [Chain.boot, Option.ite_none_right_eq_some, Option.some.injEq] at hboot
        rw [← hboot.2, Chain.tipH]
      exact ⟨[], ch₀, .nil ch₀, by rw [hgenesis]; rfl, hempty⟩
  | succ n ih =>
      obtain ⟨ls, ch, hrun, htip, hqueue⟩ := ih (by omega)
      have hready := run_sealReady hrun (boot_sealReady hboot hactive)
      rcases hready.next_empty 0#64 with ⟨ch', hok, hnext⟩ | ⟨_, hlast | ⟨row, hrow, _⟩⟩
      · exact ⟨_, ch', hrun.snoc ⟨0#64, hok⟩, by omega, seal_empty_pending hqueue hok⟩
      · rw [hlast, BitVec.toNat_allOnes] at htip
        omega
      · rw [hqueue] at hrow
        cases hrow

end Runs

theorem devNet_boot : ∃ ch₀, Chain.boot devNet [devNetSk] = some ch₀ ∧
    ch₀.st.activeValidatorIndices ≠ [] ∧ ch₀.st.pendingConservation = [] := by
  refine ⟨(Chain.boot devNet [devNetSk]).get (by decide), ?_, ?_, ?_⟩
  · exact (Option.some_get _).symm
  · decide
  · decide

/-- Three blocks after genesis. -/
theorem seal_empty_afterThree :
    ∃ C ch₀ ls ch, Chain.boot devNet [devNetSk] = some ch₀ ∧ Run (SealStep C) ch₀ ls ch ∧
      ch.tipH.toNat = 3 ∧
      ((∃ ch', sealEntries C 5#64 ch [] = .ok ch' ∧ ch'.tipH.toNat = ch.tipH.toNat + 1) ∨
        (sealEntries C 5#64 ch [] = .error .panic ∧ (ch.tipH = BitVec.allOnes 64 ∨
          ∃ row ∈ ch.st.pendingConservation, row.nonce = BitVec.allOnes 64))) := by
  obtain ⟨ch₀, hboot, hactive, hempty⟩ := devNet_boot
  obtain ⟨ls, ch, hrun, htip, _⟩ :=
    run_to_height (C := Crypto.ofTables [] []) hboot hactive hempty (n := 3) (by decide)
  exact ⟨_, ch₀, ls, ch, hboot, hrun, htip, seal_empty hboot hactive hrun 5#64⟩

/-! ## The last height and the last nonce -/

/-- At the last height no block can be sealed. -/
theorem lastHeight_stuck :
    ∃ C ch₀ ls ch, Chain.boot devNet [devNetSk] = some ch₀ ∧ ch₀.st.activeValidatorIndices ≠ [] ∧
      Run (SealStep C) ch₀ ls ch ∧ ∀ now, sealEntries C now ch [] = .error .panic := by
  obtain ⟨ch₀, hboot, hactive, hempty⟩ := devNet_boot
  obtain ⟨ls, ch, hrun, htip, _⟩ := run_to_height (C := Crypto.ofTables [] []) hboot hactive hempty
    (n := 2 ^ 64 - 1) (by decide)
  refine ⟨_, ch₀, ls, ch, hboot, hactive, hrun, fun now => ?_⟩
  have hready := run_sealReady hrun (boot_sealReady hboot hactive)
  rcases hready.next_empty now with ⟨ch', _, hnext⟩ | ⟨hpanic, _⟩
  · have hbound := ch'.tipH.isLt
    omega
  · exact hpanic

namespace LastNonce

/-- A scheme that gives every key the sender's address and accepts every signature. -/
def crypto : Crypto where
  blake3 _ := devNetRow.acct
  verify _ _ _ := true
  verifyingKey _ := 0#256
  sign _ _ := 0#512

def payeeRow : GRow := ⟨1#256, 0#256, 0#32, 0#128⟩

def net : GenCfg :=
  { devNet with
    funding := ⟨[devNetRow, payeeRow]⟩
    accounts := [devNetRow, payeeRow]
    vals := ⟨[⟨payeeRow.acct, payeeRow.pubkey, payeeRow.derIdx⟩]⟩
    conservationDelayBlocks := 1#64 }

def stakeTx (n : Nat) : SignedTx where
  domainCode := domainOfAccountId devNetRow.acct
  signerPk := devNetRow.pubkey
  derivationIndex := devNetRow.derIdx
  nonce := BitVec.ofNat 64 n
  body := .stake 0#128
  signature := 0#512

def transferTx : SignedTx :=
  { stakeTx (2 ^ 64 - 1) with body := .transfer payeeRow.acct 1#128 0#128 }

def senderRow (n : Nat) (h : U64) : Account :=
  { Account.genesisFunded devNetRow.pubkey devNetRow.derIdx devNetRow.bal with
    storedMarks := 1#32, marksLastBlock := h, nonce := BitVec.ofNat 64 n }

theorem stake_ok {n : Nat} (hn : n + 1 < 2 ^ 64) (ts h : U64) {s : State}
    (hqueue : s.pendingConservation = []) :
    applyTxWithCtx crypto net (stakeTx n) 1#64 ts (s.putAcc devNetRow.acct (senderRow n h)) =
      .ok () (s.putAcc devNetRow.acct (senderRow (n + 1) 1#64)) := by
  have hshape : validateTxShape crypto (stakeTx n) = .ok () := by
    have hzero : validateTxShape crypto (stakeTx n) = validateTxShape crypto (stakeTx 0) := rfl
    rw [hzero]
    decide
  have hid : (stakeTx n).computedAccountId crypto = devNetRow.acct := rfl
  have hrow : (s.putAcc devNetRow.acct (senderRow n h)).accounts[devNetRow.acct]? =
      some (senderRow n h) := by
    rw [State.putAcc, getElem?_insert_eq, if_pos rfl]
  have hstub : initStub crypto (stakeTx n) (s.putAcc devNetRow.acct (senderRow n h)) =
      s.putAcc devNetRow.acct (senderRow n h) := rfl
  have hpolicy : policyGate crypto (s.putAcc devNetRow.acct (senderRow n h)) (stakeTx n) 1#64
      false = .ok none := by
    simp only [policyGate, State.evaluatePolicy, hid, hrow]
    rfl
  have hpending : ¬ ((s.putAcc devNetRow.acct (senderRow n h)).hasPendingConserv devNetRow.acct ∧
      pendingTxConflict (stakeTx n).body) := by
    simp [State.hasPendingConserv, State.putAcc, hqueue]
  have hnonce : (senderRow n h).nonce.checkedAdd 1#64 = some (BitVec.ofNat 64 (n + 1)) := by
    rw [checkedAdd_eq_some_iff, senderRow, BitVec.toNat_ofNat, BitVec.toNat_ofNat,
      Nat.mod_eq_of_lt hn, Nat.mod_eq_of_lt (by omega)]
    rfl
  simp only [applyTxWithCtx, applyTxImpl, txPrologue, bind_ok_iff, liftExcept_ok_iff,
    modify_ok_iff, get_ok_iff, orThrow_ok_iff, require_ok_iff, pure_ok_iff, hid]
  refine ⟨(), _, ⟨hshape, rfl⟩, (), _, rfl, (_, _), _, ⟨_, _, ⟨rfl, rfl⟩, senderRow n h, _,
    ⟨hrow, rfl⟩, (), _, ⟨fun _ => ⟨rfl, rfl⟩, rfl⟩, (), _, ⟨rfl, rfl⟩, none, _, ⟨hpolicy, rfl⟩, (), _,
    ⟨hpending, rfl⟩, rfl, rfl⟩, ?_⟩
  have hbody : applyBody crypto net (stakeTx n) 1#64 devNetRow.acct
      (signerRow (senderRow n h) (stakeTx n)) none =
        applyStake net 1#64 devNetRow.acct (senderRow n h) 0#128 := rfl
  rw [hstub, hbody]
  simp only [applyStake, putNextNonce, bind_ok_iff, require_ok_iff, orThrow_ok_iff, modify_ok_iff]
  have hmarks : computeLazyMarks (senderRow n h) 1#64 net = 1#32 :=
    computeLazyMarks_of_unstaked rfl 1#64 net
  refine ⟨(), _, ⟨rfl, rfl⟩, (), _, ⟨(by decide : (0#128 : U128) ≤ devNetRow.bal), rfl⟩,
    devNetRow.bal, _, ⟨(by decide : devNetRow.bal.checkedSub 0#128 = some devNetRow.bal), rfl⟩,
    0#128, _, ⟨(by decide : (0#128).checkedAdd 0#128 = some 0#128), rfl⟩, _, _, ⟨hnonce, rfl⟩, ?_⟩
  rw [putAcc_putAcc, touchAcctMrks, hmarks]
  rfl

/-- Stakes of nothing, one for each of these nonces. -/
def stakes (first count : Nat) : List SealEntry :=
  (List.range' first count).map fun n => .raw (stakeTx n)

theorem applyEntry_stake {ch : Chain} (hcfg : ch.cfg = net) (ts h : U64) {s : State}
    (hqueue : s.pendingConservation = []) {n : Nat} (hn : n + 1 < 2 ^ 64) :
    applyEntry crypto ch 1#64 ts (.raw (stakeTx n)) (s.putAcc devNetRow.acct (senderRow n h)) =
      .ok () (s.putAcc devNetRow.acct (senderRow (n + 1) 1#64)) := by
  rw [applyEntry, hcfg]
  exact stake_ok hn ts h hqueue

theorem stakes_ok {ch : Chain} (hcfg : ch.cfg = net) (ts : U64) {s : State}
    (hqueue : s.pendingConservation = []) {first count : Nat} (hn : first + count < 2 ^ 64) :
    ((stakes first count).forM fun entry => applyEntry crypto ch 1#64 ts entry)
        (s.putAcc devNetRow.acct (senderRow first 1#64)) =
      .ok () (s.putAcc devNetRow.acct (senderRow (first + count) 1#64)) := by
  induction count generalizing first with
  | zero => rfl
  | succ count ih =>
      refine bind_ok_iff.mpr ⟨(), s.putAcc devNetRow.acct (senderRow (first + 1) 1#64), ?_, ?_⟩
      · exact applyEntry_stake hcfg ts 1#64 hqueue (by omega)
      · have hrest := @ih (first + 1) (by omega)
        rwa [Nat.add_assoc, Nat.add_comm 1 count] at hrest

theorem allStakes_ok {ch : Chain} (hcfg : ch.cfg = net) (ts : U64) {s : State}
    (hqueue : s.pendingConservation = []) {count : Nat} (hn : 1 + count < 2 ^ 64) :
    ((SealEntry.raw (stakeTx 0) :: stakes 1 count).forM fun entry =>
        applyEntry crypto ch 1#64 ts entry) (s.putAcc devNetRow.acct (senderRow 0 0#64)) =
      .ok () (s.putAcc devNetRow.acct (senderRow (1 + count) 1#64)) := by
  refine bind_ok_iff.mpr ⟨(), s.putAcc devNetRow.acct (senderRow 1 1#64), ?_, ?_⟩
  · exact applyEntry_stake hcfg ts 0#64 hqueue (by omega)
  · exact stakes_ok hcfg ts hqueue hn

def start : Chain := (Chain.boot net [0#256]).get (by decide)

def afterStakes : State := start.st.putAcc devNetRow.acct (senderRow (1 + (2 ^ 64 - 2)) 1#64)

/-- The end of a block on this net. -/
def blockEnd (h : U64) (s : State) : State :=
  rewardBlock net (endState (drainConservationAtHeight net h (s.refundExpLocks h))) payeeRow.acct h

def afterTransfer : State :=
  endState (applyTxWithCtx crypto net transferTx 2#64 0#64
    ((rollEpochIfNeeded net (blockEnd 1#64 afterStakes) 2#64).refundExpLocks 2#64))

/-- The ledger that the next block drains. -/
def atThird : State :=
  ((rollEpochIfNeeded net (blockEnd 2#64 afterTransfer) 3#64).refundExpLocks 3#64).refundExpLocks
    3#64

/-- One more block, from the ledgers before and after its transactions. -/
theorem seal_ok {ch : Chain} {height : U64} {entries : List SealEntry} {st : State}
    (hready : SealReady ch) (hcfg : ch.cfg = net) (htip : ch.tipH.toNat + 1 = height.toNat)
    (hrun : ∀ ts, (entries.forM fun entry => applyEntry crypto ch height ts entry)
      (ch.beforeTxs height) = .ok () st)
    (hdrain : drainConservationAtHeight net height (st.refundExpLocks height) =
      .ok () (endState (drainConservationAtHeight net height (st.refundExpLocks height)))) :
    ∃ ch', SealStep crypto ch entries ch' ∧ ch'.cfg = net ∧ ch'.tipH = height ∧
      ch'.st = blockEnd height st := by
  obtain ⟨ts, hctx⟩ := nextApplyCtx_of_tip 0#64 htip
  obtain ⟨ch', hok⟩ := sealEntries_of_ready hready hctx (hrun ts) (hcfg ▸ hdrain)
  refine ⟨ch', ⟨0#64, hok⟩, ?_⟩
  obtain ⟨height, ts', prodIdx, sk, st₁, st', hctx', _, hrun', ⟨drained, prodAcct, hdrain', hprod, _, rfl⟩,
    _, rfl⟩ := sealEntries_ok hok
  obtain ⟨rfl, rfl⟩ := Prod.mk.inj (Except.ok.inj (hctx.symm.trans hctx'))
  obtain ⟨_, rfl⟩ := EStateM.Result.ok.inj ((hrun ts).symm.trans hrun')
  rw [hcfg] at hdrain' hprod
  obtain rfl : payeeRow.acct = prodAcct := by
    simpa [GenCfg.prodAcct, net, devNet, Nat.mod_one] using hprod
  refine ⟨by rw [Chain.append_cfg, hcfg], rfl, ?_⟩
  rw [Chain.append_st, hcfg, blockEnd, hdrain', endState]

end LastNonce

open LastNonce in
/-- When the sender of a delayed transfer has used its last nonce but one, no block can be sealed
at the height where the transfer is due. -/
theorem lastNonce_stuck :
    ∃ C ch₀ ls ch, Chain.boot net [0#256] = some ch₀ ∧ ch₀.st.activeValidatorIndices ≠ [] ∧
      Run (SealStep C) ch₀ ls ch ∧ ch.tipH = 2#64 ∧
      ∀ now, sealEntries C now ch [] = .error .panic := by
  have hboot : Chain.boot net [0#256] = some start := (Option.some_get _).symm
  have hactive : start.st.activeValidatorIndices ≠ [] := by decide
  have hready := boot_sealReady hboot hactive
  have hcfg : start.cfg = net := by decide
  have hrows : start.beforeTxs 1#64 = start.st.putAcc devNetRow.acct (senderRow 0 0#64) := by
    decide
  have hqueue : start.st.pendingConservation = [] := by decide
  have hstakes : ∀ ts, ((SealEntry.raw (stakeTx 0) :: stakes 1 (2 ^ 64 - 2)).forM fun entry =>
      applyEntry crypto start 1#64 ts entry) (start.beforeTxs 1#64) = .ok () afterStakes := by
    intro ts
    rw [hrows]
    exact allStakes_ok hcfg ts hqueue (by norm_num)
  have hdrain₁ : drainConservationAtHeight net 1#64 (afterStakes.refundExpLocks 1#64) =
      .ok () (endState (drainConservationAtHeight net 1#64 (afterStakes.refundExpLocks 1#64))) := by
    decide
  have htip₀ : start.tipH.toNat + 1 = (1#64).toNat := by decide
  obtain ⟨ch₁, hstep₁, hcfg₁, htip₁, hst₁⟩ := seal_ok hready hcfg htip₀ hstakes hdrain₁
  have hafter : applyTxWithCtx crypto net transferTx 2#64 0#64
      ((rollEpochIfNeeded net (blockEnd 1#64 afterStakes) 2#64).refundExpLocks 2#64) =
        .ok () afterTransfer := by
    decide
  have htransfer : ∀ ts, ([SealEntry.raw transferTx].forM fun entry =>
      applyEntry crypto ch₁ 2#64 ts entry) (ch₁.beforeTxs 2#64) = .ok () afterTransfer := by
    intro ts
    refine bind_ok_iff.mpr ⟨(), afterTransfer, ?_, rfl⟩
    change applyTxWithCtx crypto ch₁.cfg transferTx 2#64 0#64 (ch₁.beforeTxs 2#64) = _
    rw [Chain.beforeTxs, hcfg₁, hst₁]
    exact hafter
  have hdrain₂ : drainConservationAtHeight net 2#64 (afterTransfer.refundExpLocks 2#64) =
      .ok () (endState (drainConservationAtHeight net 2#64 (afterTransfer.refundExpLocks 2#64))) := by
    decide
  have htip : ch₁.tipH.toNat + 1 = (2#64).toNat := by rw [htip₁]; rfl
  have hready₁ := run_sealReady (.single hstep₁) hready
  obtain ⟨ch₂, hstep₂, hcfg₂, htip₂, hst₂⟩ := seal_ok hready₁ hcfg₁ htip htransfer hdrain₂
  refine ⟨crypto, start, _, ch₂, hboot, hactive, (Run.single hstep₁).snoc hstep₂, htip₂,
    fun now => ?_⟩
  have hpanic : drainConservationAtHeight net 3#64 atThird =
      .error .panic (endState (drainConservationAtHeight net 3#64 atThird)) := by
    decide
  have hready₂ := run_sealReady (.single hstep₂) hready₁
  have htip₃ : ch₂.tipH.toNat + 1 = (3#64).toNat := by
    rw [htip₂]
    rfl
  obtain ⟨ts, hctx⟩ := nextApplyCtx_of_tip now htip₃
  have hempty : (List.forM [] fun entry => applyEntry crypto ch₂ 3#64 ts entry)
      (ch₂.beforeTxs 3#64) = .ok () (ch₂.beforeTxs 3#64) := rfl
  have hthird : drainConservationAtHeight ch₂.cfg 3#64 ((ch₂.beforeTxs 3#64).refundExpLocks 3#64) =
      .error .panic (endState (drainConservationAtHeight net 3#64 atThird)) := by
    rw [Chain.beforeTxs, hcfg₂, hst₂]
    exact hpanic
  exact sealEntries_of_panic hready₂ hctx hempty hthird

open LastNonce in
/-- Two runs after which the next empty block is not sealed. -/
theorem seal_empty_fails :
    (∃ C ch₀ ls ch, Chain.boot devNet [devNetSk] = some ch₀ ∧
      ch₀.st.activeValidatorIndices ≠ [] ∧ Run (SealStep C) ch₀ ls ch ∧
      ∀ now, sealEntries C now ch [] = .error .panic) ∧
    ∃ C ch₀ ls ch, Chain.boot net [0#256] = some ch₀ ∧ ch₀.st.activeValidatorIndices ≠ [] ∧
      Run (SealStep C) ch₀ ls ch ∧ ch.tipH = 2#64 ∧
      ∀ now, sealEntries C now ch [] = .error .panic :=
  ⟨lastHeight_stuck, lastNonce_stuck⟩

end Pwm
