import Pwm.Core.Chain

/-!
# Sealing in place

The seal as the code runs it on its own chain: a copy of the ledger is taken,
changed step by step, and written back with the block at the very end. It
computes what the pure seal says, and a failure leaves the chain as it was.
-/

namespace Pwm

open BitVec Attempt

/-- The chain that is sealed, and the copy of its ledger that the seal works on. -/
structure SealFrame where
  self : Chain
  st : State

/-- A step of a seal. -/
abbrev SealM (α : Type) := EStateM SealFault SealFrame α

/-- A change of the copy. -/
def editCopy (g : State → State) : SealM PUnit :=
  modify fun f => { f with st := g f.st }

/-- A change of the chain itself. -/
def editSelf (g : Chain → Chain) : SealM PUnit :=
  modify fun f => { f with self := g f.self }

/-- A ledger computation on the copy; an error hands the transactions back. -/
def onCopy {α : Type} (txs : List SignedTx) (x : Ledger α) : SealM α := fun f =>
  match x f.st with
  | .ok a st => .ok a { f with st := st }
  | .error (.err e) st => .error (.abort ("tx: " ++ e.text) txs) { f with st := st }
  | .error .panic st => .error .panic { f with st := st }

/-- Blocks are popped from the front until the tail fits its cap. -/
def popFront : List Block → List Block
  | [] => []
  | blk :: rest => if tailBlockCap < (blk :: rest).length then popFront rest else blk :: rest

section Seal

variable (C : Crypto) (clock : Except String U64)

/-- The height and the time of the next block. -/
def nextCtx (txs : List SignedTx) : SealM (U64 × U64) := do
  let ch := (← get).self
  let height ← orThrow (ch.tipH.checkedAdd 1#64) .panic
  match ch.sealTimeMode with
  | .wallClock =>
      let ts ← liftExcept (fun msg => .abort msg txs) clock
      pure (height, ts)
  | .deterministicHeight => pure (height, detSealTsBase.saturatingAdd height)

/-- The new block and the ledger after it are written to the chain. -/
def commitBlock (st : State) (blk : Block) (height : U64) : SealM Unit := do
  editSelf fun ch => { ch with st := st }
  editSelf fun ch => { ch with blocks := ch.blocks ++ [blk] }
  editSelf fun ch => { ch with blocks := popFront ch.blocks }
  editSelf fun ch => ch.setCanonH height

/-- The steps of a seal, in the order of the code. -/
def sealBody (entries : List SealEntry) : SealM Unit := do
  let txs := entries.map SealEntry.tx
  let ch := (← get).self
  let (height, ts) ← nextCtx clock txs
  let prev := ch.tipHash C
  editCopy fun _ => ch.st
  editCopy fun st => rollEpochIfNeeded ch.cfg st height
  let prodIdx ← liftExcept (fun msg => .abort msg txs)
    (pickProdIdx height (← get).st.activeValidatorIndices)
  editCopy fun st => st.refundExpLocks height
  entries.forM fun entry => onCopy txs (applyEntry C ch height ts entry)
  editCopy fun st => st.refundExpLocks height
  onCopy txs (drainConservationAtHeight ch.cfg height)
  let prodAcct ← orThrow (ch.cfg.prodAcct prodIdx) .panic
  require ((← get).st.accounts[prodAcct]?).isSome
    (.abort ("reward invariant violated: producer account " ++ debugHex prodAcct ++
      " missing from funding.accounts") txs)
  editCopy fun st => rewardBlock ch.cfg st prodAcct height
  let st := (← get).st
  let hdr : BlockHdr :=
    { height := height, prevHash := prev, ts := ts, prodIdx := prodIdx, txRoot := txsRoot C txs,
      stateRoot := digest C st, sig := 0#512 }
  let sk ← orThrow (ch.valSks[prodIdx.toNat]?) .panic
  commitBlock st ⟨hdr.signWith C sk, txs⟩ height

/-- Seals one block on the chain itself. -/
def sealEntriesMut (entries : List SealEntry) : EStateM SealFault Chain Unit := fun ch =>
  match sealBody C clock entries ⟨ch, ch.st⟩ with
  | .ok u f => .ok u f.self
  | .error e f => .error e f.self

end Seal

section Equation

variable {C : Crypto} {now : U64} {ch : Chain} {entries : List SealEntry}

theorem popFront_eq_drop (blocks : List Block) :
    popFront blocks = blocks.drop (blocks.length - tailBlockCap) := by
  induction blocks with
  | nil => rfl
  | cons blk rest ih =>
      rw [popFront]
      by_cases hlong : tailBlockCap < (blk :: rest).length
      · have hcut : (blk :: rest).length - tailBlockCap = rest.length - tailBlockCap + 1 := by
          rw [List.length_cons] at hlong ⊢
          omega
        rw [if_pos hlong, ih, hcut, List.drop_succ_cons]
      · rw [if_neg hlong, Nat.sub_eq_zero_of_le (Nat.le_of_not_lt hlong), List.drop_zero]

/-- A failure that hands these transactions back, if it hands back any. -/
def Returns (txs : List SignedTx) (e : SealFault) : Prop :=
  ∀ msg back, e = .abort msg back → back = txs

theorem returns_abort (txs : List SignedTx) (msg : String) : Returns txs (.abort msg txs) := by
  intro _ back h
  exact (SealFault.abort.inj h).2.symm

theorem returns_panic (txs : List SignedTx) : Returns txs .panic := by
  intro _ _ h
  cases h

section Tentative

variable (txs : List SignedTx)

theorem tentative_editCopy (g : State → State) :
    Tentative SealFrame.self (Returns txs) (editCopy g) :=
  tentative_modify fun _ => rfl

theorem tentative_onCopy {α : Type} (x : Ledger α) :
    Tentative SealFrame.self (Returns txs) (onCopy txs x) := by
  intro f
  constructor
  · intro a f' h
    simp only [onCopy] at h
    split at h
    · obtain ⟨_, rfl⟩ := EStateM.Result.ok.inj h
      rfl
    · cases h
    · cases h
  · intro e f' h
    simp only [onCopy] at h
    split at h
    · cases h
    · obtain ⟨rfl, rfl⟩ := EStateM.Result.error.inj h
      exact ⟨rfl, returns_abort txs _⟩
    · obtain ⟨rfl, rfl⟩ := EStateM.Result.error.inj h
      exact ⟨rfl, returns_panic txs⟩

theorem tentative_nextCtx (clock : Except String U64) :
    Tentative SealFrame.self (Returns txs) (nextCtx clock txs) := by
  refine .bind tentative_get fun f => ?_
  refine .bind (tentative_orThrow _ (returns_panic txs)) fun height => ?_
  cases f.self.sealTimeMode with
  | wallClock =>
      exact .bind (tentative_liftExcept (returns_abort txs) clock) fun ts => tentative_pure _
  | deterministicHeight => exact tentative_pure _

end Tentative

/-- Nothing is written to the chain before the last failure point of a seal. -/
theorem sealBody_failsKeeping (clock : Except String U64) (entries : List SealEntry) :
    FailsKeeping SealFrame.self (Returns (entries.map SealEntry.tx)) (sealBody C clock entries) := by
  refine .after tentative_get fun f => ?_
  refine .after (tentative_nextCtx _ clock) fun ctx => ?_
  refine .after (tentative_editCopy _ _) fun _ => ?_
  refine .after (tentative_editCopy _ _) fun _ => ?_
  refine .after tentative_get fun _ => ?_
  refine .after (tentative_liftExcept (returns_abort _) _) fun prodIdx => ?_
  refine .after (tentative_editCopy _ _) fun _ => ?_
  refine .after (tentative_forM (fun entry => tentative_onCopy _ _) entries) fun _ => ?_
  refine .after (tentative_editCopy _ _) fun _ => ?_
  refine .after (tentative_onCopy _ _) fun _ => ?_
  refine .after (tentative_orThrow _ (returns_panic _)) fun prodAcct => ?_
  refine .after tentative_get fun _ => ?_
  refine .after (tentative_require _ (returns_abort _ _)) fun _ => ?_
  refine .after (tentative_editCopy _ _) fun _ => ?_
  refine .after tentative_get fun _ => ?_
  refine .after (tentative_orThrow _ (returns_panic _)) fun sk => ?_
  refine NeverFails.failsKeeping ?_
  refine .bind (neverFails_modify _) fun _ => ?_
  refine .bind (neverFails_modify _) fun _ => ?_
  exact .bind (neverFails_modify _) fun _ => neverFails_modify _

/-- The entries applied to the copy one by one, as one ledger computation. -/
theorem forM_onCopy {α : Type} (txs : List SignedTx) (g : α → Ledger PUnit) (xs : List α) :
    (xs.forM fun x => onCopy txs (g x)) = onCopy txs (xs.forM g) := by
  induction xs with
  | nil => rfl
  | cons x rest ih =>
      funext f
      change (onCopy txs (g x) >>= fun _ => rest.forM fun x => onCopy txs (g x)) f =
        onCopy txs (g x >>= fun _ => rest.forM g) f
      rw [ih]
      cases hx : g x f.st with
      | ok a st => simp only [bind, EStateM.bind, onCopy, hx]
      | error e st => cases e <;> simp only [bind, EStateM.bind, onCopy, hx]

@[simp] theorem onCopy_ok_iff {α : Type} {txs : List SignedTx} {x : Ledger α} {f f' : SealFrame}
    {a : α} : onCopy txs x f = .ok a f' ↔
      ∃ st, x f.st = .ok a st ∧ f' = { f with st := st } := by
  simp only [onCopy]
  cases x f.st with
  | ok b st => simp [eq_comm]
  | error e st => cases e <;> simp

/-- The time that a chain reads off a clock. -/
def Chain.Reads (ch : Chain) (clock : Except String U64) (now : U64) : Prop :=
  ch.sealTimeMode = .wallClock → clock = .ok now

theorem nextCtx_ok_iff {clock : Except String U64} {txs : List SignedTx} {f f' : SealFrame}
    {p : U64 × U64} : nextCtx clock txs f = .ok p f' ↔
      (∃ now, f.self.Reads clock now ∧ f.self.nextApplyCtx now = .ok p) ∧ f = f' := by
  simp only [nextCtx, bind_ok_iff, get_ok_iff, orThrow_ok_iff]
  cases hheight : f.self.tipH.checkedAdd 1#64 with
  | none =>
      constructor
      · rintro ⟨_, _, ⟨rfl, rfl⟩, height, _, ⟨hsome, _⟩, _⟩
        rw [hheight] at hsome
        cases hsome
      · rintro ⟨⟨now, _, hctx⟩, _⟩
        rw [Chain.nextApplyCtx, hheight] at hctx
        cases hctx
  | some height =>
      cases hmode : f.self.sealTimeMode with
      | wallClock =>
          constructor
          · rintro ⟨_, _, ⟨rfl, rfl⟩, _, _, ⟨hsome, rfl⟩, hrest⟩
            obtain rfl := Option.some.inj (hheight.symm.trans hsome)
            simp only [hmode, bind_ok_iff, liftExcept_ok_iff, pure_ok_iff] at hrest
            obtain ⟨now, _, ⟨hclock, rfl⟩, rfl, rfl⟩ := hrest
            exact ⟨⟨now, fun _ => hclock, by simp only [Chain.nextApplyCtx, hheight, hmode]⟩, rfl⟩
          · rintro ⟨⟨now, hreads, hctx⟩, rfl⟩
            simp only [Chain.nextApplyCtx, hheight, hmode] at hctx
            refine ⟨f, f, ⟨rfl, rfl⟩, height, f, ⟨hheight, rfl⟩, ?_⟩
            simp only [hmode, bind_ok_iff, liftExcept_ok_iff, pure_ok_iff]
            exact ⟨now, f, ⟨hreads hmode, rfl⟩, Except.ok.inj hctx, rfl⟩
      | deterministicHeight =>
          constructor
          · rintro ⟨_, _, ⟨rfl, rfl⟩, _, _, ⟨hsome, rfl⟩, hrest⟩
            obtain rfl := Option.some.inj (hheight.symm.trans hsome)
            simp only [hmode, pure_ok_iff] at hrest
            obtain ⟨rfl, rfl⟩ := hrest
            refine ⟨⟨0#64, ?_, by simp only [Chain.nextApplyCtx, hheight, hmode]⟩, rfl⟩
            intro hwall
            rw [hmode] at hwall
            cases hwall
          · rintro ⟨⟨now, _, hctx⟩, rfl⟩
            simp only [Chain.nextApplyCtx, hheight, hmode] at hctx
            refine ⟨f, f, ⟨rfl, rfl⟩, height, f, ⟨hheight, rfl⟩, ?_⟩
            simp only [hmode, pure_ok_iff]
            exact ⟨Except.ok.inj hctx, trivial⟩

theorem commitBlock_ok_iff {st : State} {blk : Block} {f f' : SealFrame} {u : Unit} :
    commitBlock st blk blk.hdr.height f = .ok u f' ↔
      f' = { f with self := f.self.append blk st } := by
  have hself : (({ f.self with
      st := st, blocks := popFront (f.self.blocks ++ [blk]) } : Chain).setCanonH blk.hdr.height) =
        f.self.append blk st := by
    rw [popFront_eq_drop]
    rfl
  simp only [commitBlock, editSelf, bind_ok_iff, modify_ok_iff]
  constructor
  · rintro ⟨_, _, rfl, _, _, rfl, _, _, rfl, rfl⟩
    rw [← hself]
  · rintro rfl
    exact ⟨(), _, rfl, (), _, rfl, (), _, rfl, by rw [← hself]⟩

theorem sealOutcome_ok_iff {α : Type} {txs : List SignedTx} {r : EStateM.Result Fault State α}
    {st : State} : sealOutcome txs r = .ok st ↔ ∃ a, r = .ok a st := by
  cases r with
  | ok a s => simp [sealOutcome]
  | error e s => cases e <;> simp [sealOutcome]

theorem onCopy_bind_ok_iff {α β : Type} {txs : List SignedTx} {x : Ledger α} {g : α → SealM β}
    {f f' : SealFrame} {b : β} : (onCopy txs x >>= g) f = .ok b f' ↔
      ∃ a st, x f.st = .ok a st ∧ g a { f with st := st } = .ok b f' := by
  simp [bind_ok_iff]

theorem nextCtx_bind_ok_iff {β : Type} {clock : Except String U64} {txs : List SignedTx}
    {g : U64 × U64 → SealM β} {f f' : SealFrame} {b : β} :
    (nextCtx clock txs >>= g) f = .ok b f' ↔
      ∃ p, (∃ now, f.self.Reads clock now ∧ f.self.nextApplyCtx now = .ok p) ∧
        g p f = .ok b f' := by
  simp [bind_ok_iff, nextCtx_ok_iff]

/-- A seal in place that succeeds ends in the chain of the pure seal at the time it read. -/
theorem sealEntriesMut_ok_iff {clock : Except String U64} {ch' : Chain} {u : Unit} :
    sealEntriesMut C clock entries ch = .ok u ch' ↔
      ∃ now, ch.Reads clock now ∧ sealEntries C now ch entries = .ok ch' := by
  have hrun : sealEntriesMut C clock entries ch = .ok u ch' ↔
      ∃ f, sealBody C clock entries ⟨ch, ch.st⟩ = .ok u f ∧ f.self = ch' := by
    rw [sealEntriesMut]
    cases sealBody C clock entries ⟨ch, ch.st⟩ with
    | ok u f => simp
    | error e f => simp
  rw [hrun]
  simp only [sealBody, forM_onCopy, editCopy, get_bind_ok_iff, modify_bind_ok_iff,
    onCopy_bind_ok_iff, nextCtx_bind_ok_iff, orThrow_bind_ok_iff, require_bind_ok_iff,
    liftExcept_bind_ok_iff, sealEntries, except_bind_ok_iff, orFail_ok_iff, check_ok_iff,
    mapError_ok_iff, sealOutcome_ok_iff]
  constructor
  · rintro ⟨f, ⟨p, ⟨now, hreads, hctx⟩, prodIdx, hpick, _, st, htxs, _, drained, hdrain, prodAcct,
      hacct, hrow, sk, hsk, hcommit⟩, rfl⟩
    rw [commitBlock_ok_iff.mp hcommit]
    exact ⟨now, hreads, p, hctx, prodIdx, hpick, st, ⟨_, htxs⟩, drained, ⟨_, hdrain⟩, prodAcct,
      hacct, (), hrow, sk, hsk, rfl⟩
  · rintro ⟨now, hreads, p, hctx, prodIdx, hpick, st, ⟨_, htxs⟩, drained, ⟨_, hdrain⟩, prodAcct,
      hacct, _, hrow, sk, hsk, hend⟩
    exact ⟨_, ⟨p, ⟨now, hreads, hctx⟩, prodIdx, hpick, _, st, htxs, _, drained, hdrain, prodAcct,
      hacct, hrow, sk, hsk, commitBlock_ok_iff.mpr rfl⟩, Except.ok.inj hend⟩

/-- The block that a seal appends. -/
theorem sealEntries_append {ch' : Chain} (hok : sealEntries C now ch entries = .ok ch') :
    ∃ blk st, ch.tipH.checkedAdd 1#64 = some blk.hdr.height ∧ blk.hdr.prevHash = ch.tipHash C ∧
      blk.txs = entries.map SealEntry.tx ∧ ch' = ch.append blk st := by
  simp only [sealEntries, except_bind_ok_iff, orFail_ok_iff, check_ok_iff, mapError_ok_iff] at hok
  obtain ⟨⟨height, ts⟩, hctx, prodIdx, _, st, _, drained, _, prodAcct, _, _, _, sk, _, hend⟩ := hok
  refine ⟨_, _, ?_, rfl, rfl, (Except.ok.inj hend).symm⟩
  simp only [Chain.nextApplyCtx] at hctx
  cases hheight : ch.tipH.checkedAdd 1#64 with
  | none => simp [hheight] at hctx
  | some next =>
      have hnext : next = height := by
        simp only [hheight] at hctx
        cases hmode : ch.sealTimeMode with
        | wallClock =>
            rw [hmode] at hctx
            exact congrArg Prod.fst (Except.ok.inj hctx)
        | deterministicHeight =>
            rw [hmode] at hctx
            exact congrArg Prod.fst (Except.ok.inj hctx)
      rw [hnext]
      rfl

end Equation

/-- A seal that fails leaves the chain as it was and hands back the transactions of its entries in
their order. A seal that succeeds raises the height by one and appends a block that follows the old
tip, keeping the last blocks up to the cap. -/
theorem seal_atomic (C : Crypto) (clock : Except String U64) (ch : Chain)
    (entries : List SealEntry) :
    (∀ e ch', sealEntriesMut C clock entries ch = .error e ch' →
      ch' = ch ∧ ∀ msg txs, e = .abort msg txs → txs = entries.map SealEntry.tx) ∧
    ∀ ch', sealEntriesMut C clock entries ch = .ok () ch' →
      ch'.canonicalH.toNat = ch.canonicalH.toNat + 1 ∧
      ∃ blk, blk.hdr.prevHash = ch.tipHash C ∧ blk.txs = entries.map SealEntry.tx ∧
        ch'.blocks.getLast? = some blk ∧ ch'.blocks.length ≤ tailBlockCap ∧
        ch'.blocks = (ch.blocks ++ [blk]).drop ((ch.blocks ++ [blk]).length - tailBlockCap) := by
  constructor
  · intro e ch' herr
    rw [sealEntriesMut] at herr
    cases hbody : sealBody C clock entries ⟨ch, ch.st⟩ with
    | ok u f =>
        rw [hbody] at herr
        cases herr
    | error e' f =>
        rw [hbody] at herr
        obtain ⟨rfl, rfl⟩ := EStateM.Result.error.inj herr
        exact sealBody_failsKeeping clock entries _ _ _ hbody
  · intro ch' hok
    obtain ⟨now, _, hseal⟩ := sealEntriesMut_ok_iff.mp hok
    obtain ⟨blk, st, hheight, hprev, htxs, rfl⟩ := sealEntries_append hseal
    have hblocks : (ch.append blk st).blocks =
        (ch.blocks ++ [blk]).drop ((ch.blocks ++ [blk]).length - tailBlockCap) := by
      simp only [Chain.append, Chain.pushBlock, Chain.setCanonH]
    refine ⟨checkedAdd_eq_some_iff.mp hheight, blk, hprev, htxs, Chain.append_getLast? ch blk st, ?_,
      hblocks⟩
    rw [hblocks, List.length_drop]
    omega

end Pwm
