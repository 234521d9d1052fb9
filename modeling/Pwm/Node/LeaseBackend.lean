import Pwm.Core.Types
import Pwm.Lib.Run

/-!
# Lease backends

A lease backend keeps one record for each validator identity. A record is
written by the first to ask for it, kept by its owner, given up by its owner,
and taken over by whoever knows its term, its fence and its expiry. One backend
keeps the records in memory and one in files.
-/

namespace Pwm

open BitVec

structure LeaseRec where
  ownerId : String
  validatorIdentityHash : String
  term : U64
  fence : U64
  expiry : U64
  lastTip : U64
  updatedAt : U64
  deriving DecidableEq

structure LeaseGrant where
  vh : String
  owner : String
  nowMs : U64
  tipH : U64
  ttlMs : U64
  deriving DecidableEq

structure LeaseKeep where
  vh : String
  owner : String
  expTerm : U64
  expFence : U64
  nowMs : U64
  tipH : U64
  ttlMs : U64
  deriving DecidableEq

structure LeaseTake where
  vh : String
  owner : String
  expTerm : U64
  expFence : U64
  expExpiry : U64
  nowMs : U64
  tipH : U64
  ttlMs : U64
  deriving DecidableEq

structure LeaseDrop where
  vh : String
  owner : String
  expTerm : U64
  expFence : U64
  deriving DecidableEq

inductive AcquireRes
  | acquired (next : LeaseRec)
  | held (cur : LeaseRec)
  deriving DecidableEq

inductive RenewRes
  | renewed (next : LeaseRec)
  | lost (cur : Option LeaseRec)
  deriving DecidableEq

inductive TakeRes
  | taken (next : LeaseRec)
  | casMiss (cur : LeaseRec)
  | missing
  deriving DecidableEq

inductive ReleaseRes
  | released
  | notOwner
  deriving DecidableEq

/-- The operations of a backend, with the state it keeps. -/
structure LeaseBackend (σ : Type) where
  acquire : LeaseGrant → σ → Except String AcquireRes × σ
  renew : LeaseKeep → σ → Except String RenewRes × σ
  release : LeaseDrop → σ → Except String ReleaseRes × σ
  takeover : LeaseTake → σ → Except String TakeRes × σ

def mkRec (vh owner : String) (nowMs tipH ttlMs term fence : U64) : LeaseRec where
  ownerId := owner
  validatorIdentityHash := vh
  term := term
  fence := fence
  expiry := nowMs.saturatingAdd ttlMs
  lastTip := tipH
  updatedAt := nowMs

/-- The record of a lease that its owner keeps. -/
def LeaseRec.kept (cur : LeaseRec) (req : LeaseKeep) : LeaseRec :=
  { cur with
    expiry := req.nowMs.saturatingAdd req.ttlMs
    lastTip := req.tipH
    updatedAt := req.nowMs }

/-- The record of a lease after a takeover. -/
def LeaseRec.takenOver (cur : LeaseRec) (req : LeaseTake) : LeaseRec :=
  mkRec req.vh req.owner req.nowMs req.tipH req.ttlMs (cur.term.saturatingAdd 1#64)
    (cur.fence.saturatingAdd 1#64)

/-- Whether a record is not the one that its owner expects, or is over. -/
def LeaseRec.lostTo (cur : LeaseRec) (req : LeaseKeep) : Bool :=
  decide (cur.ownerId ≠ req.owner ∨ cur.term ≠ req.expTerm ∨ cur.fence ≠ req.expFence ∨
    cur.expiry < req.nowMs)

def LeaseRec.notOwnedBy (cur : LeaseRec) (req : LeaseDrop) : Bool :=
  decide (cur.ownerId ≠ req.owner ∨ cur.term ≠ req.expTerm ∨ cur.fence ≠ req.expFence)

def LeaseRec.movedSince (cur : LeaseRec) (req : LeaseTake) : Bool :=
  decide (cur.term ≠ req.expTerm ∨ cur.fence ≠ req.expFence ∨ cur.expiry ≠ req.expExpiry)

theorem lostTo_owner {cur : LeaseRec} {req : LeaseKeep} (h : cur.lostTo req = false) :
    cur.ownerId = req.owner := by
  by_contra hne
  exact of_decide_eq_false h (.inl hne)

theorem notOwnedBy_owner {cur : LeaseRec} {req : LeaseDrop} (h : cur.notOwnedBy req = false) :
    cur.ownerId = req.owner := by
  by_contra hne
  exact of_decide_eq_false h (.inl hne)

theorem movedSince_expiry {cur : LeaseRec} {req : LeaseTake} (h : cur.movedSince req = false) :
    cur.expiry = req.expExpiry := by
  by_contra hne
  exact of_decide_eq_false h (.inr (.inr hne))

/-! ## Records in memory -/

/-- The records by validator identity. -/
abbrev LeaseStore := String → Option LeaseRec

def processLocalLeaseBackend : LeaseBackend LeaseStore where
  acquire req s :=
    match s req.vh with
    | none =>
        let next := mkRec req.vh req.owner req.nowMs req.tipH req.ttlMs 1#64 1#64
        (.ok (.acquired next), Function.update s req.vh (some next))
    | some cur => (.ok (.held cur), s)
  renew req s :=
    match s req.vh with
    | none => (.ok (.lost none), s)
    | some cur =>
        if cur.lostTo req then (.ok (.lost (some cur)), s)
        else (.ok (.renewed (cur.kept req)), Function.update s req.vh (some (cur.kept req)))
  release req s :=
    match s req.vh with
    | none => (.ok .notOwner, s)
    | some cur =>
        if cur.notOwnedBy req then (.ok .notOwner, s)
        else (.ok .released, Function.update s req.vh none)
  takeover req s :=
    match s req.vh with
    | none => (.ok .missing, s)
    | some cur =>
        if cur.movedSince req then (.ok (.casMiss cur), s)
        else (.ok (.taken (cur.takenOver req)), Function.update s req.vh (some (cur.takenOver req)))

/-! ## Records in files -/

/-- What a record file holds. -/
inductive LeaseFile
  | corrupt
  | valid (content : LeaseRec)
  deriving DecidableEq

/-- The record files by name. -/
abbrev LeaseDir := String → Option LeaseFile

def leasePathFor (vh : String) : String := vh ++ ".lease.json"

/-- The record in the file of a validator identity. -/
def readChecked (dir : LeaseDir) (vh : String) : Except String (Option LeaseRec) :=
  match dir (leasePathFor vh) with
  | none => .ok none
  | some .corrupt => .error ("lease_backend_corrupt_record path=" ++ leasePathFor vh)
  | some (.valid cur) =>
      if cur.validatorIdentityHash ≠ vh then
        .error ("lease_backend_validator_mismatch path=" ++ leasePathFor vh ++ " expected=" ++ vh ++
          " actual=" ++ cur.validatorIdentityHash)
      else .ok (some cur)

def writeRec (dir : LeaseDir) (vh : String) (next : LeaseRec) : LeaseDir :=
  Function.update dir (leasePathFor vh) (some (.valid next))

def delRec (dir : LeaseDir) (vh : String) : LeaseDir :=
  Function.update dir (leasePathFor vh) none

def fileLeaseBackend : LeaseBackend LeaseDir where
  acquire req dir :=
    match readChecked dir req.vh with
    | .error e => (.error e, dir)
    | .ok none =>
        let next := mkRec req.vh req.owner req.nowMs req.tipH req.ttlMs 1#64 1#64
        (.ok (.acquired next), writeRec dir req.vh next)
    | .ok (some cur) => (.ok (.held cur), dir)
  renew req dir :=
    match readChecked dir req.vh with
    | .error e => (.error e, dir)
    | .ok none => (.ok (.lost none), dir)
    | .ok (some cur) =>
        if cur.lostTo req then (.ok (.lost (some cur)), dir)
        else (.ok (.renewed (cur.kept req)), writeRec dir req.vh (cur.kept req))
  release req dir :=
    match readChecked dir req.vh with
    | .error e => (.error e, dir)
    | .ok none => (.ok .notOwner, dir)
    | .ok (some cur) =>
        if cur.notOwnedBy req then (.ok .notOwner, dir)
        else (.ok .released, delRec dir req.vh)
  takeover req dir :=
    match readChecked dir req.vh with
    | .error e => (.error e, dir)
    | .ok none => (.ok .missing, dir)
    | .ok (some cur) =>
        if cur.movedSince req then (.ok (.casMiss cur), dir)
        else (.ok (.taken (cur.takenOver req)), writeRec dir req.vh (cur.takenOver req))

/-! ## The records that a backend holds -/

section Refinement

variable {σ α : Type}

/-- An operation fails and leaves the records, or does what the one on records in memory does. -/
def SameResult (view : σ → LeaseStore) (s : σ) (out : Except String α × σ)
    (ref : Except String α × LeaseStore) : Prop :=
  (∃ e, out.1 = .error e ∧ view out.2 = view s) ∨ (out.1 = ref.1 ∧ view out.2 = ref.2)

/-- The backend behaves as one that keeps the records of the view in memory. -/
structure LeaseBackend.Refines (B : LeaseBackend σ) (view : σ → LeaseStore) : Prop where
  acquire : ∀ req s, SameResult view s (B.acquire req s)
    (processLocalLeaseBackend.acquire req (view s))
  renew : ∀ req s, SameResult view s (B.renew req s) (processLocalLeaseBackend.renew req (view s))
  release : ∀ req s, SameResult view s (B.release req s)
    (processLocalLeaseBackend.release req (view s))
  takeover : ∀ req s, SameResult view s (B.takeover req s)
    (processLocalLeaseBackend.takeover req (view s))

theorem processLocal_refines : processLocalLeaseBackend.Refines id where
  acquire _ _ := .inr ⟨rfl, rfl⟩
  renew _ _ := .inr ⟨rfl, rfl⟩
  release _ _ := .inr ⟨rfl, rfl⟩
  takeover _ _ := .inr ⟨rfl, rfl⟩

/-- The records that can be read from the files. -/
def fileView (dir : LeaseDir) : LeaseStore := fun vh =>
  match readChecked dir vh with
  | .ok cur => cur
  | .error _ => none

theorem leasePathFor_injective : Function.Injective leasePathFor := by
  intro a b h
  have hlist := congrArg String.toList h
  simp only [leasePathFor, String.toList_append] at hlist
  exact String.toList_inj.mp (List.append_cancel_right hlist)

theorem fileView_of_readChecked {dir : LeaseDir} {vh : String} {cur : Option LeaseRec}
    (h : readChecked dir vh = .ok cur) : fileView dir vh = cur := by
  simp only [fileView, h]

theorem readChecked_update (dir : LeaseDir) (vh other : String) (file : Option LeaseFile)
    (hne : other ≠ vh) :
    readChecked (Function.update dir (leasePathFor vh) file) other = readChecked dir other := by
  have hpath : leasePathFor other ≠ leasePathFor vh := fun h => hne (leasePathFor_injective h)
  simp only [readChecked, Function.update_of_ne hpath]

theorem fileView_writeRec (dir : LeaseDir) {vh : String} {next : LeaseRec}
    (hvh : next.validatorIdentityHash = vh) :
    fileView (writeRec dir vh next) = Function.update (fileView dir) vh (some next) := by
  funext other
  by_cases hne : other = vh
  · subst hne
    simp [fileView, writeRec, readChecked, hvh]
  · rw [Function.update_of_ne hne]
    simp only [fileView, writeRec, readChecked_update dir vh other _ hne]

theorem fileView_delRec (dir : LeaseDir) (vh : String) :
    fileView (delRec dir vh) = Function.update (fileView dir) vh none := by
  funext other
  by_cases hne : other = vh
  · subst hne
    simp [fileView, delRec, readChecked]
  · rw [Function.update_of_ne hne]
    simp only [fileView, delRec, readChecked_update dir vh other _ hne]

theorem readChecked_vh {dir : LeaseDir} {vh : String} {cur : LeaseRec}
    (h : readChecked dir vh = .ok (some cur)) : cur.validatorIdentityHash = vh := by
  unfold readChecked at h
  split at h
  · cases h
  · cases h
  · split at h
    · cases h
    · rename_i hvh
      obtain rfl := Option.some.inj (Except.ok.inj h)
      exact not_not.mp hvh

theorem fileLease_refines : fileLeaseBackend.Refines fileView where
  acquire req dir := by
    cases hread : readChecked dir req.vh with
    | error e => exact .inl ⟨e, by simp [fileLeaseBackend, hread]⟩
    | ok found =>
        refine .inr ?_
        have hview := fileView_of_readChecked hread
        cases found with
        | none =>
            simp only [fileLeaseBackend, processLocalLeaseBackend, hread, hview]
            exact ⟨trivial, fileView_writeRec dir rfl⟩
        | some cur => simp [fileLeaseBackend, processLocalLeaseBackend, hread, hview]
  renew req dir := by
    cases hread : readChecked dir req.vh with
    | error e => exact .inl ⟨e, by simp [fileLeaseBackend, hread]⟩
    | ok found =>
        refine .inr ?_
        have hview := fileView_of_readChecked hread
        cases found with
        | none => simp [fileLeaseBackend, processLocalLeaseBackend, hread, hview]
        | some cur =>
            have hvh : cur.validatorIdentityHash = req.vh := readChecked_vh hread
            have hkept : (cur.kept req).validatorIdentityHash = req.vh := hvh
            cases hlost : cur.lostTo req with
            | true => simp [fileLeaseBackend, processLocalLeaseBackend, hread, hview, hlost]
            | false =>
                simp [fileLeaseBackend, processLocalLeaseBackend, hread, hview, hlost,
                  fileView_writeRec dir hkept]
  release req dir := by
    cases hread : readChecked dir req.vh with
    | error e => exact .inl ⟨e, by simp [fileLeaseBackend, hread]⟩
    | ok found =>
        refine .inr ?_
        have hview := fileView_of_readChecked hread
        cases found with
        | none => simp [fileLeaseBackend, processLocalLeaseBackend, hread, hview]
        | some cur =>
            cases hother : cur.notOwnedBy req with
            | true => simp [fileLeaseBackend, processLocalLeaseBackend, hread, hview, hother]
            | false =>
                simp [fileLeaseBackend, processLocalLeaseBackend, hread, hview, hother,
                  fileView_delRec]
  takeover req dir := by
    cases hread : readChecked dir req.vh with
    | error e => exact .inl ⟨e, by simp [fileLeaseBackend, hread]⟩
    | ok found =>
        refine .inr ?_
        have hview := fileView_of_readChecked hread
        cases found with
        | none => simp [fileLeaseBackend, processLocalLeaseBackend, hread, hview]
        | some cur =>
            have htaken : (cur.takenOver req).validatorIdentityHash = req.vh := rfl
            cases hmoved : cur.movedSince req with
            | true => simp [fileLeaseBackend, processLocalLeaseBackend, hread, hview, hmoved]
            | false =>
                simp [fileLeaseBackend, processLocalLeaseBackend, hread, hview, hmoved,
                  fileView_writeRec dir htaken]

end Refinement

/-! ## Calls of a backend -/

/-- A call of a backend and what it returned. -/
inductive LeaseCall
  | acquire (req : LeaseGrant) (out : Except String AcquireRes)
  | renew (req : LeaseKeep) (out : Except String RenewRes)
  | release (req : LeaseDrop) (out : Except String ReleaseRes)
  | takeover (req : LeaseTake) (out : Except String TakeRes)

/-- A call is made, or it fails for a reason outside the records and leaves them as they are. -/
inductive StoreStep {σ : Type} (B : LeaseBackend σ) : σ → LeaseCall → σ → Prop
  | acquire (s : σ) (req : LeaseGrant) :
      StoreStep B s (.acquire req (B.acquire req s).1) (B.acquire req s).2
  | renew (s : σ) (req : LeaseKeep) :
      StoreStep B s (.renew req (B.renew req s).1) (B.renew req s).2
  | release (s : σ) (req : LeaseDrop) :
      StoreStep B s (.release req (B.release req s).1) (B.release req s).2
  | takeover (s : σ) (req : LeaseTake) :
      StoreStep B s (.takeover req (B.takeover req s).1) (B.takeover req s).2
  | acquireFails (s : σ) (req : LeaseGrant) (e : String) :
      StoreStep B s (.acquire req (.error e)) s
  | renewFails (s : σ) (req : LeaseKeep) (e : String) : StoreStep B s (.renew req (.error e)) s
  | releaseFails (s : σ) (req : LeaseDrop) (e : String) :
      StoreStep B s (.release req (.error e)) s
  | takeoverFails (s : σ) (req : LeaseTake) (e : String) :
      StoreStep B s (.takeover req (.error e)) s

namespace LeaseCall

def vh : LeaseCall → String
  | acquire req _ => req.vh
  | renew req _ => req.vh
  | release req _ => req.vh
  | takeover req _ => req.vh

/-- The record that a call granted. -/
def grant : LeaseCall → Option LeaseRec
  | acquire _ (.ok (.acquired next)) => some next
  | renew _ (.ok (.renewed next)) => some next
  | takeover _ (.ok (.taken next)) => some next
  | _ => none

/-- Whether a call removed a record. -/
def removes : LeaseCall → Bool
  | release _ (.ok .released) => true
  | _ => false

end LeaseCall

/-- The ways in which a call changes the records. -/
inductive StoreChange : LeaseStore → LeaseCall → LeaseStore → Prop
  | same {s : LeaseStore} {call : LeaseCall} (hgrant : call.grant = none)
      (hkeeps : call.removes = false) : StoreChange s call s
  | acquired {s : LeaseStore} {req : LeaseGrant} {next : LeaseRec} (hnone : s req.vh = none)
      (hnext : next = mkRec req.vh req.owner req.nowMs req.tipH req.ttlMs 1#64 1#64) :
      StoreChange s (.acquire req (.ok (.acquired next))) (Function.update s req.vh (some next))
  | renewed {s : LeaseStore} {req : LeaseKeep} {cur : LeaseRec} (hcur : s req.vh = some cur)
      (hheld : cur.lostTo req = false) :
      StoreChange s (.renew req (.ok (.renewed (cur.kept req))))
        (Function.update s req.vh (some (cur.kept req)))
  | released {s : LeaseStore} {req : LeaseDrop} {cur : LeaseRec} (hcur : s req.vh = some cur)
      (howned : cur.notOwnedBy req = false) :
      StoreChange s (.release req (.ok .released)) (Function.update s req.vh none)
  | taken {s : LeaseStore} {req : LeaseTake} {cur : LeaseRec} (hcur : s req.vh = some cur)
      (hstill : cur.movedSince req = false) :
      StoreChange s (.takeover req (.ok (.taken (cur.takenOver req))))
        (Function.update s req.vh (some (cur.takenOver req)))

section Changes

variable {σ : Type} {B : LeaseBackend σ} {view : σ → LeaseStore} {s s' : σ} {call : LeaseCall}

theorem processLocal_acquire (s : LeaseStore) (req : LeaseGrant) :
    StoreChange s (.acquire req (processLocalLeaseBackend.acquire req s).1)
      (processLocalLeaseBackend.acquire req s).2 := by
  cases hcur : s req.vh with
  | none =>
      simp only [processLocalLeaseBackend, hcur]
      exact .acquired hcur rfl
  | some cur =>
      simp only [processLocalLeaseBackend, hcur]
      exact .same rfl rfl

theorem processLocal_renew (s : LeaseStore) (req : LeaseKeep) :
    StoreChange s (.renew req (processLocalLeaseBackend.renew req s).1)
      (processLocalLeaseBackend.renew req s).2 := by
  cases hcur : s req.vh with
  | none =>
      simp only [processLocalLeaseBackend, hcur]
      exact .same rfl rfl
  | some cur =>
      cases hlost : cur.lostTo req with
      | true =>
          simp only [processLocalLeaseBackend, hcur, hlost, if_true]
          exact .same rfl rfl
      | false =>
          simp only [processLocalLeaseBackend, hcur, hlost, Bool.false_eq_true, if_false]
          exact .renewed hcur hlost

theorem processLocal_release (s : LeaseStore) (req : LeaseDrop) :
    StoreChange s (.release req (processLocalLeaseBackend.release req s).1)
      (processLocalLeaseBackend.release req s).2 := by
  cases hcur : s req.vh with
  | none =>
      simp only [processLocalLeaseBackend, hcur]
      exact .same rfl rfl
  | some cur =>
      cases hother : cur.notOwnedBy req with
      | true =>
          simp only [processLocalLeaseBackend, hcur, hother, if_true]
          exact .same rfl rfl
      | false =>
          simp only [processLocalLeaseBackend, hcur, hother, Bool.false_eq_true, if_false]
          exact .released hcur hother

theorem processLocal_takeover (s : LeaseStore) (req : LeaseTake) :
    StoreChange s (.takeover req (processLocalLeaseBackend.takeover req s).1)
      (processLocalLeaseBackend.takeover req s).2 := by
  cases hcur : s req.vh with
  | none =>
      simp only [processLocalLeaseBackend, hcur]
      exact .same rfl rfl
  | some cur =>
      cases hmoved : cur.movedSince req with
      | true =>
          simp only [processLocalLeaseBackend, hcur, hmoved, if_true]
          exact .same rfl rfl
      | false =>
          simp only [processLocalLeaseBackend, hcur, hmoved, Bool.false_eq_true, if_false]
          exact .taken hcur hmoved

/-- A call of a backend changes the records in one of these ways. -/
theorem storeStep_change (hB : B.Refines view) (h : StoreStep B s call s') :
    StoreChange (view s) call (view s') := by
  cases h with
  | acquire req =>
      rcases hB.acquire req s with ⟨e, hout, hview⟩ | ⟨hout, hview⟩
      · rw [hout, hview]
        exact .same rfl rfl
      · rw [hout, hview]
        exact processLocal_acquire _ _
  | renew req =>
      rcases hB.renew req s with ⟨e, hout, hview⟩ | ⟨hout, hview⟩
      · rw [hout, hview]
        exact .same rfl rfl
      · rw [hout, hview]
        exact processLocal_renew _ _
  | release req =>
      rcases hB.release req s with ⟨e, hout, hview⟩ | ⟨hout, hview⟩
      · rw [hout, hview]
        exact .same rfl rfl
      · rw [hout, hview]
        exact processLocal_release _ _
  | takeover req =>
      rcases hB.takeover req s with ⟨e, hout, hview⟩ | ⟨hout, hview⟩
      · rw [hout, hview]
        exact .same rfl rfl
      · rw [hout, hview]
        exact processLocal_takeover _ _
  | acquireFails => exact .same rfl rfl
  | renewFails => exact .same rfl rfl
  | releaseFails => exact .same rfl rfl
  | takeoverFails => exact .same rfl rfl

end Changes

end Pwm
