import Pwm.Node.LeaseBackend

/-!
# Fences over a whole history

A takeover raises the fence of the record, and a renewal leaves it. A release
removes the record and its fence with it, so that the next acquisition starts
again from one.
-/

namespace Pwm

open BitVec

/-- The records granted for a validator identity, oldest first. -/
def grantsOf (calls : List LeaseCall) (vh : String) : List LeaseRec :=
  (calls.filter fun call => decide (call.vh = vh)).filterMap LeaseCall.grant

/-- A grant to another owner than that of the grant before has a greater fence than every grant
before. -/
def FencesIncrease (calls : List LeaseCall) : Prop :=
  ∀ before call after next prev, calls = before ++ call :: after → call.grant = some next →
    (grantsOf before call.vh).getLast? = some prev → prev.ownerId ≠ next.ownerId →
    ∀ earlier ∈ grantsOf before call.vh, earlier.fence < next.fence

/-- No record is acquired after one was removed. -/
def NoReacquire (calls : List LeaseCall) : Prop :=
  ∀ before req next after, calls = before ++ .acquire req (.ok (.acquired next)) :: after →
    ∀ call ∈ before, call.vh = req.vh → call.removes = false

/-- A call that takes a record over finds a fence that can be raised. -/
def LeaseCall.FenceFits (s : LeaseStore) : LeaseCall → Prop
  | .takeover req _ => ∀ cur, s req.vh = some cur → cur.fence ≠ allOnes 64
  | _ => True

theorem grantsOf_snoc (calls : List LeaseCall) (call : LeaseCall) (vh : String) :
    grantsOf (calls ++ [call]) vh =
      grantsOf calls vh ++ if call.vh = vh then call.grant.toList else [] := by
  unfold grantsOf
  rw [List.filter_append, List.filterMap_append]
  by_cases hvh : call.vh = vh
  · cases hgrant : call.grant <;> simp [hvh, hgrant]
  · simp [hvh]

theorem grantsOf_snoc_none {call : LeaseCall} (h : call.grant = none) (calls : List LeaseCall)
    (vh : String) : grantsOf (calls ++ [call]) vh = grantsOf calls vh := by
  rw [grantsOf_snoc, h]
  split <;> simp

theorem grantsOf_snoc_other {call : LeaseCall} {vh : String} (h : call.vh ≠ vh)
    (calls : List LeaseCall) : grantsOf (calls ++ [call]) vh = grantsOf calls vh := by
  rw [grantsOf_snoc, if_neg h, List.append_nil]

theorem grantsOf_snoc_some {call : LeaseCall} {next : LeaseRec} (h : call.grant = some next)
    (calls : List LeaseCall) :
    grantsOf (calls ++ [call]) call.vh = grantsOf calls call.vh ++ [next] := by
  rw [grantsOf_snoc, if_pos rfl, h]
  rfl

theorem NoReacquire.init {calls : List LeaseCall} {call : LeaseCall}
    (h : NoReacquire (calls ++ [call])) : NoReacquire calls := by
  intro before req next after hsplit
  exact h before req next (after ++ [call]) (by rw [hsplit]; simp)

/-- It is enough to look at the last call. -/
theorem FencesIncrease.snoc {calls : List LeaseCall} {call : LeaseCall} (h : FencesIncrease calls)
    (hlast : ∀ next prev, call.grant = some next → (grantsOf calls call.vh).getLast? = some prev →
      prev.ownerId ≠ next.ownerId → ∀ earlier ∈ grantsOf calls call.vh, earlier.fence < next.fence) :
    FencesIncrease (calls ++ [call]) := by
  intro before found after next prev hsplit hgrant hprev hne
  rcases List.eq_nil_or_concat after with rfl | ⟨init, last, rfl⟩
  · obtain ⟨rfl, hcall⟩ := List.append_inj' hsplit rfl
    obtain rfl := List.singleton_inj.mp hcall
    exact hlast next prev hgrant hprev hne
  · have hinit : calls = before ++ found :: init := by
      have hlists : calls ++ [call] = (before ++ found :: init) ++ [last] := by
        rw [hsplit]
        simp
      exact (List.append_inj' hlists rfl).1
    exact h before found init next prev hinit hgrant hprev hne

/-! ## The record bounds every fence before -/

/-- The record has the greatest fence and the owner of the last grant, and without a record nothing
was granted or something was removed. -/
structure FenceInv (calls : List LeaseCall) (s : LeaseStore) : Prop where
  bound : ∀ vh cur, s vh = some cur → ∀ g ∈ grantsOf calls vh, g.fence ≤ cur.fence
  owner : ∀ vh cur, s vh = some cur → ∀ prev, (grantsOf calls vh).getLast? = some prev →
    prev.ownerId = cur.ownerId
  missing : ∀ vh, s vh = none → (∃ call ∈ calls, call.vh = vh ∧ call.removes = true) ∨
    grantsOf calls vh = []

variable {calls : List LeaseCall} {s s' : LeaseStore} {call : LeaseCall}

/-- A call that grants a record, which then bounds every grant so far. -/
theorem FenceInv.granted (h : FenceInv calls s) {next : LeaseRec} (hgrant : call.grant = some next)
    (hbound : ∀ g ∈ grantsOf calls call.vh, g.fence ≤ next.fence) :
    FenceInv (calls ++ [call]) (Function.update s call.vh (some next)) := by
  refine ⟨?_, ?_, ?_⟩
  · intro vh cur hcur g hg
    by_cases hvh : vh = call.vh
    · subst hvh
      rw [Function.update_self] at hcur
      obtain rfl := Option.some.inj hcur
      rw [grantsOf_snoc_some hgrant] at hg
      rcases List.mem_append.mp hg with hg | hg
      · exact hbound g hg
      · obtain rfl := List.mem_singleton.mp hg
        exact BitVec.le_refl _
    · rw [Function.update_of_ne hvh] at hcur
      rw [grantsOf_snoc_other (Ne.symm hvh)] at hg
      exact h.bound vh cur hcur g hg
  · intro vh cur hcur prev hprev
    by_cases hvh : vh = call.vh
    · subst hvh
      rw [Function.update_self] at hcur
      obtain rfl := Option.some.inj hcur
      rw [grantsOf_snoc_some hgrant, List.getLast?_concat] at hprev
      rw [Option.some.inj hprev]
    · rw [Function.update_of_ne hvh] at hcur
      rw [grantsOf_snoc_other (Ne.symm hvh)] at hprev
      exact h.owner vh cur hcur prev hprev
  · intro vh hnone
    by_cases hvh : vh = call.vh
    · rw [hvh, Function.update_self] at hnone
      cases hnone
    · rw [Function.update_of_ne hvh] at hnone
      rw [grantsOf_snoc_other (Ne.symm hvh)]
      rcases h.missing vh hnone with ⟨found, hfound, hrest⟩ | hnil
      · exact .inl ⟨found, List.mem_append_left _ hfound, hrest⟩
      · exact .inr hnil

theorem FenceInv.kept (h : FenceInv calls s) (hgrant : call.grant = none) :
    FenceInv (calls ++ [call]) s := by
  refine ⟨?_, ?_, ?_⟩
  · intro vh cur hcur g hg
    rw [grantsOf_snoc_none hgrant] at hg
    exact h.bound vh cur hcur g hg
  · intro vh cur hcur prev hprev
    rw [grantsOf_snoc_none hgrant] at hprev
    exact h.owner vh cur hcur prev hprev
  · intro vh hnone
    rw [grantsOf_snoc_none hgrant]
    rcases h.missing vh hnone with ⟨found, hfound, hrest⟩ | hnil
    · exact .inl ⟨found, List.mem_append_left _ hfound, hrest⟩
    · exact .inr hnil

theorem FenceInv.removed (h : FenceInv calls s) (hgrant : call.grant = none)
    (hremoves : call.removes = true) :
    FenceInv (calls ++ [call]) (Function.update s call.vh none) := by
  have hkept := h.kept hgrant
  refine ⟨?_, ?_, ?_⟩
  · intro vh cur hcur
    by_cases hvh : vh = call.vh
    · rw [hvh, Function.update_self] at hcur
      cases hcur
    · rw [Function.update_of_ne hvh] at hcur
      exact hkept.bound vh cur hcur
  · intro vh cur hcur
    by_cases hvh : vh = call.vh
    · rw [hvh, Function.update_self] at hcur
      cases hcur
    · rw [Function.update_of_ne hvh] at hcur
      exact hkept.owner vh cur hcur
  · intro vh hnone
    by_cases hvh : vh = call.vh
    · exact .inl ⟨call, by simp, hvh.symm, hremoves⟩
    · rw [Function.update_of_ne hvh] at hnone
      exact hkept.missing vh hnone

theorem fence_saturatingAdd {x : U64} (h : x ≠ allOnes 64) : x < x.saturatingAdd 1#64 := by
  have hmax : x.toNat ≠ 2 ^ 64 - 1 := by
    intro hx
    apply h
    apply eq_of_toNat_eq
    rw [hx, toNat_allOnes]
  have hlt := x.isLt
  have hone : (1#64).toNat = 1 := rfl
  rw [BitVec.lt_def, toNat_saturatingAdd_of_fits (by omega), hone]
  omega

/-- What a call keeps, and that its own grant has a greater fence when the owner changes. -/
theorem fenceInv_step (h : FenceInv calls s) (hincrease : FencesIncrease calls)
    (hno : NoReacquire (calls ++ [call])) (hfits : call.FenceFits s)
    (hstep : StoreChange s call s') :
    FenceInv (calls ++ [call]) s' ∧ FencesIncrease (calls ++ [call]) := by
  cases hstep with
  | same hgrant hkeeps =>
      refine ⟨h.kept hgrant, hincrease.snoc ?_⟩
      intro next prev hnext
      rw [hgrant] at hnext
      cases hnext
  | acquired hnone hnext =>
      rename_i req next
      have hempty : grantsOf calls req.vh = [] := by
        rcases h.missing req.vh hnone with ⟨found, hfound, hvh, hremoves⟩ | hnil
        · have hkeeps := hno calls req next [] rfl found hfound hvh
          rw [hremoves] at hkeeps
          cases hkeeps
        · exact hnil
      have hcalls : grantsOf calls (LeaseCall.acquire req (.ok (.acquired next))).vh = [] := hempty
      refine ⟨@FenceInv.granted calls s (.acquire req (.ok (.acquired next))) h next rfl ?_,
        hincrease.snoc ?_⟩
      · intro g hg
        rw [hcalls] at hg
        cases hg
      · intro _ prev _ hprev
        rw [hcalls] at hprev
        cases hprev
  | renewed hcur hheld =>
      rename_i req cur
      refine ⟨@FenceInv.granted calls s (.renew req (.ok (.renewed (cur.kept req)))) h _ rfl ?_,
        hincrease.snoc ?_⟩
      · exact h.bound req.vh cur hcur
      · intro next prev hnext hprev hne
        obtain rfl := Option.some.inj hnext
        exact absurd (h.owner req.vh cur hcur prev hprev) hne
  | released hcur howned =>
      refine ⟨h.removed rfl rfl, hincrease.snoc ?_⟩
      intro next prev hnext
      cases hnext
  | taken hcur hstill =>
      rename_i req cur
      have hgreater : cur.fence < (cur.takenOver req).fence :=
        fence_saturatingAdd (hfits cur hcur)
      have hbelow : ∀ g ∈ grantsOf calls req.vh, g.fence < (cur.takenOver req).fence := by
        intro g hg
        have hle := BitVec.le_def.mp (h.bound req.vh cur hcur g hg)
        exact BitVec.lt_def.mpr (hle.trans_lt (BitVec.lt_def.mp hgreater))
      refine ⟨@FenceInv.granted calls s (.takeover req (.ok (.taken (cur.takenOver req)))) h _ rfl ?_,
        hincrease.snoc ?_⟩
      · exact fun g hg => BitVec.le_of_lt (hbelow g hg)
      · intro next prev hnext _ _
        obtain rfl := Option.some.inj hnext
        exact hbelow

theorem fences_increase_of_refines {σ : Type} {B : LeaseBackend σ} {view : σ → LeaseStore}
    (hB : B.Refines view) {s₀ s₁ : σ}
    (hrun : Run (fun s call s' => StoreStep B s call s' ∧ call.FenceFits (view s)) s₀ calls s₁)
    (hno : NoReacquire calls) : FencesIncrease calls := by
  have hinv : NoReacquire calls → FenceInv calls (view s₁) ∧ FencesIncrease calls := by
    refine hrun.history_invariant (I := fun calls s =>
      NoReacquire calls → FenceInv calls (view s) ∧ FencesIncrease calls) ?_ ?_
    · rintro calls s call s' ih ⟨hstep, hfits⟩ hno
      obtain ⟨hinv, hincrease⟩ := ih hno.init
      exact fenceInv_step hinv hincrease hno hfits (storeStep_change hB hstep)
    · intro _
      refine ⟨⟨?_, ?_, ?_⟩, ?_⟩
      · intro _ _ _ g hg
        cases hg
      · intro _ _ _ prev hprev
        cases hprev
      · exact fun _ _ => .inr rfl
      · intro before call after next prev hsplit
        simp at hsplit
  exact (hinv hno).2

/-- With either backend, when nothing is acquired after a removal and no fence is at its greatest
value, a grant to another owner has a greater fence than every grant before. -/
theorem fences_increase (hno : NoReacquire calls) :
    (∀ s₀ s₁, Run (fun s call s' => StoreStep processLocalLeaseBackend s call s' ∧
        call.FenceFits s) s₀ calls s₁ → FencesIncrease calls) ∧
      ∀ s₀ s₁, Run (fun s call s' => StoreStep fileLeaseBackend s call s' ∧
        call.FenceFits (fileView s)) s₀ calls s₁ → FencesIncrease calls := by
  constructor
  · intro s₀ s₁ hrun
    exact fences_increase_of_refines processLocal_refines hrun hno
  · intro s₀ s₁ hrun
    exact fences_increase_of_refines fileLease_refines hrun hno

/-! ## A release and a new owner -/

namespace ReleasedLease

def firstGrant : LeaseGrant := ⟨"vh-1", "a", 1000#64, 5#64, 10000#64⟩
def firstRec : LeaseRec := mkRec "vh-1" "a" 1000#64 5#64 10000#64 1#64 1#64
def drop : LeaseDrop := ⟨"vh-1", "a", 1#64, 1#64⟩
def secondGrant : LeaseGrant := ⟨"vh-1", "b", 2000#64, 5#64, 10000#64⟩
def secondRec : LeaseRec := mkRec "vh-1" "b" 2000#64 5#64 10000#64 1#64 1#64
def take : LeaseTake := ⟨"vh-1", "b", 1#64, 1#64, 11000#64, 20000#64, 5#64, 10000#64⟩

/-- The owner releases its lease and another node acquires it. -/
def reacquired : List LeaseCall :=
  [.acquire firstGrant (.ok (.acquired firstRec)), .release drop (.ok .released),
    .acquire secondGrant (.ok (.acquired secondRec))]

/-- Another node takes the lease over. -/
def takenOver : List LeaseCall :=
  [.acquire firstGrant (.ok (.acquired firstRec)),
    .takeover take (.ok (.taken (firstRec.takenOver take)))]

theorem step_acquire {σ : Type} {B : LeaseBackend σ} {s s' : σ} {req : LeaseGrant}
    {out : Except String AcquireRes} (h : B.acquire req s = (out, s')) :
    StoreStep B s (.acquire req out) s' := by
  have hstep := StoreStep.acquire (B := B) s req
  rw [h] at hstep
  exact hstep

theorem step_release {σ : Type} {B : LeaseBackend σ} {s s' : σ} {req : LeaseDrop}
    {out : Except String ReleaseRes} (h : B.release req s = (out, s')) :
    StoreStep B s (.release req out) s' := by
  have hstep := StoreStep.release (B := B) s req
  rw [h] at hstep
  exact hstep

theorem step_takeover {σ : Type} {B : LeaseBackend σ} {s s' : σ} {req : LeaseTake}
    {out : Except String TakeRes} (h : B.takeover req s = (out, s')) :
    StoreStep B s (.takeover req out) s' := by
  have hstep := StoreStep.takeover (B := B) s req
  rw [h] at hstep
  exact hstep

def held : LeaseStore := Function.update (fun _ => none) "vh-1" (some firstRec)
def removed : LeaseStore := Function.update held "vh-1" none

def heldFile : LeaseDir := writeRec (fun _ => none) "vh-1" firstRec
def removedFile : LeaseDir := delRec heldFile "vh-1"

theorem acquired_held : StoreStep processLocalLeaseBackend (fun _ => none)
    (.acquire firstGrant (.ok (.acquired firstRec))) held :=
  step_acquire rfl

theorem acquired_heldFile : StoreStep fileLeaseBackend (fun _ => none)
    (.acquire firstGrant (.ok (.acquired firstRec))) heldFile :=
  step_acquire rfl

theorem run_reacquired :
    ∃ s, Run (StoreStep processLocalLeaseBackend) (fun _ => none) reacquired s := by
  have hreleased : StoreStep processLocalLeaseBackend held (.release drop (.ok .released)) removed :=
    step_release rfl
  have hsecond : processLocalLeaseBackend.acquire secondGrant removed =
      (.ok (.acquired secondRec), Function.update removed "vh-1" (some secondRec)) := rfl
  exact ⟨_, ((Run.single acquired_held).snoc hreleased).snoc (step_acquire hsecond)⟩

theorem run_reacquired_file :
    ∃ dir, Run (StoreStep fileLeaseBackend) (fun _ => none) reacquired dir := by
  have hreleased : StoreStep fileLeaseBackend heldFile (.release drop (.ok .released)) removedFile :=
    step_release rfl
  have hsecond : fileLeaseBackend.acquire secondGrant removedFile =
      (.ok (.acquired secondRec), writeRec removedFile "vh-1" secondRec) := rfl
  exact ⟨_, ((Run.single acquired_heldFile).snoc hreleased).snoc (step_acquire hsecond)⟩

theorem run_takenOver : ∃ s, Run (fun s call s' => StoreStep processLocalLeaseBackend s call s' ∧
    call.FenceFits s) (fun _ => none) takenOver s := by
  have htaken : processLocalLeaseBackend.takeover take held =
      (.ok (.taken (firstRec.takenOver take)),
        Function.update held "vh-1" (some (firstRec.takenOver take))) := rfl
  refine ⟨_, (Run.single ⟨acquired_held, trivial⟩).snoc ⟨step_takeover htaken, ?_⟩⟩
  intro cur hcur
  obtain rfl := Option.some.inj ((show held take.vh = some firstRec from rfl).symm.trans hcur)
  decide

theorem takenOver_noReacquire : NoReacquire takenOver := by
  intro before req next after hsplit call hcall _
  rcases before with _ | ⟨first, _ | ⟨second, rest⟩⟩
  · cases hcall
  · simp [takenOver] at hsplit
  · simp [takenOver] at hsplit

end ReleasedLease

/-- A takeover raises the fence. -/
theorem fences_increase_takenOver :
    (∃ s, Run (fun s call s' => StoreStep processLocalLeaseBackend s call s' ∧
        call.FenceFits s) (fun _ => none) ReleasedLease.takenOver s) ∧
      FencesIncrease ReleasedLease.takenOver := by
  obtain ⟨s, hrun⟩ := ReleasedLease.run_takenOver
  exact ⟨⟨s, hrun⟩, (fences_increase ReleasedLease.takenOver_noReacquire).1 _ _ hrun⟩

/-- With either backend, the lease acquired after a release has the fence of the owner before. -/
theorem release_restarts_fence :
    (∃ s, Run (StoreStep processLocalLeaseBackend) (fun _ => none) ReleasedLease.reacquired s) ∧
      (∃ dir, Run (StoreStep fileLeaseBackend) (fun _ => none) ReleasedLease.reacquired dir) ∧
      ¬ FencesIncrease ReleasedLease.reacquired := by
  refine ⟨ReleasedLease.run_reacquired, ReleasedLease.run_reacquired_file, ?_⟩
  intro hincrease
  have hlt := hincrease [.acquire ReleasedLease.firstGrant (.ok (.acquired ReleasedLease.firstRec)),
    .release ReleasedLease.drop (.ok .released)] _ [] ReleasedLease.secondRec ReleasedLease.firstRec
    rfl rfl (by decide) (by decide) ReleasedLease.firstRec (by decide)
  revert hlt
  decide

end Pwm
