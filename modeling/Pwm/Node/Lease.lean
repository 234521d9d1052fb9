import Pwm.Node.LeaseBackend

/-!
# The lease of a sealer

Nodes of one validator ask a shared backend who may seal. A node reads the
clock and then makes up to three calls, and the calls of several nodes come in
any order. A lease that was granted excludes every other node until it expires
or is released.
-/

namespace Pwm

open BitVec

inductive LeaseState
  | activeSealing
  | standbySyncing
  | suspectActiveLost
  | fencedStandby
  deriving DecidableEq

structure LeaseCfg where
  ttlMs : U64 := 10000#64
  takeoverMs : U64 := 8000#64
  maxTipLag : U64 := 1#64
  deriving DecidableEq

/-- What a node remembers of its lease. -/
structure LeaseRuntime where
  ownerId : String
  term : U64 := 0#64
  expiresAtMs : U64 := 0#64
  lastTip : U64 := 0#64
  fence : U64 := 0#64
  allowSeal : Bool := false
  state : LeaseState := .standbySyncing
  lastReason : String := "lease_not_acquired"
  deriving DecidableEq

inductive LeaseEvent
  | acquire
  | renew
  | takeover
  | loss
  | reject
  deriving DecidableEq

/-- A program that calls a backend one call at a time. -/
inductive LeaseProg (α : Type)
  | done (a : α)
  | acquire (req : LeaseGrant) (k : Except String AcquireRes → LeaseProg α)
  | renew (req : LeaseKeep) (k : Except String RenewRes → LeaseProg α)
  | takeover (req : LeaseTake) (k : Except String TakeRes → LeaseProg α)

def applyRt (rt : LeaseRuntime) (next : LeaseRec) (allow : Bool) : LeaseRuntime :=
  { rt with
    ownerId := next.ownerId
    term := next.term
    expiresAtMs := next.expiry
    lastTip := next.lastTip
    fence := next.fence
    allowSeal := allow }

/-- The lease was granted. -/
def LeaseRuntime.granted (rt : LeaseRuntime) (next : LeaseRec) (reason : String) : LeaseRuntime :=
  { applyRt rt next true with state := .activeSealing, lastReason := reason }

/-- The node may not seal. -/
def LeaseRuntime.denied (rt : LeaseRuntime) (state : LeaseState) (reason : String) : LeaseRuntime :=
  { rt with allowSeal := false, state := state, lastReason := reason }

def lossLabel (cur : LeaseRec) : String :=
  "owner=" ++ cur.ownerId ++ " term=" ++ toString cur.term.toNat ++ " fence=" ++
    toString cur.fence.toNat ++ " expiry=" ++ toString cur.expiry.toNat

/-- The step of a node that finds the lease with another owner. -/
def stepStandby (vh nodeId : String) (nowMs tipH : U64) (cfg : LeaseCfg) (rt : LeaseRuntime)
    (prevAllow : Bool) (cur : LeaseRec) : LeaseProg (LeaseRuntime × LeaseEvent) :=
  let lost : LeaseEvent := if prevAllow then .loss else .reject
  if nowMs < cur.expiry then
    .done (rt.denied .standbySyncing ("lease_held_by_peer owner=" ++ cur.ownerId ++ " term=" ++
      toString cur.term.toNat ++ " expires_at_ms=" ++ toString cur.expiry.toNat), lost)
  else
    let takeAt := cur.expiry.saturatingAdd cfg.takeoverMs
    if nowMs < takeAt then
      .done (rt.denied .suspectActiveLost ("takeover_wait owner=" ++ cur.ownerId ++
        " takeover_at_ms=" ++ toString takeAt.toNat), lost)
    else if tipH.saturatingAdd cfg.maxTipLag < cur.lastTip then
      .done (rt.denied .standbySyncing ("takeover_reject_stale_tip local_tip=" ++
        toString tipH.toNat ++ " required_tip=" ++ toString cur.lastTip.toNat), lost)
    else
      .takeover ⟨vh, nodeId, cur.term, cur.fence, cur.expiry, nowMs, tipH, cfg.ttlMs⟩ fun
        | .error e => .done (rt.denied .fencedStandby ("lease_backend_error " ++ e), .reject)
        | .ok (.taken next) => .done (rt.granted next "lease_takeover_committed", .takeover)
        | .ok (.casMiss now) =>
            .done (rt.denied .standbySyncing ("lease_takeover_cas_miss " ++ lossLabel now), lost)
        | .ok .missing => .done (rt.denied .standbySyncing "lease_takeover_missing", lost)

/-- The end of a step whose renewal found another record. -/
def renewMissed (rt : LeaseRuntime) (prevAllow : Bool) (obs : Option LeaseRec) :
    LeaseRuntime × LeaseEvent :=
  (rt.denied .standbySyncing
      ("lease_renew_cas_miss " ++ obs.elim "lease_renew_missing" lossLabel),
    if prevAllow then .loss else .reject)

/-- One step of a node toward the lease, or toward keeping it. -/
def stepLease (vh nodeId : String) (nowMs tipH : U64) (cfg : LeaseCfg) (rt : LeaseRuntime) :
    LeaseProg (LeaseRuntime × LeaseEvent) :=
  let prevAllow := rt.allowSeal
  let failed (e : String) : LeaseProg (LeaseRuntime × LeaseEvent) :=
    .done (rt.denied .fencedStandby ("lease_backend_error " ++ e), .reject)
  .acquire ⟨vh, nodeId, nowMs, tipH, cfg.ttlMs⟩ fun
    | .error e => failed e
    | .ok (.acquired next) => .done (rt.granted next "lease_acquired_boot", .acquire)
    | .ok (.held cur) =>
        if cur.ownerId = nodeId then
          .renew ⟨vh, nodeId, cur.term, cur.fence, nowMs, tipH, cfg.ttlMs⟩ fun
            | .error e => failed e
            | .ok (.renewed next) =>
                .done (rt.granted next "lease_renewed", if prevAllow then .renew else .acquire)
            | .ok (.lost none) => .done (renewMissed rt prevAllow none)
            | .ok (.lost (some obs)) =>
                if obs.ownerId = nodeId ∧ obs.expiry < nowMs then
                  .takeover ⟨vh, nodeId, obs.term, obs.fence, obs.expiry, nowMs, tipH, cfg.ttlMs⟩ fun
                    | .error e => failed e
                    | .ok (.taken next) =>
                        .done (rt.granted next "lease_self_takeover_after_expiry", .takeover)
                    | .ok _ => .done (renewMissed rt prevAllow (some obs))
                else .done (renewMissed rt prevAllow (some obs))
        else stepStandby vh nodeId nowMs tipH cfg rt prevAllow cur

/-! ## Nodes and one backend -/

/-- A call of the program was made, and the program goes on with what it returned. -/
inductive LeaseProg.Resumes {α : Type} : LeaseProg α → LeaseCall → LeaseProg α → Prop
  | acquire (req : LeaseGrant) (k : Except String AcquireRes → LeaseProg α)
      (out : Except String AcquireRes) : Resumes (.acquire req k) (.acquire req out) (k out)
  | renew (req : LeaseKeep) (k : Except String RenewRes → LeaseProg α)
      (out : Except String RenewRes) : Resumes (.renew req k) (.renew req out) (k out)
  | takeover (req : LeaseTake) (k : Except String TakeRes → LeaseProg α)
      (out : Except String TakeRes) : Resumes (.takeover req k) (.takeover req out) (k out)

/-- How a node is configured. -/
structure LeaseMember where
  vh : String
  cfg : LeaseCfg

/-- A node, the step it is in the middle of and the last time it read. -/
structure LeaseNode where
  rt : LeaseRuntime
  running : Option (LeaseProg (LeaseRuntime × LeaseEvent)) := none
  readAt : U64 := 0#64

structure LeaseWorld (σ : Type) where
  clock : U64
  store : σ
  nodes : String → LeaseNode

def LeaseWorld.setNode {σ : Type} (w : LeaseWorld σ) (id : String) (node : LeaseNode) :
    LeaseWorld σ :=
  { w with nodes := Function.update w.nodes id node }

inductive LeaseLabel
  | tick
  | started (id : String)
  | called (id : String)
  | returned (id : String) (nowMs : U64) (rt : LeaseRuntime)
  | released (id : String) (removed : Bool)

/-- Time passes, or a node begins a step, gets an answer from the backend or releases its lease.
The readings of a node never go back, and none lies ahead of the clock. -/
inductive LeaseStep {σ : Type} (B : LeaseBackend σ) (member : String → LeaseMember) :
    LeaseWorld σ → LeaseLabel → LeaseWorld σ → Prop
  | tick {w : LeaseWorld σ} {now : U64} (hforward : w.clock ≤ now) :
      LeaseStep B member w .tick { w with clock := now }
  | start {w : LeaseWorld σ} {id : String} {nowMs : U64} (tipH : U64)
      (hidle : (w.nodes id).running = none) (hread : (w.nodes id).readAt ≤ nowMs)
      (hpast : nowMs ≤ w.clock) :
      LeaseStep B member w (.started id) (w.setNode id
        { rt := (w.nodes id).rt
          running := some (stepLease (member id).vh id nowMs tipH (member id).cfg (w.nodes id).rt)
          readAt := nowMs })
  | call {w : LeaseWorld σ} {id : String} {prog prog' : LeaseProg (LeaseRuntime × LeaseEvent)}
      {call : LeaseCall} {store : σ} (hrun : (w.nodes id).running = some prog)
      (hstore : StoreStep B w.store call store) (hresume : prog.Resumes call prog')
      (hmore : ∀ out, prog' ≠ .done out) :
      LeaseStep B member w (.called id)
        { w.setNode id { w.nodes id with running := some prog' } with store := store }
  | finish {w : LeaseWorld σ} {id : String} {prog : LeaseProg (LeaseRuntime × LeaseEvent)}
      {call : LeaseCall} {store : σ} {rt : LeaseRuntime} {event : LeaseEvent}
      (hrun : (w.nodes id).running = some prog) (hstore : StoreStep B w.store call store)
      (hresume : prog.Resumes call (.done (rt, event))) :
      LeaseStep B member w (.returned id w.clock rt)
        { w.setNode id { w.nodes id with rt := rt, running := none } with store := store }
  | release {w : LeaseWorld σ} {id : String} {req : LeaseDrop} {out : Except String ReleaseRes}
      {store : σ} (hstore : StoreStep B w.store (.release req out) store)
      (hvh : req.vh = (member id).vh) (howner : req.owner = id) :
      LeaseStep B member w (.released id (LeaseCall.release req out).removes)
        { w with store := store }

/-- No node is in the middle of a step, and no reading lies ahead of the clock. -/
def LeaseWorld.Idle {σ : Type} (w : LeaseWorld σ) : Prop :=
  ∀ id, (w.nodes id).running = none ∧ (w.nodes id).readAt ≤ w.clock

/-! ## What a step may ask for -/

/-- The program ends with the lease granted until the record expires. -/
def LeaseProg.Grants (next : LeaseRec) (prog : LeaseProg (LeaseRuntime × LeaseEvent)) : Prop :=
  ∃ rt event, prog = .done (rt, event) ∧ rt.allowSeal = true ∧ rt.expiresAtMs = next.expiry

/-- The program speaks for its node at the time it read, takes over only what has expired, and
ends with the lease only when a call granted it; otherwise the expiry stays as it was. -/
def LeaseProg.Sound (vh id : String) (nowMs ttlMs expiresAtMs : U64) :
    LeaseProg (LeaseRuntime × LeaseEvent) → Prop
  | .done out => out.1.allowSeal = false ∧ out.1.expiresAtMs = expiresAtMs
  | .acquire req k => req.vh = vh ∧ req.owner = id ∧ req.nowMs = nowMs ∧ req.ttlMs = ttlMs ∧
      (∀ next, (k (.ok (.acquired next))).Grants next) ∧
      ∀ out, (∀ next, out ≠ .ok (.acquired next)) → (k out).Sound vh id nowMs ttlMs expiresAtMs
  | .renew req k => req.vh = vh ∧ req.owner = id ∧ req.nowMs = nowMs ∧ req.ttlMs = ttlMs ∧
      (∀ next, (k (.ok (.renewed next))).Grants next) ∧
      ∀ out, (∀ next, out ≠ .ok (.renewed next)) → (k out).Sound vh id nowMs ttlMs expiresAtMs
  | .takeover req k => req.vh = vh ∧ req.owner = id ∧ req.nowMs = nowMs ∧ req.ttlMs = ttlMs ∧
      req.expExpiry ≤ nowMs ∧ (∀ next, (k (.ok (.taken next))).Grants next) ∧
      ∀ out, (∀ next, out ≠ .ok (.taken next)) → (k out).Sound vh id nowMs ttlMs expiresAtMs

section Programs

variable {vh id : String} {nowMs tipH : U64} {cfg : LeaseCfg} {rt : LeaseRuntime}

theorem sound_denied (state : LeaseState) (reason : String) (event : LeaseEvent) :
    LeaseProg.Sound vh id nowMs cfg.ttlMs rt.expiresAtMs (.done (rt.denied state reason, event)) :=
  ⟨rfl, rfl⟩

theorem grants_granted (next : LeaseRec) (reason : String) (event : LeaseEvent) :
    LeaseProg.Grants next (.done (rt.granted next reason, event)) :=
  ⟨_, _, rfl, rfl, rfl⟩

theorem stepStandby_sound (prevAllow : Bool) (cur : LeaseRec) :
    (stepStandby vh id nowMs tipH cfg rt prevAllow cur).Sound vh id nowMs cfg.ttlMs
      rt.expiresAtMs := by
  unfold stepStandby
  dsimp only
  split
  · exact sound_denied _ _ _
  · rename_i hexpired
    split
    · exact sound_denied _ _ _
    · split
      · exact sound_denied _ _ _
      · refine ⟨rfl, rfl, rfl, rfl, BitVec.not_lt.mp hexpired, fun next => grants_granted _ _ _, ?_⟩
        intro out hout
        match out, hout with
        | .error e, _ => exact sound_denied _ _ _
        | .ok (.taken next), hout => exact absurd rfl (hout next)
        | .ok (.casMiss _), _ => exact sound_denied _ _ _
        | .ok .missing, _ => exact sound_denied _ _ _

theorem stepLease_sound :
    (stepLease vh id nowMs tipH cfg rt).Sound vh id nowMs cfg.ttlMs rt.expiresAtMs := by
  refine ⟨rfl, rfl, rfl, rfl, fun next => grants_granted _ _ _, ?_⟩
  intro out hout
  match out, hout with
  | .error e, _ => exact sound_denied _ _ _
  | .ok (.acquired next), hout => exact absurd rfl (hout next)
  | .ok (.held cur), _ =>
      dsimp only
      split
      · refine ⟨rfl, rfl, rfl, rfl, fun next => grants_granted _ _ _, ?_⟩
        intro out hout
        match out, hout with
        | .error e, _ => exact sound_denied _ _ _
        | .ok (.renewed next), hout => exact absurd rfl (hout next)
        | .ok (.lost none), _ => exact sound_denied _ _ _
        | .ok (.lost (some obs)), _ =>
            dsimp only
            split
            · rename_i hobs
              refine ⟨rfl, rfl, rfl, rfl, BitVec.le_of_lt hobs.2, fun next => grants_granted _ _ _, ?_⟩
              intro out hout
              match out, hout with
              | .error e, _ => exact sound_denied _ _ _
              | .ok (.taken next), hout => exact absurd rfl (hout next)
              | .ok (.casMiss _), _ => exact sound_denied _ _ _
              | .ok .missing, _ => exact sound_denied _ _ _
            · exact sound_denied _ _ _
      · exact stepStandby_sound _ _

/-- A node that finds the lease with another owner goes on as a standby. -/
theorem stepLease_other {cur : LeaseRec} (hne : cur.ownerId ≠ id) :
    (stepLease vh id nowMs tipH cfg rt).Resumes
      (.acquire ⟨vh, id, nowMs, tipH, cfg.ttlMs⟩ (.ok (.held cur)))
      (stepStandby vh id nowMs tipH cfg rt rt.allowSeal cur) := by
  have hresume : (stepLease vh id nowMs tipH cfg rt).Resumes
      (.acquire ⟨vh, id, nowMs, tipH, cfg.ttlMs⟩ (.ok (.held cur)))
      (if cur.ownerId = id then _ else stepStandby vh id nowMs tipH cfg rt rt.allowSeal cur) :=
    .acquire _ _ _
  rw [if_neg hne] at hresume
  exact hresume

end Programs

/-! ## One call of a sound program -/

section Calls

variable {vh id : String} {nowMs ttlMs expiresAtMs : U64}
  {prog prog' : LeaseProg (LeaseRuntime × LeaseEvent)} {call : LeaseCall} {s s' : LeaseStore}

/-- A call leaves the records, or it grants the lease, which then had no owner, was the node's own
or has expired at the time that the node read. -/
theorem sound_call (hsound : prog.Sound vh id nowMs ttlMs expiresAtMs)
    (hresume : prog.Resumes call prog') (hchange : StoreChange s call s') :
    (s' = s ∧ prog'.Sound vh id nowMs ttlMs expiresAtMs) ∨
      ∃ next, s' = Function.update s vh (some next) ∧ prog'.Grants next ∧ next.ownerId = id ∧
        next.expiry = nowMs.saturatingAdd ttlMs ∧
        ∀ cur, s vh = some cur → cur.ownerId = id ∨ cur.expiry ≤ nowMs := by
  cases hresume with
  | acquire req k out =>
      obtain ⟨rfl, rfl, rfl, rfl, hgrants, hrest⟩ := hsound
      cases hchange with
      | same hgrant _ =>
          refine .inl ⟨rfl, hrest out ?_⟩
          rintro next rfl
          cases hgrant
      | acquired hnone hnext =>
          subst hnext
          refine .inr ⟨_, rfl, hgrants _, rfl, rfl, ?_⟩
          intro cur hcur
          rw [hnone] at hcur
          cases hcur
  | renew req k out =>
      obtain ⟨rfl, rfl, rfl, rfl, hgrants, hrest⟩ := hsound
      cases hchange with
      | same hgrant _ =>
          refine .inl ⟨rfl, hrest out ?_⟩
          rintro next rfl
          cases hgrant
      | renewed hcur hheld =>
          rename_i cur
          have howner := lostTo_owner hheld
          refine .inr ⟨_, rfl, hgrants _, howner, rfl, ?_⟩
          intro found hfound
          rw [hcur] at hfound
          obtain rfl := Option.some.inj hfound
          exact .inl howner
  | takeover req k out =>
      obtain ⟨rfl, rfl, rfl, rfl, hexpired, hgrants, hrest⟩ := hsound
      cases hchange with
      | same hgrant _ =>
          refine .inl ⟨rfl, hrest out ?_⟩
          rintro next rfl
          cases hgrant
      | taken hcur hstill =>
          rename_i cur
          have hexpiry := movedSince_expiry hstill
          refine .inr ⟨_, rfl, hgrants _, rfl, rfl, ?_⟩
          intro found hfound
          rw [hcur] at hfound
          obtain rfl := Option.some.inj hfound
          exact .inr (by rw [hexpiry]; exact hexpired)

/-- A release removes nothing but the record of its node. -/
theorem release_call {req : LeaseDrop} {out : Except String ReleaseRes}
    (hchange : StoreChange s (.release req out) s') :
    (s' = s ∧ (LeaseCall.release req out).removes = false) ∨
      ∃ cur, s req.vh = some cur ∧ cur.ownerId = req.owner ∧
        s' = Function.update s req.vh none ∧ (LeaseCall.release req out).removes = true := by
  cases hchange with
  | same _ hkeeps => exact .inl ⟨rfl, hkeeps⟩
  | released hcur howned =>
      rename_i cur
      exact .inr ⟨cur, hcur, notOwnedBy_owner howned, rfl, rfl⟩

end Calls

/-! ## Exclusion -/

/-- The lease was granted to the node until then, and the node has not released it since. -/
def HeldUntil (acts : List LeaseLabel) (id : String) (expiry : U64) : Prop :=
  ∃ before after nowMs rt, acts = before ++ .returned id nowMs rt :: after ∧
    rt.allowSeal = true ∧ rt.expiresAtMs = expiry ∧ .released id true ∉ after

/-- While a grant lasts and is not released, no other node of the validator is granted the lease. -/
def LeaseExclusive (member : String → LeaseMember) (acts : List LeaseLabel) : Prop :=
  ∀ before id nowMs rt mid other laterMs rt' after,
    acts = before ++ .returned id nowMs rt :: mid ++ .returned other laterMs rt' :: after →
    rt.allowSeal = true → rt'.allowSeal = true → other ≠ id → (member other).vh = (member id).vh →
    .released id true ∉ mid → rt.expiresAtMs ≤ laterMs

section Exclusion

variable {σ : Type} {B : LeaseBackend σ} {view : σ → LeaseStore} {member : String → LeaseMember}
  {acts : List LeaseLabel} {act : LeaseLabel} {id : String} {expiry : U64} {w w' : LeaseWorld σ}

theorem HeldUntil.of_snoc (h : HeldUntil (acts ++ [act]) id expiry) :
    (HeldUntil acts id expiry ∧ act ≠ .released id true) ∨
      ∃ nowMs rt, act = .returned id nowMs rt ∧ rt.allowSeal = true ∧ rt.expiresAtMs = expiry := by
  obtain ⟨before, after, nowMs, rt, hsplit, hallow, hexpiry, hnot⟩ := h
  rcases List.eq_nil_or_concat after with rfl | ⟨init, last, rfl⟩
  · obtain ⟨-, hact⟩ := List.append_inj' hsplit rfl
    exact .inr ⟨nowMs, rt, List.singleton_inj.mp hact, hallow, hexpiry⟩
  · have hlists : acts ++ [act] = (before ++ .returned id nowMs rt :: init) ++ [last] := by
      rw [hsplit]
      simp
    obtain ⟨hacts, hact⟩ := List.append_inj' hlists rfl
    obtain rfl := List.singleton_inj.mp hact
    refine .inl ⟨⟨before, init, nowMs, rt, hacts, hallow, hexpiry, ?_⟩, ?_⟩
    · exact fun hmem => hnot (by simp [hmem])
    · rintro rfl
      exact hnot (by simp)

/-- What ties the record, the caches and the clock together. -/
structure LeaseInv (member : String → LeaseMember) (view : σ → LeaseStore) (acts : List LeaseLabel)
    (w : LeaseWorld σ) : Prop where
  past : ∀ id, (w.nodes id).readAt ≤ w.clock
  sound : ∀ id prog, (w.nodes id).running = some prog → prog.Sound (member id).vh id
    (w.nodes id).readAt (member id).cfg.ttlMs (w.nodes id).rt.expiresAtMs
  reach : ∀ id expiry, HeldUntil acts id expiry →
    expiry ≤ (w.nodes id).readAt.saturatingAdd (member id).cfg.ttlMs
  held : ∀ id expiry, HeldUntil acts id expiry →
    (∃ cur, view w.store (member id).vh = some cur ∧ cur.ownerId = id ∧ expiry ≤ cur.expiry) ∨
      expiry ≤ w.clock

/-- A node makes progress and the records stay. -/
theorem LeaseInv.sameStore (h : LeaseInv member view acts w) {node : LeaseNode} {store : σ}
    (hread : (w.nodes id).readAt ≤ node.readAt) (hpast : node.readAt ≤ w.clock)
    (hstore : view store = view w.store)
    (hsound : ∀ prog, node.running = some prog → prog.Sound (member id).vh id node.readAt
      (member id).cfg.ttlMs node.rt.expiresAtMs)
    (hact : ∀ other expiry, HeldUntil (acts ++ [act]) other expiry → HeldUntil acts other expiry) :
    LeaseInv member view (acts ++ [act]) { w.setNode id node with store := store } := by
  refine ⟨?_, ?_, ?_, ?_⟩
  · intro other
    by_cases hother : other = id
    · subst hother
      simpa [LeaseWorld.setNode] using hpast
    · simpa [LeaseWorld.setNode, Function.update_of_ne hother] using h.past other
  · intro other prog hprog
    by_cases hother : other = id
    · subst hother
      simp only [LeaseWorld.setNode, Function.update_self] at hprog ⊢
      exact hsound prog hprog
    · simp only [LeaseWorld.setNode, Function.update_of_ne hother] at hprog ⊢
      exact h.sound other prog hprog
  · intro other expiry hheld
    have hreach := h.reach other expiry (hact other expiry hheld)
    by_cases hother : other = id
    · subst hother
      simp only [LeaseWorld.setNode, Function.update_self]
      exact BitVec.le_trans hreach (saturatingAdd_mono hread _)
    · simpa only [LeaseWorld.setNode, Function.update_of_ne hother] using hreach
  · intro other expiry hheld
    change (∃ cur, view store _ = some cur ∧ _) ∨ _
    rw [hstore]
    exact h.held other expiry (hact other expiry hheld)

/-- A label that is no grant adds no grant. -/
theorem heldUntil_init (hact : ∀ other nowMs rt, act = .returned other nowMs rt →
      rt.allowSeal = false) (h : HeldUntil (acts ++ [act]) id expiry) :
    HeldUntil acts id expiry := by
  rcases h.of_snoc with ⟨hheld, -⟩ | ⟨nowMs, rt, rfl, hallow, -⟩
  · exact hheld
  · rw [hact _ _ _ rfl] at hallow
    cases hallow

theorem LeaseExclusive.snoc (h : LeaseExclusive member acts)
    (hlast : ∀ other laterMs rt', act = .returned other laterMs rt' → rt'.allowSeal = true →
      ∀ id expiry, other ≠ id → (member other).vh = (member id).vh → HeldUntil acts id expiry →
      expiry ≤ laterMs) : LeaseExclusive member (acts ++ [act]) := by
  intro before id nowMs rt mid other laterMs rt' after hsplit hallow hallow' hne hvh hnot
  rcases List.eq_nil_or_concat after with rfl | ⟨init, last, rfl⟩
  · obtain ⟨hacts, hact⟩ := List.append_inj' hsplit rfl
    exact hlast other laterMs rt' (List.singleton_inj.mp hact) hallow' id _ hne hvh
      ⟨before, mid, nowMs, rt, hacts, hallow, rfl, hnot⟩
  · have hlists : acts ++ [act] =
        (before ++ .returned id nowMs rt :: mid ++ .returned other laterMs rt' :: init) ++ [last] := by
      rw [hsplit]
      simp
    exact h before id nowMs rt mid other laterMs rt' init (List.append_inj' hlists rfl).1 hallow
      hallow' hne hvh hnot

/-- A step ends with the lease granted. -/
theorem LeaseInv.granted (h : LeaseInv member view acts w) {node : LeaseNode} {store : σ}
    {next : LeaseRec} {rt : LeaseRuntime} (hread : node.readAt = (w.nodes id).readAt)
    (hidle : node.running = none)
    (hstore : view store = Function.update (view w.store) (member id).vh (some next))
    (howner : next.ownerId = id)
    (hexpiry : next.expiry = (w.nodes id).readAt.saturatingAdd (member id).cfg.ttlMs)
    (hfree : ∀ cur, view w.store (member id).vh = some cur → cur.ownerId = id ∨
      cur.expiry ≤ (w.nodes id).readAt)
    (hrt : rt.expiresAtMs = next.expiry) :
    LeaseInv member view (acts ++ [.returned id w.clock rt])
      { w.setNode id node with store := store } := by
  refine ⟨?_, ?_, ?_, ?_⟩
  · intro other
    by_cases hother : other = id
    · subst hother
      simpa [LeaseWorld.setNode, hread] using h.past other
    · simpa [LeaseWorld.setNode, Function.update_of_ne hother] using h.past other
  · intro other prog hprog
    by_cases hother : other = id
    · subst hother
      simp only [LeaseWorld.setNode, Function.update_self, hidle] at hprog
      cases hprog
    · simp only [LeaseWorld.setNode, Function.update_of_ne hother] at hprog ⊢
      exact h.sound other prog hprog
  · intro other expiry hheld
    rcases hheld.of_snoc with ⟨hheld, -⟩ | ⟨nowMs, rt', hact, -, rfl⟩
    · have hreach := h.reach other expiry hheld
      by_cases hother : other = id
      · subst hother
        simpa only [LeaseWorld.setNode, Function.update_self, hread] using hreach
      · simpa only [LeaseWorld.setNode, Function.update_of_ne hother] using hreach
    · obtain ⟨rfl, rfl, rfl⟩ := LeaseLabel.returned.inj hact
      simp only [LeaseWorld.setNode, Function.update_self, hread, hrt, hexpiry]
      exact BitVec.le_refl _
  · intro other expiry hheld
    change (∃ cur, view store _ = some cur ∧ _) ∨ _
    rw [hstore]
    rcases hheld.of_snoc with ⟨hheld, -⟩ | ⟨nowMs, rt', hact, -, rfl⟩
    · by_cases hvh : (member other).vh = (member id).vh
      · rw [hvh, Function.update_self]
        by_cases hother : other = id
        · refine .inl ⟨next, rfl, howner.trans hother.symm, ?_⟩
          rw [hexpiry, ← hother]
          exact h.reach other expiry hheld
        · rcases h.held other expiry hheld with ⟨cur, hcur, hcurOwner, hle⟩ | hpast
          · rw [hvh] at hcur
            rcases hfree cur hcur with hmine | hexpired
            · exact absurd (hcurOwner.symm.trans hmine) hother
            · exact .inr (BitVec.le_trans hle (BitVec.le_trans hexpired (h.past id)))
          · exact .inr hpast
      · rw [Function.update_of_ne hvh]
        exact h.held other expiry hheld
    · obtain ⟨rfl, rfl, rfl⟩ := LeaseLabel.returned.inj hact
      rw [Function.update_self, hrt]
      exact .inl ⟨next, rfl, howner, BitVec.le_refl _⟩

/-- A lease that another node of the validator holds is over when it is granted anew. -/
theorem LeaseInv.expired (h : LeaseInv member view acts w) {other : String}
    (hfree : ∀ cur, view w.store (member other).vh = some cur → cur.ownerId = other ∨
      cur.expiry ≤ (w.nodes other).readAt)
    (hne : other ≠ id) (hvh : (member other).vh = (member id).vh)
    (hheld : HeldUntil acts id expiry) : expiry ≤ w.clock := by
  rcases h.held id expiry hheld with ⟨cur, hcur, howner, hle⟩ | hpast
  · rw [← hvh] at hcur
    rcases hfree cur hcur with hmine | hexpired
    · exact absurd (hmine.symm.trans howner) hne
    · exact BitVec.le_trans hle (BitVec.le_trans hexpired (h.past other))
  · exact hpast

/-- What every step keeps. -/
theorem leaseInv_step (hB : B.Refines view) (h : LeaseInv member view acts w)
    (hexclusive : LeaseExclusive member acts) (hstep : LeaseStep B member w act w') :
    LeaseInv member view (acts ++ [act]) w' ∧ LeaseExclusive member (acts ++ [act]) := by
  cases hstep with
  | tick hforward =>
      have hinit : ∀ id expiry, HeldUntil (acts ++ [.tick]) id expiry → HeldUntil acts id expiry :=
        fun _ _ => heldUntil_init (by simp)
      refine ⟨⟨?_, h.sound, ?_, ?_⟩, hexclusive.snoc (by simp)⟩
      · exact fun id => BitVec.le_trans (h.past id) hforward
      · exact fun id expiry hheld => h.reach id expiry (hinit id expiry hheld)
      · intro id expiry hheld
        rcases h.held id expiry (hinit id expiry hheld) with hcur | hpast
        · exact .inl hcur
        · exact .inr (BitVec.le_trans hpast hforward)
  | start tipH hidle hread hpast =>
      refine ⟨h.sameStore hread hpast rfl ?_ fun _ _ => heldUntil_init (by simp),
        hexclusive.snoc (by simp)⟩
      intro prog hprog
      obtain rfl := Option.some.inj hprog
      exact stepLease_sound
  | call hrun hstore hresume hmore =>
      rename_i id prog prog' call store
      rcases sound_call (h.sound id prog hrun) hresume (storeStep_change hB hstore) with
        ⟨hsame, hsound⟩ | ⟨_, -, ⟨rt, event, hdone, -⟩, -⟩
      · refine ⟨h.sameStore (BitVec.le_refl _) (h.past id) hsame ?_
          fun _ _ => heldUntil_init (by simp), hexclusive.snoc (by simp)⟩
        intro prog hprog
        obtain rfl := Option.some.inj hprog
        exact hsound
      · exact absurd hdone (hmore _)
  | finish hrun hstore hresume =>
      rename_i id prog call store rt event
      rcases sound_call (h.sound id prog hrun) hresume (storeStep_change hB hstore) with
        ⟨hsame, hdenied, -⟩ | ⟨next, hnext, ⟨rt', event', hdone, -, hrt⟩, howner, hexpiry, hfree⟩
      · have hnot : ∀ other nowMs rt', LeaseLabel.returned id w.clock rt = .returned other nowMs rt' →
            rt'.allowSeal = false := by
          intro other nowMs rt' hact
          obtain ⟨-, -, rfl⟩ := LeaseLabel.returned.inj hact
          exact hdenied
        refine ⟨h.sameStore (BitVec.le_refl _) (h.past id) hsame (by simp)
          fun _ _ => heldUntil_init hnot, hexclusive.snoc ?_⟩
        intro other laterMs rt' hact hallow
        rw [hnot other laterMs rt' hact] at hallow
        cases hallow
      · obtain ⟨rfl, rfl⟩ := Prod.mk.inj (LeaseProg.done.inj hdone)
        refine ⟨h.granted rfl rfl hnext howner hexpiry hfree hrt, hexclusive.snoc ?_⟩
        intro other laterMs rt' hact _ holder expiry hne hvh hheld
        obtain ⟨rfl, rfl, rfl⟩ := LeaseLabel.returned.inj hact
        exact h.expired hfree hne hvh hheld
  | release hstore hvh howner =>
      rename_i id req out store
      have hinit : ∀ other expiry,
          HeldUntil (acts ++ [.released id (LeaseCall.release req out).removes]) other expiry →
          HeldUntil acts other expiry :=
        fun _ _ => heldUntil_init (by simp)
      refine ⟨⟨h.past, h.sound, fun other expiry hheld => h.reach other expiry (hinit _ _ hheld), ?_⟩,
        hexclusive.snoc (by simp)⟩
      intro other expiry hheld
      change (∃ cur, view store _ = some cur ∧ _) ∨ _
      rcases release_call (storeStep_change hB hstore) with
        ⟨hsame, -⟩ | ⟨cur, hcur, hcurOwner, hremoved, hremoves⟩
      · rw [hsame]
        exact h.held other expiry (hinit _ _ hheld)
      · have hother : other ≠ id := by
          rintro rfl
          rcases hheld.of_snoc with ⟨-, hnot⟩ | ⟨_, _, hact, -⟩
          · rw [hremoves] at hnot
            exact hnot rfl
          · cases hact
        rcases h.held other expiry (hinit _ _ hheld) with ⟨found, hfound, hfoundOwner, hle⟩ | hpast
        · by_cases hsame : (member other).vh = req.vh
          · rw [hsame, hcur] at hfound
            obtain rfl := Option.some.inj hfound
            exact absurd (hfoundOwner.symm.trans (hcurOwner.trans howner)) hother
          · refine .inl ⟨found, ?_, hfoundOwner, hle⟩
            rw [hremoved, Function.update_of_ne hsame]
            exact hfound
        · exact .inr hpast

theorem leaseExclusive_of_refines (hB : B.Refines view) {w₀ : LeaseWorld σ} (hidle : w₀.Idle)
    (hrun : Run (LeaseStep B member) w₀ acts w) :
    LeaseInv member view acts w ∧ LeaseExclusive member acts := by
  refine hrun.history_invariant (I := fun acts w =>
    LeaseInv member view acts w ∧ LeaseExclusive member acts) ?_ ?_
  · rintro acts w act w' ⟨hinv, hexclusive⟩ hstep
    exact leaseInv_step hB hinv hexclusive hstep
  · have hnone : ∀ id expiry, ¬ HeldUntil [] id expiry := by
      rintro id expiry ⟨before, after, nowMs, rt, hsplit, -⟩
      simp at hsplit
    refine ⟨⟨fun id => (hidle id).2, ?_, ?_, ?_⟩, ?_⟩
    · intro id prog hprog
      rw [(hidle id).1] at hprog
      cases hprog
    · exact fun id expiry hheld => absurd hheld (hnone id expiry)
    · exact fun id expiry hheld => absurd hheld (hnone id expiry)
    · intro before id nowMs rt mid other laterMs rt' after hsplit
      simp at hsplit

end Exclusion

/-- With either backend, whatever the order of the calls of any nodes. -/
theorem lease_exclusive (member : String → LeaseMember) :
    (∀ w₀ acts w, w₀.Idle → Run (LeaseStep processLocalLeaseBackend member) w₀ acts w →
        LeaseExclusive member acts) ∧
      ∀ w₀ acts w, w₀.Idle → Run (LeaseStep fileLeaseBackend member) w₀ acts w →
        LeaseExclusive member acts :=
  ⟨fun _ _ _ hidle hrun => (leaseExclusive_of_refines processLocal_refines hidle hrun).2,
    fun _ _ _ hidle hrun => (leaseExclusive_of_refines fileLease_refines hidle hrun).2⟩

/-! ## A takeover after the lease has run out -/

namespace Handover

def member (_ : String) : LeaseMember := ⟨"vh-1", {}⟩

def start : LeaseWorld LeaseStore where
  clock := 1000#64
  store := fun _ => none
  nodes := fun id => { rt := { ownerId := id } }

def firstRec : LeaseRec := mkRec "vh-1" "a" 1000#64 5#64 10000#64 1#64 1#64
def take : LeaseTake := ⟨"vh-1", "b", 1#64, 1#64, 11000#64, 20000#64, 5#64, 10000#64⟩
def secondRec : LeaseRec := firstRec.takenOver take

def rtA : LeaseRuntime := LeaseRuntime.granted { ownerId := "a" } firstRec "lease_acquired_boot"
def rtB : LeaseRuntime :=
  LeaseRuntime.granted { ownerId := "b" } secondRec "lease_takeover_committed"

def acts : List LeaseLabel :=
  [.started "a", .returned "a" 1000#64 rtA, .tick, .started "b", .called "b",
    .returned "b" 20000#64 rtB]

theorem start_idle : start.Idle := fun _ => ⟨rfl, BitVec.le_of_lt (by decide : 0#64 < 1000#64)⟩

def askedA : LeaseWorld LeaseStore :=
  start.setNode "a"
    { rt := { ownerId := "a" }
      running := some (stepLease "vh-1" "a" 1000#64 5#64 {} { ownerId := "a" })
      readAt := 1000#64 }

def heldA : LeaseWorld LeaseStore :=
  { askedA.setNode "a" { rt := rtA, readAt := 1000#64 } with
    store := Function.update (fun _ => none) "vh-1" (some firstRec) }

def later : LeaseWorld LeaseStore := { heldA with clock := 20000#64 }

def askedB : LeaseWorld LeaseStore :=
  later.setNode "b"
    { rt := { ownerId := "b" }
      running := some (stepLease "vh-1" "b" 20000#64 5#64 {} { ownerId := "b" })
      readAt := 20000#64 }

/-- The second node found the lease with the first one. -/
def waitingB : LeaseWorld LeaseStore :=
  { askedB.setNode "b"
      { rt := { ownerId := "b" }
        running := some (stepStandby "vh-1" "b" 20000#64 5#64 {} { ownerId := "b" } false firstRec)
        readAt := 20000#64 } with
    store := later.store }

theorem step_heldA : LeaseStep processLocalLeaseBackend member askedA
    (.returned "a" 1000#64 rtA) heldA :=
  .finish rfl (.acquire _ ⟨"vh-1", "a", 1000#64, 5#64, 10000#64⟩) (.acquire _ _ _)

theorem standby_takes (rt : LeaseRuntime) (prevAllow : Bool) :
    ∃ k, stepStandby "vh-1" "b" 20000#64 5#64 {} rt prevAllow firstRec = .takeover take k ∧
      ∀ next, k (.ok (.taken next)) =
        .done (rt.granted next "lease_takeover_committed", .takeover) := by
  have hexpired : ¬ (20000#64 < firstRec.expiry) := by decide
  have hwaited : ¬ (20000#64 < firstRec.expiry.saturatingAdd 8000#64) := by decide
  have htip : ¬ ((5#64).saturatingAdd 1#64 < firstRec.lastTip) := by decide
  unfold stepStandby
  dsimp only
  rw [if_neg hexpired, if_neg hwaited, if_neg htip]
  exact ⟨_, rfl, fun _ => rfl⟩

theorem step_waitingB : LeaseStep processLocalLeaseBackend member askedB (.called "b") waitingB := by
  have hheld : StoreStep processLocalLeaseBackend askedB.store
      (.acquire ⟨"vh-1", "b", 20000#64, 5#64, 10000#64⟩ (.ok (.held firstRec))) later.store :=
    .acquire _ ⟨"vh-1", "b", 20000#64, 5#64, 10000#64⟩
  refine .call rfl hheld (stepLease_other (by decide)) ?_
  obtain ⟨k, htakes, -⟩ := standby_takes { ownerId := "b" } false
  intro out hdone
  have hcontra := htakes.symm.trans hdone
  cases hcontra

theorem step_takenB : ∃ w, LeaseStep processLocalLeaseBackend member waitingB
    (.returned "b" 20000#64 rtB) w ∧ w.clock = 20000#64 ∧ (w.nodes "a").rt = rtA := by
  obtain ⟨k, htakes, hgrants⟩ := standby_takes { ownerId := "b" } false
  have hresume : (stepStandby "vh-1" "b" 20000#64 5#64 {} { ownerId := "b" } false firstRec).Resumes
      (.takeover take (.ok (.taken secondRec))) (.done (rtB, .takeover)) := by
    rw [htakes, show rtB = LeaseRuntime.granted { ownerId := "b" } secondRec
      "lease_takeover_committed" from rfl, ← hgrants secondRec]
    exact .takeover _ _ _
  exact ⟨_, .finish rfl (.takeover _ take) hresume, rfl, rfl⟩

theorem step_askedA : LeaseStep processLocalLeaseBackend member start (.started "a") askedA :=
  .start 5#64 rfl (BitVec.le_of_lt (by decide : 0#64 < 1000#64)) (BitVec.le_refl _)

theorem run_handover : ∃ w, Run (LeaseStep processLocalLeaseBackend member) start acts w ∧
    w.clock = 20000#64 ∧ (w.nodes "a").rt = rtA := by
  obtain ⟨w, htaken, hclock, hrt⟩ := step_takenB
  have hlater : LeaseStep processLocalLeaseBackend member heldA .tick later :=
    .tick (BitVec.le_of_lt (by decide : 1000#64 < 20000#64))
  have hasked' : LeaseStep processLocalLeaseBackend member later (.started "b") askedB :=
    .start 5#64 rfl (BitVec.le_of_lt (by decide : 0#64 < 20000#64)) (BitVec.le_refl _)
  exact ⟨w, (((((Run.single step_askedA).snoc step_heldA).snoc hlater).snoc hasked').snoc
    step_waitingB).snoc htaken, hclock, hrt⟩

end Handover

/-- The first lease is over when the second node gets it. -/
theorem lease_exclusive_handover :
    (∃ w, Run (LeaseStep processLocalLeaseBackend Handover.member) Handover.start Handover.acts w) ∧
      LeaseExclusive Handover.member Handover.acts ∧ Handover.rtA.expiresAtMs = 11000#64 := by
  obtain ⟨w, hrun, -⟩ := Handover.run_handover
  exact ⟨⟨w, hrun⟩,
    (lease_exclusive Handover.member).1 _ _ _ Handover.start_idle hrun, by decide⟩

end Pwm
