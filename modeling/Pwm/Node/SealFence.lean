import Pwm.Node.Lease
import Pwm.Node.RoamingPool
import Pwm.Node.Skips

/-!
# Seals and the lease

The seal loop asks for the lease before its other gates and seals some time
later. A commit of the API and a manual commit seal without asking. A seal is
fenced when the node holds the lease at that moment.
-/

namespace Pwm

open BitVec

/-- The paths on which a node appends a block of its own. -/
inductive SealPath
  | sealLoop
  | directTx
  | roamingIntent
  | sealCommit
  deriving DecidableEq

/-- The transactions that a path seals. -/
def SealPath.Seals : SealPath → List SealEntry → Prop
  | .sealLoop, _ => True
  | .directTx, entries => ∃ tx, entries = [.raw tx] ∧ isDirectSeal tx.body = true
  | .roamingIntent, entries => ∃ tx, entries = [.raw tx] ∧ isExport tx.body = true
  | .sealCommit, entries => ∃ txs : List SignedTx, entries = txs.map .raw

/-! ## Nodes that ask for the lease and seal -/

/-- Nodes of one validator, their chains, and which of them passed the lease gate of the seal loop
and have not sealed since. -/
structure SealWorld (σ : Type) where
  lease : LeaseWorld σ
  chains : String → Chain
  gated : String → Bool

/-- A block appended by a node on a path, at a time, with the expiry of the lease that the node
remembers. -/
inductive SealLabel
  | lease (l : LeaseLabel)
  | restarted (id : String)
  | sealed (id : String) (path : SealPath) (nowMs expiresAtMs : U64)

/-- The lease gate lets the seal loop of its node pass, or holds it back. -/
def gatedAfter (gated : String → Bool) : LeaseLabel → String → Bool
  | .returned id _ rt => Function.update gated id rt.allowSeal
  | _ => gated

/-- Only the seal loop asks for the lease, and it may wait as long as it likes after that. No path
of a node releases its lease. -/
inductive FencedStep {σ : Type} (C : Crypto) (B : LeaseBackend σ) (vh : String)
    (cfg : String → LeaseCfg) : SealWorld σ → SealLabel → SealWorld σ → Prop
  | lease {w : SealWorld σ} {l : LeaseLabel} {lease : LeaseWorld σ}
      (hstep : LeaseStep B (fun id => ⟨vh, cfg id⟩) w.lease l lease)
      (hkeeps : ∀ id removed, l ≠ .released id removed) :
      FencedStep C B vh cfg w (.lease l) { w with lease := lease, gated := gatedAfter w.gated l }
  | restart {w : SealWorld σ} (id : String) :
      FencedStep C B vh cfg w (.restarted id) { w with gated := Function.update w.gated id false }
  | append {w : SealWorld σ} {id : String} {path : SealPath} {now : U64} {entries : List SealEntry}
      {ch : Chain} (hgate : path = .sealLoop → w.gated id = true) (htxs : path.Seals entries)
      (hseal : sealEntries C now (w.chains id) entries = .ok ch) :
      FencedStep C B vh cfg w
        (.sealed id path w.lease.clock (w.lease.nodes id).rt.expiresAtMs)
        { w with
          chains := Function.update w.chains id ch
          gated := if path = .sealLoop then Function.update w.gated id false else w.gated }

/-- What the nodes did about the lease. -/
def leaseLabels (acts : List SealLabel) : List LeaseLabel :=
  acts.filterMap fun
    | .lease l => some l
    | _ => none

/-- The node was granted the lease for longer than until now, and no other node was since. -/
def HoldsLease (acts : List SealLabel) (id : String) (nowMs : U64) : Prop :=
  ∃ before after grantedMs rt, leaseLabels acts = before ++ .returned id grantedMs rt :: after ∧
    rt.allowSeal = true ∧ nowMs < rt.expiresAtMs ∧
    ∀ other laterMs rt', .returned other laterMs rt' ∈ after → rt'.allowSeal = true → other = id

/-- No node has asked for the lease yet. -/
structure LeaseWorld.Fresh {σ : Type} (w : LeaseWorld σ) : Prop where
  idle : w.Idle
  never : ∀ id, (w.nodes id).rt.expiresAtMs = 0#64

/-! ## What a node remembers of its lease -/

/-- The expiry that a node remembers is that of its last grant, which reaches as far as any. -/
structure CacheInv {σ : Type} (acts : List LeaseLabel) (w : LeaseWorld σ) : Prop where
  bound : ∀ id expiry, HeldUntil acts id expiry → expiry ≤ (w.nodes id).rt.expiresAtMs
  source : ∀ id, (w.nodes id).rt.expiresAtMs ≠ 0#64 →
    ∃ before after nowMs rt, acts = before ++ .returned id nowMs rt :: after ∧
      rt.allowSeal = true ∧ rt.expiresAtMs = (w.nodes id).rt.expiresAtMs
  past : ∀ id nowMs rt, .returned id nowMs rt ∈ acts → nowMs ≤ w.clock
  kept : ∀ id removed, .released id removed ∉ acts

section Caches

variable {σ : Type} {B : LeaseBackend σ} {view : σ → LeaseStore} {member : String → LeaseMember}
  {acts : List LeaseLabel} {act : LeaseLabel} {w w' : LeaseWorld σ}

/-- A step that grants nothing leaves what each node remembers. -/
theorem CacheInv.same (h : CacheInv acts w)
    (hact : ∀ id nowMs rt, act = .returned id nowMs rt → rt.allowSeal = false ∧ nowMs = w.clock)
    (hkeeps : ∀ id removed, act ≠ .released id removed) (hclock : w.clock ≤ w'.clock)
    (hsame : ∀ id, (w'.nodes id).rt.expiresAtMs = (w.nodes id).rt.expiresAtMs) :
    CacheInv (acts ++ [act]) w' := by
  refine ⟨?_, ?_, ?_, ?_⟩
  · intro id expiry hheld
    rw [hsame]
    exact h.bound id expiry (heldUntil_init (fun id nowMs rt hrt => (hact id nowMs rt hrt).1) hheld)
  · intro id hne
    rw [hsame] at hne ⊢
    obtain ⟨before, after, nowMs, rt, rfl, hrest⟩ := h.source id hne
    exact ⟨before, after ++ [act], nowMs, rt, by simp, hrest⟩
  · intro id nowMs rt hmem
    rcases List.mem_append.mp hmem with hmem | hmem
    · exact BitVec.le_trans (h.past id nowMs rt hmem) hclock
    · rw [(hact id nowMs rt (List.mem_singleton.mp hmem).symm).2]
      exact hclock
  · intro id removed hmem
    rcases List.mem_append.mp hmem with hmem | hmem
    · exact h.kept id removed hmem
    · exact hkeeps id removed (List.mem_singleton.mp hmem).symm

/-- A grant replaces what its node remembers. -/
theorem CacheInv.granted (h : CacheInv acts w) {id : String} {rt : LeaseRuntime}
    (hallow : rt.allowSeal = true) (hclock : w'.clock = w.clock)
    (hreach : ∀ expiry, HeldUntil acts id expiry → expiry ≤ rt.expiresAtMs)
    (hself : (w'.nodes id).rt = rt)
    (hother : ∀ other, other ≠ id → (w'.nodes other).rt = (w.nodes other).rt) :
    CacheInv (acts ++ [.returned id w.clock rt]) w' := by
  refine ⟨?_, ?_, ?_, ?_⟩
  · intro other expiry hheld
    rcases hheld.of_snoc with ⟨hold, -⟩ | ⟨nowMs, rt', hact, -, rfl⟩
    · by_cases hid : other = id
      · subst hid
        rw [hself]
        exact hreach expiry hold
      · rw [hother other hid]
        exact h.bound other expiry hold
    · obtain ⟨rfl, rfl, rfl⟩ := LeaseLabel.returned.inj hact
      rw [hself]
      exact BitVec.le_refl _
  · intro other hne
    by_cases hid : other = id
    · subst hid
      rw [hself]
      exact ⟨acts, [], w.clock, rt, rfl, hallow, rfl⟩
    · rw [hother other hid] at hne ⊢
      obtain ⟨before, after, nowMs, rt', rfl, hrest⟩ := h.source other hne
      exact ⟨before, after ++ [.returned id w.clock rt], nowMs, rt', by simp, hrest⟩
  · intro other nowMs rt' hmem
    rw [hclock]
    rcases List.mem_append.mp hmem with hmem | hmem
    · exact h.past other nowMs rt' hmem
    · obtain ⟨rfl, rfl, rfl⟩ := LeaseLabel.returned.inj (List.mem_singleton.mp hmem)
      exact BitVec.le_refl _
  · intro other removed hmem
    rcases List.mem_append.mp hmem with hmem | hmem
    · exact h.kept other removed hmem
    · cases List.mem_singleton.mp hmem

theorem cacheInv_step (hB : B.Refines view) (hinv : LeaseInv member view acts w)
    (h : CacheInv acts w) (hkeeps : ∀ id removed, act ≠ .released id removed)
    (hstep : LeaseStep B member w act w') : CacheInv (acts ++ [act]) w' := by
  cases hstep with
  | tick hforward =>
      refine h.same ?_ hkeeps hforward fun _ => rfl
      intro _ _ _ hact
      cases hact
  | start tipH hidle hread hpast =>
      rename_i id nowMs
      refine h.same ?_ hkeeps (BitVec.le_refl _) ?_
      · intro _ _ _ hact
        cases hact
      · intro other
        by_cases hid : other = id
        · subst hid
          simp [LeaseWorld.setNode]
        · simp [LeaseWorld.setNode, Function.update_of_ne hid]
  | call hrun hstore hresume hmore =>
      rename_i id prog prog' call store
      refine h.same ?_ hkeeps (BitVec.le_refl _) ?_
      · intro _ _ _ hact
        cases hact
      · intro other
        by_cases hid : other = id
        · subst hid
          simp [LeaseWorld.setNode]
        · simp [LeaseWorld.setNode, Function.update_of_ne hid]
  | finish hrun hstore hresume =>
      rename_i id prog call store rt event
      rcases sound_call (hinv.sound id prog hrun) hresume (storeStep_change hB hstore) with
        ⟨-, hdenied, hexpires⟩ | ⟨next, -, ⟨rt', event', hdone, hallow, hrt⟩, -, hexpiry, -⟩
      · refine h.same ?_ hkeeps (BitVec.le_refl _) ?_
        · intro other nowMs rt' hact
          obtain ⟨-, rfl, rfl⟩ := LeaseLabel.returned.inj hact
          exact ⟨hdenied, rfl⟩
        · intro other
          by_cases hid : other = id
          · subst hid
            simpa [LeaseWorld.setNode] using hexpires
          · simp [LeaseWorld.setNode, Function.update_of_ne hid]
      · obtain ⟨rfl, rfl⟩ := Prod.mk.inj (LeaseProg.done.inj hdone)
        refine h.granted hallow rfl ?_ ?_ ?_
        · intro expiry hheld
          rw [hrt, hexpiry]
          exact hinv.reach id expiry hheld
        · simp [LeaseWorld.setNode]
        · intro other hid
          simp [LeaseWorld.setNode, Function.update_of_ne hid]
  | release hstore hvh howner => exact absurd rfl (hkeeps _ _)

end Caches

/-! ## When a seal is fenced -/

section Seals

variable {σ : Type} {C : Crypto} {B : LeaseBackend σ} {view : σ → LeaseStore} {vh : String}
  {cfg : String → LeaseCfg} {acts : List SealLabel} {w₀ w : SealWorld σ}

theorem leaseLabels_snoc_lease (acts : List SealLabel) (l : LeaseLabel) :
    leaseLabels (acts ++ [.lease l]) = leaseLabels acts ++ [l] := by
  simp [leaseLabels]

theorem leaseLabels_snoc_other {act : SealLabel} (h : ∀ l, act ≠ .lease l)
    (acts : List SealLabel) : leaseLabels (acts ++ [act]) = leaseLabels acts := by
  cases act with
  | lease l => exact absurd rfl (h l)
  | restarted id => simp [leaseLabels]
  | sealed id path nowMs expiresAtMs => simp [leaseLabels]

theorem fencedRun_inv (hB : B.Refines view) (hfresh : w₀.lease.Fresh)
    (hrun : Run (FencedStep C B vh cfg) w₀ acts w) :
    LeaseInv (fun id => ⟨vh, cfg id⟩) view (leaseLabels acts) w.lease ∧
      LeaseExclusive (fun id => ⟨vh, cfg id⟩) (leaseLabels acts) ∧
      CacheInv (leaseLabels acts) w.lease := by
  refine hrun.history_invariant (I := fun acts w =>
    LeaseInv (fun id => ⟨vh, cfg id⟩) view (leaseLabels acts) w.lease ∧
      LeaseExclusive (fun id => ⟨vh, cfg id⟩) (leaseLabels acts) ∧
      CacheInv (leaseLabels acts) w.lease) ?_ ?_
  · rintro acts w act w' ⟨hinv, hexclusive, hcache⟩ hstep
    cases hstep with
    | lease hstep hkeeps =>
        rw [leaseLabels_snoc_lease]
        obtain ⟨hinv', hexclusive'⟩ := leaseInv_step hB hinv hexclusive hstep
        exact ⟨hinv', hexclusive', cacheInv_step hB hinv hcache hkeeps hstep⟩
    | restart id =>
        rw [leaseLabels_snoc_other (by simp)]
        exact ⟨hinv, hexclusive, hcache⟩
    | append hgate htxs hseal =>
        rw [leaseLabels_snoc_other (by simp)]
        exact ⟨hinv, hexclusive, hcache⟩
  · obtain ⟨hinv, hexclusive⟩ := @leaseExclusive_of_refines σ B view (fun id => ⟨vh, cfg id⟩) []
      w₀.lease hB w₀.lease hfresh.idle (.nil w₀.lease)
    refine ⟨hinv, hexclusive, ?_, ?_, ?_, ?_⟩
    · rintro id expiry ⟨before, after, nowMs, rt, hsplit, -⟩
      simp [leaseLabels] at hsplit
    · exact fun id hne => absurd (hfresh.never id) hne
    · intro id nowMs rt hmem
      cases hmem
    · intro id removed hmem
      cases hmem

/-- A node holds the lease exactly when the expiry that it remembers lies ahead. -/
theorem holdsLease_iff_of_refines (hB : B.Refines view) (hfresh : w₀.lease.Fresh)
    (hrun : Run (FencedStep C B vh cfg) w₀ acts w) (id : String) :
    HoldsLease acts id w.lease.clock ↔ w.lease.clock < (w.lease.nodes id).rt.expiresAtMs := by
  obtain ⟨hinv, hexclusive, hcache⟩ := fencedRun_inv hB hfresh hrun
  constructor
  · rintro ⟨before, after, grantedMs, rt, hsplit, hallow, hahead, -⟩
    have hbound := hcache.bound id rt.expiresAtMs ⟨before, after, grantedMs, rt, hsplit, hallow, rfl,
      fun hmem => hcache.kept id true (by rw [hsplit]; simp [hmem])⟩
    rw [BitVec.lt_def] at hahead ⊢
    exact hahead.trans_le (BitVec.le_def.mp hbound)
  · intro hahead
    have hne : (w.lease.nodes id).rt.expiresAtMs ≠ 0#64 := by
      intro hzero
      rw [hzero] at hahead
      exact absurd hahead BitVec.not_lt_zero
    obtain ⟨before, after, grantedMs, rt, hsplit, hallow, hexpires⟩ := hcache.source id hne
    refine ⟨before, after, grantedMs, rt, hsplit, hallow, by rw [hexpires]; exact hahead, ?_⟩
    intro other laterMs rt' hmem hallow'
    by_contra hother
    obtain ⟨mid, rest, rfl⟩ := List.append_of_mem hmem
    have hover := hexclusive before id grantedMs rt mid other laterMs rt' rest (by rw [hsplit]; simp)
      hallow hallow' hother rfl fun hrel => hcache.kept id true (by rw [hsplit]; simp [hrel])
    have hlater := hcache.past other laterMs rt' (by rw [hsplit]; simp)
    rw [hexpires] at hover
    exact absurd hahead (BitVec.not_lt.mpr (BitVec.le_trans hover hlater))

end Seals

/-- With either backend and any number of nodes, a seal on any path is fenced exactly when the node
seals before the expiry that it remembers. -/
theorem seal_fenced_iff (C : Crypto) (vh : String) (cfg : String → LeaseCfg) :
    (∀ w₀ w before id path nowMs expiresAtMs after, w₀.lease.Fresh →
        Run (FencedStep C processLocalLeaseBackend vh cfg) w₀
          (before ++ .sealed id path nowMs expiresAtMs :: after) w →
        (HoldsLease before id nowMs ↔ nowMs < expiresAtMs)) ∧
      ∀ w₀ w before id path nowMs expiresAtMs after, w₀.lease.Fresh →
        Run (FencedStep C fileLeaseBackend vh cfg) w₀
          (before ++ .sealed id path nowMs expiresAtMs :: after) w →
        (HoldsLease before id nowMs ↔ nowMs < expiresAtMs) := by
  constructor
  · intro w₀ w before id path nowMs expiresAtMs after hfresh hrun
    obtain ⟨mid, next, hinit, hstep⟩ := hrun.step_at
    cases hstep with
    | append hgate htxs hseal => exact holdsLease_iff_of_refines processLocal_refines hfresh hinit id
  · intro w₀ w before id path nowMs expiresAtMs after hfresh hrun
    obtain ⟨mid, next, hinit, hstep⟩ := hrun.step_at
    cases hstep with
    | append hgate htxs hseal => exact holdsLease_iff_of_refines fileLease_refines hfresh hinit id

/-! ## Seals after and without a lease -/

namespace LateSeal

def start : SealWorld LeaseStore where
  lease := Handover.start
  chains := fun _ => MissedPrimary.chain
  gated := fun _ => false

def Step : SealWorld LeaseStore → SealLabel → SealWorld LeaseStore → Prop :=
  FencedStep MissedPrimary.crypto processLocalLeaseBackend "vh-1" fun _ => {}

theorem start_fresh : start.lease.Fresh := ⟨Handover.start_idle, fun _ => rfl⟩

theorem lift_lease (w₀ : SealWorld LeaseStore) {ls : List LeaseLabel} {lease : LeaseWorld LeaseStore}
    (hrun : Run (LeaseStep processLocalLeaseBackend Handover.member) w₀.lease ls lease)
    (hkeeps : ∀ id removed, .released id removed ∉ ls) :
    Run Step w₀ (ls.map .lease)
      { w₀ with lease := lease, gated := ls.foldl gatedAfter w₀.gated } := by
  induction ls using List.reverseRecOn generalizing lease with
  | nil =>
      obtain rfl := hrun.eq_of_nil
      exact .nil _
  | append_singleton ls l ih =>
      obtain ⟨mid, hinit, hlast⟩ := hrun.unsnoc
      rw [List.map_append, List.foldl_append]
      refine (ih hinit fun id removed hmem => hkeeps id removed (by simp [hmem])).snoc ?_
      exact .lease hlast fun id removed hl => hkeeps id removed (by simp [hl])

/-- Any node with the chain can seal an empty block at any time. -/
theorem seal_step (w : SealWorld LeaseStore) (id : String) (path : SealPath)
    (hgate : path = .sealLoop → w.gated id = true) (hpath : path.Seals [])
    (hchain : w.chains id = MissedPrimary.chain) :
    ∃ w', Step w (.sealed id path w.lease.clock (w.lease.nodes id).rt.expiresAtMs) w' := by
  have hseal : sealEntries MissedPrimary.crypto PolicyRace.now (w.chains id) [] =
      .ok MissedPrimary.afterPrimary := by
    rw [hchain]
    exact MissedPrimary.seal_primary
  exact ⟨_, .append hgate hpath hseal⟩

def heldActs : List SealLabel :=
  [.lease (.started "a"), .lease (.returned "a" 1000#64 Handover.rtA)]

theorem run_heldSeal : ∃ w, Run Step start (heldActs ++ [.sealed "a" .sealLoop 1000#64 11000#64]) w := by
  have hlease : Run (LeaseStep processLocalLeaseBackend Handover.member) start.lease
      [.started "a", .returned "a" 1000#64 Handover.rtA] Handover.heldA :=
    (Run.single Handover.step_askedA).snoc Handover.step_heldA
  have hrun := lift_lease start hlease (by simp)
  obtain ⟨w, hseal⟩ := seal_step
    { start with
      lease := Handover.heldA
      gated := [LeaseLabel.started "a", .returned "a" 1000#64 Handover.rtA].foldl gatedAfter
        start.gated } "a" .sealLoop (fun _ => rfl) trivial rfl
  exact ⟨w, hrun.snoc hseal⟩

/-- The loop of the first node seals after the second one has taken the lease over. -/
theorem run_lateSeal : ∃ w, Run Step start
    (Handover.acts.map .lease ++ [.sealed "a" .sealLoop 20000#64 11000#64]) w := by
  obtain ⟨lease, hlease, hclock, hrt⟩ := Handover.run_handover
  have hrun := lift_lease start hlease (by simp [Handover.acts])
  obtain ⟨w, hseal⟩ := seal_step
    { start with lease := lease, gated := Handover.acts.foldl gatedAfter start.gated }
    "a" .sealLoop (fun _ => rfl) trivial rfl
  rw [hclock, hrt] at hseal
  exact ⟨w, hrun.snoc hseal⟩

end LateSeal

/-- The seal right after the grant is fenced. -/
theorem seal_fenced_held :
    (∃ w, Run LateSeal.Step LateSeal.start
        (LateSeal.heldActs ++ [.sealed "a" .sealLoop 1000#64 11000#64]) w) ∧
      HoldsLease LateSeal.heldActs "a" 1000#64 := by
  obtain ⟨w, hrun⟩ := LateSeal.run_heldSeal
  exact ⟨⟨w, hrun⟩, ((seal_fenced_iff MissedPrimary.crypto "vh-1" fun _ => {}).1 _ _ _ _ _ _ _ _
    LateSeal.start_fresh hrun).mpr (by decide)⟩

/-- The loop of a node seals after its lease has passed to another one, and a manual commit seals
without ever asking for it. -/
theorem unfenced_seals :
    LateSeal.start.lease.Fresh ∧
      (∃ w, Run LateSeal.Step LateSeal.start
        (Handover.acts.map .lease ++ [.sealed "a" .sealLoop 20000#64 11000#64]) w) ∧
      ¬ HoldsLease (Handover.acts.map .lease) "a" 20000#64 ∧
      (∃ w, Run LateSeal.Step LateSeal.start [.sealed "c" .sealCommit 1000#64 0#64] w) ∧
      ¬ HoldsLease [] "c" 1000#64 := by
  refine ⟨LateSeal.start_fresh, LateSeal.run_lateSeal, ?_, ?_, ?_⟩
  · rintro ⟨before, after, grantedMs, rt, hsplit, -, hahead, -⟩
    have hmem : LeaseLabel.returned "a" grantedMs rt ∈ Handover.acts := by
      have hall : leaseLabels (Handover.acts.map .lease) = Handover.acts := by
        simp [leaseLabels, List.filterMap_map]
      rw [← hall, hsplit]
      simp
    have hrt : grantedMs = 1000#64 ∧ rt = Handover.rtA := by
      simpa [Handover.acts] using hmem
    rw [hrt.2] at hahead
    revert hahead
    decide
  · obtain ⟨w, hseal⟩ := LateSeal.seal_step LateSeal.start "c" .sealCommit (fun h => nomatch h)
      ⟨[], rfl⟩ rfl
    exact ⟨w, Run.single hseal⟩
  · rintro ⟨before, after, grantedMs, rt, hsplit, -⟩
    simp [leaseLabels] at hsplit

end Pwm
