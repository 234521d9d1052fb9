import Pwm.Node.Quorum

/-!
# Replayed hellos

A hello is accepted while its timestamp is close to the clock, and its nonce is
remembered for as long as the clock stays close to the reading at which it was
accepted. The two windows have one width and different centres: a hello that
was accepted ahead of its timestamp outlives the memory of its nonce.
-/

namespace Pwm

open BitVec Attempt

/-! ## Calls of the validation -/

/-- One call of the validation, with the clock it read and whether the hello passed. -/
structure HelloCall where
  hello : NodeHello
  nowMs : U64
  accepted : Bool
  deriving DecidableEq

def HelloCall.Accepts (call : HelloCall) (hello : NodeHello) : Prop :=
  call.accepted = true ∧ call.hello = hello

/-- A call on the state of the handshakes; a refused hello may still drop old nonces. -/
inductive HelloStep (C : Crypto) : HandshakeState → HelloCall → HandshakeState → Prop
  | accepted {hs hs' : HandshakeState} {hello : NodeHello} {nowMs : U64}
      (h : validateNodeHello C hello nowMs hs = .ok () hs') :
      HelloStep C hs ⟨hello, nowMs, true⟩ hs'
  | refused {hs hs' : HandshakeState} {hello : NodeHello} {nowMs : U64} {reason : String}
      (h : validateNodeHello C hello nowMs hs = .error reason hs') :
      HelloStep C hs ⟨hello, nowMs, false⟩ hs'

/-- The clock never goes back. -/
def ClockRuns (calls : List HelloCall) : Prop :=
  calls.Pairwise fun a b => a.nowMs ≤ b.nowMs

/-- No two calls accept the hello. -/
def AcceptedOnce (calls : List HelloCall) (hello : NodeHello) : Prop :=
  calls.Pairwise fun a b => ¬ (a.Accepts hello ∧ b.Accepts hello)

/-- The hello is not ahead of the clock, or the clock ends before its nonce is forgotten. -/
def HelloCall.InTime (window : U64) (call : HelloCall) : Prop :=
  call.hello.timestampMs ≤ call.nowMs ∨ 2 ^ 64 ≤ call.nowMs.toNat + window.toNat + 1

/-! ## The two windows -/

section Windows

variable {C : Crypto} {hs hs' : HandshakeState} {hello : NodeHello} {ctx : HandshakeValidationCtx}
  {nowMs : U64}

theorem mem_prune_iff {seen : ReplayNonceCache} {windowMs : U64} {p : List U8 × U64} :
    p ∈ seen.prune nowMs windowMs ↔ p ∈ seen ∧ nowMs.toNat ≤ p.2.toNat + windowMs.toNat := by
  rw [ReplayNonceCache.prune, List.mem_filter, decide_eq_true_iff, saturatingSub]
  refine and_congr_right fun _ => ?_
  by_cases hle : p.2 ≤ nowMs
  · have hsub := toNat_sub_of_le hle
    rw [if_pos hle, BitVec.le_def, hsub]
    omega
  · rw [BitVec.le_def, Nat.not_le] at hle
    rw [if_neg (by rw [BitVec.le_def]; omega), BitVec.le_def]
    constructor
    · intro _
      omega
    · intro _
      exact Nat.zero_le _

/-- A hello that passes is within the window of its own timestamp. -/
theorem checks_skew (h : hello.checks C ctx nowMs = .ok ()) :
    nowMs.toNat ≤ hello.timestampMs.toNat + ctx.skewWindowMs.toNat ∧
      hello.timestampMs.toNat ≤ nowMs.toNat + ctx.skewWindowMs.toNat := by
  simp only [NodeHello.checks, except_bind_ok_iff, check_ok_iff] at h
  obtain ⟨_, -, _, -, _, -, _, -, hskew⟩ := h
  constructor <;> omega

/-- Apart from the window the clock plays no part in the checks. -/
theorem checks_later (h : hello.checks C ctx nowMs = .ok ()) {laterMs : U64}
    (hlow : hello.timestampMs ≤ laterMs)
    (hhigh : laterMs.toNat ≤ hello.timestampMs.toNat + ctx.skewWindowMs.toNat) :
    hello.checks C ctx laterMs = .ok () := by
  rw [BitVec.le_def] at hlow
  simp only [NodeHello.checks, except_bind_ok_iff, check_ok_iff] at h ⊢
  obtain ⟨_, hfields, _, hnetwork, _, hgenesis, _, hsig, -⟩ := h
  refine ⟨(), hfields, (), hnetwork, (), hgenesis, (), hsig, ?_⟩
  omega

/-- The nonces that a call at this reading still remembers. -/
def HandshakeState.remembered (hs : HandshakeState) (nowMs : U64) : ReplayNonceCache :=
  hs.replay.prune nowMs hs.validationCtx.skewWindowMs

theorem checkAndInsert_new (h : ∀ p ∈ hs.remembered nowMs, p.1 ≠ hello.nonce) :
    hs.replay.checkAndInsert hello.nonce nowMs hs.validationCtx.skewWindowMs =
      (true, (hello.nonce, nowMs) :: hs.remembered nowMs) := by
  refine if_neg ?_
  rw [List.any_eq_true]
  rintro ⟨p, hp, hnonce⟩
  exact h p hp (of_decide_eq_true hnonce)

theorem checkAndInsert_known (h : ¬ ∀ p ∈ hs.remembered nowMs, p.1 ≠ hello.nonce) :
    hs.replay.checkAndInsert hello.nonce nowMs hs.validationCtx.skewWindowMs =
      (false, hs.remembered nowMs) := by
  push Not at h
  obtain ⟨p, hp, hnonce⟩ := h
  exact if_pos (List.any_eq_true.mpr ⟨p, hp, decide_eq_true hnonce⟩)

theorem validateNodeHello_ok_iff :
    validateNodeHello C hello nowMs hs = .ok () hs' ↔
      hello.checks C hs.validationCtx nowMs = .ok () ∧
      (∀ p ∈ hs.remembered nowMs, p.1 ≠ hello.nonce) ∧
      hs' = { hs with replay := (hello.nonce, nowMs) :: hs.remembered nowMs } := by
  simp only [validateNodeHello, bind_ok_iff, get_ok_iff, liftExcept_ok_iff, modify_ok_iff,
    require_ok_iff]
  constructor
  · rintro ⟨_, _, ⟨rfl, rfl⟩, _, _, ⟨hchecks, rfl⟩, _, _, rfl, hnew, rfl⟩
    by_cases hknown : ∀ p ∈ hs.remembered nowMs, p.1 ≠ hello.nonce
    · rw [checkAndInsert_new hknown]
      exact ⟨hchecks, hknown, rfl⟩
    · rw [checkAndInsert_known hknown] at hnew
      cases hnew
  · rintro ⟨hchecks, hknown, rfl⟩
    refine ⟨hs, hs, ⟨rfl, rfl⟩, (), hs, ⟨hchecks, rfl⟩, (), _, rfl, ?_⟩
    rw [checkAndInsert_new hknown]
    exact ⟨rfl, rfl⟩

/-- A refused hello may drop nonces that are out of the window, and nothing else. -/
theorem validateNodeHello_refused {reason : String}
    (h : validateNodeHello C hello nowMs hs = .error reason hs') :
    hs' = hs ∨ hs' = { hs with replay := hs.remembered nowMs } := by
  simp only [validateNodeHello, bind_error_iff, get_ok_iff, get_error_iff, liftExcept_ok_iff,
    liftExcept_error_iff, modify_ok_iff, modify_error_iff, require_error_iff, false_or] at h
  obtain ⟨_, _, ⟨rfl, rfl⟩, ⟨_, -, -, rfl⟩ | ⟨_, _, ⟨-, rfl⟩, _, _, rfl, hold, -, rfl⟩⟩ := h
  · exact .inl rfl
  · right
    by_cases hknown : ∀ p ∈ hs.remembered nowMs, p.1 ≠ hello.nonce
    · rw [checkAndInsert_new hknown] at hold
      exact absurd rfl hold
    · rw [checkAndInsert_known hknown]

end Windows

/-! ## What one call keeps -/

namespace HelloStep

variable {C : Crypto} {hs hs' : HandshakeState} {call : HelloCall}

theorem keeps_ctx (h : HelloStep C hs call hs') : hs'.validationCtx = hs.validationCtx := by
  cases h with
  | accepted h =>
      obtain ⟨-, -, rfl⟩ := validateNodeHello_ok_iff.mp h
      rfl
  | refused h =>
      rcases validateNodeHello_refused h with rfl | rfl
      · rfl
      · rfl

/-- A nonce is remembered as long as the clock stays in its window. -/
theorem keeps_nonce (h : HelloStep C hs call hs') {p : List U8 × U64} (hp : p ∈ hs.replay)
    (hin : call.nowMs.toNat ≤ p.2.toNat + hs.validationCtx.skewWindowMs.toNat) : p ∈ hs'.replay := by
  have hkept : p ∈ hs.remembered call.nowMs := mem_prune_iff.mpr ⟨hp, hin⟩
  cases h with
  | accepted h =>
      obtain ⟨-, -, rfl⟩ := validateNodeHello_ok_iff.mp h
      exact List.mem_cons_of_mem _ hkept
  | refused h =>
      rcases validateNodeHello_refused h with rfl | rfl
      · exact hp
      · exact hkept

/-- An accepted hello was within its window, and its nonce in no window of the cache. -/
theorem of_accepts (h : HelloStep C hs call hs') {hello : NodeHello} (hacc : call.Accepts hello) :
    hello.checks C hs.validationCtx call.nowMs = .ok () ∧
      (∀ p ∈ hs.remembered call.nowMs, p.1 ≠ hello.nonce) ∧
      hs' = { hs with replay := (hello.nonce, call.nowMs) :: hs.remembered call.nowMs } := by
  obtain ⟨htrue, rfl⟩ := hacc
  cases h with
  | accepted h => exact validateNodeHello_ok_iff.mp h
  | refused h => cases htrue

end HelloStep

/-! ## Runs -/

section Runs

variable {C : Crypto} {hs hs₁ hs' : HandshakeState} {calls later : List HelloCall} {call : HelloCall}
  {hello : NodeHello}

theorem runs_keep_ctx (hrun : Run (HelloStep C) hs calls hs') :
    hs'.validationCtx = hs.validationCtx :=
  hrun.invariant (I := fun s => s.validationCtx = hs.validationCtx)
    (fun _ _ _ ih hstep => hstep.keeps_ctx.trans ih) rfl

/-- A nonce outlasts every call in its window. -/
theorem runs_keep_nonce (hrun : Run (HelloStep C) hs calls hs') {p : List U8 × U64}
    (hp : p ∈ hs.replay)
    (hin : ∀ c ∈ calls, c.nowMs.toNat ≤ p.2.toNat + hs.validationCtx.skewWindowMs.toNat) :
    p ∈ hs'.replay := by
  induction hrun with
  | nil => exact hp
  | snoc hrun hstep ih =>
      refine hstep.keeps_nonce (ih fun c hc => hin c (List.mem_append_left _ hc)) ?_
      rw [runs_keep_ctx hrun]
      exact hin _ (List.mem_append_right _ (List.mem_singleton_self _))

/-- A hello accepted in time is refused from then on. -/
theorem not_accepted_again (hstep : HelloStep C hs call hs₁) (hacc : call.Accepts hello)
    (htime : call.InTime hs.validationCtx.skewWindowMs)
    (hrun : Run (HelloStep C) hs₁ later hs') (hclock : ClockRuns (call :: later)) :
    ∀ again ∈ later, ¬ again.Accepts hello := by
  intro again hagain haccepts
  obtain ⟨before, after, rfl⟩ := List.append_of_mem hagain
  obtain ⟨mid, next, hbefore, hlast⟩ := hrun.step_at
  have hctx : mid.validationCtx = hs.validationCtx :=
    (runs_keep_ctx hbefore).trans hstep.keeps_ctx
  obtain ⟨-, -, rfl⟩ := hstep.of_accepts hacc
  obtain ⟨hchecks, hnew, -⟩ := hlast.of_accepts haccepts
  rw [hctx] at hchecks
  -- the second reading is still in the window of the first
  have hin : again.nowMs.toNat ≤ call.nowMs.toNat + hs.validationCtx.skewWindowMs.toNat := by
    have hskew := (checks_skew hchecks).1
    have hbound := again.nowMs.isLt
    obtain ⟨-, rfl⟩ := hacc
    rcases htime with hpast | hend
    · rw [BitVec.le_def] at hpast
      omega
    · omega
  have hreadings : ∀ c ∈ before, c.nowMs ≤ again.nowMs := by
    intro c hc
    have htail := (List.pairwise_cons.mp hclock).2
    exact (List.pairwise_append.mp htail).2.2 c hc again List.mem_cons_self
  have hmem : (hello.nonce, call.nowMs) ∈ mid.replay := by
    refine runs_keep_nonce hbefore List.mem_cons_self fun c hc => ?_
    exact Nat.le_trans (BitVec.le_def.mp (hreadings c hc)) hin
  refine hnew _ (mem_prune_iff.mpr ⟨hmem, ?_⟩) rfl
  rw [hctx]
  exact hin

/-- A hello ahead of the clock is accepted again as soon as its nonce is forgotten. -/
theorem accepted_again (hstep : HelloStep C hs call hs₁) (hacc : call.Accepts hello)
    (htime : ¬ call.InTime hs.validationCtx.skewWindowMs) :
    ∃ again hs₂, HelloStep C hs₁ again hs₂ ∧ again.Accepts hello ∧ call.nowMs ≤ again.nowMs := by
  obtain ⟨hchecks, hnew, rfl⟩ := hstep.of_accepts hacc
  obtain ⟨-, rfl⟩ := hacc
  rw [HelloCall.InTime, BitVec.le_def] at htime
  push Not at htime
  obtain ⟨hahead, hroom⟩ := htime
  have hskew := (checks_skew hchecks).2
  obtain ⟨laterMs, hlater⟩ : ∃ t : U64,
      t.toNat = call.nowMs.toNat + hs.validationCtx.skewWindowMs.toNat + 1 :=
    ⟨BitVec.ofNat 64 _, by rw [BitVec.toNat_ofNat, Nat.mod_eq_of_lt hroom]⟩
  have hle : call.nowMs ≤ laterMs := by
    rw [BitVec.le_def]
    omega
  have hpass : call.hello.checks C hs.validationCtx laterMs = .ok () :=
    checks_later hchecks (by rw [BitVec.le_def]; omega) (by omega)
  refine ⟨⟨call.hello, laterMs, true⟩, _,
    .accepted (validateNodeHello_ok_iff.mpr ⟨hpass, ?_, rfl⟩), ⟨rfl, rfl⟩, hle⟩
  intro p hp
  obtain ⟨hmem, hin⟩ := mem_prune_iff.mp hp
  rcases List.mem_cons.mp hmem with rfl | hold
  · change laterMs.toNat ≤ call.nowMs.toNat + hs.validationCtx.skewWindowMs.toNat at hin
    omega
  · exact hnew p hold

/-- The calls that accept a hello are all in time: then there is one of them at most. -/
theorem acceptedOnce_of_inTime (hrun : Run (HelloStep C) hs calls hs') (hclock : ClockRuns calls)
    (htime : ∀ call ∈ calls, call.Accepts hello → call.InTime hs.validationCtx.skewWindowMs) :
    AcceptedOnce calls hello := by
  induction hrun with
  | nil => exact List.Pairwise.nil
  | @snoc mid next ls last hrun hlast ih =>
      have hinit := List.pairwise_append.mp hclock
      refine List.pairwise_append.mpr ⟨ih hinit.1 fun c hc => htime c (List.mem_append_left _ hc),
        List.pairwise_singleton _ _, ?_⟩
      rintro first hfirst last' hlast' ⟨hacc, hagain⟩
      obtain rfl := List.mem_singleton.mp hlast'
      obtain ⟨before, after, rfl⟩ := List.append_of_mem hfirst
      have hsplit : before ++ first :: after ++ [last'] = before ++ first :: (after ++ [last']) := by
        rw [List.append_assoc, List.cons_append]
      have hall := hrun.snoc hlast
      rw [hsplit, List.append_cons] at hall
      obtain ⟨start, hpre, hpost⟩ := hall.split
      obtain ⟨at₀, hbefore, hstep⟩ := hpre.unsnoc
      have hctx := runs_keep_ctx hbefore
      have htime₀ := htime first (List.mem_append_left _ hfirst) hacc
      rw [← hctx] at htime₀
      rw [hsplit] at hclock
      exact not_accepted_again hstep hacc htime₀ hpost (List.pairwise_append.mp hclock).2.1 last'
        (List.mem_append_right _ (List.mem_singleton_self _)) hagain

/-- A hello accepted in time is accepted once; after an acceptance ahead of its timestamp, and
only after such a one, the run can go on to accept it again. -/
theorem hello_accepted_once (hrun : Run (HelloStep C) hs calls hs₁) (hclock : ClockRuns calls)
    (hello : NodeHello) :
    ((∀ call ∈ calls, call.Accepts hello → call.InTime hs.validationCtx.skewWindowMs) →
      AcceptedOnce calls hello) ∧
    ∀ before call, calls = before ++ [call] → call.Accepts hello →
      ((∀ later hs', Run (HelloStep C) hs₁ later hs' → ClockRuns (calls ++ later) →
          ∀ again ∈ later, ¬ again.Accepts hello) ↔
        call.InTime hs.validationCtx.skewWindowMs) := by
  refine ⟨acceptedOnce_of_inTime hrun hclock, ?_⟩
  rintro before call rfl hacc
  obtain ⟨mid, hbefore, hstep⟩ := hrun.unsnoc
  rw [← runs_keep_ctx hbefore]
  constructor
  · intro hnever
    by_contra htime
    obtain ⟨again, hs₂, hagain, haccepts, hle⟩ := accepted_again hstep hacc htime
    refine hnever [again] hs₂ (.single hagain) ?_ again (List.mem_singleton_self _) haccepts
    refine List.pairwise_append.mpr ⟨hclock, List.pairwise_singleton _ _, ?_⟩
    intro c hc c' hc'
    obtain rfl := List.mem_singleton.mp hc'
    rcases List.mem_append.mp hc with hc | hc
    · exact BitVec.le_trans
        ((List.pairwise_append.mp hclock).2.2 c hc call (List.mem_singleton_self _)) hle
    · rw [List.mem_singleton.mp hc]
      exact hle
  · intro htime later hs' hlater hall
    rw [List.append_assoc, List.singleton_append] at hall
    exact not_accepted_again hstep hacc htime hlater (List.pairwise_append.mp hall).2.1

end Runs

/-! ## A hello ahead of the clock -/

namespace AheadOfClock

open OneKey

/-- What came of a call, and the state after it. -/
def validated (hello : NodeHello) (nowMs : U64) (hs : HandshakeState) : Bool × HandshakeState :=
  match validateNodeHello crypto hello nowMs hs with
  | .ok _ hs' => (true, hs')
  | .error _ hs' => (false, hs')

/-- The window is a minute and the hello is one second ahead of the clock. -/
def firstCall : HelloCall := ⟨helloX, 0#64, true⟩
def secondCall : HelloCall := ⟨helloX, 60001#64, true⟩
def afterFirst : HandshakeState := (validated helloX 0#64 start).2

/-- The clock has no part in the other checks of the hello. -/
theorem checks_x {nowMs : U64} (hskew : max nowMs.toNat 1000 - min nowMs.toNat 1000 ≤ 60000) :
    helloX.checks crypto start.validationCtx nowMs = .ok () := by
  have hfields : helloX.mandatoryFieldsOk = true := by decide
  simp only [NodeHello.checks, except_bind_ok_iff, check_ok_iff]
  exact ⟨(), hfields, (), rfl, (), (fun _ h => by cases h), (), verify_x, hskew⟩

theorem validate_first : validateNodeHello crypto helloX 0#64 start =
    .ok () { start with replay := [([1#8], 0#64)] } :=
  validateNodeHello_ok_iff.mpr ⟨checks_x (by decide), by decide, rfl⟩

theorem validate_second :
    validateNodeHello crypto helloX 60001#64 { start with replay := [([1#8], 0#64)] } =
      .ok () { start with replay := [([1#8], 60001#64)] } :=
  validateNodeHello_ok_iff.mpr ⟨checks_x (by decide), by decide, rfl⟩

theorem validated_of_ok {hello : NodeHello} {nowMs : U64} {hs hs' : HandshakeState}
    (h : validateNodeHello crypto hello nowMs hs = .ok () hs') :
    validated hello nowMs hs = (true, hs') := by
  unfold validated
  rw [h]

theorem afterFirst_eq : afterFirst = { start with replay := [([1#8], 0#64)] } :=
  congrArg Prod.snd (validated_of_ok validate_first)

theorem firstCall_step : HelloStep crypto start firstCall afterFirst := by
  rw [afterFirst_eq]
  exact .accepted validate_first

theorem secondCall_step :
    HelloStep crypto afterFirst secondCall (validated helloX 60001#64 afterFirst).2 := by
  rw [afterFirst_eq, validated_of_ok validate_second]
  exact .accepted validate_second

/-- The hello of one call ahead of the clock. -/
theorem hello_accepted_once_start :
    ((∀ call ∈ [firstCall], call.Accepts helloX → call.InTime start.validationCtx.skewWindowMs) →
      AcceptedOnce [firstCall] helloX) ∧
    ∀ before call, [firstCall] = before ++ [call] → call.Accepts helloX →
      ((∀ later hs', Run (HelloStep crypto) afterFirst later hs' →
          ClockRuns ([firstCall] ++ later) → ∀ again ∈ later, ¬ again.Accepts helloX) ↔
        call.InTime start.validationCtx.skewWindowMs) :=
  hello_accepted_once (.single firstCall_step) (List.pairwise_singleton _ _) helloX

/-- One hello is accepted twice, a minute and a millisecond apart. -/
theorem hello_accepted_twice :
    ¬ ∀ (C : Crypto) (hs hs' : HandshakeState) (calls : List HelloCall), hs.replay = [] →
      Run (HelloStep C) hs calls hs' → ClockRuns calls → ∀ hello, AcceptedOnce calls hello := by
  intro hclaim
  have hrun := (Run.single firstCall_step).snoc secondCall_step
  have hclock : ClockRuns ([firstCall] ++ [secondCall]) :=
    List.pairwise_pair.mpr (by decide)
  have honce := hclaim crypto start _ _ rfl hrun hclock helloX
  exact (List.pairwise_cons.mp honce).1 secondCall (List.mem_singleton_self _)
    ⟨⟨rfl, rfl⟩, ⟨rfl, rfl⟩⟩

end AheadOfClock

end Pwm
