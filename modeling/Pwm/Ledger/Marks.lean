import Pwm.Core.Genesis

/-!
# Accrual of marks

The marks of an account at a height are a formula over the natural numbers, cut
off at the cap. None of the machine operations on the way changes the result,
and settling in between never gains a mark.
-/

namespace Pwm

open BitVec

/-- The marks of an account at a height, over the natural numbers. -/
def idealMarks (account : Account) (currentHeight : U64) (genCfg : GenCfg) : Nat :=
  min (2 ^ 32 - 1) (account.storedMarks.toNat +
    account.stakedPwmRaw.toNat / 1000000 * genCfg.marksPerHour.toNat *
      ((currentHeight.toNat - account.marksLastBlock.toNat) / genCfg.blocksPerHour.toNat))

/-- The rounded-up quotient fits: neither the difference nor the sum leaves the width. -/
theorem toNat_ceilDivU64 {numer denom : U64} (hdenom : denom ≠ 0#64) :
    (ceilDivU64 numer denom).toNat = (numer.toNat + denom.toNat - 1) / denom.toNat := by
  have hpos : 0 < denom.toNat := Nat.pos_of_ne_zero fun h => hdenom (eq_of_toNat_eq h)
  rw [ceilDivU64]
  by_cases hnumer : numer = 0#64
  · rw [if_pos hnumer, hnumer]
    exact (Nat.div_eq_of_lt (by simpa using hpos)).symm
  · have hone : 1 ≤ numer.toNat := Nat.pos_of_ne_zero fun h => hnumer (eq_of_toNat_eq h)
    have hlt := numer.isLt
    have hsub : (numer - 1#64).toNat = numer.toNat - 1 := by
      rw [toNat_sub_of_le (by rw [le_def]; simpa using hone)]
      rfl
    have hquot : ((numer - 1#64) / denom).toNat = (numer.toNat - 1) / denom.toNat := by
      rw [toNat_udiv, hsub]
    have hle : (numer.toNat - 1) / denom.toNat ≤ numer.toNat - 1 := Nat.div_le_self _ _
    rw [if_neg hnumer, toNat_add_of_fits (by rw [hquot]; simp only [toNat_ofNat]; omega), hquot]
    have hstep : numer.toNat + denom.toNat - 1 = (numer.toNat - 1) + denom.toNat := by omega
    rw [hstep, Nat.add_div_right _ hpos, Nat.add_comm]
    rfl

/-- As many hours as fill up what remains do as well as any larger number of hours. -/
theorem capped_hours (cap stored rate hours : Nat) (hstored : stored ≤ cap) (hrate : 0 < rate) :
    min cap (stored + rate * min hours ((cap - stored + rate - 1) / rate)) =
      min cap (stored + rate * hours) := by
  by_cases hle : hours ≤ (cap - stored + rate - 1) / rate
  · rw [min_eq_left hle]
  · have hfull : cap - stored ≤ rate * ((cap - stored + rate - 1) / rate) := by
      have hmod := Nat.div_add_mod (cap - stored + rate - 1) rate
      have hlt := Nat.mod_lt (cap - stored + rate - 1) hrate
      omega
    have hmore : rate * ((cap - stored + rate - 1) / rate) ≤ rate * hours :=
      Nat.mul_le_mul_left rate (by omega)
    have hnow : cap ≤ stored + rate * ((cap - stored + rate - 1) / rate) := by omega
    have hlater : cap ≤ stored + rate * hours := by omega
    rw [min_eq_right (Nat.le_of_not_le hle), min_eq_left hnow, min_eq_left hlater]

/-- A rate that was cut off at the largest value fills up the cap in one hour. -/
theorem capped_rate (cap stored top whole rate hours : Nat) (hcap : cap ≤ top)
    (hhours : 0 < hours) :
    min cap (stored + min (min whole top * rate) top * hours) =
      min cap (stored + whole * rate * hours) := by
  by_cases hfits : min whole top * rate ≤ top
  · rw [min_eq_left hfits]
    by_cases hwhole : whole ≤ top
    · rw [min_eq_left hwhole]
    · rw [min_eq_right (Nat.le_of_not_le hwhole)] at hfits ⊢
      rcases Nat.eq_zero_or_pos rate with rfl | hrate
      · simp
      · have hone : top ≤ top * rate * hours :=
          le_trans (Nat.le_mul_of_pos_right top hrate) (Nat.le_mul_of_pos_right _ hhours)
        have hmore : top * rate * hours ≤ whole * rate * hours :=
          Nat.mul_le_mul_right _ (Nat.mul_le_mul_right _ (by omega))
        omega
  · rw [min_eq_right (Nat.le_of_not_le hfits)]
    have hless : min whole top * rate ≤ whole * rate := Nat.mul_le_mul_right _ (min_le_left _ _)
    have htop : top ≤ top * hours := Nat.le_mul_of_pos_right top hhours
    have hmore : whole * rate ≤ whole * rate * hours := Nat.le_mul_of_pos_right _ hhours
    omega

/-- The two cases of a minimum of machine integers. -/
theorem toNat_ite_le {w : Nat} (x y : BitVec w) :
    (if x ≤ y then x else y).toNat = min x.toNat y.toNat :=
  toNat_umin x y

theorem toNat_tryFrom_getD (x : U128) :
    ((x.tryFrom 64).getD (allOnes 64)).toNat = min x.toNat (2 ^ 64 - 1) := by
  rw [tryFrom]
  split
  · rename_i h
    rw [Option.getD_some, toNat_setWidth, Nat.mod_eq_of_lt h]
    omega
  · rename_i h
    rw [Option.getD_none, toNat_allOnes]
    omega

theorem toNat_saturatingMul {w : Nat} (x y : BitVec w) :
    (x.saturatingMul y).toNat = min (x.toNat * y.toNat) (2 ^ w - 1) := by
  rw [saturatingMul]
  split
  · rename_i h
    rw [toNat_mul, Nat.mod_eq_of_lt h]
    omega
  · rename_i h
    rw [toNat_allOnes]
    omega

/-- The marks after some hours at a rate, the hours cut off at those that fill up the cap. -/
def accrued (stored : U32) (perHour deltaHours : U64) : U32 :=
  let saturHours := ceilDivU64 ((marksCap - stored).setWidth 64) perHour
  let effectiveHours := if deltaHours ≤ saturHours then deltaHours else saturHours
  let total := (stored.setWidth 64 : U64).saturatingAdd (perHour.saturatingMul effectiveHours)
  (if total ≤ marksCap.setWidth 64 then total else marksCap.setWidth 64).setWidth 32

theorem toNat_accrued (stored : U32) {perHour : U64} (hrate : perHour ≠ 0#64) (deltaHours : U64) :
    (accrued stored perHour deltaHours).toNat =
      min (2 ^ 32 - 1) (stored.toNat + perHour.toNat * deltaHours.toNat) := by
  have hcap : marksCap.toNat = 2 ^ 32 - 1 := by decide
  have hstored : stored.toNat ≤ 2 ^ 32 - 1 := by
    have := stored.isLt
    omega
  have hpos : 0 < perHour.toNat := Nat.pos_of_ne_zero fun h => hrate (eq_of_toNat_eq h)
  have hremaining : ((marksCap - stored).setWidth 64 : U64).toNat = 2 ^ 32 - 1 - stored.toNat := by
    rw [toNat_setWidth, toNat_sub_of_le (by rw [le_def, hcap]; exact hstored), hcap]
    omega
  have hsatur : (ceilDivU64 ((marksCap - stored).setWidth 64) perHour).toNat =
      (2 ^ 32 - 1 - stored.toNat + perHour.toNat - 1) / perHour.toNat := by
    rw [toNat_ceilDivU64 hrate, hremaining]
  have hwide : (marksCap.setWidth 64 : U64).toNat = 2 ^ 32 - 1 := by decide
  have hstoredWide : (stored.setWidth 64 : U64).toNat = stored.toNat := by
    rw [toNat_setWidth]
    omega
  rw [accrued, toNat_setWidth, toNat_ite_le, toNat_saturatingAdd, toNat_saturatingMul,
    toNat_ite_le, hsatur, hwide, hstoredWide, ← capped_hours _ _ _ deltaHours.toNat hstored hpos]
  omega

/-- The marks are the ideal ones. -/
theorem computeLazyMarks_toNat (account : Account) (currentHeight : U64) {genCfg : GenCfg}
    (hhour : genCfg.blocksPerHour ≠ 0#64) :
    (computeLazyMarks account currentHeight genCfg).toNat =
      idealMarks account currentHeight genCfg := by
  have hcap : marksCap.toNat = 2 ^ 32 - 1 := by decide
  have hstored : account.storedMarks.toNat ≤ 2 ^ 32 - 1 := by
    have := account.storedMarks.isLt
    omega
  have hscale : pwmRawScale.toNat = 1000000 := rfl
  have hhours :
      ((currentHeight.saturatingSub account.marksLastBlock) / genCfg.blocksPerHour).toNat =
      (currentHeight.toNat - account.marksLastBlock.toNat) / genCfg.blocksPerHour.toNat := by
    rw [toNat_udiv, toNat_saturatingSub]
  have hwhole : (account.stakedPwmRaw / pwmRawScale).toNat =
      account.stakedPwmRaw.toNat / 1000000 := by
    rw [toNat_udiv, hscale]
  rw [idealMarks, ← hwhole, ← hhours]
  generalize hdelta : (currentHeight.saturatingSub account.marksLastBlock) / genCfg.blocksPerHour =
    deltaHours
  generalize hstake : account.stakedPwmRaw / pwmRawScale = wholePwm
  -- nothing accrues on the early returns
  have hidle : wholePwm.toNat * genCfg.marksPerHour.toNat * deltaHours.toNat = 0 →
      account.storedMarks.toNat = min (2 ^ 32 - 1) (account.storedMarks.toNat +
        wholePwm.toNat * genCfg.marksPerHour.toNat * deltaHours.toNat) := by
    intro hzero
    rw [hzero]
    omega
  unfold computeLazyMarks
  by_cases hstop : account.storedMarks = marksCap ∨ currentHeight ≤ account.marksLastBlock
  · rw [if_pos hstop]
    rcases hstop with hfull | hsame
    · rw [hfull, hcap]
      omega
    · apply hidle
      rw [← hdelta, hhours, Nat.sub_eq_zero_of_le (le_def.mp hsame), Nat.zero_div, Nat.mul_zero]
  · rw [if_neg hstop, if_neg hhour]
    dsimp only
    rw [hdelta, hstake]
    by_cases hnone : deltaHours = 0#64
    · rw [if_pos hnone]
      apply hidle
      rw [hnone, toNat_zero, Nat.mul_zero]
    · have hhoursPos : 0 < deltaHours.toNat :=
        Nat.pos_of_ne_zero fun h => hnone (eq_of_toNat_eq h)
      rw [if_neg hnone]
      by_cases hrate : wholePwm = 0#128 ∨ genCfg.marksPerHour = 0#64
      · rw [if_pos hrate]
        apply hidle
        rcases hrate with h | h
        · rw [h, toNat_zero, Nat.zero_mul, Nat.zero_mul]
        · rw [h, toNat_zero, Nat.mul_zero, Nat.zero_mul]
      · obtain ⟨hwholeNe, hrateNe⟩ := not_or.mp hrate
        have hwholePos : 0 < wholePwm.toNat :=
          Nat.pos_of_ne_zero fun h => hwholeNe (eq_of_toNat_eq h)
        have hratePos : 0 < genCfg.marksPerHour.toNat :=
          Nat.pos_of_ne_zero fun h => hrateNe (eq_of_toNat_eq h)
        have hper : (((wholePwm.tryFrom 64).getD (allOnes 64)).saturatingMul
            genCfg.marksPerHour).toNat =
            min (min wholePwm.toNat (2 ^ 64 - 1) * genCfg.marksPerHour.toNat) (2 ^ 64 - 1) := by
          rw [toNat_saturatingMul, toNat_tryFrom_getD]
        have hperNe : ((wholePwm.tryFrom 64).getD (allOnes 64)).saturatingMul
            genCfg.marksPerHour ≠ 0#64 := by
          intro hzero
          have hprod : 0 < min wholePwm.toNat (2 ^ 64 - 1) * genCfg.marksPerHour.toNat :=
            Nat.mul_pos (by omega) hratePos
          rw [hzero, toNat_zero] at hper
          omega
        rw [if_neg hrate, if_neg hperNe]
        calc (accrued account.storedMarks (((wholePwm.tryFrom 64).getD (allOnes 64)).saturatingMul
              genCfg.marksPerHour) deltaHours).toNat
            = min (2 ^ 32 - 1) (account.storedMarks.toNat +
                min (min wholePwm.toNat (2 ^ 64 - 1) * genCfg.marksPerHour.toNat) (2 ^ 64 - 1) *
                  deltaHours.toNat) := by rw [toNat_accrued _ hperNe, hper]
          _ = min (2 ^ 32 - 1) (account.storedMarks.toNat +
                wholePwm.toNat * genCfg.marksPerHour.toNat * deltaHours.toNat) :=
              capped_rate _ _ _ _ _ _ (by omega) hhoursPos

/-! ## Settling -/

theorem idealMarks_mono {account account' : Account} {h h' : U64} (genCfg : GenCfg)
    (hstored : account.storedMarks = account'.storedMarks)
    (hlast : account.marksLastBlock = account'.marksLastBlock)
    (hstake : account.stakedPwmRaw ≤ account'.stakedPwmRaw) (hheight : h ≤ h') :
    idealMarks account h genCfg ≤ idealMarks account' h' genCfg := by
  rw [le_def] at hstake hheight
  rw [idealMarks, idealMarks, hstored, hlast]
  have hwhole : account.stakedPwmRaw.toNat / 1000000 * genCfg.marksPerHour.toNat ≤
      account'.stakedPwmRaw.toNat / 1000000 * genCfg.marksPerHour.toNat :=
    Nat.mul_le_mul_right _ (Nat.div_le_div_right hstake)
  have hhours : (h.toNat - account'.marksLastBlock.toNat) / genCfg.blocksPerHour.toNat ≤
      (h'.toNat - account'.marksLastBlock.toNat) / genCfg.blocksPerHour.toNat :=
    Nat.div_le_div_right (by omega)
  have hgain := Nat.mul_le_mul hwhole hhours
  omega

/-- Settling once on the way yields at most the marks of settling at the end. -/
theorem idealMarks_touch_le (account : Account) {mid last : U64} {genCfg : GenCfg}
    (hhour : genCfg.blocksPerHour ≠ 0#64) (hmid : account.marksLastBlock ≤ mid)
    (hlast : mid ≤ last) :
    idealMarks (touchAcctMrks account mid genCfg) last genCfg ≤ idealMarks account last genCfg := by
  have hsettled : (touchAcctMrks account mid genCfg).storedMarks.toNat =
      idealMarks account mid genCfg := computeLazyMarks_toNat account mid hhour
  rw [idealMarks, hsettled, idealMarks, idealMarks]
  change min _ (_ + account.stakedPwmRaw.toNat / 1000000 * genCfg.marksPerHour.toNat *
    ((last.toNat - mid.toNat) / genCfg.blocksPerHour.toNat)) ≤ _
  rw [le_def] at hmid hlast
  have hhours : (mid.toNat - account.marksLastBlock.toNat) / genCfg.blocksPerHour.toNat +
      (last.toNat - mid.toNat) / genCfg.blocksPerHour.toNat ≤
      (last.toNat - account.marksLastBlock.toNat) / genCfg.blocksPerHour.toNat := by
    calc (mid.toNat - account.marksLastBlock.toNat) / genCfg.blocksPerHour.toNat +
          (last.toNat - mid.toNat) / genCfg.blocksPerHour.toNat
        ≤ (mid.toNat - account.marksLastBlock.toNat + (last.toNat - mid.toNat)) /
            genCfg.blocksPerHour.toNat := Nat.div_add_div_le_add_div
      _ = (last.toNat - account.marksLastBlock.toNat) / genCfg.blocksPerHour.toNat := by
          congr 1
          omega
  have hgain := Nat.mul_le_mul_left
    (account.stakedPwmRaw.toNat / 1000000 * genCfg.marksPerHour.toNat) hhours
  rw [Nat.mul_add] at hgain
  omega

/-- Settling at any heights on the way yields at most the marks of settling at the end. -/
theorem idealMarks_settled_le (account : Account) (heights : List U64) {last : U64}
    {genCfg : GenCfg} (hhour : genCfg.blocksPerHour ≠ 0#64)
    (hsorted : (account.marksLastBlock :: heights ++ [last]).Pairwise (· ≤ ·)) :
    idealMarks (heights.foldl (fun acc h => touchAcctMrks acc h genCfg) account) last genCfg ≤
      idealMarks account last genCfg := by
  induction heights generalizing account with
  | nil => exact Nat.le_refl _
  | cons h rest ih =>
      rw [List.cons_append, List.pairwise_cons] at hsorted
      obtain ⟨hfirst, hrest⟩ := hsorted
      have hlast : h ≤ last := by
        rw [List.cons_append, List.pairwise_cons] at hrest
        exact hrest.1 last (by simp)
      calc idealMarks ((h :: rest).foldl (fun acc h => touchAcctMrks acc h genCfg) account) last
            genCfg
          ≤ idealMarks (touchAcctMrks account h genCfg) last genCfg :=
            ih (touchAcctMrks account h genCfg) hrest
        _ ≤ idealMarks account last genCfg :=
          idealMarks_touch_le account hhour (hfirst h (by simp)) hlast

/-- The marks are exact, grow with the height and the stake, and settling in between never gains
any; the rounded-up quotient on the way fits its width. -/
theorem lazyMarks_exact (account : Account) (genCfg : GenCfg)
    (hhour : genCfg.blocksPerHour ≠ 0#64) :
    (∀ height, account.marksLastBlock ≤ height →
      (computeLazyMarks account height genCfg).toNat = idealMarks account height genCfg) ∧
    (∀ numer denom : U64, denom ≠ 0#64 →
      (ceilDivU64 numer denom).toNat = (numer.toNat + denom.toNat - 1) / denom.toNat) ∧
    (∀ height height', account.marksLastBlock ≤ height → height ≤ height' →
      computeLazyMarks account height genCfg ≤ computeLazyMarks account height' genCfg) ∧
    (∀ stake height, account.stakedPwmRaw ≤ stake → account.marksLastBlock ≤ height →
      computeLazyMarks account height genCfg ≤
        computeLazyMarks { account with stakedPwmRaw := stake } height genCfg) ∧
    ∀ heights last, (account.marksLastBlock :: heights ++ [last]).Pairwise (· ≤ ·) →
      (touchAcctMrks (heights.foldl (fun acc h => touchAcctMrks acc h genCfg) account) last
        genCfg).storedMarks ≤ (touchAcctMrks account last genCfg).storedMarks := by
  have hexact : ∀ acc height, (computeLazyMarks acc height genCfg).toNat =
      idealMarks acc height genCfg := fun acc height => computeLazyMarks_toNat acc height hhour
  refine ⟨fun height _ => hexact account height, fun numer denom => toNat_ceilDivU64, ?_, ?_, ?_⟩
  · intro height height' _ hle
    rw [le_def, hexact, hexact]
    exact idealMarks_mono genCfg rfl rfl (BitVec.le_refl _) hle
  · intro stake height hstake _
    rw [le_def, hexact, hexact]
    exact idealMarks_mono genCfg rfl rfl hstake (BitVec.le_refl _)
  · intro heights last hsorted
    change computeLazyMarks _ last genCfg ≤ computeLazyMarks account last genCfg
    rw [le_def, hexact, hexact]
    exact idealMarks_settled_le account heights hhour hsorted

/-- Two settlements of two whole coins staked on the devnet. -/
theorem devNet_marks_exact :
    devNet.blocksPerHour ≠ 0#64 ∧
    (touchAcctMrks ([5000#64, 7000#64].foldl (fun acc h => touchAcctMrks acc h devNet)
      { ({} : Account) with stakedPwmRaw := 2000000#128 }) 10800#64 devNet).storedMarks ≤
      (touchAcctMrks { ({} : Account) with stakedPwmRaw := 2000000#128 } 10800#64
        devNet).storedMarks := by
  have hhour : devNet.blocksPerHour ≠ 0#64 := by decide
  exact ⟨hhour, (lazyMarks_exact { ({} : Account) with stakedPwmRaw := 2000000#128 } devNet
    hhour).2.2.2.2 [5000#64, 7000#64] 10800#64 (by decide)⟩

end Pwm
