import Pwm.Core.Types

/-!
# Genesis configuration and marks

The chain parameters fixed at genesis, and the two quantities computed from
them alone: the marks an account has accrued and the reward of a block.
-/

namespace Pwm

open BitVec

def legacyPolicyVer : U32 := 1#32
def defSeasonCoeffPpm : U64 := 1000000#64

/-- IPv4 claim phase allocation config carried in genesis. -/
structure ClaimPhaseConfig where
  phase : U8
  registryAddress : AccountId
  allocation : U128
  deriving DecidableEq

/-- One funded row at height 0. -/
structure GRow where
  acct : AccountId
  pubkey : Bytes32
  derIdx : U32
  bal : U128
  deriving DecidableEq

structure FundingCfg where
  accounts : List GRow
  deriving DecidableEq

structure VRow where
  acct : AccountId
  pubkey : Bytes32
  derIdx : U32
  deriving DecidableEq

structure ValCfg where
  set : List VRow
  deriving DecidableEq

inductive RewPol
  | toProducerAccount
  deriving DecidableEq

/-- Chain params at genesis. -/
structure GenCfg where
  funding : FundingCfg
  vals : ValCfg
  rew : RewPol := .toProducerAccount
  accounts : List GRow
  blocksPerHour : U64 := 3600#64
  marksPerHour : U64 := 1#64
  ipv4ClaimPhases : List ClaimPhaseConfig := []
  blockReward : U128
  policyVer : U32 := legacyPolicyVer
  baseEmissionPerBlock : U128 := 100#128
  minValidatorStake : U128 := 100000#128
  epochLengthBlocks : U64 := 10080#64
  conservationDelayBlocks : U64 := 86400#64
  xshardLockToBlocks : U64 := 604800#64
  pwmStakeMin : U128 := 100000#128
  seasonEnabled : Bool := false
  seasonCoeffPpm : U64 := defSeasonCoeffPpm
  deriving DecidableEq

namespace GenCfg

/-- The account paid for a block of this producer; none when the list is empty, where the code
divides by zero. -/
def prodAcct (cfg : GenCfg) (prodIdx : U32) : Option AccountId :=
  match cfg.rew with
  | .toProducerAccount => (cfg.vals.set[prodIdx.toNat % cfg.vals.set.length]?).map VRow.acct

def prodPk (cfg : GenCfg) (prodIdx : U32) : Option Bytes32 :=
  (cfg.vals.set[prodIdx.toNat % cfg.vals.set.length]?).map VRow.pubkey

def isLegacyPolicy (cfg : GenCfg) : Bool :=
  decide (cfg.policyVer = legacyPolicyVer)

/-- Seasonal multiplier in parts per million, the same for every block time. -/
def seasonPpm (cfg : GenCfg) (_blockTs : U64) : U128 :=
  if cfg.seasonEnabled then cfg.seasonCoeffPpm.setWidth 128 else defSeasonCoeffPpm.setWidth 128

end GenCfg

/-- The signing key of the devnet validator, derived from the seed `[99; 32]`. -/
def devNetSk : SigningKey :=
  0x0d47d6a31a3f5181b49e2d3901435581239221185697b34cf6f71530b6df9197#256

def devNetRow : GRow where
  acct := 0x32bc5ae809c2ef645842719f50bbde7ab05745c9ee5eb43c781f62416a7ba412#256
  pubkey := 0x664d58a29528769c8b2c89f115177a9132014da920bcd0ef80393e8142849529#256
  derIdx := 0#32
  bal := 1000000#128

/-- Single-validator devnet. -/
def devNet : GenCfg where
  funding := ⟨[devNetRow]⟩
  vals := ⟨[⟨devNetRow.acct, devNetRow.pubkey, devNetRow.derIdx⟩]⟩
  accounts := [devNetRow]
  blockReward := 100#128
  minValidatorStake := 0#128

/-! ## Marks -/

def ceilDivU64 (numer denom : U64) : U64 :=
  if numer = 0#64 then 0#64 else 1#64 + (numer - 1#64) / denom

/-- Effective marks at `currentHeight`, without changing the account. -/
def computeLazyMarks (account : Account) (currentHeight : U64) (genCfg : GenCfg) : U32 :=
  let stored := account.storedMarks
  if stored = marksCap ∨ currentHeight ≤ account.marksLastBlock then stored
  else if genCfg.blocksPerHour = 0#64 then stored
  else
    let deltaBlocks := currentHeight.saturatingSub account.marksLastBlock
    let deltaHours := deltaBlocks / genCfg.blocksPerHour
    if deltaHours = 0#64 then stored
    else
      let wholePwmStaked := account.stakedPwmRaw / pwmRawScale
      let rate := genCfg.marksPerHour
      if wholePwmStaked = 0#128 ∨ rate = 0#64 then stored
      else
        let remaining : U64 := (marksCap - stored).setWidth 64
        let wholePwmStaked : U64 := (wholePwmStaked.tryFrom 64).getD (allOnes 64)
        let perHour := wholePwmStaked.saturatingMul rate
        if perHour = 0#64 then stored
        else
          let saturHours := ceilDivU64 remaining perHour
          let effectiveHours := if deltaHours ≤ saturHours then deltaHours else saturHours
          let generated := perHour.saturatingMul effectiveHours
          let total := (stored.setWidth 64 : U64).saturatingAdd generated
          let cap : U64 := marksCap.setWidth 64
          (if total ≤ cap then total else cap).setWidth 32

/-- Only stake generates marks. -/
theorem computeLazyMarks_of_unstaked {account : Account} (hstake : account.stakedPwmRaw = 0#128)
    (height : U64) (cfg : GenCfg) : computeLazyMarks account height cfg = account.storedMarks := by
  have hwhole : account.stakedPwmRaw / pwmRawScale = 0#128 := by
    rw [hstake]
    decide
  unfold computeLazyMarks
  simp [hwhole]

/-- Per-block reward from the emission and the seasonal coefficient. -/
def computeBlockReward (genCfg : GenCfg) (_blockHeight : U64) : U128 :=
  if genCfg.seasonCoeffPpm = 0#64 then genCfg.blockReward
  else genCfg.baseEmissionPerBlock.saturatingMul (genCfg.seasonCoeffPpm.setWidth 128) / ppmDenom

/-- Settle the marks of an account at a height. -/
def touchAcctMrks (acc : Account) (inclusionHeight : U64) (genCfg : GenCfg) : Account :=
  { acc with
    storedMarks := computeLazyMarks acc inclusionHeight genCfg
    marksLastBlock := inclusionHeight }

section Touch

variable (acc : Account) (h : U64) (cfg : GenCfg)

@[simp] theorem touchAcctMrks_balancePwm :
    (touchAcctMrks acc h cfg).balancePwm = acc.balancePwm := rfl

@[simp] theorem touchAcctMrks_stakedPwmRaw :
    (touchAcctMrks acc h cfg).stakedPwmRaw = acc.stakedPwmRaw := rfl

@[simp] theorem touchAcctMrks_nonce : (touchAcctMrks acc h cfg).nonce = acc.nonce := rfl

end Touch

end Pwm
