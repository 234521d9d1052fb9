import Pwm.Core.Types
import Pwm.Lib.Attempt
import Pwm.Lib.Text

/-!
# Amounts as decimal texts

An amount in base units is shown as coins with at most six decimals, the
trailing zeros left out. The reader of such texts gives the exact value or an
error.
-/

namespace Pwm

/-- The decimals of a remainder in base units, six of them. -/
def fracDigits (frac : Nat) : Text :=
  let digits := Nat.toDigits 10 frac
  List.replicate (6 - digits.length) '0' ++ digits

def formatPwm (raw : U128) : Text :=
  let whole := raw / pwmRawScale
  let frac := raw % pwmRawScale
  if frac = 0#128 then Nat.toDigits 10 whole.toNat ++ " PWM".toList
  else
    Nat.toDigits 10 whole.toNat ++ '.' ::
      ((fracDigits frac.toNat).rdropWhile (· == '0') ++ " PWM".toList)

/-- Multiplication that gives no value when the product does not fit. -/
def checkedMul {w : Nat} (x y : BitVec w) : Option (BitVec w) :=
  if x.toNat * y.toNat < 2 ^ w then some (x * y) else none

def numericOverflow : String := "numeric overflow"
def notDecimal : String := "must be a decimal number like 12.34"
def tooManyDecimals : String :=
  "supports up to 6 decimal places (scale 1 PWM = 1_000_000 base units)"

def orOverflow (o : Option U128) : Except String U128 :=
  o.elim (.error numericOverflow) .ok

/-- The digits of a text as a number of 128 bits. -/
def parseU128 (digits : Text) : Except String U128 :=
  match Digits.parseUnsigned 128 digits with
  | .ok x => .ok x
  | .error _ => .error numericOverflow

/-- The base units of the decimals of a text. -/
def parseFrac (frac : Text) : Except String U128 :=
  if frac = [] ∨ ¬ frac.all Char.isDigit then .error notDecimal
  else if 6 < frac.length then .error tooManyDecimals
  else parseU128 (frac ++ List.replicate (6 - frac.length) '0')

/-- The base units of the digits before the point and of those after it. -/
def partsUnits (whole : Text) (frac : Option Text) : Except String U128 := do
  let n ← parseU128 whole
  let wholeUnits ← orOverflow (checkedMul n pwmRawScale)
  let fracUnits ← frac.elim (.ok 0#128) parseFrac
  orOverflow (wholeUnits.checkedAdd fracUnits)

def parseDecimalPwmUnits (raw : Text) : Except String U128 :=
  let s := Text.trim raw
  if s = [] then .error "value is required"
  else if s.head? = some '-' then .error "negative values are not allowed"
  else
    let parts := match Text.splitOnce ['.'] s with
      | some (w, f) => (w, some f)
      | none => (s, none)
    if parts.1 = [] ∨ ¬ parts.1.all Char.isDigit then .error notDecimal
    else partsUnits parts.1 parts.2

/-! ## Reading -/

/-- A number of decimal digits. -/
def IsDigits (s : Text) : Prop :=
  s ≠ [] ∧ ∀ c ∈ s, c.isDigit = true

/-- The decimal text stands for this number of base units. -/
def DecimalUnits (s : Text) (units : Nat) : Prop :=
  (IsDigits s ∧ units = Nat.ofDigitChars 10 s 0 * 1000000) ∨
    ∃ whole frac, s = whole ++ '.' :: frac ∧ IsDigits whole ∧ IsDigits frac ∧ frac.length ≤ 6 ∧
      units = Nat.ofDigitChars 10 whole 0 * 1000000 +
        Nat.ofDigitChars 10 frac 0 * 10 ^ (6 - frac.length)

theorem isDigits_iff {s : Text} : IsDigits s ↔ ¬ (s = [] ∨ ¬ s.all Char.isDigit) := by
  rw [IsDigits, not_or, not_not, List.all_eq_true]

theorem parseU128_ok_iff {s : Text} {x : U128} (h : IsDigits s) :
    parseU128 s = .ok x ↔ x.toNat = Nat.ofDigitChars 10 s 0 := by
  rw [← Digits.parseUnsigned_ok_iff h.1 h.2, parseU128]
  cases Digits.parseUnsigned 128 s with
  | ok y => exact Iff.rfl
  | error e => simp

theorem checkedMul_ok_iff {x y z : U128} :
    orOverflow (checkedMul x y) = .ok z ↔ z.toNat = x.toNat * y.toNat := by
  rw [checkedMul, orOverflow]
  split
  · rename_i h
    rw [Option.elim_some, Except.ok.injEq, ← BitVec.toNat_inj, BitVec.toNat_mul,
      Nat.mod_eq_of_lt h, eq_comm]
  · rename_i h
    rw [Option.elim_none]
    have := z.isLt
    constructor
    · intro hz
      cases hz
    · intro hz
      omega

theorem checkedAdd_ok_iff {x y z : U128} :
    orOverflow (x.checkedAdd y) = .ok z ↔ z.toNat = x.toNat + y.toNat := by
  rw [← BitVec.checkedAdd_eq_some_iff, orOverflow]
  cases x.checkedAdd y with
  | none => simp
  | some s => simp

theorem parseFrac_ok_iff {frac : Text} {x : U128} :
    parseFrac frac = .ok x ↔ IsDigits frac ∧ frac.length ≤ 6 ∧
      x.toNat = Nat.ofDigitChars 10 frac 0 * 10 ^ (6 - frac.length) := by
  rw [parseFrac]
  by_cases hdigits : IsDigits frac
  · rw [if_neg (isDigits_iff.mp hdigits)]
    by_cases hlong : 6 < frac.length
    · rw [if_pos hlong]
      constructor
      · intro h
        cases h
      · rintro ⟨_, h, _⟩
        omega
    · have hpadded : IsDigits (frac ++ List.replicate (6 - frac.length) '0') := by
        refine ⟨by simp [hdigits.1], fun c hc => ?_⟩
        rcases List.mem_append.mp hc with hc | hc
        · exact hdigits.2 c hc
        · rw [List.eq_of_mem_replicate hc]
          decide
      rw [if_neg hlong, parseU128_ok_iff hpadded, Nat.ofDigitChars_append,
        Nat.ofDigitChars_replicate_zero, Nat.mul_comm]
      exact ⟨fun h => ⟨hdigits, by omega, h⟩, fun h => h.2.2⟩
  · rw [if_pos (not_not.mp (mt isDigits_iff.mpr hdigits))]
    constructor
    · intro h
      cases h
    · exact fun h => absurd h.1 hdigits

theorem IsDigits.not_mem {s : Text} {c : Char} (h : IsDigits s) (hc : c.isDigit = false) :
    c ∉ s := fun hmem => absurd (h.2 c hmem) (by rw [hc]; exact Bool.false_ne_true)

theorem DecimalUnits.head {s : Text} {units : Nat} (h : DecimalUnits s units) :
    s ≠ [] ∧ s.head? ≠ some '-' := by
  have hdigits : ∀ t tail : Text, IsDigits t → t ++ tail ≠ [] ∧ (t ++ tail).head? ≠ some '-' := by
    intro t tail ht
    cases t with
    | nil => exact absurd rfl ht.1
    | cons c rest =>
        refine ⟨by simp, fun hc => ?_⟩
        have hdash : c = '-' := Option.some.inj hc
        exact absurd (hdash ▸ ht.2 c List.mem_cons_self) (by decide)
  rcases h with ⟨hs, _⟩ | ⟨whole, frac, rfl, hwhole, _⟩
  · simpa using hdigits s [] hs
  · exact hdigits whole _ hwhole

/-- The value of the whole coins and of the decimals, when both fit together. -/
theorem partsUnits_ok_iff {whole : Text} {frac : Option Text} {x : U128}
    (hwhole : IsDigits whole) :
    partsUnits whole frac = .ok x ↔
      ∃ fracUnits, frac.elim (.ok 0#128) parseFrac = .ok fracUnits ∧
        x.toNat = Nat.ofDigitChars 10 whole 0 * 1000000 + fracUnits.toNat := by
  have hscale : pwmRawScale.toNat = 1000000 := rfl
  rw [partsUnits]
  constructor
  · intro h
    obtain ⟨n, hn, h⟩ := Attempt.except_bind_ok_iff.mp h
    obtain ⟨units, hunits, h⟩ := Attempt.except_bind_ok_iff.mp h
    obtain ⟨fracUnits, hfrac, h⟩ := Attempt.except_bind_ok_iff.mp h
    refine ⟨fracUnits, hfrac, ?_⟩
    rw [checkedAdd_ok_iff.mp h, checkedMul_ok_iff.mp hunits, hscale,
      (parseU128_ok_iff hwhole).mp hn]
  · rintro ⟨fracUnits, hfrac, hx⟩
    have hlt := x.isLt
    have hval : ∀ n, n < 2 ^ 128 → (BitVec.ofNat 128 n).toNat = n := fun n hn => by
      rw [BitVec.toNat_ofNat, Nat.mod_eq_of_lt hn]
    have hunits : (BitVec.ofNat 128 (Nat.ofDigitChars 10 whole 0 * 1000000)).toNat =
        Nat.ofDigitChars 10 whole 0 * 1000000 := hval _ (by omega)
    have hdigits : (BitVec.ofNat 128 (Nat.ofDigitChars 10 whole 0)).toNat =
        Nat.ofDigitChars 10 whole 0 := hval _ (by omega)
    have hn := (parseU128_ok_iff hwhole).mpr hdigits
    have hm : orOverflow (checkedMul (BitVec.ofNat 128 (Nat.ofDigitChars 10 whole 0))
        pwmRawScale) = .ok (BitVec.ofNat 128 (Nat.ofDigitChars 10 whole 0 * 1000000)) := by
      rw [checkedMul_ok_iff, hscale, hunits, hdigits]
    have ha : orOverflow ((BitVec.ofNat 128
        (Nat.ofDigitChars 10 whole 0 * 1000000)).checkedAdd fracUnits) = .ok x := by
      rw [checkedAdd_ok_iff, hunits, hx]
    exact Attempt.except_bind_ok_iff.mpr ⟨_, hn, Attempt.except_bind_ok_iff.mpr ⟨_, hm,
      Attempt.except_bind_ok_iff.mpr ⟨_, hfrac, ha⟩⟩⟩

/-- A text is read exactly when it is a decimal whose value fits, and then as that value. -/
theorem parseDecimalPwmUnits_ok_iff {raw : Text} {x : U128} :
    parseDecimalPwmUnits raw = .ok x ↔ DecimalUnits (Text.trim raw) x.toNat := by
  rw [parseDecimalPwmUnits]
  generalize Text.trim raw = s
  dsimp only
  by_cases hempty : s = []
  · rw [if_pos hempty]
    constructor
    · intro h
      cases h
    · exact fun h => absurd hempty h.head.1
  rw [if_neg hempty]
  by_cases hdash : s.head? = some '-'
  · rw [if_pos hdash]
    constructor
    · intro h
      cases h
    · exact fun h => absurd hdash h.head.2
  rw [if_neg hdash]
  cases hsplit : Text.splitOnce ['.'] s with
  | none =>
      have hpoint : '.' ∉ s := Text.splitOnce_char_none.mp hsplit
      dsimp only
      by_cases hdigits : IsDigits s
      · rw [if_neg (isDigits_iff.mp hdigits), partsUnits_ok_iff hdigits]
        constructor
        · rintro ⟨fracUnits, hfrac, hx⟩
          obtain rfl : 0#128 = fracUnits := Except.ok.inj hfrac
          rw [BitVec.toNat_zero, Nat.add_zero] at hx
          exact Or.inl ⟨hdigits, hx⟩
        · rintro (⟨_, hx⟩ | ⟨whole, frac, rfl, _⟩)
          · refine ⟨0#128, rfl, ?_⟩
            rw [BitVec.toNat_zero, Nat.add_zero]
            exact hx
          · exact absurd (by simp) hpoint
      · rw [if_pos (not_not.mp (mt isDigits_iff.mpr hdigits))]
        constructor
        · intro h
          cases h
        · rintro (⟨h, _⟩ | ⟨whole, frac, rfl, _⟩)
          · exact absurd h hdigits
          · exact absurd (by simp) hpoint
  | some p =>
      obtain ⟨whole, frac⟩ := p
      obtain ⟨rfl, _⟩ := Text.splitOnce_char.mp hsplit
      have hparts : ∀ whole' frac', IsDigits whole' →
          whole ++ '.' :: frac = whole' ++ '.' :: frac' → whole' = whole ∧ frac' = frac := by
        intro whole' frac' hdigits heq
        have hsplit' := Text.splitOnce_char.mpr ⟨heq, hdigits.not_mem (by decide)⟩
        rw [hsplit] at hsplit'
        obtain ⟨h1, h2⟩ := Prod.mk.inj (Option.some.inj hsplit')
        exact ⟨h1.symm, h2.symm⟩
      have hnot : ¬ IsDigits (whole ++ '.' :: frac) := fun h =>
        absurd (h.2 '.' (by simp)) (by decide)
      dsimp only
      by_cases hdigits : IsDigits whole
      · rw [if_neg (isDigits_iff.mp hdigits), partsUnits_ok_iff hdigits]
        constructor
        · rintro ⟨fracUnits, hfrac, hx⟩
          obtain ⟨hfracDigits, hlen, hval⟩ := parseFrac_ok_iff.mp hfrac
          rw [hval] at hx
          exact Or.inr ⟨whole, frac, rfl, hdigits, hfracDigits, hlen, hx⟩
        · rintro (⟨h, _⟩ | ⟨whole', frac', heq, hwhole', hfrac', hlen, hx⟩)
          · exact absurd h hnot
          · obtain ⟨rfl, rfl⟩ := hparts whole' frac' hwhole' heq
            have hlt := x.isLt
            have hfits : Nat.ofDigitChars 10 frac' 0 * 10 ^ (6 - frac'.length) < 2 ^ 128 := by
              omega
            have hval : (BitVec.ofNat 128 (Nat.ofDigitChars 10 frac' 0 *
                10 ^ (6 - frac'.length))).toNat =
                Nat.ofDigitChars 10 frac' 0 * 10 ^ (6 - frac'.length) := by
              rw [BitVec.toNat_ofNat, Nat.mod_eq_of_lt hfits]
            refine ⟨_, parseFrac_ok_iff.mpr ⟨hfrac', hlen, hval⟩, ?_⟩
            rw [hval, hx]
      · rw [if_pos (not_not.mp (mt isDigits_iff.mpr hdigits))]
        constructor
        · intro h
          cases h
        · rintro (⟨h, _⟩ | ⟨whole', frac', heq, hwhole', _⟩)
          · exact absurd h hnot
          · exact absurd ((hparts whole' frac' hwhole' heq).1 ▸ hwhole') hdigits

/-! ## Writing -/

theorem isDigits_decimal (n : Nat) : IsDigits (Nat.toDigits 10 n) :=
  ⟨Nat.toDigits_ne_nil, fun _ => Digits.isDigit_of_mem_decimal⟩

theorem fracDigits_spec {n : Nat} (h : n < 1000000) :
    (fracDigits n).length = 6 ∧ (∀ c ∈ fracDigits n, c.isDigit = true) ∧
      Nat.ofDigitChars 10 (fracDigits n) 0 = n := by
  have hlen : (Nat.toDigits 10 n).length ≤ 6 :=
    (Nat.length_toDigits_le_iff (by omega) (by omega)).mpr h
  refine ⟨?_, ?_, ?_⟩
  · rw [fracDigits, List.length_append, List.length_replicate]
    omega
  · intro c hc
    rcases List.mem_append.mp hc with hc | hc
    · rw [List.eq_of_mem_replicate hc]
      decide
    · exact Digits.isDigit_of_mem_decimal hc
  · rw [fracDigits, Nat.ofDigitChars_append, Nat.ofDigitChars_replicate_zero, Nat.mul_zero,
      Nat.ofDigitChars_ten_toDigits]

/-- Zeros at the end of the decimals do not count. -/
theorem ofDigitChars_rdropWhile (s : Text) (width : Nat) (h : s.length ≤ width) :
    Nat.ofDigitChars 10 (s.rdropWhile (· == '0')) 0 *
        10 ^ (width - (s.rdropWhile (· == '0')).length) =
      Nat.ofDigitChars 10 s 0 * 10 ^ (width - s.length) := by
  induction s using List.reverseRecOn with
  | nil => rfl
  | append_singleton front c ih =>
      by_cases hc : c = '0'
      · have hzero : ('0' : Char).toNat - '0'.toNat = 0 := rfl
        rw [List.length_append, List.length_singleton] at h
        rw [List.rdropWhile_concat_pos _ _ _ (by rw [hc]; decide), ih (by omega), hc,
          Nat.ofDigitChars_append, Nat.ofDigitChars_cons, Nat.ofDigitChars_nil, hzero,
          List.length_append, List.length_singleton]
        have hpow : width - front.length = width - (front.length + 1) + 1 := by omega
        rw [hpow, pow_succ]
        ring
      · rw [List.rdropWhile_concat_neg _ _ _ (by simpa using hc)]

/-- The decimal text of an amount, without its unit, stands for the amount. -/
theorem formatPwm_decimal (x : U128) :
    ∃ s, formatPwm x = s ++ " PWM".toList ∧ DecimalUnits s x.toNat := by
  have hscale : pwmRawScale.toNat = 1000000 := rfl
  have hwhole : (x / pwmRawScale).toNat = x.toNat / 1000000 := by rw [BitVec.toNat_udiv, hscale]
  have hfrac : (x % pwmRawScale).toNat = x.toNat % 1000000 := by rw [BitVec.toNat_umod, hscale]
  rw [formatPwm]
  by_cases hzero : x % pwmRawScale = 0#128
  · rw [if_pos hzero]
    refine ⟨_, rfl, Or.inl ⟨isDigits_decimal _, ?_⟩⟩
    rw [hzero, BitVec.toNat_zero] at hfrac
    rw [Nat.ofDigitChars_ten_toDigits, hwhole]
    omega
  · rw [if_neg hzero]
    have hpos : 0 < x.toNat % 1000000 := by
      rw [← hfrac]
      exact Nat.pos_of_ne_zero fun h => hzero (BitVec.eq_of_toNat_eq h)
    obtain ⟨hlen, hdigits, hval⟩ := fracDigits_spec (Nat.mod_lt x.toNat (by omega : 1000000 > 0))
    have htrim := ofDigitChars_rdropWhile (fracDigits (x.toNat % 1000000)) 6 hlen.le
    have hle := (List.rdropWhile_prefix (· == '0') (fracDigits (x.toNat % 1000000))).length_le
    rw [hlen, Nat.sub_self, pow_zero, Nat.mul_one, hval] at htrim
    have hne : (fracDigits (x.toNat % 1000000)).rdropWhile (· == '0') ≠ [] := by
      intro hnil
      rw [hnil, Nat.ofDigitChars_nil, Nat.zero_mul] at htrim
      omega
    rw [hfrac]
    refine ⟨Nat.toDigits 10 (x / pwmRawScale).toNat ++ '.' ::
      (fracDigits (x.toNat % 1000000)).rdropWhile (· == '0'), by simp, Or.inr ⟨_, _, rfl,
        isDigits_decimal _, ⟨hne, ?_⟩, by omega, ?_⟩⟩
    · exact fun c hc => hdigits c ((List.rdropWhile_prefix _ _).subset hc)
    · rw [htrim, Nat.ofDigitChars_ten_toDigits, hwhole]
      omega

theorem isWhite_eq_false_of_isDigit {c : Char} (h : c.isDigit = true) : Text.isWhite c = false := by
  have h0 : ('0' : Char).toNat = 48 := rfl
  simp only [Char.isDigit, Bool.and_eq_true, decide_eq_true_eq, ge_iff_le,
    UInt32.le_iff_toNat_le, Char.toNat_val] at h
  change 48 ≤ c.toNat ∧ c.toNat ≤ 57 at h
  rw [Text.isWhite]
  simp only [Bool.or_eq_false_iff, Bool.and_eq_false_iff, decide_eq_false_iff_not,
    beq_eq_false_iff_ne]
  omega

/-- A decimal text has no white space. -/
theorem DecimalUnits.trim {s : Text} {units : Nat} (h : DecimalUnits s units) :
    Text.trim s = s := by
  apply Text.trim_eq_self
  intro c hc
  rcases h with ⟨hs, _⟩ | ⟨whole, frac, rfl, hwhole, hfrac, _⟩
  · exact isWhite_eq_false_of_isDigit (hs.2 c hc)
  · rcases List.mem_append.mp hc with hc | hc
    · exact isWhite_eq_false_of_isDigit (hwhole.2 c hc)
    · rcases List.mem_cons.mp hc with rfl | hc
      · decide
      · exact isWhite_eq_false_of_isDigit (hfrac.2 c hc)

/-- An amount is read back from its text, and what is read is the exact value of the text. -/
theorem decimalAmounts_exact :
    (∀ x : U128, ∃ s, formatPwm x = s ++ " PWM".toList ∧ parseDecimalPwmUnits s = .ok x) ∧
    ∀ (raw : Text) (x : U128),
      parseDecimalPwmUnits raw = .ok x ↔ DecimalUnits (Text.trim raw) x.toNat := by
  refine ⟨fun x => ?_, fun raw x => parseDecimalPwmUnits_ok_iff⟩
  obtain ⟨s, hformat, hunits⟩ := formatPwm_decimal x
  refine ⟨s, hformat, ?_⟩
  rw [parseDecimalPwmUnits_ok_iff, hunits.trim]
  exact hunits

end Pwm
