import Pwm.Lib.MachineInt

/-!
# Numbers as digits

Byte strings as lower-case hexadecimal digits, most significant half first,
and natural numbers as decimal digits without a leading zero. Both are read
back from what was written.
-/

namespace Digits

/-! ## Hexadecimal -/

/-- The bytes as two digits each. -/
def hexDigits (bytes : List (BitVec 8)) : List Char :=
  bytes.flatMap fun b => [Nat.digitChar (b.toNat / 16), Nat.digitChar (b.toNat % 16)]

def isLowerHex (c : Char) : Bool :=
  c.isDigit || ('a' ≤ c && c ≤ 'f')

/-- The value of a lower-case hexadecimal digit. -/
def hexVal (c : Char) : Nat :=
  if c.isDigit then c.toNat - '0'.toNat else c.toNat - 'a'.toNat + 10

/-- The bytes that pairs of digits stand for. -/
def ofHexDigits : List Char → List (BitVec 8)
  | hi :: lo :: rest => BitVec.ofNat 8 (16 * hexVal hi + hexVal lo) :: ofHexDigits rest
  | _ => []

/-- The number that bytes stand for, the most significant one first. -/
def ofBeBytes (bytes : List (BitVec 8)) : Nat :=
  bytes.foldl (fun acc b => 256 * acc + b.toNat) 0

theorem hexVal_digitChar : ∀ d < 16, hexVal (Nat.digitChar d) = d := by
  decide

theorem isLowerHex_digitChar : ∀ d < 16, isLowerHex (Nat.digitChar d) = true := by
  decide

@[simp] theorem length_hexDigits (bytes : List (BitVec 8)) :
    (hexDigits bytes).length = 2 * bytes.length := by
  induction bytes with
  | nil => rfl
  | cons b rest ih =>
      simp only [hexDigits, List.flatMap_cons, List.length_append, List.length_cons,
        List.length_nil] at ih ⊢
      omega

theorem isLowerHex_of_mem_hexDigits {bytes : List (BitVec 8)} {c : Char}
    (h : c ∈ hexDigits bytes) : isLowerHex c = true := by
  obtain ⟨b, _, hc⟩ := List.mem_flatMap.mp h
  have hb := b.isLt
  rcases List.mem_pair.mp hc with rfl | rfl
  · exact isLowerHex_digitChar _ (by omega)
  · exact isLowerHex_digitChar _ (by omega)

/-- The digits of a byte string are read back as that byte string. -/
@[simp] theorem ofHexDigits_hexDigits (bytes : List (BitVec 8)) :
    ofHexDigits (hexDigits bytes) = bytes := by
  induction bytes with
  | nil => rfl
  | cons b rest ih =>
      have hb := b.isLt
      have hvalue : 16 * hexVal (Nat.digitChar (b.toNat / 16)) +
          hexVal (Nat.digitChar (b.toNat % 16)) = b.toNat := by
        rw [hexVal_digitChar _ (by omega), hexVal_digitChar _ (by omega)]
        omega
      simp only [hexDigits, List.flatMap_cons, List.cons_append, List.nil_append, ofHexDigits,
        hvalue, BitVec.ofNat_toNat, BitVec.setWidth_eq] at ih ⊢
      rw [ih]

theorem leBytes_succ {w : Nat} (n : Nat) (x : BitVec w) :
    x.leBytes (n + 1) = x.extractLsb' 0 8 :: (x >>> 8).leBytes n := by
  simp only [BitVec.leBytes, List.range_succ_eq_map, List.map_cons, List.map_map]
  refine congrArg₂ List.cons rfl (List.map_congr_left fun i _ => ?_)
  apply BitVec.eq_of_getLsbD_eq
  intro j hj
  simp only [Function.comp_apply, BitVec.getLsbD_extractLsb', BitVec.getLsbD_ushiftRight]
  congr 2
  omega

theorem ofBeBytes_concat (bytes : List (BitVec 8)) (b : BitVec 8) :
    ofBeBytes (bytes ++ [b]) = 256 * ofBeBytes bytes + b.toNat := by
  rw [ofBeBytes, List.foldl_append]
  rfl

theorem ofBeBytes_beBytes {w : Nat} (n : Nat) (x : BitVec w) :
    ofBeBytes (x.beBytes n) = x.toNat % 256 ^ n := by
  induction n generalizing x with
  | zero => simp [BitVec.beBytes, BitVec.leBytes, ofBeBytes, Nat.mod_one]
  | succ n ih =>
      have hlow : (x.extractLsb' 0 8).toNat = x.toNat % 256 := by simp
      have hhigh : (x >>> 8).toNat = x.toNat / 256 := by
        rw [BitVec.toNat_ushiftRight, Nat.shiftRight_eq_div_pow]
      have hsplit : x.beBytes (n + 1) = (x >>> 8).beBytes n ++ [x.extractLsb' 0 8] := by
        rw [BitVec.beBytes, leBytes_succ, List.reverse_cons, BitVec.beBytes]
      calc ofBeBytes (x.beBytes (n + 1))
          = 256 * (x.toNat / 256 % 256 ^ n) + x.toNat % 256 := by
            rw [hsplit, ofBeBytes_concat, ih, hlow, hhigh]
        _ = x.toNat % 256 ^ (n + 1) := by
            rw [pow_succ, Nat.mul_comm (256 ^ n), Nat.mod_mul]
            omega

/-- A byte array is read back from its bytes. -/
theorem ofNat_ofBeBytes (n : Nat) (x : BitVec (8 * n)) :
    BitVec.ofNat (8 * n) (ofBeBytes (x.beBytes n)) = x := by
  apply BitVec.eq_of_toNat_eq
  have hx : x.toNat < 256 ^ n := by
    have h := x.isLt
    rw [Nat.pow_mul] at h
    exact h
  rw [ofBeBytes_beBytes, Nat.mod_eq_of_lt hx, BitVec.toNat_ofNat, Nat.mod_eq_of_lt x.isLt]

theorem ofBeBytes_lt (bytes : List (BitVec 8)) : ofBeBytes bytes < 256 ^ bytes.length := by
  induction bytes using List.reverseRecOn with
  | nil => simp [ofBeBytes]
  | append_singleton front b ih =>
      have hb := b.isLt
      rw [ofBeBytes_concat, List.length_append, List.length_singleton, pow_succ]
      omega

/-- Bytes of one length are known from their number. -/
theorem ofBeBytes_injective {bytes others : List (BitVec 8)} (hlength : bytes.length = others.length)
    (h : ofBeBytes bytes = ofBeBytes others) : bytes = others := by
  induction bytes using List.reverseRecOn generalizing others with
  | nil => exact (List.eq_nil_of_length_eq_zero hlength.symm).symm
  | append_singleton front b ih =>
      cases others using List.reverseRecOn with
      | nil => simp at hlength
      | append_singleton front' b' =>
          have hb := b.isLt
          have hb' := b'.isLt
          rw [ofBeBytes_concat, ofBeBytes_concat] at h
          rw [List.length_append, List.length_append, List.length_singleton,
            List.length_singleton] at hlength
          rw [ih (by omega) (by omega : ofBeBytes front = ofBeBytes front'),
            BitVec.eq_of_toNat_eq (by omega : b.toNat = b'.toNat)]

/-- Bytes are read back from the array of their number. -/
theorem beBytes_ofBeBytes {w : Nat} {bytes : List (BitVec 8)} (h : 8 * bytes.length = w) :
    (BitVec.ofNat w (ofBeBytes bytes)).beBytes bytes.length = bytes := by
  subst h
  have hfits := ofBeBytes_lt bytes
  have hpow : 256 ^ bytes.length = 2 ^ (8 * bytes.length) := by
    rw [pow_mul]
    rfl
  apply ofBeBytes_injective (BitVec.length_beBytes _ _)
  rw [ofBeBytes_beBytes, BitVec.toNat_ofNat, ← hpow, Nat.mod_mod, Nat.mod_eq_of_lt hfits]

/-! ## Decimal -/

theorem isDigit_of_mem_decimal {n : Nat} {c : Char} (h : c ∈ Nat.toDigits 10 n) :
    c.isDigit = true :=
  Nat.isDigit_of_mem_toDigits (by omega) (by omega) h

theorem head_decimal_ne_zero {n : Nat} (hn : 0 < n) : (Nat.toDigits 10 n).head? ≠ some '0' := by
  induction n using Nat.strong_induction_on with
  | _ n ih =>
      by_cases hsmall : n < 10
      · rw [Nat.toDigits_of_lt_base hsmall]
        intro h
        have hzero : ∀ d < 10, Nat.digitChar d = '0' → d = 0 := by decide
        exact absurd (hzero n hsmall (Option.some.inj h)) (by omega)
      · have hne : Nat.toDigits 10 (n / 10) ≠ [] := Nat.toDigits_ne_nil
        rw [Nat.toDigits_of_base_le (by omega) (by omega), List.head?_append_of_ne_nil _ hne]
        exact ih (n / 10) (by omega) (by omega)

/-- A decimal of two or more digits does not start with a zero. -/
theorem head_decimal {n : Nat} (h : 1 < (Nat.toDigits 10 n).length) :
    (Nat.toDigits 10 n).head? ≠ some '0' := by
  refine head_decimal_ne_zero (Nat.pos_of_ne_zero ?_)
  rintro rfl
  rw [Nat.toDigits_zero] at h
  simp at h

/-- Read digits from the left on top of a value, up to the first character that is no digit or that
takes the value to the bound. -/
def parseDigits (bound : Nat) : Nat → List Char → Except String Nat
  | acc, [] => .ok acc
  | acc, c :: rest =>
      if ¬ c.isDigit then .error "invalid digit found in string"
      else
        let next := 10 * acc + (c.toNat - '0'.toNat)
        if bound ≤ next then .error "number too large to fit in target type"
        else parseDigits bound next rest

/-- Read an unsigned integer of a width; a plus sign may stand in front. -/
def parseUnsigned (w : Nat) (text : List Char) : Except String (BitVec w) :=
  let digits := match text with
    | '+' :: c :: rest => c :: rest
    | _ => text
  if text = [] then .error "cannot parse integer from empty string"
  else (parseDigits (2 ^ w) 0 digits).map (BitVec.ofNat w)

theorem le_ofDigitChars (acc : Nat) (digits : List Char) :
    acc ≤ Nat.ofDigitChars 10 digits acc := by
  induction digits generalizing acc with
  | nil => simp
  | cons c rest ih =>
      rw [Nat.ofDigitChars_cons]
      exact le_trans (by omega) (ih _)

theorem parseDigits_ok {bound acc : Nat} {digits : List Char}
    (hdigits : ∀ c ∈ digits, c.isDigit = true) (hfits : Nat.ofDigitChars 10 digits acc < bound) :
    parseDigits bound acc digits = .ok (Nat.ofDigitChars 10 digits acc) := by
  induction digits generalizing acc with
  | nil => simp [parseDigits]
  | cons c rest ih =>
      rw [Nat.ofDigitChars_cons] at hfits ⊢
      have hnext := lt_of_le_of_lt (le_ofDigitChars _ rest) hfits
      rw [parseDigits, if_neg (by simp [hdigits c List.mem_cons_self]), if_neg (by omega)]
      exact ih (fun d hd => hdigits d (List.mem_cons_of_mem c hd)) hfits

/-- A machine integer is read back from its decimal digits. -/
theorem parseUnsigned_decimal {w : Nat} (x : BitVec w) :
    parseUnsigned w (Nat.toDigits 10 x.toNat) = .ok x := by
  have hne : Nat.toDigits 10 x.toNat ≠ [] := Nat.toDigits_ne_nil
  have hdigit : ∀ c ∈ Nat.toDigits 10 x.toNat, c.isDigit = true := fun c =>
    isDigit_of_mem_decimal
  have hsign : (match Nat.toDigits 10 x.toNat with
      | '+' :: c :: rest => c :: rest
      | _ => Nat.toDigits 10 x.toNat) = Nat.toDigits 10 x.toNat := by
    split
    · rename_i c rest heq
      rw [heq] at hdigit
      exact absurd (hdigit '+' List.mem_cons_self) (by decide)
    · rfl
  have hvalue : Nat.ofDigitChars 10 (Nat.toDigits 10 x.toNat) 0 = x.toNat :=
    Nat.ofDigitChars_ten_toDigits
  simp only [parseUnsigned, if_neg hne]
  rw [hsign, parseDigits_ok hdigit (by rw [hvalue]; exact x.isLt), hvalue]
  simp [Except.map]

theorem isDigit_of_parseDigits_ok {bound acc v : Nat} {digits : List Char}
    (h : parseDigits bound acc digits = .ok v) : ∀ c ∈ digits, c.isDigit = true := by
  induction digits generalizing acc with
  | nil => exact fun c hc => absurd hc List.not_mem_nil
  | cons c rest ih =>
      rw [parseDigits] at h
      split at h
      · cases h
      · rename_i hdigit
        simp only at h
        split at h
        · cases h
        · refine List.forall_mem_cons.mpr ⟨?_, ih h⟩
          simpa using hdigit

/-- A text read as a number holds digits and a sign only. -/
theorem char_of_parseUnsigned {w : Nat} {text : List Char} {x : BitVec w}
    (h : parseUnsigned w text = .ok x) {c : Char} (hc : c ∈ text) :
    c = '+' ∨ c.isDigit = true := by
  have hok : ∀ digits, (if text = [] then Except.error "cannot parse integer from empty string"
      else (parseDigits (2 ^ w) 0 digits).map (BitVec.ofNat w)) = .ok x →
      ∀ d ∈ digits, d.isDigit = true := by
    intro digits hparse
    split at hparse
    · cases hparse
    · cases hdigits : parseDigits (2 ^ w) 0 digits with
      | error e =>
          rw [hdigits] at hparse
          cases hparse
      | ok v => exact isDigit_of_parseDigits_ok hdigits
  unfold parseUnsigned at h
  split at h
  · rcases List.mem_cons.mp hc with rfl | hrest
    · exact .inl rfl
    · exact .inr (hok _ h c hrest)
  · exact .inr (hok _ h c hc)

theorem parseDigits_ok_iff {bound acc v : Nat} {digits : List Char} (hacc : acc < bound)
    (hdigits : ∀ c ∈ digits, c.isDigit = true) :
    parseDigits bound acc digits = .ok v ↔ v = Nat.ofDigitChars 10 digits acc ∧ v < bound := by
  induction digits generalizing acc with
  | nil =>
      rw [parseDigits, Except.ok.injEq, Nat.ofDigitChars_nil]
      exact ⟨fun h => ⟨h.symm, h ▸ hacc⟩, fun h => h.1.symm⟩
  | cons c rest ih =>
      rw [parseDigits, if_neg (by simp [hdigits c List.mem_cons_self]), Nat.ofDigitChars_cons]
      by_cases hlarge : bound ≤ 10 * acc + (c.toNat - '0'.toNat)
      · rw [if_pos hlarge]
        have hle := le_ofDigitChars (10 * acc + (c.toNat - '0'.toNat)) rest
        constructor
        · intro h
          cases h
        · rintro ⟨rfl, hlt⟩
          omega
      · rw [if_neg hlarge]
        exact ih (by omega) fun d hd => hdigits d (List.mem_cons_of_mem c hd)

/-- An unsigned integer is read from digits exactly when their value fits. -/
theorem parseUnsigned_ok_iff {w : Nat} {text : List Char} {x : BitVec w} (hne : text ≠ [])
    (hdigits : ∀ c ∈ text, c.isDigit = true) :
    parseUnsigned w text = .ok x ↔ x.toNat = Nat.ofDigitChars 10 text 0 := by
  have hread := fun v => @parseDigits_ok_iff _ _ v _ (Nat.two_pow_pos w) hdigits
  have hplain : parseUnsigned w text = (parseDigits (2 ^ w) 0 text).map (BitVec.ofNat w) := by
    rw [parseUnsigned, if_neg hne]
    rintro c rest rfl
    exact absurd (hdigits '+' List.mem_cons_self) (by decide)
  rw [hplain]
  cases h : parseDigits (2 ^ w) 0 text with
  | error e =>
      constructor
      · intro hx
        cases hx
      · intro hx
        have hok := (hread x.toNat).mpr ⟨hx, x.isLt⟩
        rw [h] at hok
        cases hok
  | ok v =>
      obtain ⟨hv, hlt⟩ := (hread v).mp h
      rw [Except.map, Except.ok.injEq, ← hv]
      constructor
      · rintro rfl
        rw [BitVec.toNat_ofNat, Nat.mod_eq_of_lt hlt]
      · rintro rfl
        rw [BitVec.ofNat_toNat, BitVec.setWidth_eq]

/-- Digits are fewer than the power of ten of their number. -/
theorem ofDigitChars_lt {digits : List Char} (hdigits : ∀ c ∈ digits, c.isDigit = true) :
    Nat.ofDigitChars 10 digits 0 < 10 ^ digits.length := by
  induction digits using List.reverseRecOn with
  | nil => simp
  | append_singleton front c ih =>
      have hfront := ih fun d hd => hdigits d (List.mem_append_left _ hd)
      have hc := hdigits c (by simp)
      have hval : c.toNat - '0'.toNat < 10 := by
        have h0 : ('0' : Char).toNat = 48 := rfl
        have h9 : ('9' : Char).toNat = 57 := rfl
        simp only [Char.isDigit, Bool.and_eq_true, decide_eq_true_eq, ge_iff_le,
          UInt32.le_iff_toNat_le, Char.toNat_val] at hc
        change _ ∧ c.toNat ≤ 57 at hc
        omega
      rw [Nat.ofDigitChars_append, Nat.ofDigitChars_cons, Nat.ofDigitChars_nil, List.length_append,
        List.length_singleton, pow_succ]
      omega

end Digits
