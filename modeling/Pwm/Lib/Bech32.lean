import Pwm.Lib.Text

/-!
# Bech32 texts

A human-readable part, the separator `1`, groups of five bits and six groups of
checksum, each group as one character. The checksum register is held as its six
groups of five bits, so that feeding the checksum in shifts it through the
register; a text is read back from what was written.
-/

namespace Bech32

abbrev Group := BitVec 5

/-! ## The checksum -/

/-- The thirty bits of the checksum, five at a time. -/
structure Reg where
  r5 : Group
  r4 : Group
  r3 : Group
  r2 : Group
  r1 : Group
  r0 : Group
  deriving DecidableEq

namespace Reg

def ofBits (x : BitVec 30) : Reg :=
  ⟨x.extractLsb' 25 5, x.extractLsb' 20 5, x.extractLsb' 15 5, x.extractLsb' 10 5,
    x.extractLsb' 5 5, x.extractLsb' 0 5⟩

def xor (a b : Reg) : Reg :=
  ⟨a.r5 ^^^ b.r5, a.r4 ^^^ b.r4, a.r3 ^^^ b.r3, a.r2 ^^^ b.r2, a.r1 ^^^ b.r1, a.r0 ^^^ b.r0⟩

def zero : Reg :=
  ⟨0, 0, 0, 0, 0, 0⟩

def groups (a : Reg) : List Group :=
  [a.r5, a.r4, a.r3, a.r2, a.r1, a.r0]

theorem xor_assoc (a b c : Reg) : (a.xor b).xor c = a.xor (b.xor c) := by
  simp only [xor, BitVec.xor_assoc]

theorem xor_comm (a b : Reg) : a.xor b = b.xor a := by
  simp only [xor, BitVec.xor_comm]

theorem xor_xor_xor_comm (a b c d : Reg) :
    (a.xor b).xor (c.xor d) = (a.xor c).xor (b.xor d) := by
  rw [xor_assoc, xor_assoc, ← xor_assoc b, xor_comm b c, xor_assoc c]

@[simp] theorem xor_self (a : Reg) : a.xor a = zero := by
  simp only [xor, BitVec.xor_self]
  rfl

@[simp] theorem xor_zero (a : Reg) : a.xor zero = a := by
  simp [xor, zero]

@[simp] theorem zero_xor (a : Reg) : zero.xor a = a := by
  rw [xor_comm, xor_zero]

end Reg

/-- The generator of the code. -/
def gen : List (BitVec 30) :=
  [0x3b6a57b2#30, 0x26508e6d#30, 0x1ea119fa#30, 0x3d4233dd#30, 0x2a1462b3#30]

/-- What the group shifted out is folded back as. -/
def feedback (b : Group) : Reg :=
  (gen.zipIdx.filter fun p => b.getLsbD p.2).foldl (fun r p => r.xor (.ofBits p.1)) .zero

def step (c : Reg) (v : Group) : Reg :=
  (⟨c.r4, c.r3, c.r2, c.r1, c.r0, v⟩ : Reg).xor (feedback c.r5)

def steps (c : Reg) (vs : List Group) : Reg :=
  vs.foldl step c

def polymod (vs : List Group) : Reg :=
  steps ⟨0, 0, 0, 0, 0, 1⟩ vs

/-- Of the rows that either group selects, those that both select cancel. -/
theorem foldl_select_xor (rows : List (BitVec 30 × Nat)) (a b : Group) (r s : Reg) :
    (rows.filter fun p => (a ^^^ b).getLsbD p.2).foldl (fun r p => r.xor (.ofBits p.1)) (r.xor s) =
      ((rows.filter fun p => a.getLsbD p.2).foldl (fun r p => r.xor (.ofBits p.1)) r).xor
        ((rows.filter fun p => b.getLsbD p.2).foldl (fun r p => r.xor (.ofBits p.1)) s) := by
  simp only [BitVec.getLsbD_xor]
  induction rows generalizing r s with
  | nil => rfl
  | cons p rows ih =>
      simp only [List.filter_cons]
      cases a.getLsbD p.2 with
      | false =>
          cases b.getLsbD p.2 with
          | false => exact ih r s
          | true =>
              simp only [Bool.false_bne, if_true, Bool.false_eq_true, if_false, List.foldl_cons]
              rw [← ih, Reg.xor_assoc]
      | true =>
          cases b.getLsbD p.2 with
          | false =>
              simp only [Bool.bne_false, if_true, Bool.false_eq_true, if_false, List.foldl_cons]
              rw [← ih, Reg.xor_assoc, Reg.xor_comm s, Reg.xor_assoc]
          | true =>
              simp only [bne_self_eq_false, Bool.false_eq_true, if_true, if_false, List.foldl_cons]
              rw [← ih, Reg.xor_xor_xor_comm, Reg.xor_self, Reg.xor_zero]

theorem feedback_xor (a b : Group) : feedback (a ^^^ b) = (feedback a).xor (feedback b) :=
  foldl_select_xor gen.zipIdx a b .zero .zero

theorem step_xor (c d : Reg) (u v : Group) :
    step (c.xor d) (u ^^^ v) = (step c u).xor (step d v) := by
  have hshift : (⟨(c.xor d).r4, (c.xor d).r3, (c.xor d).r2, (c.xor d).r1, (c.xor d).r0,
      u ^^^ v⟩ : Reg) = (⟨c.r4, c.r3, c.r2, c.r1, c.r0, u⟩ : Reg).xor
        ⟨d.r4, d.r3, d.r2, d.r1, d.r0, v⟩ := rfl
  have hback : feedback (c.xor d).r5 = (feedback c.r5).xor (feedback d.r5) := feedback_xor _ _
  rw [step, hshift, hback, Reg.xor_xor_xor_comm]
  rfl

/-- The register is linear in what is fed to it. -/
theorem steps_xor (c d : Reg) (us vs : List Group) (h : us.length = vs.length) :
    steps (c.xor d) (List.zipWith (· ^^^ ·) us vs) = (steps c us).xor (steps d vs) := by
  induction us generalizing c d vs with
  | nil =>
      cases vs with
      | nil => rfl
      | cons v vs => exact absurd h (by simp)
  | cons u us ih =>
      cases vs with
      | nil => exact absurd h (by simp)
      | cons v vs =>
          rw [List.zipWith_cons_cons, steps, List.foldl_cons, step_xor]
          exact ih (step c u) (step d v) vs (by simpa using h)

/-- A register whose first group is empty is shifted without feedback. -/
theorem step_shift (r4 r3 r2 r1 r0 v : Group) :
    step ⟨0, r4, r3, r2, r1, r0⟩ v = ⟨r4, r3, r2, r1, r0, v⟩ := by
  have hzero : feedback 0 = Reg.zero := by decide
  rw [step, hzero, Reg.xor_zero]

/-- Six groups fed to an empty register fill it. -/
theorem steps_groups (a : Reg) : steps .zero a.groups = a := by
  simp only [steps, Reg.groups, List.foldl_cons, List.foldl_nil, Reg.zero]
  rw [step_shift, step_shift, step_shift, step_shift, step_shift, step_shift]

/-- Feeding groups in place of zeros adds them to the register. -/
theorem steps_add (c a : Reg) : steps c a.groups = (steps c (List.replicate 6 0)).xor a := by
  have hzip : List.zipWith (· ^^^ ·) (List.replicate 6 (0 : Group)) a.groups = a.groups := by
    simp [Reg.groups, List.replicate]
  calc steps c a.groups
      = steps (c.xor .zero) (List.zipWith (· ^^^ ·) (List.replicate 6 0) a.groups) := by
        rw [hzip, Reg.xor_zero]
    _ = (steps c (List.replicate 6 0)).xor (steps .zero a.groups) :=
        steps_xor _ _ _ _ rfl
    _ = (steps c (List.replicate 6 0)).xor a := by rw [steps_groups]

inductive Variant
  | bech32
  | bech32m
  deriving DecidableEq

def Variant.constant : Variant → Reg
  | .bech32 => .ofBits 1#30
  | .bech32m => .ofBits 0x2bc830a3#30

/-- The variant whose checksum leaves this remainder. -/
def Variant.fromRemainder (r : Reg) : Option Variant :=
  if r = Variant.bech32.constant then some .bech32
  else if r = Variant.bech32m.constant then some .bech32m
  else none

theorem fromRemainder_constant (v : Variant) : Variant.fromRemainder v.constant = some v := by
  cases v with
  | bech32 => decide
  | bech32m => decide

/-- The human-readable part as groups. -/
def hrpExpand (hrp : Text) : List Group :=
  hrp.map (fun c => BitVec.ofNat 5 (c.toNat / 32)) ++ [0] ++
    hrp.map (fun c => BitVec.ofNat 5 (c.toNat % 32))

def checksum (variant : Variant) (hrp : Text) (data : List Group) : List Group :=
  ((polymod (hrpExpand hrp ++ data ++ List.replicate 6 0)).xor variant.constant).groups

theorem length_checksum (variant : Variant) (hrp : Text) (data : List Group) :
    (checksum variant hrp data).length = 6 := rfl

/-- The remainder of a text with its checksum is the constant of its variant. -/
theorem polymod_checksum (variant : Variant) (hrp : Text) (data : List Group) :
    polymod (hrpExpand hrp ++ (data ++ checksum variant hrp data)) = variant.constant := by
  have hsplit : ∀ tail : List Group, polymod (hrpExpand hrp ++ data ++ tail) =
      steps (polymod (hrpExpand hrp ++ data)) tail := by
    intro tail
    rw [polymod, steps, List.foldl_append]
    rfl
  rw [← List.append_assoc, hsplit, checksum, hsplit, steps_add, ← Reg.xor_assoc, Reg.xor_self,
    Reg.zero_xor]

/-! ## Texts -/

def charset : Text :=
  "qpzry9x8gf2tvdw0s3jn54khce6mua7l".toList

def toChar (g : Group) : Char :=
  charset.getD g.toNat '?'

/-- The group of a character of either case. -/
def ofChar (c : Char) : Option Group :=
  (charset.idxOf? c.toLower).map (BitVec.ofNat 5)

theorem ofChar_toChar : ∀ g : Group, ofChar (toChar g) = some g := by
  decide

theorem toChar_ofChar {c : Char} {g : Group} (h : ofChar c = some g) : toChar g = c.toLower := by
  rw [ofChar, Option.map_eq_some_iff] at h
  obtain ⟨i, hi, rfl⟩ := h
  obtain ⟨hlt, hget, _⟩ := List.idxOf?_eq_some_iff.mp hi
  have hlen : charset.length = 32 := by decide
  have hval : (BitVec.ofNat 5 i).toNat = i := by
    rw [BitVec.toNat_ofNat]
    omega
  rw [toChar, hval, List.getD_eq_getElem _ _ hlt]
  simpa using hget

/-- A character of a group is a small letter or a digit, and never the separator. -/
theorem toChar_plain : ∀ g : Group, (toChar g).isUpper = false ∧ toChar g ≠ '1' ∧
    toChar g ≠ '-' ∧ Text.isWhite (toChar g) = false := by
  decide

/-- A text has letters of one case only. -/
def oneCase (s : Text) : Prop :=
  ¬ (s.any Char.isUpper = true ∧ s.any Char.isLower = true)

instance (s : Text) : Decidable (oneCase s) := by
  unfold oneCase
  infer_instance

/-- A human-readable part is of a fair length and printable. -/
def checkHrp (hrp : Text) : Prop :=
  hrp ≠ [] ∧ hrp.length ≤ 83 ∧ ∀ c ∈ hrp, 33 ≤ c.toNat ∧ c.toNat ≤ 126

instance (hrp : Text) : Decidable (checkHrp hrp) := by
  unfold checkHrp
  infer_instance

/-- The text of a small human-readable part and data. -/
def encode (hrp : Text) (data : List Group) (variant : Variant) : Text :=
  hrp ++ '1' :: (data ++ checksum variant hrp data).map toChar

/-- The parts before and after the last separator. -/
def splitLast (s : Text) : Option (Text × Text) :=
  match s.reverse.dropWhile (· ≠ '1') with
  | [] => none
  | _ :: front => some (front.reverse, (s.reverse.takeWhile (· ≠ '1')).reverse)

/-- Read the parts of a text whose checksum is right. -/
def decode (s : Text) : Option (Text × List Group × Variant) :=
  match splitLast s with
  | none => none
  | some (rawHrp, rawData) =>
      if ¬ checkHrp rawHrp ∨ ¬ oneCase s then none
      else
        let hrp := Text.toAsciiLower rawHrp
        match rawData.mapM ofChar with
        | none => none
        | some data =>
            if data.length < 6 then none
            else (Variant.fromRemainder (polymod (hrpExpand hrp ++ data))).map fun variant =>
              (hrp, data.take (data.length - 6), variant)

theorem splitLast_append {hrp tail : Text} (h : '1' ∉ tail) :
    splitLast (hrp ++ '1' :: tail) = some (hrp, tail) := by
  have hne : ∀ c ∈ tail.reverse, decide (c ≠ '1') = true := by
    intro c hc
    have hc' : c ≠ '1' := fun he => h (he ▸ List.mem_reverse.mp hc)
    exact decide_eq_true hc'
  have hrev : (hrp ++ '1' :: tail).reverse = tail.reverse ++ ('1' :: hrp.reverse) := by simp
  have hdrop : (hrp ++ '1' :: tail).reverse.dropWhile (· ≠ '1') = '1' :: hrp.reverse := by
    rw [hrev, List.dropWhile_append_of_pos hne]
    rfl
  have htake : (hrp ++ '1' :: tail).reverse.takeWhile (· ≠ '1') = tail.reverse := by
    rw [hrev, List.takeWhile_append_of_pos hne]
    simp
  simp only [splitLast, hdrop, htake, List.reverse_reverse]

theorem mapM_ofChar (data : List Group) : (data.map toChar).mapM ofChar = some data := by
  induction data with
  | nil => rfl
  | cons g rest ih => simp [List.mapM_cons, ofChar_toChar, ih]

/-- A text is read back from a small human-readable part and its data. -/
theorem decode_encode {hrp : Text} (data : List Group) (variant : Variant) (hcheck : checkHrp hrp)
    (hsmall : ∀ c ∈ hrp, c.isUpper = false) :
    decode (encode hrp data variant) = some (hrp, data, variant) := by
  have hnosep : '1' ∉ (data ++ checksum variant hrp data).map toChar := by
    intro h
    obtain ⟨g, _, hg⟩ := List.mem_map.mp h
    exact (toChar_plain g).2.1 hg
  have hone : oneCase (encode hrp data variant) := by
    rintro ⟨hupper, _⟩
    obtain ⟨c, hc, hup⟩ := List.any_eq_true.mp hupper
    rcases List.mem_append.mp hc with hc | hc
    · exact absurd hup (by rw [hsmall c hc]; decide)
    · rcases List.mem_cons.mp hc with rfl | hc
      · exact absurd hup (by decide)
      · obtain ⟨g, _, rfl⟩ := List.mem_map.mp hc
        exact absurd hup (by rw [(toChar_plain g).1]; decide)
  have hlower : Text.toAsciiLower hrp = hrp := by
    calc Text.toAsciiLower hrp
        = hrp.map id := List.map_congr_left fun c hc => by
          have hup := hsmall c hc
          rw [Char.isUpper, decide_eq_false_iff_not] at hup
          rw [Char.toLower, dif_neg hup]
          rfl
      _ = hrp := List.map_id _
  have hsplit : splitLast (encode hrp data variant) =
      some (hrp, (data ++ checksum variant hrp data).map toChar) := splitLast_append hnosep
  have hlen : ¬ (data ++ checksum variant hrp data).length < 6 := by
    rw [List.length_append, length_checksum]
    omega
  have htake : (data ++ checksum variant hrp data).take
      ((data ++ checksum variant hrp data).length - 6) = data := by
    rw [List.length_append, length_checksum, Nat.add_sub_cancel, List.take_left]
  rw [decode, hsplit]
  dsimp only
  rw [if_neg (by rintro (h | h); exacts [h hcheck, h hone]), hlower, mapM_ofChar]
  dsimp only
  rw [if_neg hlen, polymod_checksum, fromRemainder_constant, htake]
  rfl

example : encode "a".toList [] .bech32m = "a1lqfn3a".toList := by
  decide

/-- The human-readable part of a text is its beginning in small letters. -/
theorem decode_hrp {s hrp : Text} {data : List Group} {variant : Variant}
    (h : decode s = some (hrp, data, variant)) : ∀ c ∈ hrp, ∃ d ∈ s, d.toLower = c := by
  cases hsplit : splitLast s with
  | none =>
      rw [decode, hsplit] at h
      exact absurd h (by simp)
  | some p =>
      have hfront : ∀ c ∈ p.1, c ∈ s := by
        intro c hc
        rw [splitLast] at hsplit
        cases hdrop : s.reverse.dropWhile (· ≠ '1') with
        | nil =>
            rw [hdrop] at hsplit
            exact absurd hsplit (by simp)
        | cons d front =>
            rw [hdrop] at hsplit
            obtain rfl := (Option.some.inj hsplit).symm
            apply List.mem_reverse.mp
            apply (List.dropWhile_suffix (· ≠ '1')).subset
            rw [hdrop]
            exact List.mem_cons_of_mem d (List.mem_reverse.mp hc)
      intro c hc
      have hhrp : hrp = Text.toAsciiLower p.1 := by
        rw [decode, hsplit] at h
        dsimp only at h
        split at h
        · exact absurd h (by simp)
        · split at h
          · exact absurd h (by simp)
          · split at h
            · exact absurd h (by simp)
            · obtain ⟨_, _, hv⟩ := Option.map_eq_some_iff.mp h
              exact (Prod.ext_iff.mp hv).1.symm
      rw [hhrp] at hc
      obtain ⟨d, hd, rfl⟩ := List.mem_map.mp hc
      exact ⟨d, hfront d hd, rfl⟩

theorem splitLast_eq_some {s front tail : Text} (h : splitLast s = some (front, tail)) :
    s = front ++ '1' :: tail := by
  rw [splitLast] at h
  cases hdrop : s.reverse.dropWhile (· ≠ '1') with
  | nil =>
      rw [hdrop] at h
      exact absurd h (by simp)
  | cons d rest =>
      rw [hdrop] at h
      obtain ⟨rfl, rfl⟩ := Prod.mk.inj (Option.some.inj h)
      have hd : d = '1' := by
        have hhead := List.head?_dropWhile_not (fun c => decide (c ≠ '1')) s.reverse
        rw [hdrop] at hhead
        simpa using hhead
      calc s = s.reverse.reverse := (List.reverse_reverse s).symm
        _ = (s.reverse.takeWhile (· ≠ '1') ++ d :: rest).reverse := by
          rw [← hdrop, List.takeWhile_append_dropWhile]
        _ = rest.reverse ++ '1' :: (s.reverse.takeWhile (· ≠ '1')).reverse := by
          rw [hd, List.reverse_append, List.reverse_cons, List.append_assoc]
          rfl

theorem map_toChar_of_mapM {s : Text} {data : List Group} (h : s.mapM ofChar = some data) :
    data.map toChar = Text.toAsciiLower s := by
  induction s generalizing data with
  | nil =>
      obtain rfl : [] = data := Option.some.inj h
      rfl
  | cons c rest ih =>
      rw [List.mapM_cons, Option.bind_eq_bind, Option.bind_eq_some_iff] at h
      obtain ⟨g, hg, h⟩ := h
      rw [Option.bind_eq_bind, Option.bind_eq_some_iff] at h
      obtain ⟨gs, hgs, h⟩ := h
      obtain rfl : g :: gs = data := Option.some.inj h
      rw [List.map_cons, ih hgs, toChar_ofChar hg]
      rfl

/-- The parts of a text that is read. -/
theorem decode_parts {s hrp : Text} {data : List Group} {variant : Variant}
    (h : decode s = some (hrp, data, variant)) :
    ∃ rawHrp rawData groups, s = rawHrp ++ '1' :: rawData ∧ hrp = Text.toAsciiLower rawHrp ∧
      rawData.mapM ofChar = some groups ∧ 6 ≤ groups.length ∧
      data = groups.take (groups.length - 6) ∧
      Variant.fromRemainder (polymod (hrpExpand hrp ++ groups)) = some variant := by
  rw [decode] at h
  cases hsplit : splitLast s with
  | none =>
      rw [hsplit] at h
      exact absurd h (by simp)
  | some p =>
      rw [hsplit] at h
      dsimp only at h
      split at h
      · exact absurd h (by simp)
      · cases hgroups : p.2.mapM ofChar with
        | none =>
            rw [hgroups] at h
            exact absurd h (by simp)
        | some groups =>
            rw [hgroups] at h
            dsimp only at h
            by_cases hshort : groups.length < 6
            · rw [if_pos hshort] at h
              exact absurd h (by simp)
            · rw [if_neg hshort] at h
              obtain ⟨v, hv, heq⟩ := Option.map_eq_some_iff.mp h
              obtain ⟨hhrp, hrest⟩ := Prod.mk.inj heq
              obtain ⟨hdata, hvariant⟩ := Prod.mk.inj hrest
              refine ⟨p.1, p.2, groups, splitLast_eq_some hsplit, hhrp.symm, hgroups, by omega,
                hdata.symm, ?_⟩
              rw [← hhrp, ← hvariant]
              exact hv

theorem fromRemainder_eq_some {r : Reg} {v : Variant} (h : Variant.fromRemainder r = some v) :
    r = v.constant := by
  rw [Variant.fromRemainder] at h
  split at h
  · rename_i hr
    rw [hr, Option.some.inj h]
  · split at h
    · rename_i hr
      rw [hr, Option.some.inj h]
    · exact absurd h (by simp)

/-- The last six groups of a text whose remainder is a constant are its checksum. -/
theorem eq_checksum {hrp : Text} {groups : List Group} {v : Variant} (hlen : 6 ≤ groups.length)
    (h : polymod (hrpExpand hrp ++ groups) = v.constant) :
    groups = groups.take (groups.length - 6) ++
      checksum v hrp (groups.take (groups.length - 6)) := by
  obtain ⟨front, last, rfl, hlast⟩ : ∃ front last, groups = front ++ last ∧ last.length = 6 :=
    ⟨groups.take (groups.length - 6), groups.drop (groups.length - 6),
      (List.take_append_drop _ _).symm, by rw [List.length_drop]; omega⟩
  have htake : (front ++ last).take ((front ++ last).length - 6) = front := by
    rw [List.length_append, hlast, Nat.add_sub_cancel, List.take_left]
  obtain ⟨a, rfl⟩ : ∃ a : Reg, last = a.groups := by
    match last, hlast with
    | [r5, r4, r3, r2, r1, r0], _ => exact ⟨⟨r5, r4, r3, r2, r1, r0⟩, rfl⟩
  have hsplit : ∀ tail : List Group, polymod (hrpExpand hrp ++ (front ++ tail)) =
      steps (polymod (hrpExpand hrp ++ front)) tail := by
    intro tail
    rw [polymod, steps, ← List.append_assoc, List.foldl_append]
    rfl
  rw [hsplit, steps_add] at h
  rw [htake, checksum, List.append_assoc, hsplit, ← h, ← Reg.xor_assoc, Reg.xor_self, Reg.zero_xor]

/-- A text that is read is, in small letters, the one written from what was read. -/
theorem encode_of_decode {s hrp : Text} {data : List Group} {variant : Variant}
    (h : decode s = some (hrp, data, variant)) :
    Text.toAsciiLower s = encode hrp data variant := by
  obtain ⟨rawHrp, rawData, groups, rfl, rfl, hgroups, hlen, rfl, hv⟩ := decode_parts h
  have hlower : ∀ a b : Text, Text.toAsciiLower (a ++ '1' :: b) =
      Text.toAsciiLower a ++ '1' :: Text.toAsciiLower b := by
    intro a b
    rw [Text.toAsciiLower, List.map_append, List.map_cons]
    rfl
  rw [encode, ← eq_checksum hlen (fromRemainder_eq_some hv), map_toChar_of_mapM hgroups, hlower]

/-! ## Bytes as groups -/

/-- The bits of a word, the most significant one first. -/
def msbBits {w : Nat} (x : BitVec w) : List Bool :=
  (List.range w).map x.getMsbD

def ofMsbBits (w : Nat) (bits : List Bool) : BitVec w :=
  BitVec.ofNat w (bits.foldl (fun n b => 2 * n + b.toNat) 0)

/-- Cut bits into words of a width; the bits left over come second. -/
def pack (w : Nat) : List Bool → List Bool → List (BitVec w) × List Bool
  | part, [] => ([], part)
  | part, b :: rest =>
      if (part ++ [b]).length = w then
        (ofMsbBits w (part ++ [b]) :: (pack w [] rest).1, (pack w [] rest).2)
      else pack w (part ++ [b]) rest

/-- Bytes as groups of five bits, the last one filled up with zeros. -/
def toBase32 (bytes : List (BitVec 8)) : List Group :=
  let p := pack 5 [] (bytes.flatMap msbBits)
  if p.2 = [] then p.1 else p.1 ++ [ofMsbBits 5 (p.2 ++ List.replicate (5 - p.2.length) false)]

/-- Groups as bytes; fewer than five bits may be left over, and they are zero. -/
def fromBase32 (groups : List Group) : Option (List (BitVec 8)) :=
  let p := pack 8 [] (groups.flatMap msbBits)
  if 5 ≤ p.2.length ∨ p.2.any id = true then none else some p.1

theorem length_msbBits {w : Nat} (x : BitVec w) : (msbBits x).length = w := by
  rw [msbBits, List.length_map, List.length_range]

theorem ofMsbBits_group : ∀ g : Group, ofMsbBits 5 (msbBits g) = g := by
  decide

theorem ofMsbBits_byte : ∀ b : BitVec 8, ofMsbBits 8 (msbBits b) = b := by
  decide

theorem pack_append {w : Nat} (part bits tail : List Bool) (hw : (part ++ bits).length = w)
    (hpart : part.length < w) :
    pack w part (bits ++ tail) = (ofMsbBits w (part ++ bits) :: (pack w [] tail).1,
      (pack w [] tail).2) := by
  induction bits generalizing part with
  | nil =>
      rw [List.append_nil] at hw
      omega
  | cons b rest ih =>
      rw [List.cons_append, pack]
      by_cases hfull : (part ++ [b]).length = w
      · have hrest : rest = [] := by
          rw [List.length_append, List.length_cons] at hw
          rw [List.length_append, List.length_singleton] at hfull
          exact List.length_eq_zero_iff.mp (by omega)
        rw [if_pos hfull, hrest, List.nil_append]
      · have hlt : (part ++ [b]).length < w := by
          rw [List.length_append, List.length_singleton] at hfull ⊢
          omega
        have hsame : part ++ [b] ++ rest = part ++ b :: rest := by simp
        rw [if_neg hfull, ih (part ++ [b]) (by rw [hsame, hw]) hlt, hsame]

theorem pack_short {w : Nat} (part tail : List Bool) (h : (part ++ tail).length < w) :
    pack w part tail = ([], part ++ tail) := by
  induction tail generalizing part with
  | nil => rw [pack, List.append_nil]
  | cons b rest ih =>
      have hsame : part ++ [b] ++ rest = part ++ b :: rest := by simp
      have hne : ¬ (part ++ [b]).length = w := by
        rw [List.length_append, List.length_singleton]
        rw [List.length_append, List.length_cons] at h
        omega
      rw [pack, if_neg hne, ih (part ++ [b]) (by rw [hsame]; exact h), hsame]

/-- Words are cut out of their bits as they were. -/
theorem pack_words {w : Nat} (hw : 0 < w) (hword : ∀ x : BitVec w, ofMsbBits w (msbBits x) = x)
    (xs : List (BitVec w)) (tail : List Bool) (htail : tail.length < w) :
    pack w [] (xs.flatMap msbBits ++ tail) = (xs, tail) := by
  induction xs with
  | nil =>
      rw [List.flatMap_nil, List.nil_append, pack_short [] tail (by simpa using htail),
        List.nil_append]
  | cons x rest ih =>
      rw [List.flatMap_cons, List.append_assoc,
        pack_append [] (msbBits x) _ (by simp [length_msbBits]) (by simpa using hw),
        ih, List.nil_append, hword]

theorem msbBits_ofMsbBits {bits : List Bool} (h : bits.length = 5) :
    msbBits (ofMsbBits 5 bits) = bits := by
  have hall : ∀ a b c d e : Bool,
      msbBits (ofMsbBits 5 [a, b, c, d, e]) = [a, b, c, d, e] := by
    decide
  match bits, h with
  | [a, b, c, d, e], _ => exact hall a b c d e

theorem msbBits_ofMsbBits_byte {bits : List Bool} (h : bits.length = 8) :
    msbBits (ofMsbBits 8 bits) = bits := by
  have hall : ∀ a b c d e f g i : Bool,
      msbBits (ofMsbBits 8 [a, b, c, d, e, f, g, i]) = [a, b, c, d, e, f, g, i] := by
    decide
  match bits, h with
  | [a, b, c, d, e, f, g, i], _ => exact hall a b c d e f g i

/-- The bits of the words and those left over are the bits cut. -/
theorem pack_bits {w : Nat} (hw : 0 < w)
    (hword : ∀ bits : List Bool, bits.length = w → msbBits (ofMsbBits w bits) = bits)
    (part bits : List Bool) (hpart : part.length < w) :
    (pack w part bits).1.flatMap msbBits ++ (pack w part bits).2 = part ++ bits ∧
      (pack w part bits).2.length < w := by
  induction bits generalizing part with
  | nil => exact ⟨by simp [pack], hpart⟩
  | cons b rest ih =>
      have hsame : part ++ [b] ++ rest = part ++ b :: rest := by simp
      rw [pack]
      by_cases hfull : (part ++ [b]).length = w
      · obtain ⟨hbits, hlen⟩ := ih [] hw
        rw [if_pos hfull]
        refine ⟨?_, hlen⟩
        rw [List.flatMap_cons, hword _ hfull, List.append_assoc, hbits, List.nil_append, hsame]
      · have hlt : (part ++ [b]).length < w := by
          rw [List.length_append, List.length_singleton] at hfull ⊢
          omega
        rw [if_neg hfull, ← hsame]
        exact ih (part ++ [b]) hlt

/-- The bits of the groups are the bits of the bytes and fewer than five zeros. -/
theorem toBase32_bits (bytes : List (BitVec 8)) : ∃ n < 5,
    (toBase32 bytes).flatMap msbBits = bytes.flatMap msbBits ++ List.replicate n false := by
  obtain ⟨hbits, hlen⟩ := pack_bits (by omega) (fun _ => msbBits_ofMsbBits) []
    (bytes.flatMap msbBits) (by simp)
  rw [List.nil_append] at hbits
  rw [toBase32]
  by_cases hnil : (pack 5 [] (bytes.flatMap msbBits)).2 = []
  · refine ⟨0, by omega, ?_⟩
    rw [if_pos hnil, List.replicate_zero, List.append_nil]
    rw [hnil, List.append_nil] at hbits
    exact hbits
  · have hfull : ((pack 5 [] (bytes.flatMap msbBits)).2 ++
        List.replicate (5 - (pack 5 [] (bytes.flatMap msbBits)).2.length) false).length = 5 := by
      rw [List.length_append, List.length_replicate]
      omega
    have hpos := List.length_pos_of_ne_nil hnil
    refine ⟨5 - (pack 5 [] (bytes.flatMap msbBits)).2.length, by omega, ?_⟩
    calc ((if (pack 5 [] (bytes.flatMap msbBits)).2 = [] then
          (pack 5 [] (bytes.flatMap msbBits)).1
        else (pack 5 [] (bytes.flatMap msbBits)).1 ++
          [ofMsbBits 5 ((pack 5 [] (bytes.flatMap msbBits)).2 ++
            List.replicate (5 - (pack 5 [] (bytes.flatMap msbBits)).2.length) false)])).flatMap
              msbBits
        = (pack 5 [] (bytes.flatMap msbBits)).1.flatMap msbBits ++
            ((pack 5 [] (bytes.flatMap msbBits)).2 ++
              List.replicate (5 - (pack 5 [] (bytes.flatMap msbBits)).2.length) false) := by
          rw [if_neg hnil, List.flatMap_append, List.flatMap_cons, List.flatMap_nil,
            List.append_nil, msbBits_ofMsbBits hfull]
      _ = _ := by rw [← List.append_assoc, hbits]

/-- Bytes are read back from their groups. -/
theorem fromBase32_toBase32 (bytes : List (BitVec 8)) :
    fromBase32 (toBase32 bytes) = some bytes := by
  obtain ⟨n, hn, hbits⟩ := toBase32_bits bytes
  have hpack : pack 8 [] ((toBase32 bytes).flatMap msbBits) =
      (bytes, List.replicate n false) := by
    rw [hbits]
    exact pack_words (by omega) ofMsbBits_byte bytes _ (by rw [List.length_replicate]; omega)
  have hzero : (List.replicate n false).any id = false := by
    rw [List.any_eq_false]
    intro b hb
    rw [List.eq_of_mem_replicate hb]
    exact Bool.false_ne_true
  rw [fromBase32, hpack]
  dsimp only
  rw [if_neg]
  rw [hzero, List.length_replicate]
  rintro (h | h)
  · omega
  · exact Bool.false_ne_true h

/-- Groups are written again from the bytes that are read from them. -/
theorem toBase32_fromBase32 {groups : List Group} {bytes : List (BitVec 8)}
    (h : fromBase32 groups = some bytes) : toBase32 bytes = groups := by
  obtain ⟨hbits, _⟩ := pack_bits (by omega) (fun _ => msbBits_ofMsbBits_byte) []
    (groups.flatMap msbBits) (by simp)
  rw [List.nil_append] at hbits
  rw [fromBase32] at h
  generalize hpack : pack 8 [] (groups.flatMap msbBits) = p at h hbits
  obtain ⟨words, rest⟩ := p
  split at h
  · exact absurd h (by simp)
  · rename_i hleft
    obtain ⟨hshort, hzero⟩ := not_or.mp hleft
    obtain rfl : words = bytes := Option.some.inj h
    have hrest : rest = List.replicate rest.length false := by
      refine List.eq_replicate_iff.mpr ⟨rfl, fun b hb => ?_⟩
      cases b with
      | false => rfl
      | true => exact absurd (List.any_eq_true.mpr ⟨true, hb, rfl⟩) hzero
    dsimp only at hbits hshort
    by_cases hnil : rest = []
    · rw [hnil, List.append_nil] at hbits
      have hwords := pack_words (by omega) ofMsbBits_group groups [] (by simp)
      rw [List.append_nil] at hwords
      rw [toBase32, hbits, hwords, if_pos rfl]
    · have hpos := List.length_pos_of_ne_nil hnil
      cases hgroups : groups.eq_nil_or_concat with
      | inl hempty =>
          rw [hempty, List.flatMap_nil] at hbits
          exact absurd (List.append_eq_nil_iff.mp hbits).2 hnil
      | inr hlast =>
          obtain ⟨front, g, rfl⟩ := hlast
          have hg := length_msbBits g
          have hcut : words.flatMap msbBits =
                front.flatMap msbBits ++ (msbBits g).take (5 - rest.length) ∧
              rest = (msbBits g).drop (5 - rest.length) := by
            apply List.append_inj' _ (by rw [List.length_drop, hg]; omega)
            rw [hbits, List.append_assoc, List.take_append_drop, List.concat_eq_append,
              List.flatMap_append, List.flatMap_singleton]
          have htake : ((msbBits g).take (5 - rest.length)).length = 5 - rest.length := by
            rw [List.length_take, hg]
            omega
          have hwords := pack_words (by omega) ofMsbBits_group front
            ((msbBits g).take (5 - rest.length)) (by rw [htake]; omega)
          have hne : (msbBits g).take (5 - rest.length) ≠ [] :=
            List.ne_nil_of_length_pos (by rw [htake]; omega)
          have hfill : (msbBits g).take (5 - rest.length) ++
              List.replicate (5 - (5 - rest.length)) false = msbBits g := by
            have hsub : 5 - (5 - rest.length) = rest.length := by omega
            rw [hsub, ← hrest]
            nth_rewrite 2 [hcut.2]
            exact List.take_append_drop _ _
          rw [toBase32, hcut.1, hwords]
          dsimp only
          rw [if_neg hne, htake, hfill, ofMsbBits_group, List.concat_eq_append]

end Bech32
