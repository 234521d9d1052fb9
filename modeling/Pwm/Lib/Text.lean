import Pwm.Lib.Digits

/-!
# Texts

Texts as lists of characters, with the operations that readers of user input
are made of: cutting white space off the ends, taking a prefix off, splitting
at the first occurrence of a pattern and reading hexadecimal digits of either
case.
-/

/-- The characters of a text. -/
abbrev Text := List Char

namespace Text

/-- The characters that count as white space. -/
def isWhite (c : Char) : Bool :=
  let n := c.toNat
  (9 ≤ n && n ≤ 13) || n == 32 || n == 0x85 || n == 0xA0 || n == 0x1680 ||
    (0x2000 ≤ n && n ≤ 0x200A) || n == 0x2028 || n == 0x2029 || n == 0x202F || n == 0x205F ||
    n == 0x3000

/-- The text without the white space at its two ends. -/
def trim (s : Text) : Text :=
  ((s.dropWhile isWhite).reverse.dropWhile isWhite).reverse

/-- What follows the prefix, if the text starts with it. -/
def stripPrefix (pre s : Text) : Option Text :=
  if pre.isPrefixOf s then some (s.drop pre.length) else none

/-- Drops the pattern in front, at most so many times. -/
def trimFront (pat : Text) : Nat → Text → Text
  | 0, s => s
  | n + 1, s =>
      match stripPrefix pat s with
      | some rest => trimFront pat n rest
      | none => s

/-- The text without the pattern in front, as often as it is there. -/
def trimStartMatches (pat s : Text) : Text :=
  trimFront pat s.length s

/-- The text without the pattern at the end, as often as it is there. -/
def trimEndMatches (pat s : Text) : Text :=
  (trimStartMatches pat.reverse s.reverse).reverse

/-- The parts before and after the first occurrence of the pattern. -/
def splitOnce (pat : Text) : Text → Option (Text × Text)
  | [] => if pat = [] then some ([], []) else none
  | c :: rest =>
      if pat.isPrefixOf (c :: rest) then some ([], (c :: rest).drop pat.length)
      else (splitOnce pat rest).map fun p => (c :: p.1, p.2)

/-- The text with the letters `A` to `Z` made small. -/
def toAsciiLower (s : Text) : Text :=
  s.map Char.toLower

def isHexDigit (c : Char) : Bool :=
  c.isDigit || ('a' ≤ c && c ≤ 'f') || ('A' ≤ c && c ≤ 'F')

/-- The number that hexadecimal digits of either case stand for. -/
def ofHex (s : Text) : Nat :=
  s.foldl (fun n c => 16 * n + Digits.hexVal c.toLower) 0

/-- The bytes of a text of hexadecimal digits. -/
def hexDecode (s : Text) : Option (List (BitVec 8)) :=
  if s.length % 2 = 0 ∧ s.all isHexDigit then some (Digits.ofHexDigits (toAsciiLower s)) else none

/-! ## White space -/

theorem dropWhile_eq_self {p : Char → Bool} {s : Text}
    (h : ∀ c ∈ s.head?, p c = false) : s.dropWhile p = s := by
  cases s with
  | nil => rfl
  | cons c rest => rw [List.dropWhile_cons, h c rfl, if_neg Bool.false_ne_true]

/-- White space inside a text is kept. -/
theorem trim_eq_self_of_ends {s : Text} (hhead : ∀ c ∈ s.head?, isWhite c = false)
    (hlast : ∀ c ∈ s.getLast?, isWhite c = false) : trim s = s := by
  have hrev : ∀ c ∈ s.reverse.head?, isWhite c = false := by
    rw [List.head?_reverse]
    exact hlast
  rw [trim, dropWhile_eq_self hhead, dropWhile_eq_self hrev, List.reverse_reverse]

theorem trim_eq_self {s : Text} (h : ∀ c ∈ s, isWhite c = false) : trim s = s :=
  trim_eq_self_of_ends (fun c hc => h c (List.mem_of_mem_head? hc))
    fun c hc => h c (List.mem_of_getLast? hc)

theorem mem_dropWhile_or {p : Char → Bool} {s : Text} {c : Char} (h : c ∈ s) :
    p c = true ∨ c ∈ s.dropWhile p := by
  have hsplit : s.takeWhile p ++ s.dropWhile p = s := List.takeWhile_append_dropWhile
  rw [← hsplit] at h
  rcases List.mem_append.mp h with hfront | hback
  · exact .inl (List.mem_takeWhile_imp hfront)
  · exact .inr hback

/-- Only white space is trimmed. -/
theorem mem_trim_or_white {s : Text} {c : Char} (h : c ∈ s) : isWhite c = true ∨ c ∈ trim s := by
  rcases mem_dropWhile_or h with hwhite | hfront
  · exact .inl hwhite
  · rcases mem_dropWhile_or (List.mem_reverse.mpr hfront) with hwhite | hback
    · exact .inl hwhite
    · exact .inr (List.mem_reverse.mpr hback)

/-! ## Prefixes -/

theorem stripPrefix_append (pre s : Text) : stripPrefix pre (pre ++ s) = some s := by
  have h : pre.isPrefixOf (pre ++ s) = true :=
    List.isPrefixOf_iff_prefix.mpr (List.prefix_append pre s)
  rw [stripPrefix, if_pos h, List.drop_left]

/-- Nothing is taken off a text that lacks a character of the prefix. -/
theorem stripPrefix_eq_none {pre s : Text} {c : Char} (hpre : c ∈ pre) (hs : c ∉ s) :
    stripPrefix pre s = none := by
  rw [stripPrefix, if_neg]
  intro h
  exact hs ((List.isPrefixOf_iff_prefix.mp h).subset hpre)

/-- A pattern in front of a text that lacks one of its characters is dropped once. -/
theorem trimStartMatches_append {pat s : Text} {c : Char} (hpat : c ∈ pat) (hs : c ∉ s) :
    trimStartMatches pat (pat ++ s) = s := by
  have hnone : ∀ n, trimFront pat n s = s := by
    intro n
    cases n with
    | zero => rfl
    | succ n => rw [trimFront, stripPrefix_eq_none hpat hs]
  obtain ⟨n, hn⟩ : ∃ n, (pat ++ s).length = n + 1 := by
    refine Nat.exists_eq_succ_of_ne_zero (Nat.ne_of_gt ?_)
    rw [List.length_append]
    exact Nat.add_pos_left (List.length_pos_of_mem hpat) _
  rw [trimStartMatches, hn, trimFront, stripPrefix_append]
  exact hnone n

theorem trimEndMatches_append {pat s : Text} {c : Char} (hpat : c ∈ pat) (hs : c ∉ s) :
    trimEndMatches pat (s ++ pat) = s := by
  rw [trimEndMatches, List.reverse_append,
    trimStartMatches_append (List.mem_reverse.mpr hpat) (fun h => hs (List.mem_reverse.mp h)),
    List.reverse_reverse]

theorem splitOnce_eq_none {pat s : Text} {c : Char} (hpat : c ∈ pat) (hs : c ∉ s) :
    splitOnce pat s = none := by
  induction s with
  | nil =>
      have hne : pat ≠ [] := List.ne_nil_of_mem hpat
      rw [splitOnce, if_neg hne]
  | cons d rest ih =>
      have hpre : ¬ pat.isPrefixOf (d :: rest) = true := fun h =>
        hs ((List.isPrefixOf_iff_prefix.mp h).subset hpat)
      rw [splitOnce, if_neg hpre, ih fun h => hs (List.mem_cons_of_mem d h), Option.map_none]

/-- A pattern is found behind a text that lacks its first character. -/
theorem splitOnce_append {c : Char} {pat front back : Text} (h : c ∉ front) :
    splitOnce (c :: pat) (front ++ (c :: pat) ++ back) = some (front, back) := by
  induction front with
  | nil =>
      have hpre : (c :: pat).isPrefixOf (c :: pat ++ back) = true :=
        List.isPrefixOf_iff_prefix.mpr (List.prefix_append _ _)
      rw [List.nil_append, List.cons_append, splitOnce, ← List.cons_append, if_pos hpre,
        List.drop_left]
  | cons d front ih =>
      have hne : ¬ (c :: pat).isPrefixOf (d :: (front ++ (c :: pat) ++ back)) = true := by
        intro hpre
        have hhead := (List.cons_prefix_cons.mp (List.isPrefixOf_iff_prefix.mp hpre)).1
        exact h (hhead ▸ List.mem_cons_self)
      rw [List.cons_append, List.cons_append, splitOnce, if_neg hne,
        ih fun hmem => h (List.mem_cons_of_mem d hmem), Option.map_some]

/-- A text is split at the first occurrence of a character. -/
theorem splitOnce_char {c : Char} {s front back : Text} :
    splitOnce [c] s = some (front, back) ↔ s = front ++ c :: back ∧ c ∉ front := by
  induction s generalizing front with
  | nil => simp [splitOnce]
  | cons d rest ih =>
      rw [splitOnce]
      by_cases hd : c = d
      · subst hd
        have hpre : [c].isPrefixOf (c :: rest) = true :=
          List.isPrefixOf_iff_prefix.mpr ⟨rest, rfl⟩
        rw [if_pos hpre, Option.some.injEq, Prod.mk.injEq]
        constructor
        · rintro ⟨rfl, rfl⟩
          exact ⟨rfl, List.not_mem_nil⟩
        · rintro ⟨heq, hnot⟩
          cases front with
          | nil => exact ⟨rfl, (List.cons.inj heq).2⟩
          | cons e front => exact absurd ((List.cons.inj heq).1 ▸ List.mem_cons_self) hnot
      · have hpre : ¬ [c].isPrefixOf (d :: rest) = true := by
          intro h
          obtain ⟨tail, htail⟩ := List.isPrefixOf_iff_prefix.mp h
          exact hd (List.cons.inj htail).1
        rw [if_neg hpre, Option.map_eq_some_iff]
        constructor
        · rintro ⟨⟨front', back'⟩, hsplit, hpair⟩
          obtain ⟨rfl, rfl⟩ := Prod.mk.inj hpair
          obtain ⟨rfl, hnot⟩ := ih.mp hsplit
          exact ⟨rfl, fun hmem => (List.mem_cons.mp hmem).elim hd hnot⟩
        · rintro ⟨heq, hnot⟩
          cases front with
          | nil => exact absurd (List.cons.inj heq).1.symm hd
          | cons e front =>
              obtain ⟨rfl, rfl⟩ := List.cons.inj heq
              exact ⟨(front, back), ih.mpr ⟨rfl, fun h => hnot (List.mem_cons_of_mem d h)⟩, rfl⟩

theorem splitOnce_char_none {c : Char} {s : Text} : splitOnce [c] s = none ↔ c ∉ s := by
  constructor
  · intro hnone hmem
    obtain ⟨front, back, heq, hnot⟩ := List.eq_append_cons_of_mem hmem
    rw [splitOnce_char.mpr ⟨heq, hnot⟩] at hnone
    exact absurd hnone (by simp)
  · exact splitOnce_eq_none List.mem_cons_self

/-! ## Hexadecimal digits -/

theorem isHexDigit_of_lower {c : Char} (h : Digits.isLowerHex c = true) : isHexDigit c = true := by
  rw [isHexDigit, Bool.or_eq_true]
  exact Or.inl h

theorem toLower_lowerHex {c : Char} (h : Digits.isLowerHex c = true) : c.toLower = c := by
  have hA : ('A' : Char).toNat = 65 := rfl
  have hZ : ('Z' : Char).toNat = 90 := rfl
  have h9 : ('9' : Char).toNat = 57 := rfl
  have ha : ('a' : Char).toNat = 97 := rfl
  rw [Char.toLower, dif_neg]
  rintro ⟨hge, hle⟩
  simp only [Digits.isLowerHex, Char.isDigit, Bool.or_eq_true, Bool.and_eq_true,
    decide_eq_true_eq, ge_iff_le, Char.le_def, UInt32.le_iff_toNat_le, Char.toNat_val] at h hge hle
  rcases h with ⟨_, hdigit⟩ | ⟨hletter, _⟩
  · change c.toNat ≤ 57 at hdigit
    omega
  · omega

theorem not_white_of_lowerHex {c : Char} (h : Digits.isLowerHex c = true) :
    isWhite c = false := by
  have h9 : ('9' : Char).toNat = 57 := rfl
  have h0 : ('0' : Char).toNat = 48 := rfl
  have ha : ('a' : Char).toNat = 97 := rfl
  have hf : ('f' : Char).toNat = 102 := rfl
  simp only [Digits.isLowerHex, Char.isDigit, Bool.or_eq_true, Bool.and_eq_true,
    decide_eq_true_eq, ge_iff_le, Char.le_def, UInt32.le_iff_toNat_le, Char.toNat_val] at h
  have hrange : (48 ≤ c.toNat ∧ c.toNat ≤ 57) ∨ (97 ≤ c.toNat ∧ c.toNat ≤ 102) := by
    rcases h with ⟨hlow, hhigh⟩ | ⟨hlow, hhigh⟩
    · exact .inl ⟨hlow, hhigh⟩
    · exact .inr ⟨by omega, by omega⟩
  simp only [isWhite, Bool.or_eq_false_iff, Bool.and_eq_false_iff, decide_eq_false_iff_not,
    beq_eq_false_iff_ne]
  omega

theorem trim_hexDigits (bytes : List (BitVec 8)) :
    trim (Digits.hexDigits bytes) = Digits.hexDigits bytes :=
  trim_eq_self fun _ hc => not_white_of_lowerHex (Digits.isLowerHex_of_mem_hexDigits hc)

/-- A text read as bytes holds nothing but digits and white space at its ends. -/
theorem char_of_hexDecode {s : Text} {bytes : List (BitVec 8)}
    (h : hexDecode (trim s) = some bytes) {c : Char} (hc : c ∈ s) :
    isWhite c = true ∨ isHexDigit c = true := by
  rcases mem_trim_or_white hc with hwhite | htrim
  · exact .inl hwhite
  · rw [hexDecode] at h
    by_cases hall : (trim s).length % 2 = 0 ∧ (trim s).all isHexDigit = true
    · exact .inr (List.all_eq_true.mp hall.2 c htrim)
    · rw [if_neg hall] at h
      cases h

theorem toAsciiLower_hexDigits (bytes : List (BitVec 8)) :
    toAsciiLower (Digits.hexDigits bytes) = Digits.hexDigits bytes := by
  calc toAsciiLower (Digits.hexDigits bytes)
      = (Digits.hexDigits bytes).map id :=
        List.map_congr_left fun _ hc => toLower_lowerHex (Digits.isLowerHex_of_mem_hexDigits hc)
    _ = Digits.hexDigits bytes := List.map_id _

/-- Bytes are read back from their digits. -/
theorem hexDecode_hexDigits (bytes : List (BitVec 8)) :
    hexDecode (Digits.hexDigits bytes) = some bytes := by
  have hlower : ∀ c ∈ Digits.hexDigits bytes, Digits.isLowerHex c = true := fun c =>
    Digits.isLowerHex_of_mem_hexDigits
  have hall : (Digits.hexDigits bytes).all isHexDigit = true :=
    List.all_eq_true.mpr fun c hc => isHexDigit_of_lower (hlower c hc)
  rw [hexDecode, if_pos ⟨by rw [Digits.length_hexDigits]; omega, hall⟩, toAsciiLower_hexDigits,
    Digits.ofHexDigits_hexDigits]

end Text
