import Mathlib

/-!
# Unsigned machine integers of a fixed width

Three ways of adding and subtracting on `BitVec w`: checked (no value on
overflow), saturating (the bound is returned) and their readings in `Nat`.
Byte strings of integers are given in both byte orders.
-/

namespace BitVec

variable {w : Nat}

/-- Addition that gives no value when the sum does not fit. -/
def checkedAdd (x y : BitVec w) : Option (BitVec w) :=
  if x.toNat + y.toNat < 2 ^ w then some (x + y) else none

/-- Subtraction that gives no value when it would go below zero. -/
def checkedSub (x y : BitVec w) : Option (BitVec w) :=
  if y ≤ x then some (x - y) else none

/-- Addition that stops at the largest value. -/
def saturatingAdd (x y : BitVec w) : BitVec w :=
  if x.toNat + y.toNat < 2 ^ w then x + y else allOnes w

/-- Subtraction that stops at zero. -/
def saturatingSub (x y : BitVec w) : BitVec w :=
  if y ≤ x then x - y else 0#w

/-- Multiplication that stops at the largest value. -/
def saturatingMul (x y : BitVec w) : BitVec w :=
  if x.toNat * y.toNat < 2 ^ w then x * y else allOnes w

/-- The larger of two unsigned values. -/
def umax (x y : BitVec w) : BitVec w :=
  if x ≤ y then y else x

/-- The smaller of two unsigned values. -/
def umin (x y : BitVec w) : BitVec w :=
  if x ≤ y then x else y

/-- Conversion to another width when the value fits. -/
def tryFrom (v : Nat) (x : BitVec w) : Option (BitVec v) :=
  if x.toNat < 2 ^ v then some (x.setWidth v) else none

theorem toNat_add_of_fits {x y : BitVec w} (h : x.toNat + y.toNat < 2 ^ w) :
    (x + y).toNat = x.toNat + y.toNat := by
  rw [toNat_add, Nat.mod_eq_of_lt h]

theorem checkedAdd_eq_some_iff {x y z : BitVec w} :
    x.checkedAdd y = some z ↔ z.toNat = x.toNat + y.toNat := by
  unfold checkedAdd
  split
  · rename_i h
    rw [Option.some.injEq, ← toNat_inj, toNat_add_of_fits h, eq_comm]
  · rename_i h
    have := z.isLt
    constructor
    · intro hz; cases hz
    · intro hz; omega

theorem checkedAdd_eq_none_iff {x y : BitVec w} :
    x.checkedAdd y = none ↔ 2 ^ w ≤ x.toNat + y.toNat := by
  unfold checkedAdd
  split <;> simp <;> omega

theorem checkedSub_eq_some_iff {x y z : BitVec w} :
    x.checkedSub y = some z ↔ y.toNat ≤ x.toNat ∧ z.toNat = x.toNat - y.toNat := by
  unfold checkedSub
  split
  · rename_i h
    rw [Option.some.injEq, ← toNat_inj, toNat_sub_of_le h, eq_comm]
    exact ⟨fun hz => ⟨h, hz⟩, fun hz => hz.2⟩
  · rename_i h
    constructor
    · intro hz; cases hz
    · intro hz; exact absurd hz.1 h

theorem checkedSub_eq_none_iff {x y : BitVec w} :
    x.checkedSub y = none ↔ x.toNat < y.toNat := by
  rw [← Nat.not_le, ← BitVec.le_def, checkedSub]
  by_cases h : y ≤ x <;> simp [h]

theorem toNat_saturatingAdd (x y : BitVec w) :
    (x.saturatingAdd y).toNat = min (x.toNat + y.toNat) (2 ^ w - 1) := by
  unfold saturatingAdd
  split
  · rename_i h
    rw [toNat_add_of_fits h]
    omega
  · rw [toNat_allOnes]
    omega

theorem toNat_saturatingAdd_of_fits {x y : BitVec w} (h : x.toNat + y.toNat < 2 ^ w) :
    (x.saturatingAdd y).toNat = x.toNat + y.toNat := by
  rw [toNat_saturatingAdd]
  omega

theorem le_saturatingAdd (x y : BitVec w) : x.toNat ≤ (x.saturatingAdd y).toNat := by
  have := x.isLt
  rw [toNat_saturatingAdd]
  omega

theorem saturatingAdd_mono {x y : BitVec w} (h : x ≤ y) (z : BitVec w) :
    x.saturatingAdd z ≤ y.saturatingAdd z := by
  rw [le_def] at h ⊢
  rw [toNat_saturatingAdd, toNat_saturatingAdd]
  omega

@[simp] theorem saturatingAdd_zero (x : BitVec w) : x.saturatingAdd 0#w = x := by
  have h : x.toNat + (0#w).toNat < 2 ^ w := by simpa using x.isLt
  rw [saturatingAdd, if_pos h, BitVec.add_zero]

theorem toNat_saturatingSub (x y : BitVec w) :
    (x.saturatingSub y).toNat = x.toNat - y.toNat := by
  unfold saturatingSub
  split
  · rename_i h
    exact toNat_sub_of_le h
  · rename_i h
    rw [le_def] at h
    rw [toNat_ofNat, Nat.zero_mod]
    omega

theorem toNat_umax (x y : BitVec w) : (x.umax y).toNat = max x.toNat y.toNat := by
  unfold umax
  split <;> rename_i h <;> rw [le_def] at h <;> omega

theorem toNat_umin (x y : BitVec w) : (x.umin y).toNat = min x.toNat y.toNat := by
  unfold umin
  split <;> rename_i h <;> rw [le_def] at h <;> omega

theorem tryFrom_eq_some_iff {v : Nat} {x : BitVec w} {z : BitVec v} :
    x.tryFrom v = some z ↔ z.toNat = x.toNat := by
  unfold tryFrom
  split
  · rename_i h
    rw [Option.some.injEq, ← toNat_inj, toNat_setWidth, Nat.mod_eq_of_lt h, eq_comm]
  · rename_i h
    have := z.isLt
    constructor
    · intro hz; cases hz
    · intro hz; omega

/-- The `n` low bytes, least significant first. -/
def leBytes (n : Nat) (x : BitVec w) : List (BitVec 8) :=
  (List.range n).map fun i => x.extractLsb' (8 * i) 8

/-- The `n` low bytes, most significant first. -/
def beBytes (n : Nat) (x : BitVec w) : List (BitVec 8) :=
  (leBytes n x).reverse

@[simp] theorem length_leBytes (n : Nat) (x : BitVec w) : (leBytes n x).length = n := by
  simp [leBytes]

@[simp] theorem length_beBytes (n : Nat) (x : BitVec w) : (beBytes n x).length = n := by
  simp [beBytes]

/-- An integer of `8 * n` bits is determined by its `n` bytes. -/
theorem leBytes_injective (n : Nat) :
    Function.Injective (leBytes n : BitVec (8 * n) → List (BitVec 8)) := by
  intro x y h
  apply eq_of_getLsbD_eq
  intro i hi
  have hbyte : x.extractLsb' (8 * (i / 8)) 8 = y.extractLsb' (8 * (i / 8)) 8 := by
    have hmem : i / 8 ∈ List.range n := List.mem_range.mpr (by omega)
    exact List.map_inj_left.mp h (i / 8) hmem
  have hbit := congrArg (fun b => b.getLsbD (i % 8)) hbyte
  simpa [getLsbD_extractLsb', Nat.mod_lt, Nat.div_add_mod] using hbit

theorem beBytes_injective (n : Nat) :
    Function.Injective (beBytes n : BitVec (8 * n) → List (BitVec 8)) := by
  intro x y h
  exact leBytes_injective n (List.reverse_inj.mp h)

end BitVec
