import Pwm.Lib.MachineInt

/-!
# Fixed-width little-endian serialisation

Integers are written in their full width, least significant byte first.
Sequences, maps and strings carry their length as eight bytes, options a tag
byte, and the variants of an enumeration an index of four bytes. Fields of a
structure follow each other without separators.
-/

namespace Bincode

/-- A length, as eight bytes. -/
def lenBytes (n : Nat) : List (BitVec 8) :=
  (BitVec.ofNat 64 n).leBytes 8

def seqBytes {α : Type} (item : α → List (BitVec 8)) (xs : List α) : List (BitVec 8) :=
  lenBytes xs.length ++ xs.flatMap item

def optionBytes {α : Type} (item : α → List (BitVec 8)) : Option α → List (BitVec 8)
  | none => [0#8]
  | some a => 1#8 :: item a

/-- An option that is left out when it is empty. -/
def optionUnlessNone {α : Type} (item : α → List (BitVec 8)) : Option α → List (BitVec 8)
  | none => []
  | some a => optionBytes item (some a)

/-- A value that is left out when the condition holds. -/
def omitIf (p : Prop) [Decidable p] (bytes : List (BitVec 8)) : List (BitVec 8) :=
  if p then [] else bytes

def boolByte (b : Bool) : List (BitVec 8) :=
  [if b then 1#8 else 0#8]

def variantBytes (index : Nat) : List (BitVec 8) :=
  (BitVec.ofNat 32 index).leBytes 4

/-- The decimal digits of a number, as ASCII. -/
def decimalDigits (n : Nat) : List (BitVec 8) :=
  (Nat.toDigits 10 n).map fun c => BitVec.ofNat 8 c.toNat

/-- A number written as the string of its decimal digits. -/
def decimalBytes {w : Nat} (x : BitVec w) : List (BitVec 8) :=
  seqBytes (fun b => [b]) (decimalDigits x.toNat)

/-! ## What the bytes determine

An encoding is read from the front of a longer byte string. Where fields may
be left out this needs a relation between the two values that are compared.
-/

/-- Two related values with the same bytes at the front agree in `g`, and the rest is the same. -/
def Binds {α β : Type} (R : α → α → Prop) (enc : α → List (BitVec 8)) (g : α → β) : Prop :=
  ∀ ⦃a b⦄, R a b → ∀ ⦃x y⦄, enc a ++ x = enc b ++ y → g a = g b ∧ x = y

section Rules

variable {α β γ δ : Type} {R : α → α → Prop} {S : γ → γ → Prop} {enc enc' : α → List (BitVec 8)}
  {item : γ → List (BitVec 8)} {g : α → β} {g' : α → δ}

theorem Binds.eq (h : Binds R enc g) {a b : α} (hR : R a b) (hbytes : enc a = enc b) :
    g a = g b :=
  (h hR (congrArg (· ++ []) hbytes)).1

/-- One field after the other. -/
theorem Binds.append (h : Binds R enc g) (h' : Binds R enc' g') :
    Binds R (fun a => enc a ++ enc' a) fun a => (g a, g' a) := by
  intro a b hR x y hbytes
  rw [List.append_assoc, List.append_assoc] at hbytes
  obtain ⟨hfirst, hrest⟩ := h hR hbytes
  obtain ⟨hsecond, hend⟩ := h' hR hrest
  exact ⟨Prod.ext hfirst hsecond, hend⟩

/-- A field, encoded by itself. -/
theorem Binds.field {k : γ → β} (h : Binds S item k) (p : α → γ)
    (hR : ∀ a b, R a b → S (p a) (p b)) : Binds R (fun a => item (p a)) fun a => k (p a) :=
  fun a b hab _ _ hbytes => h (hR a b hab) hbytes

/-- A field whose bytes determine it whatever the value is compared with. -/
theorem Binds.free {k : γ → β} (h : Binds (fun _ _ => True) item k) (p : α → γ) :
    Binds R (fun a => item (p a)) fun a => k (p a) :=
  h.field p fun _ _ _ => trivial

/-- What was read determines more than it says. -/
theorem Binds.map {k : α → δ} (h : Binds R enc g) (hg : ∀ a b, g a = g b → k a = k b) :
    Binds R enc k := by
  intro a b hR x y hbytes
  obtain ⟨heq, hrest⟩ := h hR hbytes
  exact ⟨hg a b heq, hrest⟩

/-- An encoding of a fixed width. -/
theorem binds_of_length (hlen : ∀ a b, (enc a).length = (enc b).length)
    (hinj : ∀ a b, enc a = enc b → g a = g b) : Binds R enc g := by
  intro a b _ x y hbytes
  obtain ⟨hsame, hrest⟩ := List.append_inj hbytes (hlen a b)
  exact ⟨hinj a b hsame, hrest⟩

theorem binds_leBytes (n : Nat) (R : BitVec (8 * n) → BitVec (8 * n) → Prop) :
    Binds R (BitVec.leBytes n) id :=
  binds_of_length (by simp) fun _ _ h => BitVec.leBytes_injective n h

theorem binds_beBytes (n : Nat) (R : BitVec (8 * n) → BitVec (8 * n) → Prop) :
    Binds R (BitVec.beBytes n) id :=
  binds_of_length (by simp) fun _ _ h => BitVec.beBytes_injective n h

theorem binds_byte (R : BitVec 8 → BitVec 8 → Prop) : Binds R (fun b => [b]) id :=
  binds_of_length (fun _ _ => rfl) fun _ _ h => List.singleton_inj.mp h

/-- Items in pairs, one list after the other. -/
theorem binds_flatMap (h : Binds S item id) :
    Binds (fun xs ys => xs.length = ys.length ∧ ∀ p ∈ xs.zip ys, S p.1 p.2)
      (List.flatMap item) id := by
  intro xs ys hR x y hbytes
  obtain ⟨hlen, hpairs⟩ := hR
  induction xs generalizing ys with
  | nil =>
      obtain rfl := List.length_eq_zero_iff.mp hlen.symm
      exact ⟨rfl, hbytes⟩
  | cons a xs ih =>
      cases ys with
      | nil => cases hlen
      | cons b ys =>
          rw [List.flatMap_cons, List.flatMap_cons, List.append_assoc, List.append_assoc] at hbytes
          obtain ⟨hhead, hrest⟩ := h (hpairs (a, b) List.mem_cons_self) hbytes
          obtain ⟨htail, hend⟩ := ih hrest (Nat.succ.inj hlen)
            fun p hp => hpairs p (List.mem_cons_of_mem _ hp)
          exact ⟨congrArg₂ List.cons hhead htail, hend⟩

theorem binds_optionBytes (h : Binds S item id) :
    Binds (fun a b => ∀ x ∈ a, ∀ y ∈ b, S x y) (optionBytes item) id := by
  intro a b hR x y hbytes
  cases a with
  | none =>
      cases b with
      | none => exact ⟨rfl, (List.cons.inj hbytes).2⟩
      | some b => cases (List.cons.inj hbytes).1
  | some a =>
      cases b with
      | none => cases (List.cons.inj hbytes).1
      | some b =>
          obtain ⟨hval, hrest⟩ := h (hR a rfl b rfl) (List.cons.inj hbytes).2
          exact ⟨congrArg some hval, hrest⟩

end Rules

end Bincode
