import Pwm.Lib.Text

/-!
# YAML documents

Documents as trees, the entries of a mapping in their order. Records are read
from a mapping by the names of their fields, what has another name is ignored,
and a record is read back from the mapping of its fields. Two documents are
merged entry by entry and item by item. The reader and the writer of texts are
a parameter; one that writes flow style is given, to have an instance of it.
-/

namespace Yaml

inductive Value
  | null
  | bool (b : Bool)
  | int (n : Int)
  | float (digits : Text)
  | string (s : Text)
  | sequence (items : List Value)
  | mapping (entries : List (Value × Value))

abbrev Mapping := List (Value × Value)

namespace Value

def asMapping : Value → Option Mapping
  | mapping entries => some entries
  | _ => none

def asSequence : Value → Option (List Value)
  | sequence items => some items
  | _ => none

def asStr : Value → Option Text
  | string s => some s
  | _ => none

/-! ## Equality -/

mutual

def same : Value → Value → Bool
  | null, null => true
  | bool a, bool b => decide (a = b)
  | int a, int b => decide (a = b)
  | float a, float b => decide (a = b)
  | string a, string b => decide (a = b)
  | sequence a, sequence b => sameItems a b
  | mapping a, mapping b => sameEntries a b
  | _, _ => false

def sameItems : List Value → List Value → Bool
  | [], [] => true
  | v :: rest, w :: rest' => same v w && sameItems rest rest'
  | _, _ => false

def sameEntries : List (Value × Value) → List (Value × Value) → Bool
  | [], [] => true
  | (k, v) :: rest, (k', v') :: rest' => same k k' && same v v' && sameEntries rest rest'
  | _, _ => false

end

mutual

theorem same_iff (v w : Value) : same v w = true ↔ v = w := by
  cases v with
  | sequence a =>
      cases w with
      | sequence b => rw [same, sameItems_iff, sequence.injEq]
      | _ => simp [same]
  | mapping a =>
      cases w with
      | mapping b => rw [same, sameEntries_iff, mapping.injEq]
      | _ => simp [same]
  | _ => cases w <;> simp [same]

theorem sameItems_iff (a b : List Value) : sameItems a b = true ↔ a = b := by
  cases a with
  | nil => cases b <;> simp [sameItems]
  | cons v rest =>
      cases b with
      | nil => simp [sameItems]
      | cons w rest' => rw [sameItems, Bool.and_eq_true, same_iff, sameItems_iff, List.cons.injEq]

theorem sameEntries_iff (a b : List (Value × Value)) : sameEntries a b = true ↔ a = b := by
  cases a with
  | nil => cases b <;> simp [sameEntries]
  | cons p rest =>
      obtain ⟨k, v⟩ := p
      cases b with
      | nil => simp [sameEntries]
      | cons q rest' =>
          obtain ⟨k', v'⟩ := q
          rw [sameEntries, Bool.and_eq_true, Bool.and_eq_true, same_iff, same_iff,
            sameEntries_iff, List.cons.injEq, Prod.mk.injEq]

end

instance : DecidableEq Value := fun v w =>
  decidable_of_iff (same v w = true) (same_iff v w)

end Value

/-! ## Entries of a mapping -/

/-- The value of a key, the first one. -/
def Mapping.find (m : Mapping) (key : Value) : Option Value :=
  match m with
  | [] => none
  | p :: rest => if p.1 = key then some p.2 else Mapping.find rest key

/-- The value of a key put in the place of the old one, or at the end. -/
def Mapping.put (m : Mapping) (key v : Value) : Mapping :=
  match m with
  | [] => [(key, v)]
  | p :: rest => if p.1 = key then (p.1, v) :: rest else p :: Mapping.put rest key v

def Mapping.remove (m : Mapping) (key : Value) : Mapping :=
  m.filter fun p => decide (p.1 ≠ key)

/-- The key of this name. -/
def named (name : String) : Value :=
  .string name.toList

def Mapping.get (m : Mapping) (name : String) : Option Value :=
  m.find (named name)

def Mapping.insert (m : Mapping) (name : String) (v : Value) : Mapping :=
  m.put (named name) v

@[simp] theorem named_inj {name other : String} : named name = named other ↔ name = other := by
  rw [named, named, Value.string.injEq, String.toList_inj]

@[simp] theorem find_nil (key : Value) : Mapping.find [] key = none :=
  rfl

theorem find_cons (p : Value × Value) (rest : Mapping) (key : Value) :
    Mapping.find (p :: rest) key = if p.1 = key then some p.2 else Mapping.find rest key :=
  rfl

theorem find_append (m n : Mapping) (key : Value) :
    Mapping.find (m ++ n) key = (m.find key).or (n.find key) := by
  induction m with
  | nil => rfl
  | cons p rest ih =>
      rw [List.cons_append, find_cons, find_cons]
      by_cases hp : p.1 = key
      · rw [if_pos hp, if_pos hp, Option.some_or]
      · rw [if_neg hp, if_neg hp, ih]

theorem find_put (m : Mapping) (key v other : Value) :
    (m.put key v).find other = if key = other then some v else m.find other := by
  induction m with
  | nil => rfl
  | cons p rest ih =>
      rw [Mapping.put]
      by_cases hp : p.1 = key
      · rw [if_pos hp, find_cons, find_cons, hp]
        by_cases ho : key = other
        · rw [if_pos ho, if_pos ho]
        · rw [if_neg ho, if_neg ho, if_neg ho]
      · rw [if_neg hp, find_cons, find_cons, ih]
        by_cases ho : p.1 = other
        · have hne : ¬ key = other := fun h => hp (ho.trans h.symm)
          rw [if_pos ho, if_pos ho, if_neg hne]
        · rw [if_neg ho, if_neg ho]

theorem find_remove (m : Mapping) (key other : Value) :
    (m.remove key).find other = if key = other then none else m.find other := by
  induction m with
  | nil => exact (ite_self none).symm
  | cons p rest ih =>
      rw [Mapping.remove, List.filter_cons]
      by_cases hp : p.1 = key
      · rw [if_neg (by simpa using hp)]
        refine ih.trans ?_
        rw [find_cons, hp]
        by_cases ho : key = other
        · rw [if_pos ho, if_pos ho]
        · rw [if_neg ho, if_neg ho, if_neg ho]
      · rw [if_pos (by simpa using hp), find_cons, find_cons]
        by_cases ho : p.1 = other
        · have hne : ¬ key = other := fun h => hp (ho.trans h.symm)
          rw [if_pos ho, if_pos ho, if_neg hne]
        · rw [if_neg ho, if_neg ho]
          exact ih

theorem remove_append (m n : Mapping) (key : Value) :
    Mapping.remove (m ++ n) key = m.remove key ++ n.remove key :=
  List.filter_append ..

theorem remove_cons_ne {p : Value × Value} {rest : Mapping} {key : Value} (h : p.1 ≠ key) :
    Mapping.remove (p :: rest) key = p :: rest.remove key :=
  List.filter_cons_of_pos (decide_eq_true h)

theorem get_insert (m : Mapping) (name other : String) (v : Value) :
    (m.insert name v).get other = if name = other then some v else m.get other := by
  rw [Mapping.get, Mapping.insert, find_put]
  exact if_congr named_inj rfl rfl

/-! ## Merging -/

mutual

/-- The next document over an old one: what the next one does not name is kept. -/
def merge : Value → Value → Value
  | .mapping old, .mapping next => .mapping (mergeEntries old next)
  | .sequence old, .sequence next => .sequence (mergeItems old next)
  | _, next => next

def mergeEntries (old : Mapping) : List (Value × Value) → Mapping
  | [] => old
  | (k, v) :: rest =>
      mergeEntries (old.put k (match old.find k with
        | some o => merge o v
        | none => v)) rest

def mergeItems : List Value → List Value → List Value
  | _, [] => []
  | [], v :: rest => v :: mergeItems [] rest
  | o :: old, v :: rest => merge o v :: mergeItems old rest

end

/-- A value that is not made of others takes the place of the old one. -/
def Value.isScalar : Value → Bool
  | .sequence _ => false
  | .mapping _ => false
  | _ => true

theorem merge_scalar (old : Value) {next : Value} (h : next.isScalar = true) :
    merge old next = next := by
  cases next with
  | sequence items => cases h
  | mapping entries => cases h
  | _ => cases old <;> rfl

/-- To put the value that is there changes nothing. -/
theorem put_self {m : Mapping} {key v : Value} (h : m.find key = some v) : m.put key v = m := by
  induction m with
  | nil => cases h
  | cons p rest ih =>
      rw [find_cons] at h
      rw [Mapping.put]
      by_cases hp : p.1 = key
      · rw [if_pos hp] at h ⊢
        rw [← Option.some.inj h]
      · rw [if_neg hp] at h ⊢
        rw [ih h]

theorem mergeEntries_append (old a b : Mapping) :
    mergeEntries old (a ++ b) = mergeEntries (mergeEntries old a) b := by
  induction a generalizing old with
  | nil => rfl
  | cons p rest ih =>
      obtain ⟨k, v⟩ := p
      rw [List.cons_append, mergeEntries, ih, mergeEntries]

/-- Entries that give the old values again change nothing. -/
theorem mergeEntries_eq_self {old next : Mapping}
    (h : ∀ p ∈ next, ∃ o, old.find p.1 = some o ∧ merge o p.2 = o) :
    mergeEntries old next = old := by
  induction next with
  | nil => rfl
  | cons p rest ih =>
      obtain ⟨k, v⟩ := p
      obtain ⟨o, ho, hmerge⟩ := h (k, v) List.mem_cons_self
      have hsame : old.put k (match old.find k with
          | some o => merge o v
          | none => v) = old := by
        rw [ho]
        exact put_self (ho.trans (congrArg some hmerge.symm))
      rw [mergeEntries, hsame]
      exact ih fun p hp => h p (List.mem_cons_of_mem _ hp)

/-- A key keeps its value when every entry of that key gives the old value again. -/
theorem find_mergeEntries_of_same {old next : Mapping} {key : Value}
    (h : ∀ p ∈ next, p.1 = key → ∃ o, old.find key = some o ∧ merge o p.2 = o) :
    (mergeEntries old next).find key = old.find key := by
  induction next generalizing old with
  | nil => rfl
  | cons p rest ih =>
      obtain ⟨k, v⟩ := p
      have hput : (old.put k (match old.find k with
          | some o => merge o v
          | none => v)).find key = old.find key := by
        rw [find_put]
        by_cases hk : k = key
        · obtain ⟨o, ho, hmerge⟩ := h (k, v) List.mem_cons_self hk
          rw [if_pos hk, hk, ho]
          exact congrArg some hmerge
        · rw [if_neg hk]
      rw [mergeEntries, ih, hput]
      intro p hp hkey
      rw [hput]
      exact h p (List.mem_cons_of_mem _ hp) hkey

/-- The entry of a key that occurs once is merged with the old value. -/
theorem find_mergeEntries_split {old pre post : Mapping} {key v : Value}
    (hpre : ∀ p ∈ pre, p.1 ≠ key) (hpost : ∀ p ∈ post, p.1 ≠ key) :
    (mergeEntries old (pre ++ (key, v) :: post)).find key = some (match old.find key with
      | some o => merge o v
      | none => v) := by
  have hbefore : (mergeEntries old pre).find key = old.find key :=
    find_mergeEntries_of_same fun p hp hkey => absurd hkey (hpre p hp)
  have hafter : ∀ m : Mapping, (mergeEntries m post).find key = m.find key := fun m =>
    find_mergeEntries_of_same fun p hp hkey => absurd hkey (hpost p hp)
  rw [mergeEntries_append, mergeEntries, hafter, find_put, if_pos rfl, hbefore]

theorem find_mergeEntries {old next : Mapping} {key v : Value}
    (hnodup : (next.map Prod.fst).Nodup) (h : (key, v) ∈ next) :
    (mergeEntries old next).find key = some (match old.find key with
      | some o => merge o v
      | none => v) := by
  obtain ⟨pre, post, rfl⟩ := List.append_of_mem h
  rw [List.map_append, List.map_cons, List.nodup_append] at hnodup
  obtain ⟨-, hpost, hpre⟩ := hnodup
  apply find_mergeEntries_split
  · exact fun p hp => hpre p.1 (List.mem_map_of_mem hp) key List.mem_cons_self
  · intro p hp hkey
    have hmem : p.1 ∈ post.map Prod.fst := List.mem_map_of_mem hp
    rw [hkey] at hmem
    exact (List.nodup_cons.mp hpost).1 hmem

theorem find_mergeEntries_of_not_mem {old next : Mapping} {key : Value}
    (h : key ∉ next.map Prod.fst) : (mergeEntries old next).find key = old.find key := by
  apply find_mergeEntries_of_same
  intro p hp hkey
  have hmem : p.1 ∈ next.map Prod.fst := List.mem_map_of_mem hp
  rw [hkey] at hmem
  exact absurd hmem h

/-! ## Reading -/

section Readers

variable {α : Type}

def readUint (w : Nat) : Value → Option (BitVec w)
  | .int n => if 0 ≤ n ∧ n < 2 ^ w then some (BitVec.ofInt w n) else none
  | _ => none

/-- The items of a sequence; no value stands for no items. -/
def readSeq (read : Value → Option α) : Value → Option (List α)
  | .sequence items => items.mapM read
  | .null => some []
  | _ => none

/-- A record is read from the entries of a mapping. -/
def Value.record (read : Mapping → Option α) (v : Value) : Option α :=
  v.asMapping.bind read

def Mapping.required (m : Mapping) (name : String) (read : Value → Option α) : Option α :=
  (m.get name).bind read

/-- A field that may be missing or without a value. -/
def Mapping.optional (m : Mapping) (name : String) (read : Value → Option α) :
    Option (Option α) :=
  match m.get name with
  | none => some none
  | some .null => some none
  | some v => (read v).map some

def Mapping.defaulted (m : Mapping) (name : String) (read : Value → Option α) (default : α) :
    Option α :=
  match m.get name with
  | none => some default
  | some v => read v

variable {m m' : Mapping} {name : String} {read : Value → Option α}

theorem required_congr (h : m.get name = m'.get name) :
    m.required name read = m'.required name read := by
  rw [Mapping.required, Mapping.required, h]

theorem optional_congr (h : m.get name = m'.get name) :
    m.optional name read = m'.optional name read := by
  rw [Mapping.optional, Mapping.optional, h]

theorem defaulted_congr {default : α} (h : m.get name = m'.get name) :
    m.defaulted name read default = m'.defaulted name read default := by
  rw [Mapping.defaulted, Mapping.defaulted, h]

end Readers

/-! ## Writing -/

def uint {w : Nat} (x : BitVec w) : Value :=
  .int x.toNat

def field (name : String) (v : Value) : Mapping :=
  [(named name, v)]

/-- A field that is left out when there is no value. -/
def optField {α : Type} (name : String) (write : α → Value) (o : Option α) : Mapping :=
  o.elim [] fun x => field name (write x)

/-- A field that is left out when there are no items. -/
def seqField {α : Type} (name : String) (write : α → Value) (items : List α) : Mapping :=
  if items.isEmpty then [] else field name (.sequence (items.map write))

@[simp] theorem get_append (m n : Mapping) (name : String) :
    Mapping.get (m ++ n) name = (m.get name).or (n.get name) :=
  find_append m n (named name)

@[simp] theorem get_field (name other : String) (v : Value) :
    (field name v).get other = if name = other then some v else none := by
  rw [field, Mapping.get, find_cons, find_nil]
  exact if_congr named_inj rfl rfl

@[simp] theorem get_optField {α : Type} (name other : String) (write : α → Value) (o : Option α) :
    (optField name write o).get other = if name = other then o.map write else none := by
  cases o with
  | none => exact (ite_self none).symm
  | some x => exact get_field name other (write x)

@[simp] theorem get_seqField {α : Type} (name other : String) (write : α → Value)
    (items : List α) : (seqField name write items).get other =
      if name = other ∧ items ≠ [] then some (.sequence (items.map write)) else none := by
  cases items with
  | nil => exact (if_neg fun h => h.2 rfl).symm
  | cons x rest =>
      have hcons : seqField name write (x :: rest) =
          field name (.sequence ((x :: rest).map write)) := rfl
      rw [hcons, get_field]
      simp

theorem Value.record_mapping {α : Type} (read : Mapping → Option α) (m : Mapping) :
    Value.record read (.mapping m) = read m :=
  rfl

/-! ## What is written is read -/

section Written

variable {α : Type} {m : Mapping} {name : String}

/-- The reader takes back what the writer gives, which is never the missing value. -/
structure Writes (read : Value → Option α) (write : α → Value) : Prop where
  ne_null : ∀ x, write x ≠ .null
  read_write : ∀ x, read (write x) = some x

theorem readUint_uint {w : Nat} (x : BitVec w) : readUint w (uint x) = some x := by
  have hlt : (x.toNat : Int) < 2 ^ w := by exact_mod_cast x.isLt
  have hval : BitVec.ofInt w x.toNat = x := by simp
  rw [uint, readUint, if_pos ⟨Int.natCast_nonneg _, hlt⟩, hval]

theorem writes_uint (w : Nat) : Writes (readUint w) uint :=
  ⟨fun _ => Value.noConfusion, readUint_uint⟩

theorem writes_string : Writes Value.asStr .string :=
  ⟨fun _ => Value.noConfusion, fun _ => rfl⟩

theorem readSeq_map {read : Value → Option α} {write : α → Value} (hw : Writes read write)
    (items : List α) : readSeq read (.sequence (items.map write)) = some items := by
  rw [readSeq]
  induction items with
  | nil => rfl
  | cons x rest ih =>
      rw [List.map_cons, List.mapM_cons, hw.read_write x, ih]
      rfl

theorem writes_sequence {read : Value → Option α} {write : α → Value} (hw : Writes read write) :
    Writes (readSeq read) fun items => .sequence (items.map write) :=
  ⟨fun _ => Value.noConfusion, readSeq_map hw⟩

theorem required_of_get {read : Value → Option α} {write : α → Value} (hw : Writes read write)
    {x : α} (h : m.get name = some (write x)) : m.required name read = some x := by
  rw [Mapping.required, h]
  exact hw.read_write x

theorem optional_of_get {read : Value → Option α} {write : α → Value} (hw : Writes read write)
    {o : Option α} (h : m.get name = o.map write) : m.optional name read = some o := by
  cases o with
  | none => rw [Mapping.optional, h, Option.map_none]
  | some x =>
      have hread : (read (write x)).map some = some (some x) := by
        rw [hw.read_write x, Option.map_some]
      have hne := hw.ne_null x
      rw [Mapping.optional, h, Option.map_some]
      split
      · exact absurd ‹_› (Option.some_ne_none _)
      · rename_i hnull
        exact absurd (Option.some.inj hnull) hne
      · rename_i v _ hv
        rw [← Option.some.inj hv]
        exact hread

/-- A field that has to be there is also read as one that may be missing. -/
theorem optional_of_required {read : Value → Option α} {x : α} (hnull : read .null = none)
    (h : m.required name read = some x) : m.optional name read = some (some x) := by
  rw [Mapping.required, Option.bind_eq_some_iff] at h
  obtain ⟨v, hv, hx⟩ := h
  rw [Mapping.optional, hv]
  cases v with
  | null => rw [hnull] at hx; cases hx
  | _ => exact congrArg (Option.map some) hx

/-- A reader that sees less reads the items where the other one does. -/
theorem readSeq_map_of {β : Type} {read : Value → Option α} {read' : Value → Option β}
    {f : α → β} (hread : ∀ v x, read v = some x → read' v = some (f x)) {v : Value}
    {items : List α} (h : readSeq read v = some items) :
    readSeq read' v = some (items.map f) := by
  cases v with
  | null =>
      obtain rfl := Option.some.inj h
      rfl
  | sequence vs =>
      rw [readSeq] at h ⊢
      induction vs generalizing items with
      | nil =>
          obtain rfl := Option.some.inj h
          rfl
      | cons v rest ih =>
          rw [List.mapM_cons] at h ⊢
          obtain ⟨x, hx, h⟩ := Option.bind_eq_some_iff.mp h
          obtain ⟨xs, hxs, h⟩ := Option.bind_eq_some_iff.mp h
          obtain rfl := Option.some.inj h
          rw [hread v x hx, ih hxs]
          rfl
  | _ => cases h

theorem optional_of_elim {read : Value → Option α} {write : α → Value} (hw : Writes read write)
    {o : Option α} (h : m.get name = some (o.elim .null write)) :
    m.optional name read = some o := by
  cases o with
  | none => rw [Mapping.optional, h, Option.elim_none]
  | some x => exact optional_of_get hw h

theorem defaulted_of_get {read : Value → Option α} {v : Value} {x : α} (default : α)
    (h : m.get name = some v) (hread : read v = some x) :
    m.defaulted name read default = some x := by
  rw [Mapping.defaulted, h]
  exact hread

/-- A list that is left out when it is empty is read back with the empty list as default. -/
theorem defaulted_seqField {read : Value → Option α} {write : α → Value} (hw : Writes read write)
    {items : List α} (h : m.get name =
      if items ≠ [] then some (.sequence (items.map write)) else none) :
    m.defaulted name (readSeq read) [] = some items := by
  by_cases hitems : items ≠ []
  · rw [if_pos hitems] at h
    exact defaulted_of_get [] h (readSeq_map hw items)
  · rw [if_neg hitems] at h
    rw [Mapping.defaulted, h, not_not.mp hitems]

end Written

/-! ## Writing back -/

section Back

variable {α : Type} {m : Mapping} {name : String}

/-- To write what was read over the document changes nothing. -/
def WritesBack (read : Value → Option α) (write : α → Value) : Prop :=
  ∀ v x, read v = some x → merge v (write x) = v

/-- The entry has a value in the document, which is not changed when the entry is merged in. -/
def Mapping.Holds (m : Mapping) (p : Value × Value) : Prop :=
  ∃ o, m.find p.1 = some o ∧ merge o p.2 = o

theorem writesBack_uint (w : Nat) : WritesBack (readUint w) uint := by
  intro v x h
  cases v with
  | int n =>
      rw [readUint] at h
      by_cases hn : 0 ≤ n ∧ n < 2 ^ w
      · rw [if_pos hn] at h
        obtain rfl := Option.some.inj h
        have hmod : n % 2 ^ w = n := Int.emod_eq_of_lt hn.1 hn.2
        rw [merge_scalar _ rfl, uint, BitVec.toNat_ofInt]
        have hcast : ((2 ^ w : Nat) : Int) = 2 ^ w := by push_cast; rfl
        rw [hcast, hmod, Int.toNat_of_nonneg hn.1]
      · rw [if_neg hn] at h
        cases h
  | _ => cases h

theorem writesBack_string : WritesBack Value.asStr .string := by
  intro v x h
  cases v with
  | string s =>
      obtain rfl := Option.some.inj h
      exact merge_scalar _ rfl
  | _ => cases h

/-- The items of a list that is read, one for one. -/
theorem forall₂_of_readSeq {read : Value → Option α} {vs : List Value} {items : List α}
    (h : readSeq read (.sequence vs) = some items) :
    List.Forall₂ (fun v x => read v = some x) vs items := by
  rw [readSeq] at h
  induction vs generalizing items with
  | nil =>
      obtain rfl := Option.some.inj h
      exact .nil
  | cons v rest ih =>
      rw [List.mapM_cons] at h
      obtain ⟨x, hx, h⟩ := Option.bind_eq_some_iff.mp h
      obtain ⟨xs, hxs, h⟩ := Option.bind_eq_some_iff.mp h
      obtain rfl := Option.some.inj h
      exact .cons hx (ih hxs)

/-- No value stands for no items, so a list that has some is one. -/
theorem sequence_of_readSeq {read : Value → Option α} {v : Value} {items : List α}
    (hne : items ≠ []) (h : readSeq read v = some items) : ∃ vs, v = .sequence vs := by
  cases v with
  | null => exact absurd (Option.some.inj h).symm hne
  | sequence vs => exact ⟨vs, rfl⟩
  | _ => cases h

/-- One more item is read behind the others. -/
theorem readSeq_concat {read : Value → Option α} {vs : List Value} {items : List α} {v : Value}
    {x : α} (h : readSeq read (.sequence vs) = some items) (hx : read v = some x) :
    readSeq read (.sequence (vs ++ [v])) = some (items ++ [x]) := by
  rw [readSeq] at h ⊢
  rw [List.mapM_append, h, List.mapM_cons, List.mapM_nil, hx]
  rfl

/-- Rows that are written back stay, and what is written behind them comes behind them. -/
theorem mergeItems_append {read : Value → Option α} {write : α → Value}
    (hback : WritesBack read write) {vs : List Value} {items : List α}
    (h : List.Forall₂ (fun v x => read v = some x) vs items) (more : List Value) :
    mergeItems vs (items.map write ++ more) = vs ++ more := by
  induction h with
  | nil =>
      induction more with
      | nil => rfl
      | cons v rest ih => exact congrArg (v :: ·) ih
  | cons hread _ ih =>
      rw [List.map_cons, List.cons_append, mergeItems, hback _ _ hread, ih, List.cons_append]

theorem merge_back_sequence {read : Value → Option α} {write : α → Value}
    (hback : WritesBack read write) {v : Value} {items : List α} (hne : items ≠ [])
    (h : readSeq read v = some items) : merge v (.sequence (items.map write)) = v := by
  obtain ⟨vs, rfl⟩ := sequence_of_readSeq hne h
  have hitems := mergeItems_append hback (forall₂_of_readSeq h) []
  rw [List.append_nil, List.append_nil] at hitems
  rw [merge, hitems]

theorem mem_field {p : Value × Value} {v : Value} : p ∈ field name v ↔ p = (named name, v) :=
  List.mem_singleton

theorem key_of_mem_optField {write : α → Value} {o : Option α} {p : Value × Value}
    (h : p ∈ optField name write o) : p.1 = named name := by
  cases o with
  | none => cases h
  | some x => rw [mem_field.mp h]

theorem key_of_mem_seqField {write : α → Value} {items : List α} {p : Value × Value}
    (h : p ∈ seqField name write items) : p.1 = named name := by
  cases items with
  | nil => cases h
  | cons x rest => rw [mem_field.mp h]

theorem holds_required {read : Value → Option α} {write : α → Value}
    (hback : WritesBack read write) {x : α} (h : m.required name read = some x) :
    ∀ p ∈ field name (write x), m.Holds p := by
  intro p hp
  obtain ⟨v, hv, hread⟩ := Option.bind_eq_some_iff.mp h
  rw [mem_field.mp hp]
  exact ⟨v, hv, hback v x hread⟩

theorem holds_optional {read : Value → Option α} {write : α → Value}
    (hback : WritesBack read write) {o : Option α} (h : m.optional name read = some o) :
    ∀ p ∈ optField name write o, m.Holds p := by
  intro p hp
  cases o with
  | none => cases hp
  | some x =>
      rw [mem_field.mp hp]
      cases hget : m.get name with
      | none =>
          rw [Mapping.optional, hget] at h
          cases Option.some.inj h
      | some v =>
          rw [Mapping.optional, hget] at h
          refine ⟨v, hget, hback v x ?_⟩
          cases v with
          | null => cases Option.some.inj h
          | _ =>
              obtain ⟨y, hy, hxy⟩ := Option.map_eq_some_iff.mp h
              rw [← Option.some.inj hxy]
              exact hy

theorem holds_defaulted_seq {read : Value → Option α} {write : α → Value}
    (hback : WritesBack read write) {items : List α}
    (h : m.defaulted name (readSeq read) [] = some items) :
    ∀ p ∈ seqField name write items, m.Holds p := by
  intro p hp
  cases items with
  | nil => cases hp
  | cons x rest =>
      rw [mem_field.mp hp]
      cases hget : m.get name with
      | none =>
          rw [Mapping.defaulted, hget] at h
          cases Option.some.inj h
      | some v =>
          rw [Mapping.defaulted, hget] at h
          exact ⟨v, hget, merge_back_sequence hback (List.cons_ne_nil x rest) h⟩

/-- A record is written back when each of its entries holds. -/
theorem writesBack_record {read : Mapping → Option α} {fields : α → Mapping}
    (h : ∀ m x, read m = some x → ∀ p ∈ fields x, Mapping.Holds m p) :
    WritesBack (Value.record read) fun x => .mapping (fields x) := by
  intro v x hx
  cases v with
  | mapping m => exact congrArg Value.mapping (mergeEntries_eq_self (h m x hx))
  | _ => cases hx

end Back

/-! ## Texts of documents -/

/-- A reader and a writer of texts. -/
structure Serde where
  fromStr : Text → Option Value
  toStr : Value → Text

/-- What was written is read back. -/
def Serde.RoundTrips (Y : Serde) : Prop :=
  ∀ v, Y.fromStr (Y.toStr v) = some v

/-! ### Flow style -/

/-- A text up to a delimiter, which it may contain behind a backslash. -/
def escape (delim : Char) (s : Text) : Text :=
  s.flatMap fun c =>
    if c = delim ∨ c = '\\' then ['\\', c] else if c = '\n' then ['\\', 'n'] else [c]

def readEscaped (delim : Char) : Text → Option (Text × Text)
  | [] => none
  | [c] => if c = delim then some ([], []) else none
  | c :: d :: rest =>
      if c = '\\' then
        (readEscaped delim rest).map fun p => ((if d = 'n' then '\n' else d) :: p.1, p.2)
      else if c = delim then some ([], d :: rest)
      else (readEscaped delim (d :: rest)).map fun p => (c :: p.1, p.2)

def flowInt (n : Int) : Text :=
  (if n < 0 then ['-'] else []) ++ Nat.toDigits 10 n.natAbs

def readInt : Text → Int
  | '-' :: digits => -(Nat.ofDigitChars 10 digits 0 : Int)
  | digits => Nat.ofDigitChars 10 digits 0

mutual

def flow : Value → Text
  | .null => ['n', 'u', 'l', 'l']
  | .bool true => ['t', 'r', 'u', 'e']
  | .bool false => ['f', 'a', 'l', 's', 'e']
  | .int n => ['!', '!', 'i', 'n', 't', ' ', '"'] ++ escape '"' (flowInt n) ++ ['"']
  | .float digits => ['!', '!', 'f', 'l', 'o', 'a', 't', ' ', '"'] ++ escape '"' digits ++ ['"']
  | .string s => ['"'] ++ escape '"' s ++ ['"']
  | .sequence items => ['['] ++ flowItems items
  | .mapping entries => ['\x7b'] ++ flowEntries entries

def flowItems : List Value → Text
  | [] => [']']
  | v :: rest => flow v ++ [','] ++ flowItems rest

def flowEntries : List (Value × Value) → Text
  | [] => ['\x7d']
  | (k, v) :: rest => flow k ++ [':', ' '] ++ flow v ++ [','] ++ flowEntries rest

end

mutual

def readValue : Nat → Text → Option (Value × Text)
  | 0, _ => none
  | n + 1, c :: rest =>
      if c = '"' then (readEscaped '"' rest).map fun p => (.string p.1, p.2)
      else if c = '[' then (readItems n rest).map fun p => (.sequence p.1, p.2)
      else if c = '\x7b' then (readEntries n rest).map fun p => (.mapping p.1, p.2)
      else if c = 'n' then some (.null, rest.drop 3)
      else if c = 't' then some (.bool true, rest.drop 3)
      else if c = 'f' then some (.bool false, rest.drop 4)
      else if (rest.drop 1).head? = some 'i' then
        (readEscaped '"' (rest.drop 6)).map fun p => (.int (readInt p.1), p.2)
      else (readEscaped '"' (rest.drop 8)).map fun p => (.float p.1, p.2)
  | _ + 1, [] => none

def readItems : Nat → Text → Option (List Value × Text)
  | 0, _ => none
  | n + 1, s =>
      if s.head? = some ']' then some ([], s.drop 1)
      else
        (readValue n s).bind fun p =>
          (readItems n (p.2.drop 1)).map fun q => (p.1 :: q.1, q.2)

def readEntries : Nat → Text → Option (List (Value × Value) × Text)
  | 0, _ => none
  | n + 1, s =>
      if s.head? = some '\x7d' then some ([], s.drop 1)
      else
        (readValue n s).bind fun p =>
          (readValue n (p.2.drop 2)).bind fun q =>
            (readEntries n (q.2.drop 1)).map fun r => ((p.1, q.1) :: r.1, r.2)

end

/-- Documents in flow style. -/
def flowSerde : Serde where
  fromStr s :=
    match readValue s.length s with
    | some (v, []) => some v
    | _ => none
  toStr := flow

theorem readEscaped_escape {delim : Char} (hslash : delim ≠ '\\') (hletter : delim ≠ 'n')
    (s r : Text) :
    readEscaped delim (escape delim s ++ delim :: r) = some (s, r) := by
  have hplain : ∀ (c : Char) (t : Text), t ≠ [] → c ≠ '\\' → c ≠ delim →
      readEscaped delim (c :: t) = (readEscaped delim t).map fun p => (c :: p.1, p.2) := by
    intro c t ht hc hd
    cases t with
    | nil => exact absurd rfl ht
    | cons d rest => rw [readEscaped, if_neg hc, if_neg hd]
  induction s with
  | nil =>
      cases r with
      | nil => exact if_pos rfl
      | cons d rest =>
          rw [escape, List.flatMap_nil, List.nil_append, readEscaped, if_neg hslash, if_pos rfl]
  | cons c rest ih =>
      have hcons : escape delim (c :: rest) = (if c = delim ∨ c = '\\' then ['\\', c]
          else if c = '\n' then ['\\', 'n'] else [c]) ++ escape delim rest := rfl
      rw [hcons]
      by_cases hesc : c = delim ∨ c = '\\'
      · have hn : (if c = 'n' then '\n' else c) = c := by
          apply if_neg
          rintro rfl
          exact hesc.elim (fun h => hletter h.symm) (by decide)
        rw [if_pos hesc]
        simp only [List.cons_append, List.nil_append]
        rw [readEscaped, if_pos rfl, ih, Option.map_some, hn]
      · rw [not_or] at hesc
        rw [if_neg (not_or.mpr hesc)]
        by_cases hline : c = '\n'
        · rw [if_pos hline]
          simp only [List.cons_append, List.nil_append]
          rw [readEscaped, if_pos rfl, ih, Option.map_some, if_pos rfl, hline]
        · rw [if_neg hline]
          simp only [List.cons_append, List.nil_append]
          rw [hplain c _ (by simp) hesc.2 hesc.1, ih, Option.map_some]

theorem readInt_flowInt (n : Int) : readInt (flowInt n) = n := by
  rw [flowInt]
  by_cases hneg : n < 0
  · rw [if_pos hneg, List.singleton_append, readInt, Nat.ofDigitChars_ten_toDigits]
    omega
  · have hne : Nat.toDigits 10 n.natAbs ≠ [] := Nat.toDigits_ne_nil
    have hdigit : ∀ c ∈ Nat.toDigits 10 n.natAbs, c.isDigit = true := fun c =>
      Digits.isDigit_of_mem_decimal
    have hplain : readInt (Nat.toDigits 10 n.natAbs) =
        Nat.ofDigitChars 10 (Nat.toDigits 10 n.natAbs) 0 := by
      rw [readInt]
      intro digits h
      rw [h] at hdigit
      exact absurd (hdigit '-' List.mem_cons_self) (by decide)
    rw [if_neg hneg, List.nil_append, hplain, Nat.ofDigitChars_ten_toDigits]
    omega

/-- A document does not start with a closing bracket. -/
theorem head_flow (v : Value) (r : Text) : (flow v ++ r).head? ≠ some ']' ∧
    (flow v ++ r).head? ≠ some '\x7d' := by
  cases v with
  | bool b => cases b <;> simp [flow]
  | _ => simp [flow]

theorem flow_ne_nil (v : Value) : 0 < (flow v).length := by
  cases v with
  | bool b => cases b <;> simp [flow]
  | _ => simp [flow]

mutual

theorem readValue_flow (v : Value) (fuel : Nat) (r : Text) (hfuel : (flow v).length ≤ fuel) :
    readValue fuel (flow v ++ r) = some (v, r) := by
  obtain ⟨n, rfl⟩ : ∃ n, fuel = n + 1 :=
    Nat.exists_eq_succ_of_ne_zero (by have := flow_ne_nil v; omega)
  cases v with
  | null => simp [flow, readValue]
  | bool b => cases b <;> simp [flow, readValue]
  | int k =>
      simp [flow, readValue, readEscaped_escape, readInt_flowInt]
  | float digits => simp [flow, readValue, readEscaped_escape]
  | string s => simp [flow, readValue, readEscaped_escape]
  | sequence items =>
      have hitems := readItems_flow items n r (by simp [flow] at hfuel; omega)
      simp [flow, readValue, hitems]
  | mapping entries =>
      have hentries := readEntries_flow entries n r (by simp [flow] at hfuel; omega)
      simp [flow, readValue, hentries]

theorem readItems_flow (items : List Value) (fuel : Nat) (r : Text)
    (hfuel : (flowItems items).length ≤ fuel) :
    readItems fuel (flowItems items ++ r) = some (items, r) := by
  cases items with
  | nil =>
      obtain ⟨n, rfl⟩ : ∃ n, fuel = n + 1 :=
        Nat.exists_eq_succ_of_ne_zero (by simp [flowItems] at hfuel; omega)
      simp [flowItems, readItems]
  | cons v rest =>
      obtain ⟨n, rfl⟩ : ∃ n, fuel = n + 1 :=
        Nat.exists_eq_succ_of_ne_zero (by simp [flowItems] at hfuel; omega)
      simp only [flowItems, List.length_append, List.length_singleton] at hfuel
      have hv := readValue_flow v n (',' :: (flowItems rest ++ r)) (by omega)
      have hrest := readItems_flow rest n r (by omega)
      have hhead := (head_flow v (',' :: (flowItems rest ++ r))).1
      simp only [flowItems, List.append_assoc, List.cons_append, List.nil_append]
      rw [readItems, if_neg hhead, hv]
      simp [hrest]

theorem readEntries_flow (entries : List (Value × Value)) (fuel : Nat) (r : Text)
    (hfuel : (flowEntries entries).length ≤ fuel) :
    readEntries fuel (flowEntries entries ++ r) = some (entries, r) := by
  cases entries with
  | nil =>
      obtain ⟨n, rfl⟩ : ∃ n, fuel = n + 1 :=
        Nat.exists_eq_succ_of_ne_zero (by simp [flowEntries] at hfuel; omega)
      simp [flowEntries, readEntries]
  | cons p rest =>
      obtain ⟨k, v⟩ := p
      obtain ⟨n, rfl⟩ : ∃ n, fuel = n + 1 :=
        Nat.exists_eq_succ_of_ne_zero (by simp [flowEntries] at hfuel; omega)
      simp only [flowEntries, List.length_append, List.length_singleton] at hfuel
      have hv := readValue_flow v n (',' :: (flowEntries rest ++ r)) (by omega)
      have hk := readValue_flow k n (':' :: ' ' :: (flow v ++ ',' :: (flowEntries rest ++ r)))
        (by omega)
      have hrest := readEntries_flow rest n r (by omega)
      have hhead := (head_flow k (':' :: ' ' :: (flow v ++ ',' :: (flowEntries rest ++ r)))).2
      simp only [flowEntries, List.append_assoc, List.cons_append, List.nil_append]
      rw [readEntries, if_neg hhead, hk]
      simp [hv, hrest]

end

theorem flowSerde_roundTrips : flowSerde.RoundTrips := by
  intro v
  have h := readValue_flow v (flow v).length [] (le_refl _)
  rw [List.append_nil] at h
  simp only [flowSerde, h]

end Yaml
