import Mathlib

/-!
# Fields joined by a separator

A text of fields with a separator between them splits into the parts of its
fields. A field that holds no separator is one part, so that fields without a
separator are read back from their text, and from no text of as many other
fields.
-/

namespace Joined

variable {α : Type} [DecidableEq α] {sep : α}

/-- The parts of a text are the parts of its fields, in their order. -/
theorem splitOn_intercalate_fields {fields : List (List α)} (hne : fields ≠ []) :
    ([sep].intercalate fields).splitOn sep = fields.flatMap (List.splitOn sep) := by
  induction fields with
  | nil => exact absurd rfl hne
  | cons f rest ih =>
      cases rest with
      | nil => simp
      | cons g more =>
          rw [List.intercalate_cons_cons, List.append_assoc, List.singleton_append,
            List.splitOn_append_cons_self, ih (List.cons_ne_nil g more)]
          simp only [List.flatMap_cons]

theorem one_le_length_splitOn (f : List α) : 1 ≤ (f.splitOn sep).length :=
  List.length_pos_iff.mpr (List.splitOn_ne_nil sep f)

/-- A field of one part holds no separator. -/
theorem length_splitOn_eq_one {f : List α} : (f.splitOn sep).length = 1 ↔ sep ∉ f := by
  constructor
  · intro hone
    obtain ⟨part, hpart⟩ := List.length_eq_one_iff.mp hone
    intro hmem
    obtain ⟨front, back, rfl⟩ := List.append_of_mem hmem
    rw [List.splitOn_append_cons_self] at hpart
    have hlength := congrArg List.length hpart
    have hfront := @one_le_length_splitOn α _ sep front
    have hback := @one_le_length_splitOn α _ sep back
    rw [List.length_append, List.length_singleton] at hlength
    omega
  · intro hfree
    rw [List.splitOn_eq_singleton hfree, List.length_singleton]

/-- Fields have as many parts as they are only when none holds a separator. -/
theorem free_of_length {fields : List (List α)} :
    fields.length ≤ (fields.flatMap (List.splitOn sep)).length ∧
    ((fields.flatMap (List.splitOn sep)).length = fields.length → ∀ f ∈ fields, sep ∉ f) := by
  induction fields with
  | nil => exact ⟨Nat.le_refl 0, fun _ f hf => absurd hf List.not_mem_nil⟩
  | cons f rest ih =>
      have hf := @one_le_length_splitOn α _ sep f
      rw [List.flatMap_cons, List.length_append, List.length_cons]
      refine ⟨by omega, fun hlength => ?_⟩
      have hone : (f.splitOn sep).length = 1 := by omega
      exact List.forall_mem_cons.mpr ⟨length_splitOn_eq_one.mp hone, ih.2 (by omega)⟩

theorem flatMap_splitOn_of_free {fields : List (List α)} (hfree : ∀ f ∈ fields, sep ∉ f) :
    fields.flatMap (List.splitOn sep) = fields := by
  induction fields with
  | nil => rfl
  | cons f rest ih =>
      obtain ⟨hf, hrest⟩ := List.forall_mem_cons.mp hfree
      rw [List.flatMap_cons, List.splitOn_eq_singleton hf, ih hrest, List.singleton_append]

/-- The parts decide the text. -/
theorem text_eq_iff {fields others : List (List α)} (hne : fields ≠ []) (hne' : others ≠ []) :
    [sep].intercalate fields = [sep].intercalate others ↔
      fields.flatMap (List.splitOn sep) = others.flatMap (List.splitOn sep) := by
  constructor
  · intro htext
    rw [← splitOn_intercalate_fields hne, htext, splitOn_intercalate_fields hne']
  · intro hparts
    calc [sep].intercalate fields
        = [sep].intercalate (([sep].intercalate fields).splitOn sep) :=
          (List.intercalate_splitOn sep).symm
      _ = [sep].intercalate (([sep].intercalate others).splitOn sep) := by
          rw [splitOn_intercalate_fields hne, hparts, splitOn_intercalate_fields hne']
      _ = [sep].intercalate others := List.intercalate_splitOn sep

/-- No part holds a separator. -/
theorem free_of_mem_splitOn {f part : List α} (h : part ∈ f.splitOn sep) : sep ∉ part := by
  have hparts := @splitOn_intercalate_fields α _ sep _ (List.splitOn_ne_nil sep f)
  rw [List.intercalate_splitOn] at hparts
  exact free_of_length.2 (congrArg List.length hparts).symm part h

/-- A text is cut before a part that is not its first. -/
theorem splitOn_cut {f : List α} {front back : List (List α)} (hne : front ≠ [])
    (h : f.splitOn sep = front ++ back) : ([sep].intercalate front).splitOn sep = front :=
  List.splitOn_intercalate sep
    (fun _ hpart => free_of_mem_splitOn (h ▸ List.mem_append_left back hpart)) hne

/-- Fields without a separator have a text that no other fields of their number have. -/
theorem fields_eq {fields others : List (List α)} (hfree : ∀ f ∈ fields, sep ∉ f)
    (hlength : others.length = fields.length)
    (htext : [sep].intercalate others = [sep].intercalate fields) : others = fields := by
  cases fields with
  | nil => exact List.eq_nil_of_length_eq_zero hlength
  | cons f rest =>
      have hne : others ≠ [] := by
        rintro rfl
        simp at hlength
      have hparts : others.flatMap (List.splitOn sep) = f :: rest := by
        rw [← splitOn_intercalate_fields hne, htext,
          splitOn_intercalate_fields (List.cons_ne_nil f rest), flatMap_splitOn_of_free hfree]
      have hothers : ∀ g ∈ others, sep ∉ g :=
        free_of_length.2 (by rw [hparts, hlength])
      rwa [flatMap_splitOn_of_free hothers] at hparts

omit [DecidableEq α] in
/-- A text that goes on is not its front. -/
theorem front_ne {front back : List α} : front ≠ front ++ sep :: back := by
  intro h
  have hlength := congrArg List.length h
  rw [List.length_append, List.length_cons] at hlength
  omega

end Joined
