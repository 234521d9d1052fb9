import Mathlib

/-!
# Files of lines

Each line ends with a separator. The lines of a file are read from the front,
its last line from a window at the end.
-/

namespace LineFile

/-- The file with these lines. -/
def ofLines {α : Type} (sep : α) (ls : List (List α)) : List α :=
  ls.flatMap fun l => l ++ [sep]

section Reading

variable {α : Type} [DecidableEq α]

/-- The pieces before each separator; what follows the last one counts if there is any. The piece
begun is kept in reverse. -/
def linesFrom (sep : α) : List α → List α → List (List α)
  | begun, [] => if begun = [] then [] else [begun.reverse]
  | begun, c :: rest =>
      if c = sep then begun.reverse :: linesFrom sep [] rest else linesFrom sep (c :: begun) rest

/-- The lines of a file. -/
def lines (sep : α) (file : List α) : List (List α) :=
  linesFrom sep [] file

/-- The last line as far as a window of this size at the end shows it, blanks after it skipped:
`none` without anything but blanks, an error when the line may start before the window. -/
def lastLine (sep : α) (isBlank : α → Bool) (window : Nat) (file : List α) :
    Except Unit (Option (List α)) :=
  let start := file.length - window
  let tail := (file.drop start).reverse.dropWhile isBlank
  if tail = [] then
    if 0 < start then .error () else .ok none
  else if sep ∉ tail ∧ 0 < start then .error ()
  else .ok (some (tail.takeWhile fun c => decide (c ≠ sep)).reverse)

end Reading

section Shape

variable {α : Type} {sep : α} {isBlank : α → Bool}

theorem ofLines_append (ls ls' : List (List α)) :
    ofLines sep (ls ++ ls') = ofLines sep ls ++ ofLines sep ls' := by
  rw [ofLines, List.flatMap_append]
  rfl

@[simp] theorem ofLines_singleton (l : List α) : ofLines sep [l] = l ++ [sep] := by
  simp [ofLines]

/-- The file ends at the end of a line, or is empty. -/
def Closed (sep : α) (file : List α) : Prop :=
  file = [] ∨ ∃ front, file = front ++ [sep]

theorem closed_ofLines (ls : List (List α)) : Closed sep (ofLines sep ls) := by
  induction ls using List.reverseRecOn with
  | nil => exact .inl rfl
  | append_singleton ls l _ =>
      refine .inr ⟨ofLines sep ls ++ l, ?_⟩
      rw [ofLines_append, ofLines_singleton, List.append_assoc]

/-- What is left of a closed file from some place on is closed. -/
theorem Closed.drop {file : List α} (h : Closed sep file) (n : Nat) : Closed sep (file.drop n) := by
  rcases h with rfl | ⟨front, rfl⟩
  · exact .inl List.drop_nil
  · by_cases hn : n ≤ front.length
    · exact .inr ⟨front.drop n, List.drop_append_of_le_length hn⟩
    · refine .inl (List.drop_eq_nil_of_le ?_)
      rw [List.length_append, List.length_singleton]
      omega

theorem Closed.mem {file : List α} (h : Closed sep file) (hne : file ≠ []) : sep ∈ file := by
  rcases h with rfl | ⟨front, rfl⟩
  · exact absurd rfl hne
  · exact List.mem_append_right front List.mem_cons_self

/-- A text fit for a line: the separator is not in it, and it does not end in a blank. -/
structure Fit (sep : α) (isBlank : α → Bool) (line : List α) : Prop where
  single : sep ∉ line
  blank : isBlank sep = true
  ends : ∃ init c, line = init ++ [c] ∧ isBlank c = false

theorem Fit.ne_nil {line : List α} (h : Fit sep isBlank line) : line ≠ [] := by
  obtain ⟨init, c, rfl, _⟩ := h.ends
  simp

theorem Fit.dropWhile_reverse {line : List α} (h : Fit sep isBlank line) (before : List α) :
    (before ++ line ++ [sep]).reverse.dropWhile isBlank = line.reverse ++ before.reverse := by
  obtain ⟨init, c, rfl, hc⟩ := h.ends
  simp [h.blank, hc]

/-- Whether a line is seen to be one in the window, as the last of a file: all of the file is in
the window, or the end of the line before. -/
def Visible (window : Nat) (front line : List α) : Prop :=
  front.length + line.length + 1 ≤ window ∨ line.length + 2 ≤ window

end Shape

section Lines

variable {α : Type} [DecidableEq α] {sep : α} {isBlank : α → Bool}

theorem linesFrom_line {l : List α} (h : sep ∉ l) (begun rest : List α) :
    linesFrom sep begun (l ++ sep :: rest) = (begun.reverse ++ l) :: linesFrom sep [] rest := by
  induction l generalizing begun with
  | nil => simp [linesFrom]
  | cons c l ih =>
      have hc : c ≠ sep := fun hc => h (hc ▸ List.mem_cons_self)
      rw [List.cons_append, linesFrom, if_neg hc, ih (fun hl => h (List.mem_cons_of_mem c hl))]
      simp

/-- Reading the lines back. -/
theorem lines_ofLines {ls : List (List α)} (h : ∀ l ∈ ls, sep ∉ l) :
    lines sep (ofLines sep ls) = ls := by
  induction ls with
  | nil => rfl
  | cons l ls ih =>
      have hfile : ofLines sep (l :: ls) = l ++ sep :: ofLines sep ls := by
        simp [ofLines]
      rw [lines, hfile, linesFrom_line (h l List.mem_cons_self), ← lines,
        ih fun l' hl' => h l' (List.mem_cons_of_mem l hl')]
      rfl

theorem lastLine_nil (window : Nat) : lastLine sep isBlank window [] = .ok none := by
  simp [lastLine]

theorem takeWhile_line {line before : List α} (h : sep ∉ line) (hbefore : Closed sep before) :
    ((line.reverse ++ before.reverse).takeWhile fun c => decide (c ≠ sep)) = line.reverse := by
  have hall : ∀ c ∈ line.reverse, decide (c ≠ sep) = true := by
    intro c hc
    refine decide_eq_true fun heq => h ?_
    rw [← heq]
    exact List.mem_reverse.mp hc
  rw [List.takeWhile_append_of_pos hall]
  rcases hbefore with rfl | ⟨front, rfl⟩
  · simp
  · simp

/-- A visible last line is read. -/
theorem lastLine_of_visible {front line : List α} (hclosed : Closed sep front)
    (hfit : Fit sep isBlank line) {window : Nat}
    (hvisible : Visible window front line) :
    lastLine sep isBlank window (front ++ line ++ [sep]) = .ok (some line) := by
  rw [Visible] at hvisible
  obtain ⟨start, hstart⟩ : ∃ start, (front ++ line ++ [sep]).length - window = start := ⟨_, rfl⟩
  have hlen : (front ++ line ++ [sep]).length = front.length + line.length + 1 := by
    simp only [List.length_append, List.length_singleton]
  have hle : start ≤ front.length := by omega
  -- the window shows the line, and the end of the one before if the file starts before it
  have hdrop : (front ++ line ++ [sep]).drop start = front.drop start ++ line ++ [sep] := by
    rw [List.append_assoc, List.drop_append_of_le_length hle, List.append_assoc]
  have hfar : 0 < start → sep ∈ front.drop start := by
    intro hpos
    refine (hclosed.drop start).mem fun hnil => ?_
    have hshort := List.drop_eq_nil_iff.mp hnil
    omega
  rw [lastLine, hstart, hdrop, hfit.dropWhile_reverse, if_neg (by simp [hfit.ne_nil]), if_neg ?_,
    takeWhile_line hfit.single (hclosed.drop start), List.reverse_reverse]
  rintro ⟨hmissing, hpos⟩
  exact hmissing (List.mem_append_right _ (List.mem_reverse.mpr (hfar hpos)))

/-- A last line that is not visible is an error. -/
theorem lastLine_of_not_visible {front line : List α} (hfit : Fit sep isBlank line) {window : Nat}
    (hvisible : ¬ Visible window front line) :
    lastLine sep isBlank window (front ++ line ++ [sep]) = .error () := by
  rw [Visible] at hvisible
  obtain ⟨start, hstart⟩ : ∃ start, (front ++ line ++ [sep]).length - window = start := ⟨_, rfl⟩
  have hlen : (front ++ line ++ [sep]).length = front.length + line.length + 1 := by
    simp only [List.length_append, List.length_singleton]
  have hpos : 0 < start := by omega
  have hmissing : sep ∉ ((front ++ line ++ [sep]).drop start).reverse.dropWhile isBlank := by
    intro hmem
    have hdrop : (front ++ line ++ [sep]).drop start = (line ++ [sep]).drop (start - front.length) := by
      rw [List.append_assoc, List.drop_append, List.drop_eq_nil_of_le (by omega), List.nil_append]
    rw [hdrop] at hmem
    by_cases hk : start - front.length ≤ line.length
    · rw [List.drop_append_of_le_length hk, List.reverse_append, List.reverse_singleton,
        List.singleton_append, List.dropWhile_cons_of_pos hfit.blank] at hmem
      have hrest := List.mem_reverse.mp ((List.dropWhile_suffix isBlank).subset hmem)
      exact hfit.single (List.mem_of_mem_drop hrest)
    · rw [List.drop_eq_nil_of_le (by simp; omega)] at hmem
      cases hmem
  rw [lastLine, hstart]
  split
  · rfl
  · rw [if_pos ⟨hmissing, hpos⟩]

end Lines

end LineFile
