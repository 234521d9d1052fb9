import Mathlib

/-!
# Bounded queues of rows with keys

A queue that takes a row only if no row of the same key waits in it. Rows enter
at the back, or go back to the front in their order. With distinct keys and
enough room nothing is skipped and nothing falls out.
-/

section KeyedQueue

variable {α κ : Type*} [DecidableEq κ] (key : α → κ) (cap : Nat)

/-- Whether a row of this key is in the queue. -/
def hasKey (queue : List α) (k : κ) : Bool :=
  queue.any fun row => decide (key row = k)

/-- Rows go back to the front, the last one first; over the cap the last row of all falls out. -/
def requeue (rows queue : List α) : List α :=
  rows.foldr (fun row queue =>
    if hasKey key queue (key row) then queue
    else if cap < (row :: queue).length then (row :: queue).dropLast
    else row :: queue) queue

/-- Rows enter at the back, unless they are in the queue or held elsewhere; over the cap the first
rows fall out. -/
def enqueue (held rows queue : List α) : List α :=
  rows.foldl (fun queue row =>
    if hasKey key queue (key row) || hasKey key held (key row) then queue
    else (queue ++ [row]).drop ((queue ++ [row]).length - cap)) queue

variable {key cap} {held rows rows' queue : List α} {row : α} {k : κ}

theorem hasKey_iff : hasKey key queue k = true ↔ k ∈ queue.map key := by
  rw [hasKey, List.any_eq_true, List.mem_map]
  simp only [decide_eq_true_eq]

theorem hasKey_eq_false : hasKey key queue k = false ↔ k ∉ queue.map key := by
  rw [← Bool.not_eq_true, hasKey_iff]

/-- Rows of their own keys that have room go to the front as they are. -/
theorem requeue_eq (hkeys : ((rows ++ queue).map key).Nodup)
    (hroom : (rows ++ queue).length ≤ cap) : requeue key cap rows queue = rows ++ queue := by
  induction rows with
  | nil => rfl
  | cons row rest ih =>
      rw [List.cons_append, List.map_cons, List.nodup_cons] at hkeys
      rw [List.cons_append, List.length_cons] at hroom
      have hrest : requeue key cap rest queue = rest ++ queue := ih hkeys.2 (by omega)
      have hnew := hasKey_eq_false.mpr hkeys.1
      calc requeue key cap (row :: rest) queue
          = if hasKey key (requeue key cap rest queue) (key row) then requeue key cap rest queue
            else if cap < (row :: requeue key cap rest queue).length then
              (row :: requeue key cap rest queue).dropLast
            else row :: requeue key cap rest queue := rfl
        _ = row :: (rest ++ queue) := by
          rw [hrest, hnew, if_neg Bool.false_ne_true, if_neg]
          rw [List.length_cons]
          omega

theorem enqueue_append (held rows rows' queue : List α) :
    enqueue key cap held (rows ++ rows') queue =
      enqueue key cap held rows' (enqueue key cap held rows queue) :=
  List.foldl_append

theorem enqueue_cons (held rest queue : List α) (row : α) :
    enqueue key cap held (row :: rest) queue = enqueue key cap held rest
      (if hasKey key queue (key row) || hasKey key held (key row) then queue
        else (queue ++ [row]).drop ((queue ++ [row]).length - cap)) := rfl

/-- Rows whose keys wait already change nothing. -/
theorem enqueue_known (hknown : ∀ row ∈ rows, key row ∈ (held ++ queue).map key) :
    enqueue key cap held rows queue = queue := by
  induction rows with
  | nil => rfl
  | cons row rest ih =>
      have hrow := hknown row List.mem_cons_self
      rw [List.map_append, List.mem_append] at hrow
      have hhas : (hasKey key queue (key row) || hasKey key held (key row)) = true := by
        rw [Bool.or_eq_true, hasKey_iff, hasKey_iff]
        exact hrow.symm
      rw [enqueue_cons, hhas, if_pos rfl]
      exact ih fun row hmem => hknown row (List.mem_cons_of_mem _ hmem)

/-- Rows of new keys that have room enter as they are. -/
theorem enqueue_new (hkeys : ((held ++ queue ++ rows).map key).Nodup)
    (hroom : (queue ++ rows).length ≤ cap) :
    enqueue key cap held rows queue = queue ++ rows := by
  induction rows generalizing queue with
  | nil => rw [List.append_nil]; rfl
  | cons row rest ih =>
      have hsplit : held ++ queue ++ row :: rest = held ++ (queue ++ [row]) ++ rest := by
        rw [List.append_assoc, List.append_assoc, List.append_assoc, List.singleton_append]
      have hnew : key row ∉ (held ++ queue).map key := by
        rw [List.map_append, List.nodup_append] at hkeys
        intro hmem
        exact hkeys.2.2 _ hmem _ (List.mem_map_of_mem List.mem_cons_self) rfl
      rw [List.map_append, List.mem_append, not_or] at hnew
      have hhas : (hasKey key queue (key row) || hasKey key held (key row)) = false := by
        rw [Bool.or_eq_false_iff, hasKey_eq_false, hasKey_eq_false]
        exact hnew.symm
      have hlength : (queue ++ [row]).length ≤ cap := by
        rw [List.length_append, List.length_cons] at hroom
        rw [List.length_append, List.length_singleton]
        omega
      rw [enqueue_cons, hhas, if_neg Bool.false_ne_true, Nat.sub_eq_zero_of_le hlength,
        List.drop_zero, ih]
      · rw [List.append_assoc, List.singleton_append]
      · rw [← hsplit]
        exact hkeys
      · rw [List.append_assoc, List.singleton_append]
        exact hroom

/-- Rows whose keys begin as those of the queue begin, or go on after them, leave the queue or
append what goes on. -/
theorem enqueue_agree (hrows : (rows.map key).Nodup) (hlength : rows.length ≤ cap)
    (hagree : (held ++ queue).map key <+: rows.map key ∨ rows.map key <+: (held ++ queue).map key) :
    held ++ enqueue key cap held rows queue =
      held ++ queue ++ rows.drop (held ++ queue).length := by
  rcases hagree with hbegins | hknown
  · have hcount : (held ++ queue).length ≤ rows.length := by
      rw [← List.length_map key, ← @List.length_map _ _ rows key]
      exact hbegins.length_le
    have htake : (rows.take (held ++ queue).length).map key = (held ++ queue).map key := by
      rw [List.map_take, ← List.length_map key]
      exact (List.prefix_iff_eq_take.mp hbegins).symm
    have hfront : enqueue key cap held (rows.take (held ++ queue).length) queue = queue := by
      apply enqueue_known
      intro row hrow
      rw [← htake]
      exact List.mem_map_of_mem hrow
    have hback : enqueue key cap held (rows.drop (held ++ queue).length) queue =
        queue ++ rows.drop (held ++ queue).length := by
      apply enqueue_new
      · rw [List.map_append, ← htake, ← List.map_append, List.take_append_drop]
        exact hrows
      · rw [List.length_append, List.length_drop, List.length_append]
        rw [List.length_append] at hcount
        omega
    have hsplit := List.take_append_drop (held ++ queue).length rows
    calc held ++ enqueue key cap held rows queue
        = held ++ enqueue key cap held (rows.take (held ++ queue).length ++
            rows.drop (held ++ queue).length) queue := by rw [hsplit]
      _ = held ++ queue ++ rows.drop (held ++ queue).length := by
        rw [enqueue_append, hfront, hback, List.append_assoc]
  · have hcount : rows.length ≤ (held ++ queue).length := by
      rw [← List.length_map key, ← @List.length_map _ _ (held ++ queue) key]
      exact hknown.length_le
    rw [enqueue_known, List.drop_of_length_le hcount, List.append_nil]
    intro row hrow
    exact hknown.subset (List.mem_map_of_mem hrow)

end KeyedQueue
