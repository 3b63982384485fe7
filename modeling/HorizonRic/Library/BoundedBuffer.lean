import Mathlib.Data.List.Induction

/-!
A buffer of bounded length that drops its oldest entry when it is full, and what
a window at the end of the history becomes in it.
-/
namespace BoundedBuffer

variable {α : Type}

def push (bound : ℕ) (kept : List α) (a : α) : List α :=
  if kept.length < bound then kept ++ [a] else (kept ++ [a]).tail

/-- The last `bound` entries. -/
def latest (bound : ℕ) (all : List α) : List α := all.drop (all.length - bound)

theorem latest_of_le {bound : ℕ} {all : List α} (fits : all.length ≤ bound) :
    latest bound all = all := by
  unfold latest
  rw [Nat.sub_eq_zero_of_le fits, List.drop_zero]

theorem latest_length (bound : ℕ) (all : List α) :
    (latest bound all).length = min bound all.length := by
  unfold latest
  rw [List.length_drop]
  omega

theorem latest_append_of_le {bound : ℕ} {before after : List α} (full : bound ≤ after.length) :
    latest bound (before ++ after) = latest bound after := by
  unfold latest
  rw [List.length_append, Nat.add_sub_assoc full, ← List.drop_drop, List.drop_left]

theorem latest_append {bound : ℕ} {before after : List α} (room : after.length ≤ bound) :
    latest bound (before ++ after) = latest (bound - after.length) before ++ after := by
  unfold latest
  rw [List.drop_append_of_le_length (by rw [List.length_append]; omega), List.length_append]
  congr 2
  omega

theorem push_latest (bound : ℕ) (all : List α) (a : α) :
    push bound (latest bound all) a = latest bound (all ++ [a]) := by
  unfold push
  rw [latest_length]
  by_cases room : all.length < bound
  · rw [if_pos (by omega), latest_of_le (by omega), latest_of_le]
    rw [List.length_append, List.length_singleton]
    omega
  · rw [if_neg (by omega)]
    unfold latest
    rw [← List.drop_one, List.length_append, List.length_singleton,
      ← List.drop_append_of_le_length (by omega), List.drop_drop]
    congr 1
    omega

/-- What a buffer holds that was empty at first. -/
theorem foldl_push (bound : ℕ) (all : List α) : all.foldl (push bound) [] = latest bound all := by
  induction all using List.reverseRecOn with
  | nil => exact (latest_of_le (Nat.zero_le _)).symm
  | append_singleton all a ih =>
    rw [List.foldl_append, ih]
    exact push_latest bound all a

/-- A window that reaches to the end of the history: every entry after one of it is in it. -/
def ToTheEnd (window : α → Bool) (all : List α) : Prop :=
  all.Pairwise fun a b => window a = true → window b = true

theorem split_window {window : α → Bool} {all : List α} (toEnd : ToTheEnd window all) :
    all = all.filter (fun a => !window a) ++ all.filter window := by
  induction all with
  | nil => rfl
  | cons a all ih =>
    obtain ⟨later, rest⟩ := List.pairwise_cons.mp toEnd
    cases inside : window a with
    | false =>
      rw [List.filter_cons_of_pos (by simp [inside]), List.filter_cons_of_neg (by simp [inside])]
      exact congrArg (a :: ·) (ih rest)
    | true =>
      have all_ : ∀ b ∈ all, window b = true := fun b member => later b member inside
      have none_ : all.filter (fun b => !window b) = [] :=
        List.filter_eq_nil_iff.mpr fun b member => by simp [all_ b member]
      rw [List.filter_cons_of_neg (by simp [inside]), List.filter_cons_of_pos inside, none_,
        List.filter_eq_self.mpr all_]
      rfl

/-- The buffer holds the last entries of the window. -/
theorem latest_filter {window : α → Bool} {all : List α} (toEnd : ToTheEnd window all)
    (bound : ℕ) : (latest bound all).filter window = latest bound (all.filter window) := by
  have inside : ∀ a ∈ all.filter window, window a = true := fun a member =>
    (List.mem_filter.mp member).2
  have outside : ∀ a ∈ all.filter (fun a => !window a), ¬window a = true := fun a member => by
    simpa using (List.mem_filter.mp member).2
  conv_lhs => rw [split_window toEnd]
  by_cases full : bound ≤ (all.filter window).length
  · rw [latest_append_of_le full]
    exact List.filter_eq_self.mpr fun a member => inside a (List.mem_of_mem_drop member)
  · have dropped : (latest (bound - (all.filter window).length)
        (all.filter fun a => !window a)).filter window = [] :=
      List.filter_eq_nil_iff.mpr fun a member => outside a (List.mem_of_mem_drop member)
    rw [latest_append (by omega), List.filter_append, dropped, List.nil_append,
      List.filter_eq_self.mpr inside, latest_of_le (by omega)]

end BoundedBuffer
