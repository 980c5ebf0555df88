import Mathlib.Algebra.Order.Ring.Nat
import Mathlib.Data.List.Induction
import Mathlib.Order.Bounds.Basic

/-!
# Statistics that are kept while numbers come in

The count, the mean, the least and the greatest of the numbers so far, each computed from its old
value and the number that comes in. The mean is divided with truncation every time. The least number
has no value of its own for "none so far", and takes zero for it.

What that costs is exact. The mean drifts, but never leaves the range of the numbers (`le_mean`,
`mean_le`). The least number is right until a zero comes in, and from then on only as long as
nothing but zeros follow (`isLeast_min_iff`).
-/

/-- The statistics so far. -/
structure RunningStats where
  count : ℕ
  mean : ℕ
  min : ℕ
  max : ℕ

namespace RunningStats

/-- Before any number has come in. -/
def start : RunningStats := ⟨0, 0, 0, 0⟩

/-- A number comes in. -/
def push (s : RunningStats) (x : ℕ) : RunningStats where
  count := s.count + 1
  mean := (s.mean * s.count + x) / (s.count + 1)
  min := if x < s.min ∨ s.min = 0 then x else s.min
  max := if s.max < x then x else s.max

/-- The statistics of a list of numbers. -/
def ofList (xs : List ℕ) : RunningStats := xs.foldl push start

variable {xs : List ℕ} {x lo hi : ℕ}

@[simp] theorem ofList_concat : ofList (xs ++ [x]) = (ofList xs).push x := by
  rw [ofList, List.foldl_append]
  rfl

@[simp] theorem count_ofList : (ofList xs).count = xs.length := by
  induction xs using List.reverseRecOn with
  | nil => rfl
  | append_singleton xs x ih =>
    rw [ofList_concat, List.length_append, List.length_singleton, ← ih]
    rfl

/-! ## The greatest number -/

theorem max_concat : (ofList (xs ++ [x])).max = Max.max (ofList xs).max x := by
  rw [ofList_concat, push]
  dsimp only
  split
  · exact (max_eq_right (Nat.le_of_lt ‹_›)).symm
  · exact (max_eq_left (not_lt.mp ‹_›)).symm

theorem le_max (h : x ∈ xs) : x ≤ (ofList xs).max := by
  induction xs using List.reverseRecOn with
  | nil => exact absurd h List.not_mem_nil
  | append_singleton xs y ih =>
    rw [max_concat]
    rcases List.mem_append.mp h with h | h
    · exact (ih h).trans (le_max_left _ _)
    · exact (List.mem_singleton.mp h).le.trans (le_max_right _ _)

theorem isGreatest_max (h : xs ≠ []) : IsGreatest {x | x ∈ xs} (ofList xs).max := by
  refine ⟨?_, fun x hx ↦ le_max hx⟩
  induction xs using List.reverseRecOn with
  | nil => exact absurd rfl h
  | append_singleton xs y ih =>
    change (ofList (xs ++ [y])).max ∈ xs ++ [y]
    rw [max_concat]
    rcases eq_or_ne xs [] with rfl | hne
    · exact List.mem_singleton.mpr (Nat.zero_max y)
    · rcases max_choice (ofList xs).max y with hmax | hmax
      · exact hmax.symm ▸ List.mem_append_left _ (ih hne)
      · exact hmax.symm ▸ List.mem_append_right _ (List.mem_singleton_self y)

/-! ## The least number -/

theorem min_concat : (ofList (xs ++ [x])).min =
    if x < (ofList xs).min ∨ (ofList xs).min = 0 then x else (ofList xs).min := by
  rw [ofList_concat, push]

/-- The value that stands for "none so far" shows exactly after a zero. -/
theorem min_concat_eq_zero : (ofList (xs ++ [x])).min = 0 ↔ x = 0 := by
  rw [min_concat]
  split_ifs with h
  · rfl
  · omega

theorem min_mem (h : xs ≠ []) : (ofList xs).min ∈ xs := by
  induction xs using List.reverseRecOn with
  | nil => exact absurd rfl h
  | append_singleton xs y ih =>
    rw [min_concat]
    split_ifs with hlt
    · exact List.mem_append_right _ (List.mem_singleton_self y)
    · refine List.mem_append_left _ (ih ?_)
      rintro rfl
      exact hlt (.inr rfl)

/-- Until a zero comes in, the least number is right. -/
theorem min_le (hzero : 0 ∉ xs) (h : x ∈ xs) : (ofList xs).min ≤ x := by
  induction xs using List.reverseRecOn with
  | nil => exact absurd h List.not_mem_nil
  | append_singleton xs y ih =>
    have hzero' : 0 ∉ xs := fun hmem ↦ hzero (List.mem_append_left _ hmem)
    rw [min_concat]
    rcases List.mem_append.mp h with h | h
    · have hle := ih hzero' h
      have hne : (ofList xs).min ≠ 0 := by
        intro heq
        exact hzero' (heq ▸ min_mem (List.ne_nil_of_mem h))
      split_ifs with hlt
      · omega
      · exact hle
    · obtain rfl := List.mem_singleton.mp h
      split_ifs with hlt
      · exact le_rfl
      · omega

/-- **When the least number is right.** -/
theorem isLeast_min_iff (h : xs ≠ []) :
    IsLeast {x | x ∈ xs} (ofList xs).min ↔ (0 ∈ xs → xs.getLast? = some 0) := by
  have hlast : (ofList xs).min = 0 ↔ xs.getLast? = some 0 := by
    obtain ⟨ys, y, rfl⟩ := List.eq_nil_or_concat xs |>.resolve_left h
    rw [List.concat_eq_append, min_concat_eq_zero, List.getLast?_concat, Option.some_inj]
  rw [← hlast]
  constructor
  · exact fun hleast hmem ↦ Nat.le_zero.mp (hleast.2 hmem)
  · intro hzero
    refine ⟨min_mem h, fun x hx ↦ ?_⟩
    by_cases hmem : 0 ∈ xs
    · exact (hzero hmem).le.trans x.zero_le
    · exact min_le hmem hx

/-! ## The mean -/

theorem mean_concat : (ofList (xs ++ [x])).mean =
    ((ofList xs).mean * xs.length + x) / (xs.length + 1) := by
  rw [ofList_concat, push, count_ofList]

/-- The mean never falls below the numbers. -/
theorem le_mean (hne : xs ≠ []) (h : ∀ x ∈ xs, lo ≤ x) : lo ≤ (ofList xs).mean := by
  induction xs using List.reverseRecOn with
  | nil => exact absurd rfl hne
  | append_singleton xs y ih =>
    have hy : lo ≤ y := h y (List.mem_append_right _ (List.mem_singleton_self y))
    rw [mean_concat, Nat.le_div_iff_mul_le (Nat.succ_pos _), Nat.mul_succ]
    rcases eq_or_ne xs [] with rfl | hne
    · exact Nat.add_le_add (Nat.zero_le _) hy
    · have hmean := ih hne fun x hx ↦ h x (List.mem_append_left _ hx)
      exact Nat.add_le_add (Nat.mul_le_mul_right _ hmean) hy

/-- It never rises above them. -/
theorem mean_le (h : ∀ x ∈ xs, x ≤ hi) : (ofList xs).mean ≤ hi := by
  induction xs using List.reverseRecOn with
  | nil => exact Nat.zero_le hi
  | append_singleton xs y ih =>
    have hy : y ≤ hi := h y (List.mem_append_right _ (List.mem_singleton_self y))
    have hmean := ih fun x hx ↦ h x (List.mem_append_left _ hx)
    rw [mean_concat]
    refine Nat.div_le_of_le_mul ?_
    rw [Nat.succ_mul, mul_comm xs.length]
    exact Nat.add_le_add (Nat.mul_le_mul_right _ hmean) hy

end RunningStats
