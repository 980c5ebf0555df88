import Mathlib.Data.Nat.Count

/-!
# Scattering bits over a mask

The bits of one sequence are put, in their order, into the places that another one marks: the first
goes to the lowest marked place, the second to the next, and those for which there is no place are
dropped. Gathering reads them back.

The bit that goes to a marked place is the one whose number is the count of the marked places below
(`scatter`). With as many bits as there are places the two operations are inverse to each other
(`gather_scatter`, `scatter_gather`), and no bit that has a place is lost (`count_scatter`).
-/

namespace Scatter

variable {p q m : ℕ → Bool} {j k n : ℕ}

/-- How many places are marked below the given one. -/
def rank (p : ℕ → Bool) (n : ℕ) : ℕ := Nat.count (fun i ↦ p i = true) n

/-- Put the bits of `q` into the places of `p`. -/
def scatter (p q : ℕ → Bool) (j : ℕ) : Bool := p j && q (rank p j)

/-- Read the places of `p` below `n`. -/
def gather (p m : ℕ → Bool) (n k : ℕ) : Bool :=
  (List.range n).any fun j ↦ p j && decide (rank p j = k) && m j

@[simp] theorem rank_zero (p : ℕ → Bool) : rank p 0 = 0 := Nat.count_zero _

theorem rank_succ (p : ℕ → Bool) (n : ℕ) : rank p (n + 1) = rank p n + if p n then 1 else 0 :=
  Nat.count_succ _ n

theorem rank_succ' (p : ℕ → Bool) (n : ℕ) :
    rank p (n + 1) = rank (fun i ↦ p (i + 1)) n + if p 0 then 1 else 0 := Nat.count_succ' _ n

theorem rank_le (p : ℕ → Bool) (n : ℕ) : rank p n ≤ n := Nat.count_le _

theorem rank_lt (hj : p j = true) (h : j < n) : rank p j < rank p n := Nat.count_strict_mono hj h

theorem rank_injective (hj : p j = true) (hk : p k = true) (h : rank p j = rank p k) : j = k :=
  Nat.count_injective hj hk h

/-- Every number that is small enough is that of a marked place. -/
theorem exists_rank (h : k < rank p n) : ∃ j < n, p j = true ∧ rank p j = k := by
  induction n with
  | zero => exact absurd h (Nat.not_lt_zero k)
  | succ n ih =>
    rcases Nat.lt_or_ge k (rank p n) with hlt | hge
    · obtain ⟨j, hj, hpj⟩ := ih hlt
      exact ⟨j, Nat.lt_succ_of_lt hj, hpj⟩
    · rw [rank_succ] at h
      split at h
      · rename_i hpn
        exact ⟨n, Nat.lt_succ_self n, hpn, Nat.le_antisymm hge (Nat.le_of_lt_succ h)⟩
      · exact absurd (Nat.lt_of_lt_of_le h hge) (Nat.lt_irrefl k)

theorem le_of_scatter (h : scatter p q j = true) : p j = true := (Bool.and_eq_true_iff.mp h).1

/-! ## Step by step -/

theorem scatter_zero (p q : ℕ → Bool) : scatter p q 0 = (p 0 && q 0) := by
  rw [scatter, rank_zero]

/-- A place that is marked takes the first of the bits. -/
theorem scatter_succ_of_mark (h : p 0 = true) (j : ℕ) :
    scatter p q (j + 1) = scatter (fun i ↦ p (i + 1)) (fun i ↦ q (i + 1)) j := by
  rw [scatter, scatter, rank_succ', if_pos h]

theorem scatter_succ_of_not (h : p 0 = false) (j : ℕ) :
    scatter p q (j + 1) = scatter (fun i ↦ p (i + 1)) q j := by
  rw [scatter, scatter, rank_succ', h]
  rfl

/-! ## Counting and reading back -/

/-- **Nothing that has a place is lost.** -/
theorem count_scatter (p q : ℕ → Bool) (n : ℕ) : rank (scatter p q) n = rank q (rank p n) := by
  induction n with
  | zero => simp
  | succ n ih =>
    rw [rank_succ, rank_succ, ih, scatter]
    cases p n with
    | false => rfl
    | true =>
      rw [if_pos rfl, rank_succ]
      rfl

theorem gather_eq_true :
    gather p m n k = true ↔ ∃ j < n, p j = true ∧ rank p j = k ∧ m j = true := by
  rw [gather, List.any_eq_true]
  simp only [List.mem_range, Bool.and_eq_true, decide_eq_true_iff, and_assoc]

/-- **What has been scattered is read back.** -/
theorem gather_scatter (h : k < rank p n) : gather p (scatter p q) n k = q k := by
  rw [Bool.eq_iff_iff, gather_eq_true]
  constructor
  · rintro ⟨j, -, -, rfl, hj⟩
    exact (Bool.and_eq_true_iff.mp hj).2
  · intro hk
    obtain ⟨j, hj, hpj, rfl⟩ := exists_rank h
    exact ⟨j, hj, hpj, rfl, Bool.and_eq_true_iff.mpr ⟨hpj, hk⟩⟩

/-- **What has been read is put back where it was.** -/
theorem scatter_gather (hm : ∀ j, m j = true → p j = true ∧ j < n) :
    scatter p (gather p m n) = m := by
  funext j
  rw [Bool.eq_iff_iff, scatter, Bool.and_eq_true_iff, gather_eq_true]
  constructor
  · rintro ⟨hj, k, -, hk, hkj, hmk⟩
    obtain rfl := rank_injective hk hj hkj
    exact hmk
  · intro hj
    exact ⟨(hm j hj).1, j, (hm j hj).2, (hm j hj).1, rfl, hj⟩

/-- What is read has no more bits than there are places. -/
theorem lt_of_gather (h : gather p m n k = true) : k < rank p n := by
  obtain ⟨j, hj, hpj, rfl, -⟩ := gather_eq_true.mp h
  exact rank_lt hpj hj

end Scatter
