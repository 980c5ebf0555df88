import Mathlib.Data.Nat.Notation

/-!
# Records of aligned fields

Fields are laid out one after the other, each at the next multiple of its alignment, until one does
not fit.
-/

/-- The least multiple of `a` from `x` on. -/
def alignUp (a x : ℕ) : ℕ := if x % a = 0 then x else x + (a - x % a)

theorem alignUp_of_mod_eq_zero {a x : ℕ} (h : x % a = 0) : alignUp a x = x := if_pos h

theorem le_alignUp {a x : ℕ} : x ≤ alignUp a x := by
  rw [alignUp]
  split
  · exact Nat.le_refl x
  · exact Nat.le_add_right x _

section Layout

variable {ι : Type*} (align size : ι → ℕ) (limit : ℕ)

/-- The fields that fit into a record which ends at `limit`, each with its offset, and whether all
of them do. -/
def layout : ℕ → List ι → List (ι × ℕ) × Bool
  | _, [] => ([], true)
  | off, i :: is =>
    if alignUp (align i) off + size i ≤ limit then
      let rest := layout (alignUp (align i) off + size i) is
      ((i, alignUp (align i) off) :: rest.1, rest.2)
    else ([], false)

variable {align size limit} {off : ℕ} {i : ι} {is : List ι}

theorem layout_cons_of_le (h : alignUp (align i) off + size i ≤ limit) :
    layout align size limit off (i :: is) =
      ((i, alignUp (align i) off) ::
        (layout align size limit (alignUp (align i) off + size i) is).1,
        (layout align size limit (alignUp (align i) off + size i) is).2) :=
  if_pos h

theorem layout_cons_of_lt (h : limit < alignUp (align i) off + size i) :
    layout align size limit off (i :: is) = ([], false) :=
  if_neg (Nat.not_le.mpr h)

end Layout
