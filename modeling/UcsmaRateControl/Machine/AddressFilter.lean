import Mathlib.Order.BooleanAlgebra.Basic
import Mathlib.Order.SymmDiff

/-!
# Address filters

A filter is a base and a mask: it accepts the addresses that agree with the base on the mask. To let
several addresses through, start from the first of them and the full mask, and take out of the mask
what the others differ in from the base.

Addresses and masks live in an arbitrary Boolean algebra. There the mask found in this way is the
largest that lets all the addresses through (`le_narrowAll_iff`), whatever their order, and every
other filter that lets them through accepts whatever this one accepts (`Accepts.of_narrowAll`).
-/

namespace AddressFilter

variable {α : Type*} [BooleanAlgebra α] {base mask m a b : α} {as : List α}

open scoped symmDiff

/-- The address agrees with the base on the mask. -/
def Accepts (base mask a : α) : Prop := a ⊓ mask = base ⊓ mask

/-- Take out of the mask what the address differs in from the base. -/
def narrow (base mask a : α) : α := mask ⊓ (base ∆ a)ᶜ

/-- Take out of the mask what any of the addresses differs in from the base. -/
def narrowAll (base mask : α) (as : List α) : α := as.foldl (narrow base) mask

@[simp] theorem accepts_self : Accepts base mask base := rfl

theorem Accepts.symm (h : Accepts base mask a) : Accepts a mask base := Eq.symm h

theorem Accepts.trans (hab : Accepts a mask b) (hba : Accepts base mask a) :
    Accepts base mask b := Eq.trans hab hba

theorem Accepts.mono (h : Accepts base mask a) (hm : m ≤ mask) : Accepts base m a := by
  have hcut : ∀ x : α, x ⊓ m = x ⊓ mask ⊓ m := fun x ↦ by
    rw [inf_assoc, inf_eq_right.mpr hm]
  rw [Accepts, hcut a, hcut base, h]

/-- **Acceptance is a bound on the mask.** -/
theorem accepts_iff_le : Accepts base mask a ↔ mask ≤ (base ∆ a)ᶜ := by
  rw [le_compl_iff_disjoint_right, disjoint_iff, Accepts, inf_comm mask, inf_symmDiff_distrib_right,
    symmDiff_eq_bot]
  exact eq_comm

theorem le_narrow_iff : m ≤ narrow base mask a ↔ m ≤ mask ∧ Accepts base m a := by
  rw [narrow, le_inf_iff, accepts_iff_le]

/-- **The largest mask.** -/
theorem le_narrowAll_iff :
    m ≤ narrowAll base mask as ↔ m ≤ mask ∧ ∀ a ∈ as, Accepts base m a := by
  induction as generalizing mask with
  | nil => simp [narrowAll]
  | cons a as ih =>
    have hcons : narrowAll base mask (a :: as) = narrowAll base (narrow base mask a) as := rfl
    rw [hcons, ih, le_narrow_iff, List.forall_mem_cons, and_assoc]

theorem accepts_of_mem_narrowAll (ha : a ∈ as) : Accepts base (narrowAll base mask as) a :=
  (le_narrowAll_iff.mp le_rfl).2 a ha

/-- **The tightest filter.** Every filter that lets the base and the addresses through accepts what
the narrowed one accepts. -/
theorem Accepts.of_narrowAll {x : α} (hx : Accepts base (narrowAll base ⊤ as) x)
    (hbase : Accepts b m base) (has : ∀ a ∈ as, Accepts b m a) : Accepts b m x := by
  have hm : m ≤ narrowAll base ⊤ as :=
    le_narrowAll_iff.mpr ⟨le_top, fun a ha ↦ (has a ha).trans hbase.symm⟩
  exact (hx.mono hm).trans hbase

end AddressFilter
