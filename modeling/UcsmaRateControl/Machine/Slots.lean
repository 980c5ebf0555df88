import Mathlib.Data.Finset.Card
import Mathlib.Data.Fintype.Card
import Mathlib.Data.List.Nodup

/-!
# Slots

A table has a fixed number of slots. A holder that is entered takes a free one and remembers which,
and clears it when it leaves.

The table is in order (`Slotted`) if each holder has the slot it remembers, no other, and nobody
else has any. It stays in order as long as a newcomer finds a free slot. A table in order has no
more holders than slots, and as long as it has fewer, there is a free one.
-/

/-- Each holder has the slot that it remembers, and these are all that are taken. -/
def Slotted {n : ℕ} {η : Type*} (slot : Fin n → Option η) (place : η → Fin n)
    (holds : η → Prop) : Prop :=
  ∀ k h, slot k = some h ↔ holds h ∧ place h = k

namespace Slotted

variable {n : ℕ} {η : Type*} {slot : Fin n → Option η} {place place' : η → Fin n}
  {holds holds' : η → Prop} {h : η} {k : Fin n} {l : List η}

/-- No slot is taken. -/
theorem empty (hslot : ∀ k, slot k = none) (hholds : ∀ h, ¬holds h) :
    Slotted slot place holds := by
  intro k h
  rw [hslot k]
  exact iff_of_false nofun fun hk ↦ hholds h hk.1

theorem congr (hs : Slotted slot place holds) (hholds : ∀ h, holds' h ↔ holds h) :
    Slotted slot place holds' :=
  fun k h ↦ (hs k h).trans (and_congr_left fun _ ↦ (hholds h).symm)

/-- **A holder has one slot, and whoever has one is a holder.** -/
theorem holds_iff (hs : Slotted slot place holds) (h : η) :
    holds h ↔ ∃! k, slot k = some h := by
  constructor
  · intro hh
    exact ⟨place h, (hs _ h).mpr ⟨hh, rfl⟩, fun k hk ↦ ((hs k h).mp hk).2.symm⟩
  · rintro ⟨k, hk, -⟩
    exact ((hs k h).mp hk).1

/-- A newcomer takes a free slot. -/
theorem take [DecidableEq η] (hs : Slotted slot place holds) (hfree : slot k = none)
    (hnew : ¬holds h) (hholds : ∀ j, holds' j ↔ j = h ∨ holds j) :
    Slotted (Function.update slot k (some h)) (Function.update place h k) holds' := by
  intro m j
  rw [hholds]
  rcases eq_or_ne j h with rfl | hjh
  · rw [Function.update_self, and_iff_right (Or.inl rfl)]
    rcases eq_or_ne m k with rfl | hmk
    · rw [Function.update_self]
      exact iff_of_true rfl rfl
    · rw [Function.update_of_ne hmk, hs m j]
      exact iff_of_false (fun hm ↦ hnew hm.1) hmk.symm
  · rw [Function.update_of_ne hjh, or_iff_right hjh]
    rcases eq_or_ne m k with rfl | hmk
    · rw [Function.update_self, ← hs m j, hfree]
      exact iff_of_false (fun heq ↦ hjh (Option.some_inj.mp heq).symm) nofun
    · rw [Function.update_of_ne hmk, hs m j]

/-- A holder clears its slot. -/
theorem give (hs : Slotted slot place holds) (hh : holds h)
    (hholds : ∀ j, holds' j ↔ j ≠ h ∧ holds j) :
    Slotted (Function.update slot (place h) none) place holds' := by
  intro m j
  have hhas : slot (place h) = some h := (hs _ h).mpr ⟨hh, rfl⟩
  rw [hholds]
  rcases eq_or_ne m (place h) with rfl | hm
  · rw [Function.update_self]
    refine iff_of_false nofun ?_
    rintro ⟨⟨hjh, hj⟩, hplace⟩
    exact hjh (Option.some_inj.mp (((hs _ j).mpr ⟨hj, hplace⟩).symm.trans hhas))
  · rw [Function.update_of_ne hm, hs m j, and_assoc]
    refine (and_iff_right_of_imp ?_).symm
    rintro ⟨-, hplace⟩ rfl
    exact hm hplace.symm

/-- The slots that two holders remember differ. -/
theorem injOn (hs : Slotted slot place holds) : Set.InjOn place {h | holds h} := by
  intro h hh j hj heq
  have hhas : slot (place h) = some h := (hs _ h).mpr ⟨hh, rfl⟩
  exact Option.some_inj.mp (hhas.symm.trans ((hs _ j).mpr ⟨hj, heq.symm⟩))

variable [DecidablePred holds]

/-- **There are no more holders than slots.** -/
theorem countP_le (hs : Slotted slot place holds) (hl : l.Nodup) :
    l.countP (fun h ↦ decide (holds h)) ≤ n := by
  have hnodup : ((l.filter fun h ↦ decide (holds h)).map place).Nodup := by
    refine (hl.filter _).map_on fun h hh j hj ↦ hs.injOn ?_ ?_
    · exact of_decide_eq_true (List.mem_filter.mp hh).2
    · exact of_decide_eq_true (List.mem_filter.mp hj).2
  rw [List.countP_eq_length_filter, ← List.length_map place]
  exact hnodup.length_le_card.trans_eq (Fintype.card_fin n)

/-- **As long as there are fewer, one is free.** -/
theorem exists_free (hs : Slotted slot place holds) (hl : ∀ h, holds h → h ∈ l)
    (hlt : l.countP (fun h ↦ decide (holds h)) < n) : ∃ k, slot k = none := by
  by_contra! hall
  choose holder hholder using fun k ↦ Option.ne_none_iff_exists'.mp (hall k)
  have hinj : Function.Injective holder := by
    intro k m heq
    rw [← ((hs k _).mp (hholder k)).2, heq, ((hs m _).mp (hholder m)).2]
  have hsub : List.ofFn holder ⊆ l.filter fun h ↦ decide (holds h) := by
    intro h hh
    obtain ⟨k, rfl⟩ := List.mem_ofFn.mp hh
    have hk := ((hs k _).mp (hholder k)).1
    exact List.mem_filter.mpr ⟨hl _ hk, decide_eq_true hk⟩
  have hle := ((List.nodup_ofFn.mpr hinj).subperm hsub).length_le
  rw [List.length_ofFn, ← List.countP_eq_length_filter] at hle
  exact absurd hlt hle.not_gt

end Slotted
