import Mathlib.Algebra.Order.Group.Defs
import Mathlib.Algebra.Order.Monoid.Defs
import Mathlib.Data.List.Pairwise
import Mathlib.Order.Lattice
import UcsmaRateControl.Machine.Run

/-!
# Refractory gates

A gate remembers when it last opened. It opens for an arrival at `t` if `t` is at least `lo` and
less than `hi` past that moment, and forgets every other arrival. The lower bound makes it
refractory: it does not open twice within `lo`. The upper bound makes it mortal: once `hi` has
passed in silence, no arrival opens it any more.

Times live in an arbitrary linearly ordered additive group, and the lower bound may differ from one
arrival to the next.
-/

namespace Gate

variable {α : Type*} [AddCommGroup α] [LinearOrder α] [IsOrderedAddMonoid α]

/-! ## One arrival -/

/-- A gate that last opened at `last` opens for an arrival at `t`. -/
def Opens (lo hi last t : α) : Prop := last + lo ≤ t ∧ t < last + hi

instance (lo hi last t : α) : Decidable (Opens lo hi last t) := inferInstanceAs (Decidable (_ ∧ _))

variable {lo hi last t now a b d : α}

/-- **Mortality, exactly.** Some arrival from `now` on opens the gate if and only if less than `hi`
has passed since it last opened. -/
theorem exists_opens_iff (hlohi : lo < hi) :
    (∃ t, now ≤ t ∧ Opens lo hi last t) ↔ now < last + hi := by
  constructor
  · rintro ⟨t, hnow, -, ht⟩
    exact hnow.trans_lt ht
  · intro h
    refine ⟨max now (last + lo), le_max_left _ _, le_max_right _ _, max_lt h ?_⟩
    exact add_lt_add_of_le_of_lt le_rfl hlohi

omit [IsOrderedAddMonoid α] in
theorem Opens.not_of_le (h : last + hi ≤ t) : ¬Opens lo hi last t := fun ho ↦ ho.2.not_ge h

/-! ## Spaced lists -/

/-- The times of the list, newest first, are at least `d` apart. -/
def Spaced (d : α) (l : List α) : Prop := l.Pairwise fun x y ↦ y + d ≤ x

theorem Spaced.cons_cons {l : List α} (hd : 0 ≤ d) (hl : Spaced d (last :: l))
    (ht : last + d ≤ t) : Spaced d (t :: last :: l) := by
  refine List.pairwise_cons.mpr ⟨fun x hx ↦ ?_, hl⟩
  rcases List.mem_cons.mp hx with rfl | hx
  · exact ht
  · calc x + d ≤ last := (List.pairwise_cons.mp hl).1 x hx
      _ ≤ last + d := le_add_of_nonneg_right hd
      _ ≤ t := ht

/-- **A short window holds at most one of them.** -/
theorem Spaced.length_le_one {l : List α} (hl : Spaced d l) (hwin : ∀ x ∈ l, a ≤ x ∧ x ≤ b)
    (hshort : b < a + d) : l.length ≤ 1 := by
  match l, hl, hwin with
  | [], _, _ => exact Nat.zero_le 1
  | [_], _, _ => exact le_rfl
  | x :: y :: l, hl, hwin =>
    have hxy : y + d ≤ x := (List.pairwise_cons.mp hl).1 y List.mem_cons_self
    have hx : x ≤ b := (hwin x List.mem_cons_self).2
    have hy : a ≤ y := (hwin y (List.mem_cons_of_mem x List.mem_cons_self)).1
    exact absurd hshort ((add_le_add_left hy d).trans (hxy.trans hx)).not_gt

/-! ## The gate as a machine -/

/-- The memory of a gate, with the history of its openings. -/
structure State (α : Type*) where
  /-- The last opening. -/
  last : α
  /-- The one before. -/
  prev : α
  /-- The openings since the start, newest first. -/
  opened : List α

/-- A gate with upper bound `hi`. A label is the lower bound in force and the time of arrival. -/
def machine (hi : α) : Machine (State α) (α × α) where
  step s p :=
    some (if Opens p.1 hi s.last p.2 then ⟨p.2, s.last, p.2 :: s.opened⟩ else s)

omit [IsOrderedAddMonoid α] in
/-- **The two stamps are the ends of the history**, the initial ones included. -/
theorem machine_stamps {last prev : α} {s : State α} {ps : List (α × α)}
    (h : (machine hi).run ⟨last, prev, []⟩ ps = some s) :
    ∃ rest, s.opened ++ [last, prev] = s.last :: s.prev :: rest := by
  refine Machine.invariant
    (P := fun s : State α ↦ ∃ rest, s.opened ++ [last, prev] = s.last :: s.prev :: rest)
    ?_ ⟨[], rfl⟩ h
  rintro s p t ⟨rest, hrest⟩ hst
  obtain rfl := Option.some_inj.mp hst
  by_cases ho : Opens p.1 hi s.last p.2
  · rw [if_pos ho]
    exact ⟨s.prev :: rest, by rw [List.cons_append, hrest]⟩
  · rw [if_neg ho]
    exact ⟨rest, hrest⟩

omit [IsOrderedAddMonoid α] in
/-- Once the gate has opened, its last two openings are less than the upper bound apart. -/
theorem machine_recent {last prev : α} {s : State α} {ps : List (α × α)}
    (h : (machine hi).run ⟨last, prev, []⟩ ps = some s) :
    s.opened = [] ∨ s.last < s.prev + hi := by
  refine Machine.invariant (P := fun s : State α ↦ s.opened = [] ∨ s.last < s.prev + hi)
    ?_ (.inl rfl) h
  intro s p t hs hst
  obtain rfl := Option.some_inj.mp hst
  by_cases ho : Opens p.1 hi s.last p.2
  · rw [if_pos ho]
    exact .inr ho.2
  · rw [if_neg ho]
    exact hs

/-- **Refractoriness.** With a fixed lower bound the openings are that far apart, the one before the
start included. -/
theorem machine_spaced {last prev : α} {s : State α} {ps : List (α × α)} (hd : 0 ≤ d)
    (hlo : ∀ p ∈ ps, p.1 = d) (h : (machine hi).run ⟨last, prev, []⟩ ps = some s) :
    Spaced d (s.opened ++ [last]) := by
  -- the last opening is the head of the list, so the next one only has to keep away from it
  have hinv : Spaced d (s.opened ++ [last]) ∧ ∃ rest, s.opened ++ [last] = s.last :: rest := by
    refine Machine.invariant_of_meets (C := fun _ p ↦ p.1 = d)
      (P := fun s : State α ↦
        Spaced d (s.opened ++ [last]) ∧ ∃ rest, s.opened ++ [last] = s.last :: rest)
      ?_ ?_ (Machine.meets_of_forall hlo) h
    · rintro s p t ⟨hs, rest, hrest⟩ rfl hst
      obtain rfl := Option.some_inj.mp hst
      by_cases ho : Opens p.1 hi s.last p.2
      · rw [if_pos ho]
        refine ⟨?_, rest.cons s.last, by rw [List.cons_append, hrest]⟩
        rw [hrest] at hs
        rw [List.cons_append, hrest]
        exact hs.cons_cons hd ho.1
      · rw [if_neg ho]
        exact ⟨hs, rest, hrest⟩
    · exact ⟨List.pairwise_singleton _ last, [], rfl⟩
  exact hinv.1

omit [IsOrderedAddMonoid α] in
/-- **A gate that has died stays dead.** -/
theorem machine_dead {s t : State α} {ps : List (α × α)} (hdead : ∀ p ∈ ps, s.last + hi ≤ p.2)
    (h : (machine hi).run s ps = some t) : t = s := by
  refine Machine.invariant_of_meets (C := fun _ p ↦ s.last + hi ≤ p.2)
    (P := fun t : State α ↦ t = s) ?_ rfl (Machine.meets_of_forall hdead) h
  rintro u p v rfl hp huv
  obtain rfl := Option.some_inj.mp huv
  exact if_neg (Opens.not_of_le hp)

end Gate
