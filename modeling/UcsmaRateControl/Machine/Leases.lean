import Mathlib.Logic.ExistsUnique

/-!
# Leases

Holders lease places from a table, any number of places each. The table only records which places
are in use; who has a place that is in use is recorded nowhere.

The account is in order (`Leased`) if the places in use are those that somebody has, and nobody has
a place of another. It stays in order if a holder that has none takes places that are not in use,
and if a holder gives back all it has; then a place is in use if and only if exactly one holder has
it.
-/

/-- The places in use are those that the holders have, none of them shared. -/
structure Leased {η ν : Type*} (used : ν → Prop) (held : η → ν → Prop) : Prop where
  unique : ∀ {h k v}, held h v → held k v → h = k
  used_iff : ∀ v, used v ↔ ∃ h, held h v

namespace Leased

variable {η ν : Type*} {used used' : ν → Prop} {held held' : η → ν → Prop} {h : η}
  {taken : ν → Prop}

/-- No place is in use. -/
theorem empty (hused : ∀ v, ¬used v) (hheld : ∀ h v, ¬held h v) : Leased used held :=
  ⟨fun {h _ v} hv ↦ absurd hv (hheld h v),
    fun v ↦ iff_of_false (hused v) fun ⟨h, hv⟩ ↦ hheld h v hv⟩

theorem congr (hl : Leased used held) (hused : ∀ v, used' v ↔ used v)
    (hheld : ∀ k v, held' k v ↔ held k v) : Leased used' held' := by
  obtain rfl : held' = held := funext fun k ↦ funext fun v ↦ propext (hheld k v)
  obtain rfl : used' = used := funext fun v ↦ propext (hused v)
  exact hl

/-- **A place in use has one holder.** -/
theorem used_iff_unique (hl : Leased used held) (v : ν) : used v ↔ ∃! h, held h v := by
  rw [hl.used_iff]
  exact ⟨fun ⟨h, hv⟩ ↦ ⟨h, hv, fun k hk ↦ hl.unique hk hv⟩, ExistsUnique.exists⟩

/-- A holder that has no place takes some that are not in use. -/
theorem take (hl : Leased used held) (hnone : ∀ v, ¬held h v) (hfree : ∀ v, taken v → ¬used v)
    (hused : ∀ v, used' v ↔ used v ∨ taken v) (hself : ∀ v, held' h v ↔ taken v)
    (hother : ∀ k, k ≠ h → ∀ v, held' k v ↔ held k v) : Leased used' held' := by
  have hnot : ∀ {k v}, held k v → k ≠ h := by
    rintro k v hk rfl
    exact hnone v hk
  have hnew : ∀ {k v}, k ≠ h → held' k v → ¬taken v := fun hkh hk hv ↦
    hfree _ hv ((hl.used_iff _).mpr ⟨_, (hother _ hkh _).mp hk⟩)
  refine ⟨fun {k l v} hk hl' ↦ ?_, fun v ↦ ?_⟩
  · by_cases hkh : k = h <;> by_cases hlh : l = h
    · exact hkh.trans hlh.symm
    · exact absurd ((hself v).mp (hkh ▸ hk)) (hnew hlh hl')
    · exact absurd ((hself v).mp (hlh ▸ hl')) (hnew hkh hk)
    · exact hl.unique ((hother k hkh v).mp hk) ((hother l hlh v).mp hl')
  · rw [hused, hl.used_iff]
    constructor
    · rintro (⟨k, hk⟩ | hv)
      · exact ⟨k, (hother k (hnot hk) v).mpr hk⟩
      · exact ⟨h, (hself v).mpr hv⟩
    · rintro ⟨k, hk⟩
      by_cases hkh : k = h
      · exact .inr ((hself v).mp (hkh ▸ hk))
      · exact .inl ⟨k, (hother k hkh v).mp hk⟩

/-- A holder gives back what it has. -/
theorem give (hl : Leased used held) (hused : ∀ v, used' v ↔ used v ∧ ¬held h v)
    (hself : ∀ v, ¬held' h v) (hother : ∀ k, k ≠ h → ∀ v, held' k v ↔ held k v) :
    Leased used' held' := by
  have hnot : ∀ {k v}, held' k v → k ≠ h := by
    rintro k v hk rfl
    exact hself v hk
  have hkept : ∀ {k v}, held' k v → held k v := fun hk ↦ (hother _ (hnot hk) _).mp hk
  refine ⟨fun hk hl' ↦ hl.unique (hkept hk) (hkept hl'), fun v ↦ ?_⟩
  rw [hused, hl.used_iff]
  constructor
  · rintro ⟨⟨k, hk⟩, hh⟩
    refine ⟨k, (hother k ?_ v).mpr hk⟩
    rintro rfl
    exact hh hk
  · rintro ⟨k, hk⟩
    exact ⟨⟨k, hkept hk⟩, fun hh ↦ hnot hk (hl.unique (hkept hk) hh)⟩

end Leased
