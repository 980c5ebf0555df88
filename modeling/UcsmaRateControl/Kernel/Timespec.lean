import Mathlib.Algebra.Order.Ring.Int
import Mathlib.Tactic.Linarith

/-!
# Normalised time stamps

A `struct timespec` holds seconds and nanoseconds. The kernel keeps every value it hands out
normalised, with the nanoseconds in `[0, 10⁹)`; here that bound is a field, so an unnormalised stamp
cannot be written down.

Seconds are an integer. On a 32-bit target `time_t` is a `long`, and a clock that does not decrease
stays inside its non-negative half, where the subtraction below does not overflow.
-/

/-- A normalised time stamp. -/
structure Timespec where
  /-- Seconds. -/
  tvSec : ℤ
  /-- Nanoseconds within the second. -/
  tvNsec : ℕ
  /-- The stamp is normalised. -/
  tvNsec_lt : tvNsec < 1000000000
deriving DecidableEq

namespace Timespec

/-- The stamp as a number of nanoseconds. -/
def toNs (t : Timespec) : ℤ := t.tvSec * 1000000000 + t.tvNsec

/-- The reading of a clock that stands at `n` nanoseconds. -/
def ofNs (n : ℕ) : Timespec := ⟨n / 1000000000, n % 1000000000, Nat.mod_lt _ (by decide)⟩

instance : Zero Timespec := ⟨⟨0, 0, by decide⟩⟩

/-- Stamps are compared seconds first. -/
instance : LE Timespec := ⟨fun a b ↦ a.tvSec < b.tvSec ∨ a.tvSec = b.tvSec ∧ a.tvNsec ≤ b.tvNsec⟩

instance (a b : Timespec) : Decidable (a ≤ b) :=
  inferInstanceAs (Decidable (a.tvSec < b.tvSec ∨ a.tvSec = b.tvSec ∧ a.tvNsec ≤ b.tvNsec))

@[simp] theorem toNs_zero : (0 : Timespec).toNs = 0 := rfl

@[simp] theorem toNs_ofNs (n : ℕ) : (ofNs n).toNs = n := by
  simp only [toNs, ofNs]
  omega

theorem toNs_injective : Function.Injective toNs := by
  rintro ⟨s, n, hn⟩ ⟨s', n', hn'⟩ h
  simp only [toNs] at h
  obtain ⟨rfl, rfl⟩ : s = s' ∧ n = n' := by omega
  rfl

theorem le_iff_toNs {a b : Timespec} : a ≤ b ↔ a.toNs ≤ b.toNs := by
  have ha := a.tvNsec_lt
  have hb := b.tvNsec_lt
  change a.tvSec < b.tvSec ∨ a.tvSec = b.tvSec ∧ a.tvNsec ≤ b.tvNsec ↔ _
  simp only [toNs]
  omega

/-- The seconds vanish exactly on the stamps of the first second. -/
theorem tvSec_eq_zero_iff {t : Timespec} : t.tvSec = 0 ↔ 0 ≤ t.toNs ∧ t.toNs < 1000000000 := by
  have ht := t.tvNsec_lt
  simp only [toNs]
  omega

theorem tvNsec_eq_toNs {t : Timespec} (h : t.tvSec = 0) : (t.tvNsec : ℤ) = t.toNs := by
  rw [toNs, h]
  omega

/-- The nanoseconds as they enter a comparison with a `u32`: the `long` is converted to unsigned. -/
def nsecU32 (t : Timespec) : UInt32 := UInt32.ofNat t.tvNsec

@[simp] theorem toNat_nsecU32 (t : Timespec) : t.nsecU32.toNat = t.tvNsec := by
  have ht := t.tvNsec_lt
  rw [nsecU32, UInt32.toNat_ofNat']
  omega

end Timespec

/-! ## Subtraction -/

/-- `set_normalized_timespec`: carry the nanoseconds into the seconds. -/
def setNormalizedTimespec (sec nsec : ℤ) : Timespec :=
  ⟨sec + nsec / 1000000000, (nsec % 1000000000).toNat, by omega⟩

/-- `timespec_sub`. -/
def timespecSub (lhs rhs : Timespec) : Timespec :=
  setNormalizedTimespec (lhs.tvSec - rhs.tvSec) (lhs.tvNsec - rhs.tvNsec)

@[simp] theorem toNs_timespecSub (lhs rhs : Timespec) :
    (timespecSub lhs rhs).toNs = lhs.toNs - rhs.toNs := by
  simp only [timespecSub, setNormalizedTimespec, Timespec.toNs]
  omega
