import Mathlib.Data.Nat.Basic
import Mathlib.Tactic.Ring

/-!
# High-resolution timers

A timer is either pending, due at `expires`, or not. Starting and cancelling it are determined by
their documentation. Forwarding is not: the kernel promises only that the new expiry lies past the
current time, at a whole number of intervals from the old one, so `hrtimer_forward_now` is a
parameter of the development, together with the time that `udelay(1)` spins for.
-/

/-- A high-resolution timer. -/
structure Hrtimer where
  /-- The time at which it is due, in nanoseconds. -/
  expires : ℕ
  /-- Whether it is queued. -/
  pending : Bool
deriving DecidableEq

/-- What a timer callback tells the kernel to do with its timer. -/
inductive HrtimerRestart
  | noRestart
  | restart
deriving DecidableEq

/-- `hrtimer_start` in relative mode, at clock time `now`. -/
def hrtimerStart (now ns : ℕ) : Hrtimer := ⟨now + ns, true⟩

@[simp] theorem hrtimerStart_expires (now ns : ℕ) : (hrtimerStart now ns).expires = now + ns := rfl

@[simp] theorem hrtimerStart_inj {now a b : ℕ} :
    hrtimerStart now a = hrtimerStart now b ↔ a = b := by
  simp [hrtimerStart]

/-- `hrtimer_cancel`: the timer leaves the queue and its callback is not running. -/
def hrtimerCancel (t : Hrtimer) : Hrtimer := { t with pending := false }

/-- What is relied on of the kernel's timer service. -/
structure Kernel where
  /-- The expiry that `hrtimer_forward_now` leaves, from the old one, the clock and the interval. -/
  forward : ℕ → ℕ → ℕ → ℕ
  /-- The new expiry is past the clock. -/
  lt_forward : ∀ expires now interval, now < forward expires now interval
  /-- It is a whole number of intervals past an expiry that has been reached. -/
  forward_eq : ∀ expires now interval, 0 < interval → expires ≤ now →
    ∃ k, forward expires now interval = expires + k * interval
  /-- The nanoseconds that `udelay(1)` takes at least. -/
  udelay1 : ℕ

namespace Kernel

variable (K : Kernel)

/-- `hrtimer_forward_now`. -/
def hrtimerForwardNow (t : Hrtimer) (now interval : ℕ) : Hrtimer :=
  { t with expires := K.forward t.expires now interval }

/-- A forwarded expiry lies at least one interval past the old one. -/
theorem add_le_forward {expires now interval : ℕ} (hi : 0 < interval) (he : expires ≤ now) :
    expires + interval ≤ K.forward expires now interval := by
  obtain ⟨k, hk⟩ := K.forward_eq expires now interval hi he
  have hlt := K.lt_forward expires now interval
  have hk0 : k ≠ 0 := by
    rintro rfl
    omega
  rw [hk]
  exact Nat.add_le_add_left (Nat.le_mul_of_pos_left _ (Nat.pos_of_ne_zero hk0)) _

/-- The smallest multiple past the clock, with intervals of zero raised to the timer's resolution of
one nanosecond, and a `udelay(1)` of exactly one microsecond. -/
def linux : Kernel where
  forward expires now interval :=
    if now < expires then expires
    else expires + ((now - expires) / max interval 1 + 1) * max interval 1
  lt_forward expires now interval := by
    split
    · assumption
    · have hpos : 0 < max interval 1 := by omega
      have hlt := Nat.lt_mul_div_succ (now - expires) hpos
      rw [Nat.mul_comm] at hlt
      omega
  forward_eq expires now interval hi he := by
    refine ⟨(now - expires) / interval + 1, ?_⟩
    rw [if_neg (by omega), Nat.max_eq_left hi]
  udelay1 := 1000

end Kernel
