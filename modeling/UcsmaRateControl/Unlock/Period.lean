import UcsmaRateControl.Unlock.Pulses

/-!
# The arithmetic of the period

An accepted pulse sets the timer to the period, lengthened or shortened by one draw, less the time
slept by the other. All of it happens in unsigned 32-bit arithmetic, so the delay is the intended
number only modulo `2 ^ 32` (`rearmDelay_eq_emod`). From that come the exact limits of the clamp and
of the parameters. The choice between lengthening and shortening, on the other hand, is right
wherever it is made: the debounce test lets no stamps in that could mislead it.
-/

namespace UcsmaRateControl

variable {K : Kernel} {s t : Node} {e : Event} {es : List Event} {i : InitInput}

namespace Globals

variable (g : Globals) (j : IrqInput)

/-- The test of line 163: the period is lengthened. -/
def Lengthens : Prop :=
  let diff := timespecSub g.lastUnlock g.lastUnlock2nd
  diff.tvSec ≠ 0 ∨ diff.nsecU32 ≤ g.T * 1000

instance : Decidable g.Lengthens := inferInstanceAs (Decidable (_ ∨ _))

theorem period_eq (rng : UInt32) :
    g.period rng = if g.Lengthens then g.T + rng else g.T - rng := rfl

/-- The period that a pulse should set, in microseconds, as an integer. -/
def nominal : ℤ :=
  if g.Lengthens then g.T.toNat + (g.rngOf j).toNat else g.T.toNat - (g.rngOf j).toNat

/-- What remains of the period after the backoff, in microseconds, as an integer. -/
def remainder : ℤ := g.nominal j - (g.backoffOf j).toNat

/-! ## The delay, modulo `2 ^ 32` -/

/-- **The delay in general.** It is right modulo `2 ^ 32`, whatever the parameters and the draws. -/
theorem rearmDelay_eq_emod : (g.rearmDelay j : ℤ) = 1000 * g.remainder j % 2 ^ 32 := by
  have hthousand : (1000 : UInt32).toNat = 1000 := rfl
  have hdelay : g.rearmDelay j = ((g.period (g.rngOf j) - g.backoffOf j) * 1000).toNat := by
    rw [rearmDelay, clampTimer_eq]
    rfl
  have hbackoff := (g.backoffOf j).toNat_lt
  have hrng := (g.rngOf j).toNat_lt
  have hT := g.T.toNat_lt
  rw [hdelay, UInt32.toNat_mul, UInt32.toNat_sub, hthousand, remainder, nominal, period_eq]
  split
  · rw [UInt32.toNat_add]
    omega
  · rw [UInt32.toNat_sub]
    omega

/-- While nothing wraps around, the delay is the remainder. -/
theorem rearmDelay_eq (h0 : 0 ≤ g.remainder j) (hlt : 1000 * g.remainder j < 2 ^ 32) :
    (g.rearmDelay j : ℤ) = 1000 * g.remainder j := by
  rw [rearmDelay_eq_emod, Int.emod_eq_of_lt (Int.mul_nonneg (by decide) h0) hlt]

end Globals

/-! ## The clamp -/

/-- A multiple of `1000` too small to hide a multiple of `2 ^ 32` is clamped only if there is
nothing to clamp. -/
theorem emod_eq_max_iff {d : ℤ} (hlo : -8589936 < d) (hlt : 1000 * d < 2 ^ 32) :
    1000 * d % 2 ^ 32 = 1000 * max 0 d ↔ 0 ≤ d := by
  constructor
  · intro h
    by_contra hneg
    rw [max_eq_left (Int.le_of_not_le hneg), mul_zero] at h
    -- the wrapped product is zero, so the product is a multiple of `2 ^ 32`
    obtain ⟨c, hc⟩ := Int.dvd_of_emod_eq_zero h
    clear h hlt
    norm_num at hc
    omega
  · intro h
    rw [max_eq_right h, Int.emod_eq_of_lt (Int.mul_nonneg (by decide) h) hlt]

/-- An accepted pulse `j` arms the timer for what remains of the period, or for zero if the backoff
has used the period up; and with an exact backoff the timer is then due one period after the
pulse. -/
structure RearmsExactly (s : Node) (j : IrqInput) (t : Node) : Prop where
  delay : t.unlockTimer = hrtimerStart j.armed (1000 * (max 0 (s.remainder j)).toNat)
  due : 0 ≤ s.remainder j → j.armed = j.now + 1000 * (s.backoffOf j).toNat →
    (t.unlockTimer.expires : ℤ) = j.now + 1000 * s.nominal j

/-- **The clamp, exactly.** For parameters that do not wrap around, an accepted pulse arms the timer
for what remains of the period if and only if the backoff fits the period: a negative remainder is
never clamped. -/
theorem rearmsExactly_iff {j : IrqInput} (hpos : 0 < s.Delta.toNat) (hlt : s.Delta.toNat < 2 ^ 31)
    (hwrap : 1000 * (s.T.toNat + 2 * s.Delta.toNat) < 2 ^ 32) (ha : s.Accepts j)
    (hst : (unlockNode K).step s (.pulse j) = some t) :
    RearmsExactly s j t ↔ (s.backoffOf j).toNat ≤ s.nominal j := by
  have hmod : (s.Delta + s.Delta).toNat = 2 * s.Delta.toNat := by
    rw [UInt32.toNat_add, Nat.mod_eq_of_lt (by omega), Nat.two_mul]
  have hrng : (s.rngOf j).toNat < 2 * s.Delta.toNat := by
    rw [Globals.rngOf, UInt32.toNat_mod, hmod]
    exact Nat.mod_lt _ (by omega)
  have hbackoff : (s.backoffOf j).toNat < 2 * s.Delta.toNat := by
    rw [Globals.backoffOf, UInt32.toNat_mod, hmod]
    exact Nat.mod_lt _ (by omega)
  -- the remainder is too small for a multiple of `2 ^ 32` to hide in it
  have hbounds : -(4 * s.Delta.toNat : ℤ) < s.remainder j ∧
      s.remainder j < s.T.toNat + 2 * s.Delta.toNat := by
    rw [Globals.remainder, Globals.nominal]
    split <;> omega
  obtain ⟨txbuf, -, hacc⟩ := step_of_accepts (Option.ite_none_right_eq_some.mp hst).1 ha
    (add_self_ne_zero hpos hlt)
  have htimer : t.unlockTimer = hrtimerStart j.armed (s.rearmDelay j) :=
    congrArg (fun u : Node ↦ u.unlockTimer) (Option.some_inj.mp (hst.symm.trans hacc))
  have hclamp : s.rearmDelay j = 1000 * (max 0 (s.remainder j)).toNat ↔ 0 ≤ s.remainder j := by
    rw [← emod_eq_max_iff (by omega) (by omega), ← s.rearmDelay_eq_emod j, ← Nat.cast_inj (R := ℤ),
      Nat.cast_mul, Int.toNat_of_nonneg (le_max_left _ _)]
    rfl
  have hfits : 0 ≤ s.remainder j ↔ (s.backoffOf j).toNat ≤ s.nominal j := Int.sub_nonneg
  rw [← hfits]
  constructor
  · intro h
    exact hclamp.mp (hrtimerStart_inj.mp (htimer.symm.trans h.delay))
  · intro hle
    have hdelay := s.rearmDelay_eq j hle (by omega)
    refine ⟨htimer.trans (hrtimerStart_inj.mpr (hclamp.mpr hle)), fun _ harmed ↦ ?_⟩
    rw [htimer, hrtimerStart_expires, harmed, Nat.cast_add, hdelay, Globals.remainder]
    push_cast
    ring

/-- Two pulses of the default signal: the backoff of the second fits the period. -/
theorem rearmsExactly_iff_default :
    ∃ t, (unlockNode .linux).step (defaultNode (some .empty))
        (.pulse ⟨15000000, 15051000, 15051000, 7, 50⟩) = some t ∧
      RearmsExactly (defaultNode (some .empty)) ⟨15000000, 15051000, 15051000, 7, 50⟩ t := by
  have hst : ((unlockNode .linux).step (defaultNode (some .empty))
      (.pulse ⟨15000000, 15051000, 15051000, 7, 50⟩)).isSome = true := by decide +kernel
  obtain ⟨t, ht⟩ := Option.isSome_iff_exists.mp hst
  exact ⟨t, ht, (rearmsExactly_iff (by decide) (by decide) (by decide) (by decide +kernel) ht).mpr
    (by decide +kernel)⟩

/-- With `T = 100` and a backoff of `150`, the timer is armed for more than four seconds. -/
theorem exists_unclamped_pulse :
    ∃ s t, (unlockNode .linux).run (defaultNode (some .empty)) [.setT 100] = some s ∧
      (unlockNode .linux).step s (.pulse ⟨60000, 211000, 211000, 0, 150⟩) = some t ∧
      s.Accepts ⟨60000, 211000, 211000, 0, 150⟩ ∧ s.T = 100 ∧ s.Delta = 100 ∧
      s.remainder ⟨60000, 211000, 211000, 0, 150⟩ = -50 ∧
      t.unlockTimer = hrtimerStart 211000 4294917296 ∧
      ¬RearmsExactly s ⟨60000, 211000, 211000, 0, 150⟩ t := by
  refine ⟨_, _, rfl, rfl, by decide +kernel, rfl, rfl, by decide +kernel, by decide +kernel, ?_⟩
  intro h
  exact absurd h.delay (by decide +kernel)

/-! ## What the handlers compute -/

/-- The conversion from microseconds to nanoseconds is exact only where it does not wrap around. -/
theorem toNat_mul_thousand_iff {x : UInt32} :
    (x * 1000).toNat = 1000 * x.toNat ↔ 1000 * x.toNat < 2 ^ 32 :=
  ⟨fun h ↦ h ▸ (x * 1000).toNat_lt, toNat_mul_thousand⟩

/-- So is the debounce threshold. -/
theorem Globals.threshold_eq_iff (g : Globals) :
    g.threshold = 500 * g.T.toNat ↔ 500 * g.T.toNat < 2 ^ 32 := by
  refine ⟨fun h ↦ ?_, g.threshold_eq⟩
  have hlt := (g.T * 500).toNat_lt
  rw [threshold] at h
  omega

/-- Where a pulse is accepted, the period fits 32 bits in nanoseconds. -/
theorem toNat_interval_of_accepts {j : IrqInput} (hT : 500 * s.T.toNat < 2 ^ 32)
    (ha : s.Accepts j) : (s.T * 1000).toNat = 1000 * s.T.toNat := by
  have hopen := (s.not_rejects_iff j.now).mp ha.2.2
  rw [s.threshold_eq hT] at hopen
  have hlt : 500 * (s.T.toNat : ℤ) < 1000000000 := by
    have := hopen.1.trans_lt hopen.2
    omega
  exact toNat_mul_thousand (by omega)

namespace Globals

variable (g : Globals) (j : IrqInput)

/-- The handler gets to the comparison with the debounce threshold: the seconds before it vanish. -/
def Compares : Prop :=
  g.driverLock = false ∧ g.txbufFff.isSome = true ∧
    (timespecSub (Timespec.ofNs j.now) g.lastUnlock).tvSec = 0

instance : Decidable (g.Compares j) := inferInstanceAs (Decidable (_ ∧ _ ∧ _))

variable {g j} in
theorem Accepts.compares (h : g.Accepts j) : g.Compares j :=
  ⟨h.1, h.2.1, not_not.mp fun hsec ↦ h.2.2 (.inl hsec)⟩

/-- What is computed for an accepted pulse is exact. -/
structure ServesExactly : Prop where
  /-- The modulus of both draws. -/
  modulus : g.Delta + g.Delta ≠ 0
  /-- The threshold of line 163, which is compared with if the seconds before it vanish. -/
  interval : (timespecSub g.lastUnlock g.lastUnlock2nd).tvSec = 0 →
    (g.T * 1000).toNat = 1000 * g.T.toNat
  /-- The time slept. -/
  backoff : (g.backoffOf j * 1000).toNat = 1000 * (g.backoffOf j).toNat
  /-- The delay. -/
  rearm : 0 ≤ g.remainder j → (g.rearmDelay j : ℤ) = 1000 * g.remainder j

/-- What is drawn with the bytes of `word`, in microseconds. -/
def draw (word : UInt32) : ℕ := word.toNat % (2 * g.Delta.toNat % 2 ^ 32)

theorem toNat_mod_modulus (word : UInt32) : (word % (g.Delta + g.Delta)).toNat = g.draw word := by
  rw [UInt32.toNat_mod, UInt32.toNat_add, draw, Nat.two_mul]

/-- The modulus is not zero, and neither the time slept nor what remains of the period exceeds 32
bits in nanoseconds. -/
def DrawsFit : Prop :=
  2 * g.Delta.toNat % 2 ^ 32 ≠ 0 ∧ 1000 * g.draw j.backoff < 2 ^ 32 ∧
    1000 * ((if g.Lengthens then (g.T.toNat : ℤ) + g.draw j.rng else g.T.toNat - g.draw j.rng) -
      g.draw j.backoff) < 2 ^ 32

instance : Decidable (g.DrawsFit j) := inferInstanceAs (Decidable (_ ∧ _ ∧ _))

theorem modulus_eq_zero_iff : g.Delta + g.Delta = 0 ↔ 2 * g.Delta.toNat % 2 ^ 32 = 0 := by
  rw [← UInt32.toNat_inj, UInt32.toNat_add, Nat.two_mul]
  rfl

end Globals

/-- **An accepted pulse, exactly.** -/
theorem servesExactly_iff {j : IrqInput} (hT : 500 * s.T.toNat < 2 ^ 32) (ha : s.Accepts j) :
    s.ServesExactly j ↔ s.DrawsFit j := by
  have hbackoff : (s.backoffOf j).toNat = s.draw j.backoff := s.toNat_mod_modulus j.backoff
  have hrem : s.remainder j =
      (if s.Lengthens then (s.T.toNat : ℤ) + s.draw j.rng else s.T.toNat - s.draw j.rng) -
        s.draw j.backoff := by
    rw [Globals.remainder, Globals.nominal, hbackoff, Globals.rngOf, s.toNat_mod_modulus]
  rw [Globals.DrawsFit, ← hrem, ← hbackoff, ← toNat_mul_thousand_iff, ne_eq,
    ← s.modulus_eq_zero_iff]
  constructor
  · rintro ⟨hmod, -, hsleep, hrearm⟩
    refine ⟨hmod, hsleep, ?_⟩
    by_contra hge
    have hdelay : s.rearmDelay j < 2 ^ 32 := UInt32.toNat_lt _
    have heq := hrearm (by omega)
    omega
  · rintro ⟨hmod, hsleep, hlt⟩
    exact ⟨hmod, fun _ ↦ toNat_interval_of_accepts hT ha, hsleep, fun h0 ↦ s.rearmDelay_eq j h0 hlt⟩

/-- What the handler of an event computes from the parameters is exact. -/
def Event.ComputesExactly (s : Node) : Event → Prop
  | .fire _ _ => s.txbufFff.isSome = true → (s.T * 1000).toNat = 1000 * s.T.toNat
  | .pulse j =>
    (s.Compares j → s.threshold = 500 * s.T.toNat) ∧ (s.Accepts j → s.ServesExactly j)
  | _ => True

/-- The parameters and the draws of an event leave what its handler computes in 32 bits. -/
def Event.FitsWord (s : Node) : Event → Prop
  | .fire _ _ => s.txbufFff.isSome = true → 1000 * s.T.toNat < 2 ^ 32
  | .pulse j => (s.Compares j → 500 * s.T.toNat < 2 ^ 32) ∧ (s.Accepts j → s.DrawsFit j)
  | _ => True

/-- **One event.** -/
theorem Event.computesExactly_iff (s : Node) (e : Event) : e.ComputesExactly s ↔ e.FitsWord s := by
  cases e with
  | fire => exact imp_congr_right fun _ ↦ toNat_mul_thousand_iff
  | pulse j =>
    rw [ComputesExactly, FitsWord, s.threshold_eq_iff]
    -- only where the threshold is in range does an accepted pulse have its period in range
    exact and_congr_right fun hT ↦ forall_congr' fun ha ↦ servesExactly_iff (hT ha.compares) ha
  | setT | setDelta | txbuf | tick => exact Iff.rfl

/-- The forward interval that `unlock_init` starts the timer with is exact, if it gets there. -/
def InitExact (g : Globals) (i : InitInput) : Prop :=
  (unlockInit g i).2 = 0 → (g.T * 1000).toNat = 1000 * g.T.toNat

/-- **The arithmetic along a run.** After `unlock_init`, everything that it and the handlers compute
from the parameters along a run is exact, if and only if the period is in range where `unlock_init`
starts the timer, and at every event the parameters and the draws are. -/
theorem exactArithmetic_iff_of_run (K : Kernel) (g : Globals) (i : InitInput) (es : List Event) :
    InitExact g i ∧ (unlockNode K).Meets (fun u e ↦ e.ComputesExactly u) (.boot g i) es ↔
      ((unlockInit g i).2 = 0 → 1000 * g.T.toNat < 2 ^ 32) ∧
        (unlockNode K).Meets (fun u e ↦ e.FitsWord u) (.boot g i) es := by
  simp only [InitExact, toNat_mul_thousand_iff, Event.computesExactly_iff]

instance (s : Node) : DecidablePred (Event.FitsWord s)
  | .fire _ _ => inferInstanceAs (Decidable (_ → _))
  | .pulse _ => inferInstanceAs (Decidable (_ ∧ _))
  | .setT _ | .setDelta _ | .txbuf _ | .tick _ => inferInstanceAs (Decidable True)

/-- The timer expires and a pulse is served, before and after a write of ten milliseconds. -/
def servedEvents : List Event :=
  [.fire ⟨20000030, 20001030⟩ .restart, .pulse ⟨30000000, 30052000, 30052000, 7, 50⟩, .setT 10000,
    .pulse ⟨45000000, 45052000, 45052000, 150, 50⟩]

theorem exactArithmetic_iff_of_run_served :
    ((unlockNode .linux).run (defaultNode (some .empty)) servedEvents).isSome = true ∧
      (unlockNode .linux).Meets (fun u e ↦ e.ComputesExactly u) (defaultNode (some .empty))
        servedEvents := by
  refine ⟨by decide +kernel, ?_⟩
  have hiff := exactArithmetic_iff_of_run .linux (defaultGlobals (some .empty)) ⟨0, 0, 0, 30, 0⟩
    servedEvents
  exact (hiff.mpr ⟨fun _ ↦ by decide, by decide +kernel⟩).2

/-- Two writes that sysfs admits, each before a pulse: the threshold wraps around to a fifth of a
microsecond, and the modulus is zero. -/
theorem exists_inexact_params :
    (∃ s t, (unlockNode .linux).run (defaultNode (some .empty)) [.setT 8589935] = some s ∧
        (unlockNode .linux).step s (.pulse ⟨1000, 2000, 2000, 0, 0⟩) = some t ∧
        s.threshold = 204 ∧ t.unlockOut = [⟨1000, .relay⟩] ∧
        ¬(Event.pulse ⟨1000, 2000, 2000, 0, 0⟩).ComputesExactly s) ∧
      ∃ s t, (unlockNode .linux).run (defaultNode (some .empty)) [.setDelta 0] = some s ∧
        (unlockNode .linux).step s (.pulse ⟨15000000, 15001000, 15001000, 0, 0⟩) = some t ∧
        t.halted = some .trapped ∧
        ¬(Event.pulse ⟨15000000, 15001000, 15001000, 0, 0⟩).ComputesExactly s := by
  refine ⟨⟨_, _, rfl, rfl, by decide +kernel, by decide +kernel, ?_⟩,
    ⟨_, _, rfl, rfl, by decide +kernel, ?_⟩⟩
  · rw [Event.computesExactly_iff]
    decide +kernel
  · rw [Event.computesExactly_iff]
    decide +kernel

/-! ## Parameters that are safe -/

/-- The modulus is not zero, and the longest period it allows fits 32 bits in nanoseconds. -/
def ParamsFit (T Delta : UInt32) : Prop :=
  Delta + Delta ≠ 0 ∧ 1000 * (T.toNat + ((Delta + Delta).toNat - 1)) < 2 ^ 32

/-- Whatever is drawn, parameters that fit leave everything in range. -/
theorem ParamsFit.fitsWord (h : ParamsFit s.T s.Delta) (e : Event) : e.FitsWord s := by
  obtain ⟨hmod, hlt⟩ := h
  cases e with
  | fire => exact fun _ ↦ by omega
  | pulse j =>
    have hpos : 0 < 2 * s.Delta.toNat % 2 ^ 32 :=
      Nat.pos_of_ne_zero (mt s.modulus_eq_zero_iff.mpr hmod)
    rw [UInt32.toNat_add, ← Nat.two_mul] at hlt
    have hrng : s.draw j.rng < 2 * s.Delta.toNat % 2 ^ 32 := Nat.mod_lt _ hpos
    have hbackoff : s.draw j.backoff < 2 * s.Delta.toNat % 2 ^ 32 := Nat.mod_lt _ hpos
    refine ⟨fun _ ↦ by omega, fun _ ↦ ⟨hpos.ne', by omega, ?_⟩⟩
    split <;> omega
  | setT | setDelta | txbuf | tick => trivial

/-- A write through sysfs leaves parameters that fit. -/
def Event.WritesFit (s : Node) : Event → Prop
  | .setT T => ParamsFit T s.Delta
  | .setDelta Delta => ParamsFit s.T Delta
  | _ => True

theorem Took.paramsFit (h : Took K s e t) (hs : ParamsFit s.T s.Delta) (he : e.WritesFit s) :
    ParamsFit t.T t.Delta := by
  cases h with
  | setT | setDelta => exact he
  | _ => exact hs

instance (T Delta : UInt32) : Decidable (ParamsFit T Delta) := inferInstanceAs (Decidable (_ ∧ _))

instance (s : Node) : DecidablePred (Event.WritesFit s)
  | .setT _ | .setDelta _ => inferInstanceAs (Decidable (ParamsFit _ _))
  | .fire _ _ | .pulse _ | .txbuf _ | .tick _ => inferInstanceAs (Decidable True)

/-- After an accepted pulse, the last two stamps are less than a second apart. -/
theorem lastUnlock_lt (h : (unlockNode K).run s es = some t) (ht : t.halted ≠ some .trapped)
    (hacc : acceptedTimes K s es ≠ []) : t.lastUnlock.toNs < t.lastUnlock2nd.toNs + 1000000000 := by
  obtain ⟨o, ho, hrel, hst⟩ := refines_gate h
  rw [(hst ht).1, (hst ht).2]
  refine (Gate.machine_recent ho).resolve_left fun hnil ↦ ?_
  rw [hnil, relayTimes_of_run h, List.map_append, List.nil_append] at hrel
  have hlen := congrArg List.length hrel
  simp at hlen
  exact hacc hlen

/-- The stamps mislead no comparison: the seconds of their difference vanish. -/
theorem lengthens_iff {j : IrqInput} (hord : s.Ordered) (ha : s.Accepts j)
    (hT : 500 * s.T.toNat < 2 ^ 32)
    (hlt : s.lastUnlock.toNs < s.lastUnlock2nd.toNs + 1000000000) :
    (timespecSub s.lastUnlock s.lastUnlock2nd).tvSec = 0 ∧
      (s.Lengthens ↔ s.lastUnlock.toNs - s.lastUnlock2nd.toNs ≤ 1000 * s.T.toNat) := by
  have hle := hord.le_last
  have hdiff := toNs_timespecSub s.lastUnlock s.lastUnlock2nd
  have hsec : (timespecSub s.lastUnlock s.lastUnlock2nd).tvSec = 0 :=
    Timespec.tvSec_eq_zero_iff.mpr (by omega)
  have hnsec := Timespec.tvNsec_eq_toNs hsec
  refine ⟨hsec, (or_iff_right (not_not_intro hsec)).trans ?_⟩
  rw [UInt32.le_iff_toNat_le, Timespec.toNat_nsecU32, toNat_interval_of_accepts hT ha, ← hdiff,
    ← hnsec]
  omega

/-- The last two entries of the history of accepted pulses are the stamps. -/
theorem stamps_eq_cons_cons (hs : Booted s i) (h : (unlockNode K).run s es = some t)
    (ht : t.halted ≠ some .trapped) (hacc : acceptedTimes K s es ≠ []) :
    ∃ a b rest, (i.stamp :: acceptedTimes K s es).reverse = a :: b :: rest ∧
      (a : ℤ) = t.lastUnlock.toNs ∧ (b : ℤ) = t.lastUnlock2nd.toNs := by
  obtain ⟨rest, hrest⟩ := stamps_eq_cons hs h ht
  match hrev : (i.stamp :: acceptedTimes K s es).reverse with
  | [] => exact absurd (List.reverse_eq_nil_iff.mp hrev) (List.cons_ne_nil _ _)
  | [a] =>
    have hlen : (acceptedTimes K s es).length + 1 = 1 := by
      rw [← List.length_cons, ← List.length_reverse, hrev, List.length_singleton]
    exact absurd (List.length_eq_zero_iff.mp (Nat.succ.inj hlen)) hacc
  | a :: b :: l =>
    rw [hrev] at hrest
    obtain ⟨ha, hb⟩ := List.cons.inj hrest
    exact ⟨a, b, l, rfl, ha, (List.cons.inj hb).1⟩

/-- Writes that keep `500 * T` in range keep it in range along a run. -/
theorem T_lt_of_run (hT : 500 * s.T.toNat < 2 ^ 32)
    (hes : ∀ T, .setT T ∈ es → 500 * T.toNat < 2 ^ 32) (h : (unlockNode K).run s es = some t) :
    500 * t.T.toNat < 2 ^ 32 := by
  refine Machine.invariant_of_meets (P := fun u : Node ↦ 500 * u.T.toNat < 2 ^ 32)
    (C := fun _ e ↦ e ∈ es) ?_ hT (Machine.meets_of_forall fun e he ↦ he) h
  intro u e v hu he huv
  cases Took.of_step huv with
  | setT T => exact hes T he
  | _ => exact hu

/-- **The choice.** Along every run with `T` in range, every accepted pulse but the first lengthens
the period if the two accepted pulses before it, the stamp of `unlock_init` counting as the first,
came at most a period apart, and shortens it otherwise; the seconds never enter into it. The timer
is armed for the period chosen so, less the backoff. -/
theorem period_of_run {j : IrqInput} {u : Node} (hs : Started s i) (hT : 500 * s.T.toNat < 2 ^ 32)
    (hes : ∀ T, .setT T ∈ es → 500 * T.toNat < 2 ^ 32) (h : (unlockNode K).run s es = some t)
    (hacc : acceptedTimes K s es ≠ []) (hst : (unlockNode K).step t (.pulse j) = some u)
    (ha : t.Accepts j) :
    (timespecSub t.lastUnlock t.lastUnlock2nd).tvSec = 0 ∧
      ∃ a b rest, (i.stamp :: acceptedTimes K s es).reverse = a :: b :: rest ∧
        t.period (t.rngOf j) =
            (if a ≤ b + 1000 * t.T.toNat then t.T + t.rngOf j else t.T - t.rngOf j) ∧
          (t.Delta + t.Delta ≠ 0 → u.unlockTimer = hrtimerStart j.armed (clampTimer
            ((if a ≤ b + 1000 * t.T.toNat then t.T + t.rngOf j else t.T - t.rngOf j) -
              t.backoffOf j) * 1000).toNat) := by
  have hrun : t.halted = none := (Option.ite_none_right_eq_some.mp hst).1.running
  have htrap : t.halted ≠ some .trapped := by rw [hrun]; exact nofun
  obtain ⟨hsec, hlong⟩ := lengthens_iff (hs.booted.ordered.of_run h) ha (T_lt_of_run hT hes h)
    (lastUnlock_lt h htrap hacc)
  obtain ⟨a, b, rest, hrev, hlast, h2nd⟩ := stamps_eq_cons_cons hs.booted h htrap hacc
  have hiff : t.Lengthens ↔ a ≤ b + 1000 * t.T.toNat := by
    rw [hlong, ← hlast, ← h2nd]
    omega
  have hperiod : t.period (t.rngOf j) =
      if a ≤ b + 1000 * t.T.toNat then t.T + t.rngOf j else t.T - t.rngOf j := by
    simp only [Globals.period_eq, hiff]
  refine ⟨hsec, a, b, rest, hrev, hperiod, fun hmod ↦ ?_⟩
  obtain ⟨txbuf, -, hacc⟩ := step_of_accepts (Option.ite_none_right_eq_some.mp hst).1 ha hmod
  have htimer : u.unlockTimer = hrtimerStart j.armed (t.rearmDelay j) :=
    congrArg (fun v : Node ↦ v.unlockTimer) (Option.some_inj.mp (hst.symm.trans hacc))
  rw [htimer, ← hperiod]
  rfl

/-- The second of two pulses fifteen milliseconds apart lengthens the period, and the timer is armed
for it. -/
theorem period_of_run_pulse :
    ∃ t u, (unlockNode .linux).run (defaultNode (some .empty))
        [.pulse ⟨15000000, 15001000, 15001000, 0, 0⟩] = some t ∧
      (unlockNode .linux).step t (.pulse ⟨30000000, 30001000, 30001000, 7, 0⟩) = some u ∧
      t.period (t.rngOf ⟨30000000, 30001000, 30001000, 7, 0⟩) = 20007 ∧
      u.unlockTimer = hrtimerStart 30001000 20007000 := by
  have hrun : ((unlockNode .linux).run (defaultNode (some .empty))
      [.pulse ⟨15000000, 15001000, 15001000, 0, 0⟩]).any (fun t ↦ decide
        (((unlockNode .linux).step t
            (.pulse ⟨30000000, 30001000, 30001000, 7, 0⟩)).isSome = true ∧
          t.Accepts ⟨30000000, 30001000, 30001000, 7, 0⟩ ∧ t.T = 20000 ∧ t.Delta = 100)) =
        true := by
    decide +kernel
  obtain ⟨t, ht, hcond⟩ := (Option.any_eq_true _ _).mp hrun
  obtain ⟨hstep, ha, hT, hD⟩ := of_decide_eq_true hcond
  obtain ⟨u, hu⟩ := Option.isSome_iff_exists.mp hstep
  have hhist : acceptedTimes .linux (defaultNode (some .empty))
      [.pulse ⟨15000000, 15001000, 15001000, 0, 0⟩] = [15000000] := by decide +kernel
  obtain ⟨-, a, b, rest, hrev, hperiod, harmed⟩ := period_of_run (started_defaultNode _) (by decide)
    (by simp) ht (by rw [hhist]; exact nofun) hu ha
  rw [hhist] at hrev
  obtain ⟨rfl, rfl, rfl⟩ : a = 15000000 ∧ b = 0 ∧ rest = [] := by simpa [eq_comm] using hrev
  refine ⟨t, u, ht, hu, ?_, ?_⟩
  · rw [hperiod, Globals.rngOf, hT, hD]
    decide
  · rw [harmed (by rw [hD]; decide), Globals.rngOf, Globals.backoffOf, hT, hD]
    decide

end UcsmaRateControl
