import UcsmaRateControl.Unlock.Debounce

/-!
# What the debounce test does over a run

Two consequences of the refinement of `Unlock.Debounce`. The stamps of a node are the last two
accepted pulses, in order and at the distances the test allows. And a node that has accepted nothing
for a second accepts nothing any more: the test compares nanoseconds only after it has found the
seconds zero, so a long silence fails it although it is much longer than the threshold.
-/

namespace UcsmaRateControl

variable {K : Kernel} {s t : Node} {e : Event} {es : List Event} {i : InitInput}

/-! ## Order of the stamps -/

/-- The stamps are in order and not in the future. -/
structure Node.Ordered (s : Node) : Prop where
  nonneg : 0 ≤ s.lastUnlock2nd.toNs
  le_last : s.lastUnlock2nd.toNs ≤ s.lastUnlock.toNs
  le_clock : s.lastUnlock.toNs ≤ s.clock

/-- Keeping the stamps keeps their order, as the clock does not go back. -/
theorem Node.Ordered.frame (h : s.Ordered) (hst : Took K s e t)
    (hlast : t.lastUnlock = s.lastUnlock) (h2nd : t.lastUnlock2nd = s.lastUnlock2nd) :
    t.Ordered := by
  refine ⟨by rw [h2nd]; exact h.nonneg, by rw [hlast, h2nd]; exact h.le_last, ?_⟩
  rw [hlast]
  exact h.le_clock.trans (Int.ofNat_le.mpr hst.clock_le)

theorem Node.Ordered.step (h : s.Ordered) (hst : Took K s e t) : t.Ordered := by
  -- only an accepted pulse moves the stamps, and the threshold is not negative
  cases id hst with
  | pulseAccepts i arrives txbuf list accepts nonzero =>
    have hopen := (s.not_rejects_iff i.now).mp accepts.2.2
    have hthr := s.threshold_nonneg
    have hnow : s.lastUnlock.toNs ≤ (i.now : ℤ) := by
      have hlo := hopen.1
      omega
    refine ⟨h.nonneg.trans h.le_last, ?_, ?_⟩
    · exact hnow.trans_eq (Timespec.toNs_ofNs i.now).symm
    · exact (Timespec.toNs_ofNs i.now).trans_le (Int.ofNat_le.mpr (arrives.timed accepts).now_le)
  | _ => exact h.frame hst rfl rfl

theorem Booted.ordered (h : Booted s i) : s.Ordered := by
  refine ⟨?_, ?_, ?_⟩
  · rw [h.lastUnlock2nd, Timespec.toNs_zero]
  · rw [h.lastUnlock2nd, h.lastUnlock, Timespec.toNs_zero, Timespec.toNs_ofNs]
    exact Int.natCast_nonneg _
  · rw [h.lastUnlock, Timespec.toNs_ofNs]
    exact Int.ofNat_le.mpr h.stamp_le

theorem Node.Ordered.of_run (hs : s.Ordered) (h : (unlockNode K).run s es = some t) : t.Ordered :=
  Machine.invariant (P := Node.Ordered) (fun _ _ _ hu huv ↦ hu.step (Took.of_step huv)) hs h

/-! ## Parameters in range -/

/-- Parameters for which neither the threshold nor the modulus of the draws wraps around. -/
structure Globals.InRange (g : Globals) : Prop where
  T_lt : 500 * g.T.toNat < 2 ^ 32
  Delta_pos : 0 < g.Delta.toNat
  Delta_lt : g.Delta.toNat < 2 ^ 31

/-- A write through sysfs keeps the parameters in range. -/
def Event.InRange : Event → Prop
  | .setT T => 500 * T.toNat < 2 ^ 32
  | .setDelta Delta => 0 < Delta.toNat ∧ Delta.toNat < 2 ^ 31
  | _ => True

theorem Globals.InRange.add_ne_zero {g : Globals} (h : g.InRange) : g.Delta + g.Delta ≠ 0 :=
  add_self_ne_zero h.Delta_pos h.Delta_lt

/-- Nothing traps while the parameters are in range. -/
structure Node.Sound (s : Node) : Prop where
  params : s.InRange
  not_trapped : s.halted ≠ some .trapped

theorem Node.Sound.step (h : s.Sound) (he : e.InRange) (hst : Took K s e t) : t.Sound := by
  cases hst with
  | pulseSpins => exact ⟨h.params, fun hspin ↦ nomatch hspin⟩
  | pulseTraps i arrives txbuf list accepts zero => exact absurd zero h.params.add_ne_zero
  | setT T => exact ⟨⟨he, h.params.Delta_pos, h.params.Delta_lt⟩, h.not_trapped⟩
  | setDelta Delta => exact ⟨⟨h.params.T_lt, he.1, he.2⟩, h.not_trapped⟩
  | _ => exact ⟨⟨h.params.T_lt, h.params.Delta_pos, h.params.Delta_lt⟩, h.not_trapped⟩

theorem Node.Sound.of_run (hs : s.Sound) (he : ∀ e ∈ es, e.InRange)
    (h : (unlockNode K).run s es = some t) : t.Sound :=
  Machine.invariant_of_meets (P := Node.Sound) (C := fun _ e ↦ e.InRange)
    (fun _ _ _ hu he huv ↦ hu.step he (Took.of_step huv)) hs (Machine.meets_of_forall he) h

/-! ## The stamps are the last two accepted pulses -/

/-- Without a trap the two stamps end the list of accepted pulses, begun by the initial stamps. -/
theorem stamps_eq_cons (hs : Booted s i) (h : (unlockNode K).run s es = some t)
    (ht : t.halted ≠ some .trapped) :
    ∃ rest, (i.stamp :: acceptedTimes K s es).reverse.map Nat.cast ++ [(0 : ℤ)] =
      t.lastUnlock.toNs :: t.lastUnlock2nd.toNs :: rest := by
  obtain ⟨o, ho, hrel, hst⟩ := refines_gate h
  obtain ⟨rest, hrest⟩ := Gate.machine_stamps ho
  have hnone : s.relayTimes = [] := by rw [Globals.relayTimes, hs.unlockOut]; rfl
  rw [relayTimes_of_run h, hnone, List.append_nil, List.map_nil, List.append_nil] at hrel
  rw [hs.lastUnlock, hs.lastUnlock2nd, Timespec.toNs_ofNs, Timespec.toNs_zero, ← hrel] at hrest
  refine ⟨rest, ?_⟩
  rw [(hst ht).1, (hst ht).2, ← hrest, List.reverse_cons, List.map_append, List.append_assoc]
  rfl

/-- Reading the list of accepted pulses from its end. -/
theorem stamps_getElem? (hs : Booted s i) (h : (unlockNode K).run s es = some t)
    (ht : t.halted ≠ some .trapped) {k : ℕ} (hk : k ≤ (acceptedTimes K s es).length) :
    ∃ rest, (i.stamp :: acceptedTimes K s es)[(acceptedTimes K s es).length - k]?.map Nat.cast =
      (t.lastUnlock.toNs :: t.lastUnlock2nd.toNs :: rest)[k]? := by
  obtain ⟨rest, hrest⟩ := stamps_eq_cons hs h ht
  have hlen : k < (i.stamp :: acceptedTimes K s es).length := Nat.lt_succ_of_le hk
  refine ⟨rest, ?_⟩
  rw [← hrest, List.getElem?_append_left (by rwa [List.length_map, List.length_reverse]),
    List.getElem?_map, List.getElem?_reverse hlen, List.length_cons, Nat.add_sub_cancel]

/-- A reading whose nanoseconds are those of a stamp is that stamp. -/
theorem map_ofNs_of_map_cast {o : Option ℕ} {t : Timespec} (h : o.map Nat.cast = some t.toNs) :
    o.map Timespec.ofNs = some t := by
  obtain ⟨n, rfl, hn⟩ := Option.map_eq_some_iff.mp h
  exact congrArg some (Timespec.toNs_injective ((Timespec.toNs_ofNs n).trans hn))

/-- **The law of the stamps.** Along every run from a successful `unlock_init`, with the parameters
in range: the stamps are ordered and not in the future; a pulse is accepted only at a distance of at
least `T / 2`, and less than a second, from `last_unlock`; `last_unlock` is the last accepted pulse
and `last_unlock_2nd` the one before, counted from the stamp of `unlock_init`; and a step that
accepts no pulse leaves both stamps alone. -/
theorem stamps_of_run (hs : Started s i) (hp : s.InRange) (hes : ∀ e ∈ es, e.InRange)
    (h : (unlockNode K).run s es = some t) :
    (t.lastUnlock2nd ≤ t.lastUnlock ∧ t.lastUnlock ≤ Timespec.ofNs t.clock) ∧
    (∀ j, t.Accepts j → t.lastUnlock.toNs + 500 * t.T.toNat ≤ j.now ∧
      (j.now : ℤ) < t.lastUnlock.toNs + 1000000000) ∧
    ((i.stamp :: acceptedTimes K s es)[(acceptedTimes K s es).length]?.map Timespec.ofNs =
        some t.lastUnlock ∧
      (0 < (acceptedTimes K s es).length →
        (i.stamp :: acceptedTimes K s es)[(acceptedTimes K s es).length - 1]?.map Timespec.ofNs =
          some t.lastUnlock2nd)) ∧
    ∀ e u, (unlockNode K).step t e = some u → acceptance t e = [] →
      u.lastUnlock = t.lastUnlock ∧ u.lastUnlock2nd = t.lastUnlock2nd := by
  have hord : t.Ordered := hs.booted.ordered.of_run h
  have hstart : s.Sound := ⟨hp, by rw [hs.booted.running]; exact nofun⟩
  have hsound : t.Sound := hstart.of_run hes h
  refine ⟨⟨?_, ?_⟩, fun j hj ↦ ?_, ⟨?_, fun hk ↦ ?_⟩, fun e u hu hnone ↦ ?_⟩
  · exact Timespec.le_iff_toNs.mpr hord.le_last
  · rw [Timespec.le_iff_toNs, Timespec.toNs_ofNs]
    exact hord.le_clock
  · rw [← t.threshold_eq hsound.params.T_lt]
    exact (t.not_rejects_iff j.now).mp hj.2.2
  · obtain ⟨rest, hrest⟩ := stamps_getElem? hs.booted h hsound.not_trapped (Nat.zero_le _)
    exact map_ofNs_of_map_cast hrest
  · obtain ⟨rest, hrest⟩ := stamps_getElem? hs.booted h hsound.not_trapped hk
    exact map_ofNs_of_map_cast hrest
  · cases Took.of_step hu with
    | pulseAccepts j arrives txbuf list accepts nonzero =>
      rw [acceptance, if_pos accepts] at hnone
      exact absurd hnone (List.cons_ne_nil _ _)
    | _ => exact ⟨rfl, rfl⟩

/-- A pulse fifteen milliseconds after the start is accepted and leaves its stamp. -/
theorem stamps_of_run_pulse :
    ∃ t, (unlockNode .linux).run (defaultNode (some .empty))
        [.pulse ⟨15000000, 15001000, 15001000, 7, 0⟩] = some t ∧
      t.lastUnlock2nd ≤ t.lastUnlock ∧ t.lastUnlock = Timespec.ofNs 15000000 := by
  have hrun : ((unlockNode .linux).run (defaultNode (some .empty))
      [.pulse ⟨15000000, 15001000, 15001000, 7, 0⟩]).isSome = true := by decide +kernel
  obtain ⟨t, ht⟩ := Option.isSome_iff_exists.mp hrun
  obtain ⟨⟨hle, -⟩, -, ⟨hlast, -⟩, -⟩ := stamps_of_run (started_defaultNode _)
    ⟨by decide, by decide, by decide⟩ (by simp [Event.InRange]) ht
  refine ⟨t, ht, hle, ?_⟩
  exact (Option.some_inj.mp hlast).symm

/-! ## Deafness -/

/-- Any pulse at time `t` passes the debounce test, is relayed and re-times the timer, whatever is
drawn. -/
def Node.RelaysAt (K : Kernel) (s : Node) (t : ℕ) : Prop :=
  ∀ j : IrqInput, j.now = t → s.Timed K j → s.Accepts j ∧
    ∃ u, (unlockNode K).step s (.pulse j) = some u ∧ u.halted = none ∧
      u.unlockOut = ⟨t, .relay⟩ :: s.unlockOut ∧
      u.unlockTimer = hrtimerStart j.armed (s.rearmDelay j)

/-- There is a time, not in the past, at which a pulse would be relayed and re-time the timer. -/
def Node.Hears (K : Kernel) (s : Node) : Prop := ∃ t, s.clock ≤ t ∧ s.RelaysAt K t

/-- A started node whose list is known: its lock is free, and only a trap can have stopped it. -/
structure Node.Listening (s : Node) : Prop where
  held : s.irqHeld = true
  list : s.txbufFff.isSome = true
  free : s.halted = none → s.driverLock = false
  halted : s.halted = none ∨ s.Delta + s.Delta = 0

theorem Booted.listening (h : Booted s i) (htx : s.txbufFff.isSome = true) : s.Listening :=
  ⟨h.irqHeld, htx, fun _ ↦ h.driverLock, .inl h.running⟩

theorem Node.Listening.step (h : s.Listening) (hst : Took K s e t) : t.Listening := by
  cases hst with
  | fireNull j garbage due null => exact absurd null (Option.isSome_iff_ne_none.mp h.list)
  | pulseNull j arrives free null => exact absurd null (Option.isSome_iff_ne_none.mp h.list)
  | pulseSpins j arrives locked =>
    exact absurd locked (Bool.eq_false_iff.mp (h.free arrives.running))
  | pulseRejects j arrives free => exact ⟨h.held, h.list, fun _ ↦ free, h.halted⟩
  | pulseTraps j arrives txbuf list accepts zero =>
    exact ⟨h.held, h.list, nofun, .inr zero⟩
  | pulseAccepts => exact ⟨h.held, h.list, fun _ ↦ rfl, h.halted⟩
  | setDelta Delta running => exact ⟨h.held, h.list, h.free, .inl running⟩
  | txbuf => exact ⟨h.held, rfl, h.free, h.halted⟩
  | _ => exact ⟨h.held, h.list, h.free, h.halted⟩

theorem Node.Listening.of_run (hs : s.Listening) (h : (unlockNode K).run s es = some t) :
    t.Listening :=
  Machine.invariant (P := Node.Listening) (fun _ _ _ hu huv ↦ hu.step (Took.of_step huv)) hs h

/-- The readings of a pulse at `t` that draws zero and loses no time. -/
def promptPulse (K : Kernel) (t : ℕ) : IrqInput := ⟨t, t + K.udelay1, t + K.udelay1, 0, 0⟩

theorem timed_promptPulse (g : Globals) (t : ℕ) : g.Timed K (promptPulse K t) := by
  have hzero : g.backoffOf (promptPulse K t) = 0 := UInt32.zero_mod
  refine ⟨?_, le_rfl⟩
  rw [hzero]
  exact le_rfl

/-- A listening node hears exactly while the gate of its debounce test is alive. -/
theorem Node.Listening.hears_iff (h : s.Listening) (hT : 500 * s.T.toNat < 1000000000) :
    s.Hears K ↔ s.clock < s.lastUnlock.toNs + 1000000000 ∧ s.Delta + s.Delta ≠ 0 := by
  have hthr : s.threshold < 1000000000 := by
    rw [s.threshold_eq (by omega)]
    omega
  rw [← Gate.exists_opens_iff hthr]
  constructor
  · rintro ⟨t, hle, hrel⟩
    obtain ⟨hacc, u, hst, hrun, -⟩ := hrel (promptPulse K t) rfl (timed_promptPulse s.toGlobals t)
    refine ⟨⟨t, Int.ofNat_le.mpr hle, (s.not_rejects_iff t).mp hacc.2.2⟩, fun hzero ↦ ?_⟩
    cases Took.of_step hst with
    | pulseSpins j arrives locked => exact Globals.not_accepts_of_locked locked hacc
    | pulseNull j arrives free null => exact Globals.not_accepts_of_null null hacc
    | pulseRejects j arrives free txbuf list rejects =>
      exact Globals.not_accepts_of_rejects rejects hacc
    | pulseTraps => exact nomatch hrun
    | pulseAccepts j arrives txbuf list accepts nonzero => exact nonzero hzero
  · -- the gate opens for an integer, which is not before the clock and hence a time
    rintro ⟨⟨t, hle, hopen⟩, hD⟩
    have hrunning : s.halted = none := h.halted.resolve_right hD
    lift t to ℕ using (Int.natCast_nonneg s.clock).trans hle
    refine ⟨t, Int.ofNat_le.mp hle, ?_⟩
    rintro j rfl htimed
    have hacc : s.Accepts j := ⟨h.free hrunning, h.list, (s.not_rejects_iff j.now).mpr hopen⟩
    have harr : s.Arrives K j := ⟨hrunning, h.held, Int.ofNat_le.mp hle, fun _ ↦ htimed⟩
    obtain ⟨txbuf, -, hst⟩ := step_of_accepts harr hacc hD
    exact ⟨hacc, _, hst, hrunning, rfl, rfl⟩

/-- **Deafness is for ever.** A node that has been silent for a second relays nothing any more. -/
theorem relayTimes_of_deaf (hdeaf : s.lastUnlock.toNs + 1000000000 ≤ s.clock)
    (h : (unlockNode K).run s es = some t) : t.relayTimes = s.relayTimes := by
  obtain ⟨o, ho, hrel, -⟩ := refines_gate h
  -- every arrival comes after the start, when the gate was already dead
  have hlate : ∀ p ∈ (unlockNode K).trace arrival s es,
      s.lastUnlock.toNs + 1000000000 ≤ p.2 := by
    intro p hp
    obtain ⟨pre, e, u, hpre, hu, hpe⟩ := Machine.mem_trace hp
    obtain ⟨v, hv⟩ := Machine.exists_run_of_prefix h hpre
    obtain ⟨w, hw, hst⟩ := Machine.run_concat_eq_some.mp hv
    obtain rfl : u = w := Option.some_inj.mp (hu.symm.trans hw)
    have hclock : s.clock ≤ u.clock := clock_le_of_run hu
    cases e with
    | pulse j =>
      have harr : u.Arrives K j := (Option.ite_none_right_eq_some.mp hst).1
      rw [arrival] at hpe
      split at hpe
      · rw [List.mem_singleton.mp hpe]
        exact hdeaf.trans (Int.ofNat_le.mpr (hclock.trans harr.clock_le))
      · exact absurd hpe List.not_mem_nil
    | _ => exact absurd hpe List.not_mem_nil
  obtain rfl := Gate.machine_dead hlate ho
  rw [List.nil_append] at hrel
  exact List.map_injective_iff.mpr Nat.cast_injective hrel

/-- **When a node hears.** In a state reached from a successful `unlock_init`, some later pulse
would be relayed and re-time the timer if and only if less than a second has passed since the last
accepted one, and `2 * Delta` is not zero. -/
theorem hears_iff_of_run (hs : Started s i) (htx : s.txbufFff.isSome = true)
    (h : (unlockNode K).run s es = some t) (hT : 500 * t.T.toNat < 1000000000) :
    t.Hears K ↔ t.clock < t.lastUnlock.toNs + 1000000000 ∧ t.Delta + t.Delta ≠ 0 :=
  ((hs.booted.listening htx).of_run h).hears_iff hT

/-- A node that has just relayed a pulse hears. -/
theorem hears_iff_of_run_pulse :
    ∃ t, (unlockNode .linux).run (defaultNode (some .empty))
        [.pulse ⟨15000000, 15001000, 15001000, 0, 0⟩] = some t ∧
      t.relayTimes = [15000000] ∧ t.Hears .linux := by
  have hrun : ((unlockNode .linux).run (defaultNode (some .empty))
      [.pulse ⟨15000000, 15001000, 15001000, 0, 0⟩]).any (fun t ↦ decide
        (t.relayTimes = [15000000] ∧ t.T = 20000 ∧ t.Delta = 100 ∧
          (t.clock : ℤ) < t.lastUnlock.toNs + 1000000000)) = true := by
    decide +kernel
  obtain ⟨t, ht, hcond⟩ := (Option.any_eq_true _ _).mp hrun
  obtain ⟨hrelay, hT, hD, hlt⟩ := of_decide_eq_true hcond
  refine ⟨t, ht, hrelay, ?_⟩
  exact (hears_iff_of_run (started_defaultNode _) rfl ht (by rw [hT]; decide)).mpr
    ⟨hlt, by rw [hD]; decide⟩

/-- The first `n` callbacks of the default period, on time. -/
def unanswered (n : ℕ) : List Event :=
  (List.range n).map fun k ↦ .fire ⟨(k + 1) * 20000000, (k + 1) * 20000000 + 1000⟩ .restart

/-- After fifty periods without an accepted pulse a node is deaf, and stays deaf. -/
theorem exists_deaf_run :
    ∃ t, (unlockNode .linux).run (defaultNode (some .empty)) (unanswered 50) = some t ∧
      0 < 500 * t.T.toNat ∧ 500 * t.T.toNat < 1000000000 ∧ ¬t.Hears .linux ∧
      ∀ es u, (unlockNode .linux).run t es = some u → u.relayTimes = t.relayTimes := by
  have heval : ((unlockNode .linux).run (defaultNode (some .empty)) (unanswered 50)).any
      (fun t ↦ decide (t.lastUnlock.toNs + 1000000000 ≤ (t.clock : ℤ) ∧ t.T = 20000)) = true := by
    decide +kernel
  obtain ⟨t, ht, hcond⟩ := (Option.any_eq_true _ _).mp heval
  obtain ⟨hdeaf, hT⟩ := of_decide_eq_true hcond
  have hlistening : t.Listening :=
    ((started_defaultNode (some .empty)).booted.listening rfl).of_run ht
  refine ⟨t, ht, by rw [hT]; decide, by rw [hT]; decide, fun hhears ↦ ?_, fun es u hu ↦ ?_⟩
  · have halive := (hlistening.hears_iff (by rw [hT]; decide)).mp hhears
    exact absurd hdeaf halive.1.not_ge
  · exact relayTimes_of_deaf hdeaf hu

end UcsmaRateControl
