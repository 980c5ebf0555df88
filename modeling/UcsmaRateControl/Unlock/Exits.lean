import UcsmaRateControl.Unlock.Node

/-!
# The bare returns

Before the first transmission `txbuf_fff` is null, and both handlers then leave by a bare `return;`.
The interrupt handler leaves without releasing `driver_lock`, the timer callback without forwarding
its timer and without telling the kernel to restart it. On every other path the lock is released
and the timer armed again, so in both cases the obligation holds along a run exactly if the handler
never runs before the first transmission.
-/

namespace UcsmaRateControl

variable {K : Kernel} {s t : Node} {e : Event} {es : List Event} {i : InitInput}

/-! ## The lock -/

/-- The lock is free while no handler runs, the interrupt handlers that have returned have returned
a value, and none waits for the lock. -/
structure Node.Released (s : Node) : Prop where
  free : s.halted = none → s.driverLock = false
  value : .irq none ∉ s.finished
  not_spinning : s.halted ≠ some .spinning

theorem Booted.released (h : Booted s i) : s.Released :=
  ⟨fun _ ↦ h.driverLock, by rw [h.finished]; exact List.not_mem_nil,
    by rw [h.running]; exact nofun⟩

/-- A finished call other than a bare `return` of the interrupt handler. -/
theorem Node.Released.value_cons (h : s.Released) {f : Finished} (hf : .irq none ≠ f) :
    .irq none ∉ f :: s.finished := List.not_mem_cons_of_ne_of_not_mem hf h.value

/-- Whether a step is a pulse before the first transmission. -/
def PulseFindsList (s : Node) (e : Event) : Prop := ∀ j, e = .pulse j → s.txbufFff.isSome = true

/-- A step keeps the lock balanced exactly if it is no pulse before the first transmission. -/
theorem Node.Released.step_iff (h : s.Released) (hst : (unlockNode K).step s e = some t) :
    t.Released ↔ PulseFindsList s e := by
  cases Took.of_step hst with
  | fireNull j garbage due null =>
    exact iff_of_true ⟨h.free, h.value_cons nofun, h.not_spinning⟩ nofun
  | fireSome j garbage due txbuf list =>
    exact iff_of_true ⟨h.free, h.value_cons nofun, h.not_spinning⟩ nofun
  | pulseSpins j arrives locked =>
    exact absurd locked (Bool.eq_false_iff.mp (h.free arrives.running))
  -- the one path that keeps the lock
  | pulseNull j arrives free null =>
    refine iff_of_false (fun ht ↦ ht.value List.mem_cons_self) fun hlist ↦ ?_
    exact Option.isSome_iff_ne_none.mp (hlist j rfl) null
  | pulseRejects j arrives free txbuf list rejects =>
    exact iff_of_true ⟨fun _ ↦ free, h.value_cons nofun, h.not_spinning⟩
      fun _ _ ↦ Option.isSome_of_eq_some list
  | pulseTraps j arrives txbuf list accepts zero =>
    exact iff_of_true ⟨nofun, h.value, nofun⟩ fun _ _ ↦ accepts.2.1
  | pulseAccepts j arrives txbuf list accepts nonzero =>
    exact iff_of_true ⟨fun _ ↦ rfl, h.value_cons nofun, h.not_spinning⟩ fun _ _ ↦ accepts.2.1
  | setT | setDelta | txbuf | tick => exact iff_of_true ⟨h.free, h.value, h.not_spinning⟩ nofun

/-- **Balance of the lock.** Along a run from a successful `unlock_init` the lock is free between
handlers, every interrupt handler returns a value and none waits for the lock, if and only if no
pulse arrives before the first transmission. -/
theorem released_iff_of_run (hs : Started s i) (h : (unlockNode K).run s es = some t) :
    (unlockNode K).Throughout Node.Released s es ↔ (unlockNode K).Meets PulseFindsList s es :=
  Machine.throughout_iff_meets hs.booted.released
    (fun _ _ _ _ _ hu huv ↦ hu.step_iff huv) h

/-- A run of a pulse after the first transmission keeps the lock balanced. -/
theorem released_iff_of_run_pulse :
    (unlockNode .linux).Throughout Node.Released (defaultNode (some .empty))
      [.pulse ⟨1000, 0, 0, 0, 0⟩] := by
  have hrun : ((unlockNode .linux).run (defaultNode (some .empty))
      [.pulse ⟨1000, 0, 0, 0, 0⟩]).isSome = true := by decide +kernel
  obtain ⟨t, ht⟩ := Option.isSome_iff_exists.mp hrun
  exact (released_iff_of_run (started_defaultNode _) ht).mpr
    (Machine.meets_singleton.mpr fun _ _ ↦ rfl)

/-- The first pulse before the first transmission leaves the lock held, and the second waits for it
for ever. -/
theorem exists_spinning_run :
    ∃ t u, (unlockNode .linux).run (defaultNode none) [.pulse ⟨1000, 0, 0, 0, 0⟩] = some t ∧
      t.halted = none ∧ t.driverLock = true ∧ ¬t.Released ∧
      (unlockNode .linux).step t (.pulse ⟨2000, 0, 0, 0, 0⟩) = some u ∧
      u.halted = some .spinning :=
  ⟨_, _, rfl, rfl, rfl, fun h ↦ h.value List.mem_cons_self, rfl, rfl⟩

/-! ## The timer -/

/-- While no handler runs the timer is pending, due after every callback that has run, and every
callback has forwarded it and asked for a restart. -/
structure Node.Periodic (s : Node) : Prop where
  pending : s.halted = none → s.unlockTimer.pending = true
  due : s.halted = none → ∀ stop expires ret, .timer stop expires ret ∈ s.finished →
    stop < s.unlockTimer.expires
  restarts : ∀ stop expires ret, .timer stop expires ret ∈ s.finished →
    stop < expires ∧ ret = some .restart

/-- The callbacks that have run have ended by now. -/
def Node.Ended (s : Node) : Prop :=
  ∀ stop expires ret, .timer stop expires ret ∈ s.finished → stop ≤ s.clock

theorem Booted.periodic (h : Booted s i) : s.Periodic := by
  refine ⟨fun _ ↦ by rw [h.unlockTimer]; rfl, fun _ stop expires ret hmem ↦ ?_,
    fun stop expires ret hmem ↦ ?_⟩ <;> rw [h.finished] at hmem <;>
    exact absurd hmem List.not_mem_nil

theorem Booted.ended (h : Booted s i) : s.Ended := by
  intro stop expires ret hmem
  rw [h.finished] at hmem
  exact absurd hmem List.not_mem_nil

theorem Node.Ended.step (h : s.Ended) (hst : Took K s e t) : t.Ended := by
  intro stop expires ret hmem
  have hle : s.clock ≤ t.clock := hst.clock_le
  have hold : .timer stop expires ret ∈ s.finished → stop ≤ t.clock :=
    fun hm ↦ (h stop expires ret hm).trans hle
  cases hst with
  | fireNull j garbage due null =>
    rcases List.mem_cons.mp hmem with heq | hm
    · exact (Finished.timer.inj heq).1.le
    · exact hold hm
  | fireSome j garbage due txbuf list =>
    rcases List.mem_cons.mp hmem with heq | hm
    · exact (Finished.timer.inj heq).1.le
    · exact hold hm
  | pulseNull | pulseRejects | pulseAccepts =>
    exact hold ((List.mem_cons.mp hmem).resolve_left nofun)
  | _ => exact hold hmem

theorem Node.Ended.of_run (hs : s.Ended) (h : (unlockNode K).run s es = some t) : t.Ended :=
  Machine.invariant (P := Node.Ended) (fun _ _ _ hu huv ↦ hu.step (Took.of_step huv)) hs h

/-- A handler that returns without touching the timer. -/
theorem Node.Periodic.irq {ret : Option IrqReturn} (h : s.Periodic) (hrun : t.halted = s.halted)
    (htimer : t.unlockTimer = s.unlockTimer) (hfin : t.finished = .irq ret :: s.finished) :
    t.Periodic := by
  have hold : ∀ {stop expires ret}, .timer stop expires ret ∈ t.finished →
      .timer stop expires ret ∈ s.finished := by
    intro stop expires ret hmem
    rw [hfin] at hmem
    exact (List.mem_cons.mp hmem).resolve_left nofun
  refine ⟨?_, fun ht stop expires ret hmem ↦ ?_,
    fun stop expires ret hmem ↦ h.restarts stop expires ret (hold hmem)⟩
  · rw [hrun, htimer]
    exact h.pending
  · rw [htimer]
    exact h.due (hrun ▸ ht) stop expires ret (hold hmem)

/-- Whether a step is an expiry before the first transmission. -/
def FireFindsList (s : Node) (e : Event) : Prop :=
  ∀ j garbage, e = .fire j garbage → s.txbufFff.isSome = true

/-- A step keeps the timer going exactly if it is no expiry before the first transmission. -/
theorem Node.Periodic.step_iff (hK : 0 < K.udelay1) (h : s.Periodic) (hend : s.Ended)
    (hst : (unlockNode K).step s e = some t) : t.Periodic ↔ FireFindsList s e := by
  cases Took.of_step hst with
  -- the one path that forgets the timer
  | fireNull j garbage due null =>
    refine iff_of_false (fun ht ↦ ?_) fun hlist ↦ ?_
    · exact nomatch (ht.restarts _ _ _ List.mem_cons_self).2
    · exact Option.isSome_iff_ne_none.mp (hlist j garbage rfl) null
  | fireSome j garbage due txbuf list =>
    have hlt := K.lt_forward s.unlockTimer.expires j.stop (s.T * 1000).toNat
    refine iff_of_true ⟨fun _ ↦ rfl, fun _ stop expires ret hmem ↦ ?_,
      fun stop expires ret hmem ↦ ?_⟩ fun _ _ _ ↦ Option.isSome_of_eq_some list
    · rcases List.mem_cons.mp hmem with heq | hm
      · exact (Finished.timer.inj heq).1 ▸ hlt
      · have hle : stop ≤ j.stop := (hend stop expires ret hm).trans
          (due.clock_le.trans ((Nat.le_add_right _ _).trans due.stop_le))
        exact hle.trans_lt hlt
    · rcases List.mem_cons.mp hmem with heq | hm
      · obtain ⟨rfl, rfl, rfl⟩ := Finished.timer.inj heq
        exact ⟨hlt, rfl⟩
      · exact h.restarts stop expires ret hm
  | pulseAccepts j arrives txbuf list accepts nonzero =>
    refine iff_of_true ⟨fun _ ↦ rfl, fun _ stop expires ret hmem ↦ ?_,
      fun stop expires ret hmem ↦ ?_⟩ nofun
    · have hm := (List.mem_cons.mp hmem).resolve_left nofun
      calc stop ≤ s.clock := hend stop expires ret hm
        _ ≤ j.now := arrives.clock_le
        _ < j.now + K.udelay1 := Nat.lt_add_of_pos_right hK
        _ ≤ j.restored := (Nat.le_add_right _ _).trans (arrives.timed accepts).1
        _ ≤ j.armed := (arrives.timed accepts).2
        _ ≤ j.armed + s.rearmDelay j := Nat.le_add_right _ _
    · exact h.restarts stop expires ret ((List.mem_cons.mp hmem).resolve_left nofun)
  | pulseSpins | pulseTraps => exact iff_of_true ⟨nofun, nofun, h.restarts⟩ nofun
  | pulseNull j arrives free null => exact iff_of_true (h.irq rfl rfl rfl) nofun
  | pulseRejects j arrives free txbuf list rejects => exact iff_of_true (h.irq rfl rfl rfl) nofun
  | setT | setDelta | txbuf | tick => exact iff_of_true ⟨h.pending, h.due, h.restarts⟩ nofun

/-- **The timer keeps going.** Along a run from a successful `unlock_init` the timer is always
pending between handlers, due after every callback, and every callback has forwarded it and
returned `HRTIMER_RESTART`, if and only if it never expires before the first transmission. -/
theorem periodic_iff_of_run (hK : 0 < K.udelay1) (hs : Started s i)
    (h : (unlockNode K).run s es = some t) :
    (unlockNode K).Throughout Node.Periodic s es ↔ (unlockNode K).Meets FireFindsList s es :=
  Machine.throughout_iff_meets hs.booted.periodic
    (fun _ _ _ _ hpre hu huv ↦ hu.step_iff hK (hs.booted.ended.of_run hpre) huv) h

/-- A run of one expiry after the first transmission keeps the timer going. -/
theorem periodic_iff_of_run_fire :
    (unlockNode .linux).Throughout Node.Periodic (defaultNode (some .empty))
      [.fire ⟨20000000, 20001000⟩ .restart] := by
  have hrun : ((unlockNode .linux).run (defaultNode (some .empty))
      [.fire ⟨20000000, 20001000⟩ .restart]).isSome = true := by decide +kernel
  obtain ⟨t, ht⟩ := Option.isSome_iff_exists.mp hrun
  exact (periodic_iff_of_run (by decide) (started_defaultNode _) ht).mpr
    (Machine.meets_singleton.mpr fun _ _ _ ↦ rfl)

/-- One expiry before the first transmission, with the return register holding
`HRTIMER_NORESTART`, stops the timer. -/
theorem exists_stopped_run :
    ∃ t, (unlockNode .linux).run (defaultNode none) [.fire ⟨20000000, 20001000⟩ .noRestart] =
        some t ∧
      t.halted = none ∧ t.unlockTimer.pending = false ∧
      .timer 20001000 20000000 none ∈ t.finished ∧ ¬t.Periodic :=
  ⟨_, rfl, rfl, rfl, List.mem_cons_self,
    fun h ↦ nomatch (h.restarts _ _ _ List.mem_cons_self).2⟩

end UcsmaRateControl
