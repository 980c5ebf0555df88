import UcsmaRateControl.Machine.Run
import UcsmaRateControl.Unlock.Handlers

/-!
# One node

A node is the state of `unlock.c` together with the clock. It moves when its timer expires, when a
pulse arrives on `UNLOCK_IN`, when a parameter is written through sysfs, when the driver sets
`txbuf_fff` or relinks the buffers behind it, and when time passes. Handlers run one at a time: the
boards have a single core and both handlers run with interrupts off, so a handler occupies the
clock from its start to its end and the next event comes later.

What the source leaves open is in the labels: clock readings, random draws, and what the kernel
finds in the return register after a callback that returned no value.

`Took` is the inversion of the step function, one constructor for each path of each handler. Every
invariant below is a case analysis on it.
-/

namespace UcsmaRateControl

/-- Why a node is stuck inside its interrupt handler. -/
inductive Halt
  /-- It waits for `driver_lock`. -/
  | spinning
  /-- It divided by zero. -/
  | trapped
deriving DecidableEq

/-- A handler call that has returned. -/
inductive Finished
  /-- A timer callback: when it ended, the expiry it left, what it returned. -/
  | timer (stop expires : ℕ) (ret : Option HrtimerRestart)
  /-- An interrupt handler: what it returned. -/
  | irq (ret : Option IrqReturn)
deriving DecidableEq

/-- The state of a node. -/
structure Node extends Globals where
  /-- The clock, in nanoseconds. -/
  clock : ℕ
  /-- Set when a handler never returned. -/
  halted : Option Halt
  /-- The handler calls that have returned, newest first. -/
  finished : List Finished

/-- What can happen to a node. -/
inductive Event
  /-- `unlock_timer` expires. After a bare `return` the kernel acts on `garbage`. -/
  | fire (i : FireInput) (garbage : HrtimerRestart)
  /-- A pulse arrives on `UNLOCK_IN`. -/
  | pulse (i : IrqInput)
  /-- `T` is written through sysfs. -/
  | setT (T : UInt32)
  /-- `Delta` is written through sysfs. -/
  | setDelta (Delta : UInt32)
  /-- The first transmission sets `txbuf_fff`, later ones relink the buffers of the list. -/
  | txbuf (txbuf : ListHead)
  /-- Time passes. -/
  | tick (t : ℕ)

/-! ## Acceptance -/

namespace Globals

variable (g : Globals)

/-- The handler gets past the lock, the pointer test and the debounce test. -/
def Accepts (i : IrqInput) : Prop :=
  g.driverLock = false ∧ g.txbufFff.isSome = true ∧ ¬g.Rejects i.now

instance (i : IrqInput) : Decidable (g.Accepts i) := inferInstanceAs (Decidable (_ ∧ _ ∧ _))

section

variable {g} {i : IrqInput}

theorem not_accepts_of_locked (h : g.driverLock = true) : ¬g.Accepts i :=
  fun ha ↦ Bool.eq_false_iff.mp ha.1 h

theorem not_accepts_of_null (h : g.txbufFff = none) : ¬g.Accepts i :=
  fun ha ↦ Option.isSome_iff_ne_none.mp ha.2.1 h

theorem not_accepts_of_rejects (h : g.Rejects i.now) : ¬g.Accepts i := fun ha ↦ ha.2.2 h

end

/-- The clock readings of an accepted pulse are in order, with `udelay(1)` and `ndelay` taking at
least as long as they should. -/
def Timed (K : Kernel) (i : IrqInput) : Prop :=
  i.now + K.udelay1 + (g.backoffOf i * 1000).toNat ≤ i.restored ∧ i.restored ≤ i.armed

instance (K : Kernel) (i : IrqInput) : Decidable (g.Timed K i) :=
  inferInstanceAs (Decidable (_ ∧ _))

variable {g} in
theorem Timed.now_le {K : Kernel} {i : IrqInput} (h : g.Timed K i) : i.now ≤ i.armed :=
  (Nat.le_add_right_of_le (Nat.le_add_right _ _)).trans (h.1.trans h.2)

end Globals

/-! ## The step function -/

namespace Node

variable (K : Kernel) (s : Node)

/-- The timer may run its callback now. -/
structure Due (i : FireInput) : Prop where
  running : s.halted = none
  pending : s.unlockTimer.pending = true
  expires_le : s.unlockTimer.expires ≤ i.start
  clock_le : s.clock ≤ i.start
  stop_le : i.start + K.udelay1 ≤ i.stop

/-- A pulse may be delivered now. -/
structure Arrives (i : IrqInput) : Prop where
  running : s.halted = none
  held : s.irqHeld = true
  clock_le : s.clock ≤ i.now
  timed : s.Accepts i → s.Timed K i

instance (i : FireInput) : Decidable (s.Due K i) :=
  decidable_of_iff
    (s.halted = none ∧ s.unlockTimer.pending = true ∧ s.unlockTimer.expires ≤ i.start ∧
      s.clock ≤ i.start ∧ i.start + K.udelay1 ≤ i.stop)
    ⟨fun ⟨h1, h2, h3, h4, h5⟩ ↦ ⟨h1, h2, h3, h4, h5⟩,
      fun ⟨h1, h2, h3, h4, h5⟩ ↦ ⟨h1, h2, h3, h4, h5⟩⟩

instance (i : IrqInput) : Decidable (s.Arrives K i) :=
  decidable_of_iff
    (s.halted = none ∧ s.irqHeld = true ∧ s.clock ≤ i.now ∧ (s.Accepts i → s.Timed K i))
    ⟨fun ⟨h1, h2, h3, h4⟩ ↦ ⟨h1, h2, h3, h4⟩, fun ⟨h1, h2, h3, h4⟩ ↦ ⟨h1, h2, h3, h4⟩⟩

/-- The kernel dequeues the timer, calls it back, and queues it again if it is told to. -/
def fire (i : FireInput) (garbage : HrtimerRestart) : Node :=
  let (g, ret) := unlockTimerHandler K (s.setTimer ⟨s.unlockTimer.expires, false⟩) i
  { toGlobals := g.setTimer ⟨g.unlockTimer.expires, decide (ret.getD garbage = .restart)⟩
    clock := i.stop
    halted := s.halted
    finished := .timer i.stop g.unlockTimer.expires ret :: s.finished }

/-- The kernel calls the interrupt handler. -/
def pulse (i : IrqInput) : Node :=
  match unlockRIrqHandler s.toGlobals i with
  | (g, .returns v) =>
    { toGlobals := g
      clock := if s.Accepts i then i.armed else i.now
      halted := s.halted
      finished := .irq v :: s.finished }
  | (g, .spins) => { s with toGlobals := g, clock := i.now, halted := some .spinning }
  | (g, .traps) => { s with toGlobals := g, clock := i.now, halted := some .trapped }

end Node

/-- The machine of one node. -/
def unlockNode (K : Kernel) : Machine Node Event where
  step s
    | .fire i garbage => if s.Due K i then some (s.fire K i garbage) else none
    | .pulse i => if s.Arrives K i then some (s.pulse i) else none
    | .setT T => if s.halted = none then some { s with T } else none
    | .setDelta Delta => if s.halted = none then some { s with Delta } else none
    | .txbuf txbuf => if s.halted = none then some { s with txbufFff := some txbuf } else none
    | .tick t => if s.halted = none ∧ s.clock ≤ t then some { s with clock := t } else none

/-! ## Loading -/

/-- The module's own variables as `insmod` leaves them. The parameters may have been set. -/
structure Globals.Fresh (g : Globals) : Prop where
  lastUnlock : g.lastUnlock = 0
  lastUnlock2nd : g.lastUnlock2nd = 0
  driverLock : g.driverLock = false
  unlockTimer : g.unlockTimer.pending = false
  gpiosHeld : g.gpiosHeld = false
  irqHeld : g.irqHeld = false
  unlockOut : g.unlockOut = []

/-- The node after `unlock_init`. -/
def Node.boot (g : Globals) (i : InitInput) : Node where
  toGlobals := (unlockInit g i).1
  clock := i.started
  halted := none
  finished := []

/-- The node has just been started by an `unlock_init` that succeeded. -/
def Started (s : Node) (i : InitInput) : Prop :=
  ∃ g : Globals, g.Fresh ∧ i.stamp ≤ i.started ∧ (unlockInit g i).2 = 0 ∧ s = Node.boot g i

/-- What a successful `unlock_init` establishes. -/
structure Booted (s : Node) (i : InitInput) : Prop where
  stamp_le : i.stamp ≤ s.clock
  lastUnlock : s.lastUnlock = Timespec.ofNs i.stamp
  lastUnlock2nd : s.lastUnlock2nd = 0
  driverLock : s.driverLock = false
  unlockTimer : s.unlockTimer = hrtimerStart s.clock (s.T * 1000).toNat
  gpiosHeld : s.gpiosHeld = true
  irqHeld : s.irqHeld = true
  unlockOut : s.unlockOut = []
  running : s.halted = none
  finished : s.finished = []

theorem Started.booted {s : Node} {i : InitInput} (h : Started s i) : Booted s i := by
  obtain ⟨g, hg, hle, hret, rfl⟩ := h
  obtain ⟨-, h2nd, hlock, -, -, -, hout⟩ := hg
  rw [unlockInit_snd] at hret
  have hinit := unlockInit_of_ret g hret
  refine ⟨hle, ?_, ?_, ?_, ?_, ?_, ?_, ?_, rfl, rfl⟩ <;> rw [Node.boot, hinit]
  · exact h2nd
  · exact hlock
  · exact hout

/-- Default parameters, and a chip that is awake with all registers zero. -/
def defaultGlobals (txbuf : Option ListHead) : Globals where
  T := 20000
  Delta := 100
  unlockIrq := 0
  lastUnlock := 0
  lastUnlock2nd := 0
  unlockTimer := ⟨0, false⟩
  slottimeClock := 0
  sifsClock := 0
  eifsClock := 0
  driverLock := false
  gpiosHeld := false
  irqHeld := false
  txbufFff := txbuf
  bufCounter := 0
  hasChanged := 0
  ah :=
    { powerMode := .awake
      regs := fun _ ↦ 0
      forceQuietColl := 0x00040000
      unlockingLogging := false
      forceQuietBitRestore := true
      maxTimingCount := 0
      unlocked := false
      lastForceQuietRestore := 0
      accesses := [] }
  unlockOut := []

/-- A node with default parameters, started at time zero. -/
def defaultNode (txbuf : Option ListHead) : Node :=
  Node.boot (defaultGlobals txbuf) ⟨0, 0, 0, 30, 0⟩

theorem started_defaultNode (txbuf : Option ListHead) :
    Started (defaultNode txbuf) ⟨0, 0, 0, 30, 0⟩ :=
  ⟨defaultGlobals txbuf, ⟨rfl, rfl, rfl, rfl, rfl, rfl, rfl⟩, le_rfl, rfl, rfl⟩

/-! ## What one step can do -/

/-- The paths a step can take, with what holds before it and the state after it. -/
inductive Took (K : Kernel) (s : Node) : Event → Node → Prop
  | fireNull (i : FireInput) (garbage : HrtimerRestart) (due : s.Due K i)
      (null : s.txbufFff = none) :
      Took K s (.fire i garbage)
        { toGlobals :=
            (s.pulseOut i.start .timer).setTimer
              ⟨s.unlockTimer.expires, decide (garbage = .restart)⟩
          clock := i.stop
          halted := s.halted
          finished := .timer i.stop s.unlockTimer.expires none :: s.finished }
  | fireSome (i : FireInput) (garbage : HrtimerRestart) (due : s.Due K i) (txbuf : ListHead)
      (list : s.txbufFff = some txbuf) :
      Took K s (.fire i garbage)
        { toGlobals :=
            (s.fired K txbuf i).setTimer
              ⟨K.forward s.unlockTimer.expires i.stop (s.T * 1000).toNat, true⟩
          clock := i.stop
          halted := s.halted
          finished := .timer i.stop (K.forward s.unlockTimer.expires i.stop (s.T * 1000).toNat)
            (some .restart) :: s.finished }
  | pulseSpins (i : IrqInput) (arrives : s.Arrives K i) (locked : s.driverLock = true) :
      Took K s (.pulse i) { s with clock := i.now, halted := some .spinning }
  | pulseNull (i : IrqInput) (arrives : s.Arrives K i) (free : s.driverLock = false)
      (null : s.txbufFff = none) :
      Took K s (.pulse i)
        { toGlobals := { s.toGlobals with driverLock := true }
          clock := i.now
          halted := s.halted
          finished := .irq none :: s.finished }
  | pulseRejects (i : IrqInput) (arrives : s.Arrives K i) (free : s.driverLock = false)
      (txbuf : ListHead) (list : s.txbufFff = some txbuf) (rejects : s.Rejects i.now) :
      Took K s (.pulse i)
        { toGlobals := s.sample txbuf
          clock := i.now
          halted := s.halted
          finished := .irq (some .irqHandled) :: s.finished }
  | pulseTraps (i : IrqInput) (arrives : s.Arrives K i) (txbuf : ListHead)
      (list : s.txbufFff = some txbuf) (accepts : s.Accepts i) (zero : s.Delta + s.Delta = 0) :
      Took K s (.pulse i)
        { s with toGlobals := s.relayed txbuf i, clock := i.now, halted := some .trapped }
  | pulseAccepts (i : IrqInput) (arrives : s.Arrives K i) (txbuf : ListHead)
      (list : s.txbufFff = some txbuf) (accepts : s.Accepts i) (nonzero : s.Delta + s.Delta ≠ 0) :
      Took K s (.pulse i)
        { toGlobals := s.accepted txbuf i
          clock := i.armed
          halted := s.halted
          finished := .irq (some .irqHandled) :: s.finished }
  | setT (T : UInt32) (running : s.halted = none) : Took K s (.setT T) { s with T }
  | setDelta (Delta : UInt32) (running : s.halted = none) :
      Took K s (.setDelta Delta) { s with Delta }
  | txbuf (txbuf : ListHead) (running : s.halted = none) :
      Took K s (.txbuf txbuf) { s with txbufFff := some txbuf }
  | tick (t : ℕ) (running : s.halted = none) (le : s.clock ≤ t) :
      Took K s (.tick t) { s with clock := t }

section Steps

variable {K : Kernel} {s t : Node} {e : Event}

theorem Took.of_pulse {i : IrqInput} (h : s.Arrives K i) : Took K s (.pulse i) (s.pulse i) := by
  cases hl : s.driverLock with
  | true =>
    rw [Node.pulse, unlockRIrqHandler_of_locked i hl]
    exact .pulseSpins i h hl
  | false =>
    cases ht : s.txbufFff with
    | none =>
      rw [Node.pulse, unlockRIrqHandler_of_none i hl ht]
      simp only [if_neg (Globals.not_accepts_of_null ht)]
      exact .pulseNull i h hl ht
    | some txbuf =>
      rw [Node.pulse, unlockRIrqHandler_of_some i hl ht]
      by_cases hr : s.Rejects i.now
      · simp only [if_pos hr, if_neg (Globals.not_accepts_of_rejects hr)]
        exact .pulseRejects i h hl txbuf ht hr
      · have hacc : s.Accepts i := ⟨hl, Option.isSome_of_eq_some ht, hr⟩
        by_cases hD : s.Delta + s.Delta = 0
        · simp only [if_neg hr, if_pos hD]
          exact .pulseTraps i h txbuf ht hacc hD
        · simp only [if_neg hr, if_neg hD, if_pos hacc]
          exact .pulseAccepts i h txbuf ht hacc hD

theorem Took.of_fire {i : FireInput} (garbage : HrtimerRestart) (h : s.Due K i) :
    Took K s (.fire i garbage) (s.fire K i garbage) := by
  cases ht : s.txbufFff with
  | none =>
    have hnone : (s.setTimer ⟨s.unlockTimer.expires, false⟩).txbufFff = none := ht
    rw [Node.fire, unlockTimerHandler_of_none K i hnone]
    exact .fireNull i garbage h ht
  | some txbuf =>
    have hsome : (s.setTimer ⟨s.unlockTimer.expires, false⟩).txbufFff = some txbuf := ht
    rw [Node.fire, unlockTimerHandler_of_some K i hsome]
    exact .fireSome i garbage h txbuf ht

/-- **The inversion of a step.** -/
theorem Took.of_step (h : (unlockNode K).step s e = some t) : Took K s e t := by
  cases e with
  | fire i garbage =>
    obtain ⟨hc, ⟨⟩⟩ := Option.ite_none_right_eq_some.mp h
    exact .of_fire garbage hc
  | pulse i =>
    obtain ⟨hc, ⟨⟩⟩ := Option.ite_none_right_eq_some.mp h
    exact .of_pulse hc
  | setT T =>
    obtain ⟨hc, ⟨⟩⟩ := Option.ite_none_right_eq_some.mp h
    exact .setT T hc
  | setDelta Delta =>
    obtain ⟨hc, ⟨⟩⟩ := Option.ite_none_right_eq_some.mp h
    exact .setDelta Delta hc
  | txbuf txbuf =>
    obtain ⟨hc, ⟨⟩⟩ := Option.ite_none_right_eq_some.mp h
    exact .txbuf txbuf hc
  | tick t =>
    obtain ⟨hc, ⟨⟩⟩ := Option.ite_none_right_eq_some.mp h
    exact .tick t hc.1 hc.2

/-- An accepted pulse that traps nothing is served to the end. -/
theorem step_of_accepts {i : IrqInput} (h : s.Arrives K i) (ha : s.Accepts i)
    (hD : s.Delta + s.Delta ≠ 0) :
    ∃ txbuf, s.txbufFff = some txbuf ∧ (unlockNode K).step s (.pulse i) =
      some ⟨s.accepted txbuf i, i.armed, s.halted, .irq (some .irqHandled) :: s.finished⟩ := by
  obtain ⟨txbuf, htx⟩ := Option.isSome_iff_exists.mp ha.2.1
  refine ⟨txbuf, htx, (if_pos h).trans (congrArg some ?_)⟩
  rw [Node.pulse, unlockRIrqHandler_of_some i ha.1 htx, if_neg ha.2.2, if_neg hD]
  simp only [if_pos ha]

theorem Took.clock_le (h : Took K s e t) : s.clock ≤ t.clock := by
  cases h with
  | fireNull i garbage due => exact due.clock_le.trans ((Nat.le_add_right _ _).trans due.stop_le)
  | fireSome i garbage due => exact due.clock_le.trans ((Nat.le_add_right _ _).trans due.stop_le)
  | pulseSpins i arrives => exact arrives.clock_le
  | pulseNull i arrives => exact arrives.clock_le
  | pulseRejects i arrives => exact arrives.clock_le
  | pulseTraps i arrives => exact arrives.clock_le
  | pulseAccepts i arrives txbuf list accepts =>
    exact arrives.clock_le.trans (arrives.timed accepts).now_le
  | setT | setDelta | txbuf => exact le_rfl
  | tick t running le => exact le

theorem Took.T_eq (h : Took K s e t) (hne : ∀ T, e ≠ .setT T) : t.T = s.T := by
  cases h with
  | setT T => exact absurd rfl (hne T)
  | _ => rfl

/-- A run under a condition that rules out writes to `T` keeps the period. -/
theorem T_eq_of_meets {C : Node → Event → Prop} (hC : ∀ u T, ¬C u (.setT T)) {es : List Event}
    (hmeets : (unlockNode K).Meets C s es) (h : (unlockNode K).run s es = some t) : t.T = s.T := by
  refine Machine.invariant_of_meets (P := fun u : Node ↦ u.T = s.T) ?_ rfl hmeets h
  intro u e v hu he huv
  exact ((Took.of_step huv).T_eq fun T heq ↦ hC u T (heq ▸ he)).trans hu

theorem clock_le_of_run {es : List Event} (h : (unlockNode K).run s es = some t) :
    s.clock ≤ t.clock :=
  Machine.invariant (P := fun u : Node ↦ s.clock ≤ u.clock)
    (fun _ _ _ hu huv ↦ hu.trans (Took.of_step huv).clock_le) le_rfl h

/-! ## What one step emits -/

/-- The pulses that an event puts out on `UNLOCK_OUT`. -/
def emissions (s : Node) : Event → List Emission
  | .fire i _ => [⟨i.start, .timer⟩]
  | .pulse i => if s.Accepts i then [⟨i.now, .relay⟩] else []
  | _ => []

theorem unlockOut_step (hst : (unlockNode K).step s e = some t) :
    t.unlockOut = emissions s e ++ s.unlockOut := by
  cases Took.of_step hst with
  | pulseSpins i arrives locked =>
    rw [emissions, if_neg (Globals.not_accepts_of_locked locked), List.nil_append]
  | pulseNull i arrives free null =>
    rw [emissions, if_neg (Globals.not_accepts_of_null null), List.nil_append]
  | pulseRejects i arrives free txbuf list rejects =>
    rw [emissions, if_neg (Globals.not_accepts_of_rejects rejects), List.nil_append]
    rfl
  | pulseTraps i arrives txbuf list accepts => rw [emissions, if_pos accepts]; rfl
  | pulseAccepts i arrives txbuf list accepts => rw [emissions, if_pos accepts]; rfl
  | _ => rfl

end Steps

end UcsmaRateControl
