import UcsmaRateControl.Unlock.Debounce
import Mathlib.Logic.Function.Basic

/-!
# The functions of `unlock_with_log.c`

`unlock_with_log.c` is `unlock.c` with a log of its pulses in place of the sampling of the transmit
buffers. The log has room for a thousand entries, and a handler that finds it full does not emit its
pulse either. The timer callback forwards its timer, as in `unlock.c`, but then tells the kernel not
to queue it.
-/

namespace UcsmaRateControl.WithLog

/-- `struct gpio_log`. -/
structure GpioLog where
  time : Timespec
  triggeredByTimer : Int32
deriving DecidableEq

/-- `RECORD_COUNT`. -/
def recordCount : UInt32 := 1000

/-- The variables of `unlock_with_log.c`. Of those of `unlock.c` it has no use for the three clocks
of the chip, and it imports neither `txbuf_fff` nor the two variables that publish the samples. -/
structure Globals extends toShared : UcsmaRateControl.Globals where
  /-- The array `log`. -/
  log : ℕ → GpioLog
  curCount : UInt32
  /-- What `print_log` has printed, a list for each call, newest first. -/
  printed : List (List GpioLog)

namespace Globals

variable (g : Globals)

/-- `print_log`. -/
def printLog : Globals :=
  { g with printed := (List.range recordCount.toNat).map g.log :: g.printed }

/-- The guarded block of both handlers: while the log has room, make an entry and pulse
`UNLOCK_OUT`; the entry that fills the log prints it. -/
def record (stamp : ℕ) (triggeredByTimer : Int32) (time : ℕ) (source : Source) : Globals :=
  if g.curCount < recordCount then
    let g := { g with
      log := Function.update g.log g.curCount.toNat ⟨Timespec.ofNs stamp, triggeredByTimer⟩ }
    let g := { g with curCount := g.curCount + 1 }
    let g := { g with toShared := g.pulseOut time source }
    if g.curCount = recordCount then g.printLog else g
  else g

end Globals

/-- `unlock_timer_handler`. The log is stamped with a clock reading of its own. -/
def unlockTimerHandler (K : Kernel) (g : Globals) (i : FireInput) (stamp : ℕ) :
    Globals × HrtimerRestart :=
  let g := g.record stamp 1 i.start .timer
  ({ g with unlockTimer := K.hrtimerForwardNow g.unlockTimer i.stop (g.T * 1000).toNat },
    .noRestart)

/-- Hold the medium quiet for the backoff. -/
def forceQuiet (ah : AthHw) : AthHw :=
  let ah := ah.regSetBit .pcuMisc ah.forceQuietColl
  ah.regClrBit .pcuMisc ah.forceQuietColl

/-- `unlock_r_irq_handler`. -/
def unlockRIrqHandler (g : Globals) (i : IrqInput) (stamp : ℕ) : Globals × IrqExit :=
  if g.driverLock then (g, .spins)
  else
    let g := { g with driverLock := true }
    if g.Rejects i.now then ({ g with driverLock := false }, .returns (some .irqHandled))
    else
      let g := { g with unlockTimer := hrtimerCancel g.unlockTimer }
      let g := g.record stamp 0 i.now .relay
      if g.Delta + g.Delta = 0 then (g, .traps)
      else
        let rng := i.rng % (g.Delta + g.Delta)
        let nextTimer := g.period rng
        let g := { g with lastUnlock2nd := g.lastUnlock, lastUnlock := Timespec.ofNs i.now }
        let backoff := i.backoff % (g.Delta + g.Delta)
        let g := { g with ah := forceQuiet g.ah }
        let nextTimer := clampTimer (nextTimer - backoff)
        let g := { g with unlockTimer := hrtimerStart i.armed (nextTimer * 1000).toNat }
        ({ g with driverLock := false }, .returns (some .irqHandled))

/-- `unlock_init`. -/
def unlockInit (g : Globals) (i : InitInput) : Globals × Int32 :=
  let g := { g with unlockTimer := ⟨0, false⟩ }
  let g := { g with lastUnlock := Timespec.ofNs i.stamp }
  let ret := i.gpioRequestArray
  if ret ≠ 0 then (g, ret)
  else
    let g := { g with gpiosHeld := true }
    -- the result passes through a `short`
    let g := { g with unlockIrq := i.gpioToIrq.toInt16 }
    let ret := g.unlockIrq.toInt32
    if ret < 0 then ({ g with toShared := g.gpioFreeArray }, ret)
    else
      let ret := i.requestIrq
      if ret ≠ 0 then ({ g with toShared := g.gpioFreeArray }, ret)
      else
        let g := { g with irqHeld := true }
        ({ g with unlockTimer := hrtimerStart i.started (g.T * 1000).toNat }, 0)

/-- `unlock_exit`, statement by statement. -/
def unlockExit : List ExitStep := [.cancelTimer, .freeIrq, .freeGpios]

/-! ## What one call does -/

namespace Globals

variable (g : Globals) (stamp : ℕ) (tag : Int32) (time : ℕ) (source : Source)

/-- Apart from the log, the block is the pulse or nothing. -/
theorem toShared_record :
    (g.record stamp tag time source).toShared =
      if g.curCount < recordCount then g.pulseOut time source else g.toShared := by
  rw [record]
  split
  · dsimp only
    split <;> rfl
  · rfl

theorem curCount_record :
    (g.record stamp tag time source).curCount =
      if g.curCount < recordCount then g.curCount + 1 else g.curCount := by
  rw [record]
  split
  · dsimp only
    split <;> rfl
  · rfl

/-- The state the timer callback leaves, once the kernel has dequeued its timer. -/
def fired (K : Kernel) (i : FireInput) : Globals :=
  { g.record stamp 1 i.start .timer with
    unlockTimer := ⟨K.forward g.unlockTimer.expires i.stop (g.T * 1000).toNat, false⟩ }

/-- The state after the relay of an accepted pulse, which is where a zero modulus traps. -/
def relayed (i : IrqInput) : Globals :=
  { g.record stamp 0 i.now .relay with
    driverLock := true
    unlockTimer := hrtimerCancel g.unlockTimer }

/-- The state an accepted pulse leaves. -/
def accepted (i : IrqInput) : Globals :=
  { g.record stamp 0 i.now .relay with
    driverLock := false
    lastUnlock := Timespec.ofNs i.now
    lastUnlock2nd := g.lastUnlock
    ah := forceQuiet g.ah
    unlockTimer := hrtimerStart i.armed (g.rearmDelay i) }

/-- With room in the log, an accepted pulse is relayed and serves the rest of the module. -/
theorem toShared_relayed (i : IrqInput) (h : g.curCount < recordCount) :
    (g.relayed stamp i).toShared =
      { g.pulseOut i.now .relay with
        driverLock := true
        unlockTimer := hrtimerCancel g.unlockTimer } := by
  have hout := g.toShared_record stamp 0 i.now .relay
  rw [if_pos h] at hout
  rw [← hout]
  rfl

theorem toShared_accepted (i : IrqInput) (h : g.curCount < recordCount) :
    (g.accepted stamp i).toShared =
      { g.pulseOut i.now .relay with
        driverLock := false
        lastUnlock := Timespec.ofNs i.now
        lastUnlock2nd := g.lastUnlock
        ah := forceQuiet g.ah
        unlockTimer := hrtimerStart i.armed (g.rearmDelay i) } := by
  have hout := g.toShared_record stamp 0 i.now .relay
  rw [if_pos h] at hout
  rw [← hout]
  rfl

/-- With no room in the log, nothing is emitted. -/
theorem unlockOut_record_of_full (h : ¬g.curCount < recordCount) :
    (g.record stamp tag time source).unlockOut = g.unlockOut := by
  rw [toShared_record, if_neg h]

end Globals

section Paths

variable {g : Globals}

theorem unlockRIrqHandler_of_locked (i : IrqInput) (stamp : ℕ) (h : g.driverLock = true) :
    unlockRIrqHandler g i stamp = (g, .spins) := if_pos h

/-- With the lock free, the handler drops the pulse, traps after relaying it, or accepts it. -/
theorem unlockRIrqHandler_of_free (i : IrqInput) (stamp : ℕ) (h : g.driverLock = false) :
    unlockRIrqHandler g i stamp =
      if g.Rejects i.now then (g, .returns (some .irqHandled))
      else if g.Delta + g.Delta = 0 then (g.relayed stamp i, .traps)
      else (g.accepted stamp i, .returns (some .irqHandled)) := by
  obtain ⟨⟨_⟩, log, curCount, printed⟩ := g
  cases h
  rw [unlockRIrqHandler, if_neg Bool.false_ne_true]
  refine ite_congr rfl (fun _ ↦ rfl) fun _ ↦ ?_
  -- the block of the log reads none of the variables written before it
  by_cases hlt : curCount < recordCount
  · by_cases heq : curCount + 1 = recordCount
    · simp only [Globals.relayed, Globals.accepted, Globals.record, if_pos hlt, if_pos heq]
      rfl
    · simp only [Globals.relayed, Globals.accepted, Globals.record, if_pos hlt, if_neg heq]
      rfl
  · simp only [Globals.relayed, Globals.accepted, Globals.record, if_neg hlt]
    rfl

theorem unlockInit_snd (g : Globals) (i : InitInput) : (unlockInit g i).2 = i.ret := by
  simp only [unlockInit, InitInput.ret]
  split_ifs with hgpio hirq hreq
  · rfl
  · rfl
  · rfl
  · exact (not_not.mp hreq).symm

theorem gpiosHeld_unlockInit (g : Globals) (i : InitInput) (hg : g.gpiosHeld = false) :
    (unlockInit g i).1.gpiosHeld = true ↔ i.ret = 0 := by
  rw [InitInput.ret_eq_zero_iff]
  simp only [unlockInit]
  split_ifs with hgpio hirq hreq
  · exact iff_of_false (Bool.eq_false_iff.mp hg) fun h ↦ hgpio h.1
  · exact iff_of_false Bool.false_ne_true fun h ↦ h.2.1 hirq
  · exact iff_of_false Bool.false_ne_true fun h ↦ hreq h.2.2
  · exact iff_of_true rfl ⟨not_not.mp hgpio, hirq, not_not.mp hreq⟩

/-- The state that a successful `unlock_init` leaves. -/
theorem unlockInit_of_ret (g : Globals) {i : InitInput} (h : i.ret = 0) :
    (unlockInit g i).1 =
      { g with
        unlockIrq := i.gpioToIrq.toInt16
        lastUnlock := Timespec.ofNs i.stamp
        unlockTimer := hrtimerStart i.started (g.T * 1000).toNat
        gpiosHeld := true
        irqHeld := true } := by
  obtain ⟨hgpio, hirq, hreq⟩ := InitInput.ret_eq_zero_iff.mp h
  simp only [unlockInit, hgpio, hirq, hreq, ne_eq, not_true_eq_false, if_false]

end Paths

/-! ## A node -/

/-- The state of a node that runs `unlock_with_log.c`. -/
structure Node extends Globals where
  /-- The clock, in nanoseconds. -/
  clock : ℕ
  /-- Set when a handler never returned. -/
  halted : Option Halt
  /-- The handler calls that have returned, newest first. -/
  finished : List Finished

namespace Globals

variable (g : Globals)

/-- The handler gets past the lock and the debounce test. -/
def Accepts (i : IrqInput) : Prop := g.driverLock = false ∧ ¬g.Rejects i.now

instance (i : IrqInput) : Decidable (g.Accepts i) := inferInstanceAs (Decidable (_ ∧ _))

/-- The time that the guarded block takes at least. -/
def delay (K : Kernel) : ℕ := if g.curCount < recordCount then K.udelay1 else 0

theorem delay_le (K : Kernel) : g.delay K ≤ K.udelay1 := by
  rw [delay]
  split
  · exact le_rfl
  · exact Nat.zero_le _

end Globals

namespace Node

variable (K : Kernel) (s : Node)

/-- The timer may run its callback now. -/
structure Due (i : FireInput) : Prop where
  running : s.halted = none
  pending : s.unlockTimer.pending = true
  expires_le : s.unlockTimer.expires ≤ i.start
  clock_le : s.clock ≤ i.start
  stop_le : i.start + s.delay K ≤ i.stop

/-- A pulse may be delivered now. -/
structure Arrives (i : IrqInput) : Prop where
  running : s.halted = none
  held : s.irqHeld = true
  clock_le : s.clock ≤ i.now
  timed : s.Accepts i → i.now + s.delay K + (s.backoffOf i * 1000).toNat ≤ i.armed

instance (i : FireInput) : Decidable (s.Due K i) :=
  decidable_of_iff
    (s.halted = none ∧ s.unlockTimer.pending = true ∧ s.unlockTimer.expires ≤ i.start ∧
      s.clock ≤ i.start ∧ i.start + s.delay K ≤ i.stop)
    ⟨fun ⟨h1, h2, h3, h4, h5⟩ ↦ ⟨h1, h2, h3, h4, h5⟩,
      fun ⟨h1, h2, h3, h4, h5⟩ ↦ ⟨h1, h2, h3, h4, h5⟩⟩

instance (i : IrqInput) : Decidable (s.Arrives K i) :=
  decidable_of_iff
    (s.halted = none ∧ s.irqHeld = true ∧ s.clock ≤ i.now ∧
      (s.Accepts i → i.now + s.delay K + (s.backoffOf i * 1000).toNat ≤ i.armed))
    ⟨fun ⟨h1, h2, h3, h4⟩ ↦ ⟨h1, h2, h3, h4⟩, fun ⟨h1, h2, h3, h4⟩ ↦ ⟨h1, h2, h3, h4⟩⟩

/-- The kernel dequeues the timer, calls it back, and queues it again if it is told to. -/
def fire (i : FireInput) (stamp : ℕ) : Node :=
  let (g, ret) := unlockTimerHandler K
    { s.toGlobals with unlockTimer := ⟨s.unlockTimer.expires, false⟩ } i stamp
  { toGlobals :=
      { g with unlockTimer := ⟨g.unlockTimer.expires, decide (ret = .restart)⟩ }
    clock := i.stop
    halted := s.halted
    finished := .timer i.stop g.unlockTimer.expires (some ret) :: s.finished }

/-- The kernel calls the interrupt handler. -/
def pulse (i : IrqInput) (stamp : ℕ) : Node :=
  match unlockRIrqHandler s.toGlobals i stamp with
  | (g, .returns v) =>
    { toGlobals := g
      clock := if s.Accepts i then i.armed else i.now
      halted := s.halted
      finished := .irq v :: s.finished }
  | (g, .spins) => { s with toGlobals := g, clock := i.now, halted := some .spinning }
  | (g, .traps) => { s with toGlobals := g, clock := i.now, halted := some .trapped }

end Node

/-- The machine of one node. A label is an event and the clock reading for the log. The callback
always returns a value, so that what the return register holds does not matter. -/
def unlockNode (K : Kernel) : Machine Node (Event × ℕ) where
  step s
    | (.fire i _, stamp) => if s.Due K i then some (s.fire K i stamp) else none
    | (.pulse i, stamp) => if s.Arrives K i then some (s.pulse i stamp) else none
    | (.setT T, _) => if s.halted = none then some { s with T } else none
    | (.setDelta Delta, _) => if s.halted = none then some { s with Delta } else none
    | (.txbuf txbuf, _) =>
      if s.halted = none then some { s with txbufFff := some txbuf } else none
    | (.tick t, _) => if s.halted = none ∧ s.clock ≤ t then some { s with clock := t } else none

/-- The module's variables as `insmod` leaves them, beside the variables it shares. -/
def load (g : UcsmaRateControl.Globals) : Globals :=
  { g with log := fun _ ↦ ⟨0, 0⟩, curCount := 0, printed := [] }

/-- The node after `unlock_init`. -/
def Node.boot (g : UcsmaRateControl.Globals) (i : InitInput) : Node where
  toGlobals := (unlockInit (load g) i).1
  clock := i.started
  halted := none
  finished := []

/-! ## What one step can do -/

/-- The paths a step can take, with what holds before it and the state after it. -/
inductive Took (K : Kernel) (s : Node) : Event × ℕ → Node → Prop
  | fire (i : FireInput) (garbage : HrtimerRestart) (stamp : ℕ) (due : s.Due K i) :
      Took K s (.fire i garbage, stamp)
        { toGlobals := s.fired stamp K i
          clock := i.stop
          halted := s.halted
          finished := .timer i.stop (K.forward s.unlockTimer.expires i.stop (s.T * 1000).toNat)
            (some .noRestart) :: s.finished }
  | pulseSpins (i : IrqInput) (stamp : ℕ) (arrives : s.Arrives K i) (locked : s.driverLock = true) :
      Took K s (.pulse i, stamp) { s with clock := i.now, halted := some .spinning }
  | pulseRejects (i : IrqInput) (stamp : ℕ) (arrives : s.Arrives K i)
      (free : s.driverLock = false) (rejects : s.Rejects i.now) :
      Took K s (.pulse i, stamp)
        { s with clock := i.now, finished := .irq (some .irqHandled) :: s.finished }
  | pulseTraps (i : IrqInput) (stamp : ℕ) (arrives : s.Arrives K i) (accepts : s.Accepts i)
      (zero : s.Delta + s.Delta = 0) :
      Took K s (.pulse i, stamp)
        { s with toGlobals := s.relayed stamp i, clock := i.now, halted := some .trapped }
  | pulseAccepts (i : IrqInput) (stamp : ℕ) (arrives : s.Arrives K i) (accepts : s.Accepts i)
      (nonzero : s.Delta + s.Delta ≠ 0) :
      Took K s (.pulse i, stamp)
        { toGlobals := s.accepted stamp i
          clock := i.armed
          halted := s.halted
          finished := .irq (some .irqHandled) :: s.finished }
  | setT (T : UInt32) (stamp : ℕ) (running : s.halted = none) :
      Took K s (.setT T, stamp) { s with T }
  | setDelta (Delta : UInt32) (stamp : ℕ) (running : s.halted = none) :
      Took K s (.setDelta Delta, stamp) { s with Delta }
  | txbuf (txbuf : ListHead) (stamp : ℕ) (running : s.halted = none) :
      Took K s (.txbuf txbuf, stamp) { s with txbufFff := some txbuf }
  | tick (t : ℕ) (stamp : ℕ) (running : s.halted = none) (le : s.clock ≤ t) :
      Took K s (.tick t, stamp) { s with clock := t }

section Steps

variable {K : Kernel} {s t : Node} {e : Event} {stamp : ℕ}

theorem Took.of_fire {i : FireInput} (garbage : HrtimerRestart) (h : s.Due K i) :
    Took K s (.fire i garbage, stamp) (s.fire K i stamp) := by
  have hfire : s.fire K i stamp =
      { toGlobals := s.fired stamp K i
        clock := i.stop
        halted := s.halted
        finished := .timer i.stop (K.forward s.unlockTimer.expires i.stop (s.T * 1000).toNat)
          (some .noRestart) :: s.finished } := by
    obtain ⟨⟨⟨_⟩, log, curCount, printed⟩, clock, halted, finished⟩ := s
    by_cases hlt : curCount < recordCount
    · by_cases heq : curCount + 1 = recordCount
      · simp only [Node.fire, unlockTimerHandler, Globals.fired, Globals.record, if_pos hlt,
          if_pos heq]
        rfl
      · simp only [Node.fire, unlockTimerHandler, Globals.fired, Globals.record, if_pos hlt,
          if_neg heq]
        rfl
    · simp only [Node.fire, unlockTimerHandler, Globals.fired, Globals.record, if_neg hlt]
      rfl
  rw [hfire]
  exact .fire i garbage stamp h

theorem pulse_of_locked {i : IrqInput} (stamp : ℕ) (h : s.driverLock = true) :
    s.pulse i stamp = { s with clock := i.now, halted := some .spinning } := by
  rw [Node.pulse, unlockRIrqHandler_of_locked i stamp h]

theorem pulse_of_rejects {i : IrqInput} (stamp : ℕ) (hl : s.driverLock = false)
    (h : s.Rejects i.now) :
    s.pulse i stamp =
      { s with clock := i.now, finished := .irq (some .irqHandled) :: s.finished } := by
  have hacc : ¬s.Accepts i := fun ha ↦ ha.2 h
  rw [Node.pulse, unlockRIrqHandler_of_free i stamp hl]
  simp only [if_pos h, if_neg hacc]

theorem pulse_of_zero {i : IrqInput} (stamp : ℕ) (h : s.Accepts i) (hD : s.Delta + s.Delta = 0) :
    s.pulse i stamp =
      { s with toGlobals := s.relayed stamp i, clock := i.now, halted := some .trapped } := by
  rw [Node.pulse, unlockRIrqHandler_of_free i stamp h.1]
  simp only [if_neg h.2, if_pos hD]

theorem pulse_of_accepts {i : IrqInput} (stamp : ℕ) (h : s.Accepts i)
    (hD : s.Delta + s.Delta ≠ 0) :
    s.pulse i stamp =
      { toGlobals := s.accepted stamp i
        clock := i.armed
        halted := s.halted
        finished := .irq (some .irqHandled) :: s.finished } := by
  rw [Node.pulse, unlockRIrqHandler_of_free i stamp h.1]
  simp only [if_neg h.2, if_neg hD, if_pos h]

theorem Took.of_pulse {i : IrqInput} (h : s.Arrives K i) :
    Took K s (.pulse i, stamp) (s.pulse i stamp) := by
  by_cases hl : s.driverLock = true
  · rw [pulse_of_locked stamp hl]
    exact .pulseSpins i stamp h hl
  · rw [Bool.not_eq_true] at hl
    by_cases hr : s.Rejects i.now
    · rw [pulse_of_rejects stamp hl hr]
      exact .pulseRejects i stamp h hl hr
    · by_cases hD : s.Delta + s.Delta = 0
      · rw [pulse_of_zero stamp ⟨hl, hr⟩ hD]
        exact .pulseTraps i stamp h ⟨hl, hr⟩ hD
      · rw [pulse_of_accepts stamp ⟨hl, hr⟩ hD]
        exact .pulseAccepts i stamp h ⟨hl, hr⟩ hD

/-- **The inversion of a step.** -/
theorem Took.of_step (h : (unlockNode K).step s (e, stamp) = some t) : Took K s (e, stamp) t := by
  cases e with
  | fire i garbage =>
    obtain ⟨hc, ⟨⟩⟩ := Option.ite_none_right_eq_some.mp h
    exact .of_fire garbage hc
  | pulse i =>
    obtain ⟨hc, ⟨⟩⟩ := Option.ite_none_right_eq_some.mp h
    exact .of_pulse hc
  | setT T =>
    obtain ⟨hc, ⟨⟩⟩ := Option.ite_none_right_eq_some.mp h
    exact .setT T stamp hc
  | setDelta Delta =>
    obtain ⟨hc, ⟨⟩⟩ := Option.ite_none_right_eq_some.mp h
    exact .setDelta Delta stamp hc
  | txbuf txbuf =>
    obtain ⟨hc, ⟨⟩⟩ := Option.ite_none_right_eq_some.mp h
    exact .txbuf txbuf stamp hc
  | tick t =>
    obtain ⟨hc, ⟨⟩⟩ := Option.ite_none_right_eq_some.mp h
    exact .tick t stamp hc.1 hc.2

/-! ## The log and the pulses -/

/-- A counter below the room of the log does not wrap around when it is raised. -/
theorem toNat_succ_of_lt {c : UInt32} (h : c < recordCount) : (c + 1).toNat = c.toNat + 1 := by
  have hroom : c.toNat < 1000 := UInt32.lt_iff_toNat_lt.mp h
  rw [UInt32.toNat_add]
  exact Nat.mod_eq_of_lt (Nat.lt_of_le_of_lt (Nat.succ_le_of_lt hroom) (by decide))

theorem succ_eq_recordCount_iff {c : UInt32} (h : c < recordCount) :
    c + 1 = recordCount ↔ c.toNat + 1 = 1000 := by
  rw [← UInt32.toNat_inj, toNat_succ_of_lt h]
  rfl

/-- The log has an entry for each pulse, and no more than it has room for. -/
structure Globals.Logged (g : Globals) : Prop where
  length : g.unlockOut.length = g.curCount.toNat
  le : g.curCount ≤ recordCount

theorem Globals.Logged.record {g : Globals} (h : g.Logged) (stamp : ℕ) (tag : Int32) (time : ℕ)
    (source : Source) : (g.record stamp tag time source).Logged := by
  have hcount := g.curCount_record stamp tag time source
  have hout := g.toShared_record stamp tag time source
  by_cases hlt : g.curCount < recordCount
  · rw [if_pos hlt] at hcount hout
    have hroom : g.curCount.toNat < 1000 := UInt32.lt_iff_toNat_lt.mp hlt
    have hadd := toNat_succ_of_lt hlt
    constructor
    · rw [hout, hcount, hadd, Globals.pulseOut, List.length_cons, h.length]
    · rw [hcount, UInt32.le_iff_toNat_le, hadd]
      exact hroom
  · rw [if_neg hlt] at hcount hout
    exact ⟨by rw [hout, hcount, h.length], by rw [hcount]; exact h.le⟩

theorem Took.logged (h : Took K s (e, stamp) t) (hs : s.Logged) : t.Logged := by
  cases h with
  | fire i garbage stamp due => exact ⟨(hs.record ..).length, (hs.record ..).le⟩
  | pulseTraps i stamp arrives accepts zero => exact ⟨(hs.record ..).length, (hs.record ..).le⟩
  | pulseAccepts i stamp arrives accepts nonzero =>
    exact ⟨(hs.record ..).length, (hs.record ..).le⟩
  | _ => exact ⟨hs.length, hs.le⟩

theorem Globals.Logged.of_run {es : List (Event × ℕ)} (h : s.Logged)
    (hr : (unlockNode K).run s es = some t) : t.Logged :=
  Machine.invariant (P := fun u : Node ↦ u.Logged)
    (fun _ _ _ hu huv ↦ (Took.of_step huv).logged hu) h hr

end Steps

end UcsmaRateControl.WithLog
