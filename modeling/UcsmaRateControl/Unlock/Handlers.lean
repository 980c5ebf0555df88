import UcsmaRateControl.Ath9k.Hw
import UcsmaRateControl.Kernel.List
import UcsmaRateControl.Kernel.Timer

/-!
# The functions of `unlock.c`

Each function of the module is a function on `Globals`: the module's own variables, the variables
and the chip it imports from the driver, and the kernel objects it owns. Whatever a call obtains
from outside (clock readings, random bytes, return codes) is an input record.

Both handlers can leave by a bare `return;` although they promise a value; such an exit carries
`none`. The interrupt handler can also fail to leave at all: it waits for a lock that is held, or it
divides by zero. Messages to the log are not modelled.
-/

namespace UcsmaRateControl

/-- Which handler pulsed `UNLOCK_OUT`. -/
inductive Source
  | timer
  | relay
deriving DecidableEq

/-- A pulse on `UNLOCK_OUT`. -/
structure Emission where
  /-- When it was emitted, in nanoseconds. -/
  time : ℕ
  source : Source
deriving DecidableEq

/-- The variables of `unlock.c`, those it shares with the driver, and its kernel objects. -/
structure Globals where
  /-- The period in microseconds, writable through sysfs. -/
  T : UInt32
  /-- The backoff parameter in microseconds, writable through sysfs. -/
  Delta : UInt32
  unlockIrq : Int16
  lastUnlock : Timespec
  lastUnlock2nd : Timespec
  unlockTimer : Hrtimer
  slottimeClock : UInt32
  sifsClock : UInt32
  eifsClock : UInt32
  driverLock : Bool
  /-- Whether the module holds its two pins. -/
  gpiosHeld : Bool
  /-- Whether the handler is installed on the interrupt of `UNLOCK_IN`. -/
  irqHeld : Bool
  /-- The list `txbuf_fff` points to, if the pointer is set. -/
  txbufFff : Option ListHead
  bufCounter : Int32
  hasChanged : Int32
  /-- The chip `ath9k_ah` points to. -/
  ah : AthHw
  /-- The pulses emitted so far, newest first. -/
  unlockOut : List Emission

/-! ## Sampling the transmit buffers -/

/-- `get_buf_size`. -/
def getBufSize (txbuf : ListHead) : UInt32 := txbuf.forEach (fun size _ ↦ size + 1) 0

/-- The ladder from the number of free buffers to the contention window, the same text in both
handlers. -/
def cwVal (bufSize : Int32) : UInt32 :=
  if bufSize > 70 then 1023
  else if bufSize > 65 then 511
  else if bufSize > 60 then 511
  else if bufSize > 50 then 255
  else if bufSize > 40 then 63
  else if bufSize > 20 then 15
  else if bufSize > 10 then 7
  else if bufSize > 5 then 3
  else 1

namespace AthHw

/-- Lines 176 to 180 of the interrupt handler: hold the medium quiet, note the release, release. -/
def forceQuiet (ah : AthHw) (restored : ℕ) : AthHw :=
  let ah := ah.regSetBit .pcuMisc ah.forceQuietColl
  let ah := { ah with unlocked := true, lastForceQuietRestore := Timespec.ofNs restored }
  ah.regClrBit .pcuMisc ah.forceQuietColl

end AthHw

namespace Globals

variable (g : Globals)

/-- The sampling part of both handlers. -/
def sample (txbuf : ListHead) : Globals :=
  let bufSize := (getBufSize txbuf).toInt32
  { g with bufCounter := bufSize, ah := g.ah.editContentionWindow (cwVal bufSize) }

/-- Replace the timer. -/
def setTimer (timer : Hrtimer) : Globals := { g with unlockTimer := timer }

/-- Raise `UNLOCK_OUT` for a microsecond. -/
def pulseOut (time : ℕ) (source : Source) : Globals :=
  { g with unlockOut := ⟨time, source⟩ :: g.unlockOut }

/-! ## The timer callback -/

end Globals

/-- What a call of the timer callback reads from the clock. -/
structure FireInput where
  /-- The time at which it starts. -/
  start : ℕ
  /-- The time at which it forwards its timer. -/
  stop : ℕ
deriving DecidableEq

/-- `unlock_timer_handler`. -/
def unlockTimerHandler (K : Kernel) (g : Globals) (i : FireInput) :
    Globals × Option HrtimerRestart :=
  let g := g.pulseOut i.start .timer
  match g.txbufFff with
  -- a bare `return;`: the timer is not forwarded
  | none => (g, none)
  | some txbuf =>
    let g := { g.sample txbuf with hasChanged := 1 }
    ({ g with unlockTimer := K.hrtimerForwardNow g.unlockTimer i.stop (g.T * 1000).toNat },
      some .restart)

/-! ## The interrupt handler -/

/-- `irqreturn_t`. -/
inductive IrqReturn
  | irqNone
  | irqHandled
deriving DecidableEq

/-- How a call of the interrupt handler ends. -/
inductive IrqExit
  /-- It returns, with a value unless the `return` is bare. -/
  | returns (v : Option IrqReturn)
  /-- It waits for `driver_lock`. -/
  | spins
  /-- It divides by zero. -/
  | traps
deriving DecidableEq

/-- What a call of the interrupt handler reads from the clock and from the random pool. -/
structure IrqInput where
  /-- The first clock reading. -/
  now : ℕ
  /-- The clock reading after the backoff. -/
  restored : ℕ
  /-- The clock when the timer is started. -/
  armed : ℕ
  /-- The bytes read into `rng`. -/
  rng : UInt32
  /-- The bytes read into `backoff`. -/
  backoff : UInt32
deriving DecidableEq

namespace Globals

variable (g : Globals)

/-- The debounce test of lines 145 to 147: the pulse is dropped. -/
def Rejects (now : ℕ) : Prop :=
  let diff := timespecSub (Timespec.ofNs now) g.lastUnlock
  diff.tvSec ≠ 0 ∨ diff.nsecU32 < g.T * 500

instance (now : ℕ) : Decidable (g.Rejects now) := inferInstanceAs (Decidable (_ ∨ _))

/-- The period of lines 162 to 166, lengthened or shortened by `rng`. -/
def period (rng : UInt32) : UInt32 :=
  let diff := timespecSub g.lastUnlock g.lastUnlock2nd
  if diff.tvSec ≠ 0 ∨ diff.nsecU32 ≤ g.T * 1000 then g.T + rng else g.T - rng

end Globals

/-- The clamp of lines 183 and 184. The argument is unsigned, so the test never holds. -/
def clampTimer (nextTimer : UInt32) : UInt32 := if nextTimer < 0 then 0 else nextTimer

/-- `unlock_r_irq_handler`. -/
def unlockRIrqHandler (g : Globals) (i : IrqInput) : Globals × IrqExit :=
  if g.driverLock then (g, .spins)
  else
    let g := { g with driverLock := true }
    match g.txbufFff with
    -- a bare `return;`: the lock is kept
    | none => (g, .returns none)
    | some txbuf =>
      let g := g.sample txbuf
      if g.Rejects i.now then ({ g with driverLock := false }, .returns (some .irqHandled))
      else
        let g := { g with unlockTimer := hrtimerCancel g.unlockTimer }
        let g := { g.pulseOut i.now .relay with hasChanged := 1 }
        -- both draws are reduced modulo `Delta + Delta`, a 32-bit sum
        if g.Delta + g.Delta = 0 then (g, .traps)
        else
          let rng := i.rng % (g.Delta + g.Delta)
          let nextTimer := g.period rng
          let g := { g with lastUnlock2nd := g.lastUnlock, lastUnlock := Timespec.ofNs i.now }
          let backoff := i.backoff % (g.Delta + g.Delta)
          let g := { g with ah := g.ah.forceQuiet i.restored }
          let nextTimer := clampTimer (nextTimer - backoff)
          let g := { g with unlockTimer := hrtimerStart i.armed (nextTimer * 1000).toNat }
          ({ g with driverLock := false }, .returns (some .irqHandled))

/-! ## Loading and unloading -/

/-- What `unlock_init` reads from the clock, and what its fallible calls return. -/
structure InitInput where
  /-- The clock reading that `last_unlock` is stamped with. -/
  stamp : ℕ
  /-- The clock when the timer is started. -/
  started : ℕ
  gpioRequestArray : Int32
  gpioToIrq : Int32
  requestIrq : Int32
deriving DecidableEq

namespace Globals

variable (g : Globals)

/-- `gpio_free_array` on the module's pins. -/
def gpioFreeArray : Globals := { g with gpiosHeld := false }

/-- Read a register of the chip. -/
def regRead (reg : Reg) : Globals × UInt32 :=
  ({ g with ah := (g.ah.regRead reg).1 }, (g.ah.regRead reg).2)

end Globals

/-- `unlock_init`. -/
def unlockInit (g : Globals) (i : InitInput) : Globals × Int32 :=
  let g := { g with
    ah := { g.ah with
      unlockingLogging := true, forceQuietBitRestore := true, maxTimingCount := 10 } }
  let (g, slottimeClock) := g.regRead .dGblIfsSlot
  let (g, sifsClock) := g.regRead .dGblIfsSifs
  let (g, eifsClock) := g.regRead .dGblIfsEifs
  let g := { g with slottimeClock, sifsClock, eifsClock }
  let g := { g with unlockTimer := ⟨0, false⟩ }
  let g := { g with lastUnlock := Timespec.ofNs i.stamp }
  let ret := i.gpioRequestArray
  if ret ≠ 0 then (g, ret)
  else
    let g := { g with gpiosHeld := true }
    -- the result passes through a `short`
    let g := { g with unlockIrq := i.gpioToIrq.toInt16 }
    let ret := g.unlockIrq.toInt32
    if ret < 0 then (g.gpioFreeArray, ret)
    else
      let ret := i.requestIrq
      if ret ≠ 0 then (g.gpioFreeArray, ret)
      else
        let g := { g with irqHeld := true }
        let g := { g with unlockTimer := hrtimerStart i.started (g.T * 1000).toNat }
        ({ g with ah := g.ah.editContentionWindow 15 }, 0)

/-- The statements of `unlock_exit`. -/
inductive ExitStep
  | cancelTimer
  | freeIrq
  | freeGpios
  | clearFlags
deriving DecidableEq

/-- The effect of one statement of `unlock_exit`. -/
def ExitStep.run (g : Globals) : ExitStep → Globals
  | .cancelTimer => { g with unlockTimer := hrtimerCancel g.unlockTimer }
  | .freeIrq => { g with irqHeld := false }
  | .freeGpios => g.gpioFreeArray
  | .clearFlags =>
    { g with
      ah := { g.ah with
        unlockingLogging := false, unlocked := false, forceQuietBitRestore := false,
        maxTimingCount := 0 } }

/-- `unlock_exit`, statement by statement. -/
def unlockExit : List ExitStep := [.cancelTimer, .freeIrq, .freeGpios, .clearFlags]

/-! ## What one call does

The states that the handlers leave on each of their paths, and the path that is taken. Nothing
below this point unfolds a handler. -/

@[simp] theorem getBufSize_eq (txbuf : ListHead) :
    getBufSize txbuf = UInt32.ofNat txbuf.entries.length := by
  have hfold : ∀ (l : List ℕ) (n : ℕ),
      l.foldl (fun (size : UInt32) _ ↦ size + 1) (UInt32.ofNat n) =
        UInt32.ofNat (n + l.length) := by
    intro l
    induction l with
    | nil => intro n; rfl
    | cons a l ih =>
      intro n
      rw [List.foldl_cons, List.length_cons, ← Nat.add_assoc, Nat.add_right_comm, ← ih (n + 1),
        UInt32.ofNat_add]
      rfl
  rw [getBufSize, ListHead.forEach_eq, ← Nat.zero_add txbuf.entries.length, ← hfold]
  rfl

namespace Globals

variable (g : Globals) {txbuf : ListHead}

/-- The state a completed timer callback leaves. -/
def fired (K : Kernel) (txbuf : ListHead) (i : FireInput) : Globals :=
  { g.sample txbuf with
    unlockOut := ⟨i.start, .timer⟩ :: g.unlockOut
    hasChanged := 1
    unlockTimer := K.hrtimerForwardNow g.unlockTimer i.stop (g.T * 1000).toNat }

/-- The backoff that is drawn, in microseconds. -/
def backoffOf (i : IrqInput) : UInt32 := i.backoff % (g.Delta + g.Delta)

/-- The delay for which an accepted pulse arms the timer, in nanoseconds. -/
def rearmDelay (i : IrqInput) : ℕ :=
  (clampTimer (g.period (i.rng % (g.Delta + g.Delta)) - g.backoffOf i) * 1000).toNat

/-- The state after the relay of an accepted pulse, which is where a zero modulus traps. -/
def relayed (txbuf : ListHead) (i : IrqInput) : Globals :=
  { g.sample txbuf with
    driverLock := true
    unlockOut := ⟨i.now, .relay⟩ :: g.unlockOut
    hasChanged := 1
    unlockTimer := hrtimerCancel g.unlockTimer }

/-- The state an accepted pulse leaves. -/
def accepted (txbuf : ListHead) (i : IrqInput) : Globals :=
  { g.sample txbuf with
    driverLock := false
    unlockOut := ⟨i.now, .relay⟩ :: g.unlockOut
    hasChanged := 1
    lastUnlock := Timespec.ofNs i.now
    lastUnlock2nd := g.lastUnlock
    ah := (g.sample txbuf).ah.forceQuiet i.restored
    unlockTimer := hrtimerStart i.armed (g.rearmDelay i) }

end Globals

/-- The conversion from microseconds to nanoseconds, where it does not wrap around. -/
theorem toNat_mul_thousand {x : UInt32} (h : 1000 * x.toNat < 2 ^ 32) :
    (x * 1000).toNat = 1000 * x.toNat := by
  have hthousand : (1000 : UInt32).toNat = 1000 := rfl
  rw [UInt32.toNat_mul, hthousand, Nat.mul_comm, Nat.mod_eq_of_lt h]

/-- The sign test on the remainder has no effect. -/
@[simp] theorem clampTimer_eq (nextTimer : UInt32) : clampTimer nextTimer = nextTimer :=
  if_neg UInt32.not_lt_zero

section Paths

variable {g : Globals} {txbuf : ListHead}

theorem unlockTimerHandler_of_none (K : Kernel) (i : FireInput) (h : g.txbufFff = none) :
    unlockTimerHandler K g i = (g.pulseOut i.start .timer, none) := by
  cases g
  cases h
  rfl

theorem unlockTimerHandler_of_some (K : Kernel) (i : FireInput) (h : g.txbufFff = some txbuf) :
    unlockTimerHandler K g i = (g.fired K txbuf i, some .restart) := by
  cases g
  cases h
  rfl

theorem unlockRIrqHandler_of_locked (i : IrqInput) (h : g.driverLock = true) :
    unlockRIrqHandler g i = (g, .spins) := if_pos h

theorem unlockRIrqHandler_of_none (i : IrqInput) (hl : g.driverLock = false)
    (h : g.txbufFff = none) :
    unlockRIrqHandler g i = ({ g with driverLock := true }, .returns none) := by
  cases g
  cases hl
  cases h
  rfl

/-- With the lock free and the list known, the handler drops the pulse, traps after relaying it, or
accepts it. -/
theorem unlockRIrqHandler_of_some (i : IrqInput) (hl : g.driverLock = false)
    (h : g.txbufFff = some txbuf) :
    unlockRIrqHandler g i =
      if g.Rejects i.now then (g.sample txbuf, .returns (some .irqHandled))
      else if g.Delta + g.Delta = 0 then (g.relayed txbuf i, .traps)
      else (g.accepted txbuf i, .returns (some .irqHandled)) := by
  cases g
  cases hl
  cases h
  rfl

end Paths

section Init

/-- What `unlock_init` returns: the first code that is a failure, or zero. -/
def InitInput.ret (i : InitInput) : Int32 :=
  if i.gpioRequestArray ≠ 0 then i.gpioRequestArray
  else if i.gpioToIrq.toInt16.toInt32 < 0 then i.gpioToIrq.toInt16.toInt32
  else i.requestIrq

variable {i : InitInput}

theorem InitInput.ret_eq_zero_iff :
    i.ret = 0 ↔ i.gpioRequestArray = 0 ∧ ¬i.gpioToIrq.toInt16.toInt32 < 0 ∧ i.requestIrq = 0 := by
  rw [ret]
  split_ifs with hgpio hirq
  · exact iff_of_false hgpio fun h ↦ hgpio h.1
  · exact iff_of_false (fun h ↦ absurd (h ▸ hirq) (by decide)) fun h ↦ h.2.1 hirq
  · exact ⟨fun h ↦ ⟨not_not.mp hgpio, hirq, h⟩, fun h ↦ h.2.2⟩

theorem unlockInit_snd (g : Globals) (i : InitInput) : (unlockInit g i).2 = i.ret := by
  simp only [unlockInit, InitInput.ret]
  split_ifs with hgpio hirq hreq
  · rfl
  · rfl
  · rfl
  · exact (not_not.mp hreq).symm

/-- The module holds its pins after `unlock_init` if and only if that has succeeded. -/
theorem gpiosHeld_unlockInit (g : Globals) (i : InitInput) (hg : g.gpiosHeld = false) :
    (unlockInit g i).1.gpiosHeld = true ↔ i.ret = 0 := by
  rw [InitInput.ret_eq_zero_iff]
  simp only [unlockInit, Globals.regRead]
  split_ifs with hgpio hirq hreq
  · exact iff_of_false (Bool.eq_false_iff.mp hg) fun h ↦ hgpio h.1
  · exact iff_of_false Bool.false_ne_true fun h ↦ h.2.1 hirq
  · exact iff_of_false Bool.false_ne_true fun h ↦ hreq h.2.2
  · exact iff_of_true rfl ⟨not_not.mp hgpio, hirq, not_not.mp hreq⟩

/-- The state that a successful `unlock_init` leaves. -/
theorem unlockInit_of_ret (g : Globals) (h : i.ret = 0) :
    (unlockInit g i).1 =
      { g with
        unlockIrq := i.gpioToIrq.toInt16
        lastUnlock := Timespec.ofNs i.stamp
        unlockTimer := hrtimerStart i.started (g.T * 1000).toNat
        gpiosHeld := true
        irqHeld := true
        slottimeClock := (unlockInit g i).1.slottimeClock
        sifsClock := (unlockInit g i).1.sifsClock
        eifsClock := (unlockInit g i).1.eifsClock
        ah := (unlockInit g i).1.ah } := by
  obtain ⟨hgpio, hirq, hreq⟩ := InitInput.ret_eq_zero_iff.mp h
  simp only [unlockInit, Globals.regRead, hgpio, hirq, hreq, ne_eq, not_true_eq_false, if_false]

end Init

end UcsmaRateControl
