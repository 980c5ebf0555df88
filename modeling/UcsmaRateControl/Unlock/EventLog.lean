import UcsmaRateControl.Machine.BoundedLog
import UcsmaRateControl.Unlock.WithLog

/-!
# The event logs

`unlock_with_log.c` logs the firings of its timer and the pulses that it accepts, and
`record_gpio_event.c` every interrupt that gets its lock. Both count in `cur_count`, stop when the
log is full, and print it once, when the last place is filled. The handler of `record_gpio_event.c`
is modelled here; a run of it is the list of the clock readings of its interrupts.

Both logs are instances of `BoundedLog`. What the initial contents of the arrays are, also beyond
their ends, is left open.
-/

namespace UcsmaRateControl

namespace WithLog

/-- The log, its counter, and what `print_log` has printed. -/
def Globals.eventLog (g : Globals) : BoundedLog GpioLog := ⟨g.log, g.curCount.toNat, g.printed⟩

/-- The entry that an event is a candidate for: a firing of the timer, or a pulse that gets past the
lock and the debounce test. -/
def candidates (s : Node) : Event × ℕ → List GpioLog
  | (.fire _ _, stamp) => [⟨Timespec.ofNs stamp, 1⟩]
  | (.pulse i, stamp) => if s.Accepts i then [⟨Timespec.ofNs stamp, 0⟩] else []
  | _ => []

/-- The guarded block offers an entry to the log. -/
theorem Globals.eventLog_record (g : Globals) (stamp : ℕ) (tag : Int32) (time : ℕ)
    (source : Source) :
    (g.record stamp tag time source).eventLog =
      g.eventLog.append 1000 ⟨Timespec.ofNs stamp, tag⟩ := by
  by_cases hlt : g.curCount < recordCount
  · have hroom : g.curCount.toNat < 1000 := UInt32.lt_iff_toNat_lt.mp hlt
    have hadd := toNat_succ_of_lt hlt
    have hfull := succ_eq_recordCount_iff hlt
    rw [record, if_pos hlt, BoundedLog.append, if_pos (show g.eventLog.count < 1000 from hroom)]
    dsimp only [eventLog]
    by_cases heq : g.curCount + 1 = recordCount
    · rw [if_pos heq, if_pos (hfull.mp heq), printLog, hadd]
      rfl
    · rw [if_neg heq, if_neg fun h ↦ heq (hfull.mpr h), hadd]
  · have hfull : ¬g.curCount.toNat < 1000 := fun h ↦ hlt (UInt32.lt_iff_toNat_lt.mpr h)
    rw [record, if_neg hlt, BoundedLog.append, if_neg (show ¬g.eventLog.count < 1000 from hfull)]

theorem Took.eventLog {K : Kernel} {s t : Node} {e : Event} {stamp : ℕ}
    (h : Took K s (e, stamp) t) :
    t.eventLog = (candidates s (e, stamp)).foldl (BoundedLog.append 1000) s.eventLog := by
  cases h with
  | fire i garbage stamp due => exact s.eventLog_record stamp 1 i.start .timer
  | pulseSpins i stamp arrives locked =>
    have hacc : ¬s.Accepts i := fun ha ↦ Bool.eq_false_iff.mp ha.1 locked
    rw [candidates, if_neg hacc]
    rfl
  | pulseRejects i stamp arrives free rejects =>
    have hacc : ¬s.Accepts i := fun ha ↦ ha.2 rejects
    rw [candidates, if_neg hacc]
    rfl
  | pulseTraps i stamp arrives accepts zero =>
    rw [candidates, if_pos accepts]
    exact s.eventLog_record stamp 0 i.now .relay
  | pulseAccepts i stamp arrives accepts nonzero =>
    rw [candidates, if_pos accepts]
    exact s.eventLog_record stamp 0 i.now .relay
  | setT => rfl
  | setDelta => rfl
  | txbuf => rfl
  | tick => rfl

end WithLog

/-! ## `record_gpio_event.c` -/

namespace RecordGpioEvent

/-- `RECORD_COUNT`. -/
def recordCount : UInt32 := 1000

/-- The variables of `record_gpio_event.c` that its handler uses. -/
structure Globals where
  /-- The array `records`. -/
  records : ℕ → Timespec
  curCount : UInt32
  driverLock : Bool
  /-- What the loop of the handler has printed, a list for each time, newest first. -/
  printed : List (List Timespec)

/-- `unlock_r_irq_handler`, with the clock reading that it stores. -/
def unlockRIrqHandler (g : Globals) (stamp : ℕ) : Globals × IrqExit :=
  if g.driverLock then (g, .spins)
  else
    let g := { g with driverLock := true }
    let g :=
      if g.curCount < recordCount then
        let g := { g with
          records := Function.update g.records g.curCount.toNat (Timespec.ofNs stamp)
          curCount := g.curCount + 1 }
        if g.curCount = recordCount then
          { g with printed := (List.range recordCount.toNat).map g.records :: g.printed }
        else g
      else g
    ({ g with driverLock := false }, .returns (some .irqHandled))

/-- The state of a node that runs `record_gpio_event.c`. -/
structure Node extends Globals where
  /-- Whether the handler is installed. -/
  irqHeld : Bool
  /-- The clock, in nanoseconds. -/
  clock : ℕ
  /-- Set when a handler never returned. -/
  halted : Option Halt

/-- The kernel calls the interrupt handler. -/
def Node.pulse (s : Node) (stamp : ℕ) : Node :=
  match unlockRIrqHandler s.toGlobals stamp with
  | (g, .returns _) => { s with toGlobals := g, clock := stamp }
  | (g, .spins) => { s with toGlobals := g, clock := stamp, halted := some .spinning }
  | (g, .traps) => { s with toGlobals := g, clock := stamp, halted := some .trapped }

/-- The machine of one node. A label is an interrupt, by the clock reading in it. -/
def recordNode : Machine Node ℕ where
  step s stamp :=
    if s.halted = none ∧ s.irqHeld = true ∧ s.clock ≤ stamp then some (s.pulse stamp) else none

/-- The records, their counter, and what has been printed. -/
def Globals.eventLog (g : Globals) : BoundedLog Timespec :=
  ⟨g.records, g.curCount.toNat, g.printed⟩

/-- The entry that an interrupt is a candidate for, unless it waits for the lock for ever. -/
def candidates (s : Node) (stamp : ℕ) : List Timespec :=
  if s.driverLock then [] else [Timespec.ofNs stamp]

/-- The module as it is loaded at a time, with the interrupt requested. -/
def Node.boot (started : ℕ) : Node := ⟨⟨fun _ ↦ 0, 0, false, []⟩, true, started, none⟩

section Steps

variable {s : Node}

theorem pulse_of_locked (stamp : ℕ) (h : s.driverLock = true) :
    s.pulse stamp = { s with clock := stamp, halted := some .spinning } := by
  rw [Node.pulse, unlockRIrqHandler, if_pos h]

/-- With the lock free, the handler offers a record to the log. -/
theorem eventLog_pulse_of_free (stamp : ℕ) (h : s.driverLock = false) :
    (s.pulse stamp).eventLog = s.eventLog.append 1000 (Timespec.ofNs stamp) := by
  rw [Node.pulse, unlockRIrqHandler, if_neg (Bool.eq_false_iff.mp h)]
  dsimp only
  by_cases hlt : s.curCount < recordCount
  · have hroom : s.curCount.toNat < 1000 := UInt32.lt_iff_toNat_lt.mp hlt
    have hadd := WithLog.toNat_succ_of_lt hlt
    have hfull : s.curCount + 1 = recordCount ↔ s.curCount.toNat + 1 = 1000 :=
      WithLog.succ_eq_recordCount_iff hlt
    rw [if_pos hlt, BoundedLog.append, if_pos (show s.eventLog.count < 1000 from hroom)]
    dsimp only [Globals.eventLog]
    by_cases heq : s.curCount + 1 = recordCount
    · rw [if_pos heq, if_pos (hfull.mp heq), hadd]
      rfl
    · rw [if_neg heq, if_neg fun h ↦ heq (hfull.mpr h), hadd]
  · have hfull : ¬s.curCount.toNat < 1000 := fun h ↦ hlt (UInt32.lt_iff_toNat_lt.mpr h)
    rw [if_neg hlt, BoundedLog.append, if_neg (show ¬s.eventLog.count < 1000 from hfull)]
    rfl

theorem eventLog_step {t : Node} {stamp : ℕ} (h : recordNode.step s stamp = some t) :
    t.eventLog = (candidates s stamp).foldl (BoundedLog.append 1000) s.eventLog := by
  obtain ⟨-, ⟨⟩⟩ := Option.ite_none_right_eq_some.mp h
  cases hlock : s.driverLock with
  | true =>
    rw [pulse_of_locked stamp hlock, candidates, if_pos hlock]
    rfl
  | false =>
    rw [eventLog_pulse_of_free stamp hlock, candidates, if_neg (Bool.eq_false_iff.mp hlock)]
    rfl

end Steps

end RecordGpioEvent

/-! ## Both logs -/

/-- **The event logs.** From any state in which nothing is logged or printed, every run of either
module keeps the first thousand candidates in its log, in order, and prints the log once, when it is
full. -/
theorem eventLogs_keepFirst :
    (∀ (K : Kernel) (s t : WithLog.Node) (es : List (Event × ℕ)), s.curCount = 0 → s.printed = [] →
      (WithLog.unlockNode K).run s es = some t →
      BoundedLog.KeepsFirst 1000 (WithLog.unlockNode K) (fun u ↦ u.eventLog) WithLog.candidates
        s es t) ∧
    (∀ (s t : RecordGpioEvent.Node) (stamps : List ℕ), s.curCount = 0 → s.printed = [] →
      RecordGpioEvent.recordNode.run s stamps = some t →
      BoundedLog.KeepsFirst 1000 RecordGpioEvent.recordNode (fun u ↦ u.eventLog)
        RecordGpioEvent.candidates s stamps t) := by
  constructor
  · intro K s t es hcount hprinted h
    have hzero : s.eventLog.count = 0 := congrArg UInt32.toNat hcount
    exact BoundedLog.keepsFirst_of_run (by decide)
      (fun _ _ _ hst ↦ (WithLog.Took.of_step hst).eventLog) hzero hprinted h
  · intro s t stamps hcount hprinted h
    have hzero : s.eventLog.count = 0 := congrArg UInt32.toNat hcount
    exact BoundedLog.keepsFirst_of_run (by decide)
      (fun _ _ _ hst ↦ RecordGpioEvent.eventLog_step hst) hzero hprinted h

/-- A firing and a pulse that is accepted, and two interrupts that are recorded. -/
theorem eventLogs_keepFirst_boot :
    (∃ t, (WithLog.unlockNode .linux).run (WithLog.Node.boot (defaultGlobals none) ⟨0, 0, 0, 30, 0⟩)
        [(.fire ⟨20000000, 20001000⟩ .restart, 20000000),
          (.pulse ⟨30000000, 30001000, 30001000, 0, 0⟩, 30000500)] = some t ∧
      t.eventLog.count = 2 ∧ t.eventLog.entries 1 = ⟨Timespec.ofNs 30000500, 0⟩ ∧
      t.eventLog.printed = []) ∧
    (∃ t, RecordGpioEvent.recordNode.run (.boot 0) [5, 7] = some t ∧ t.eventLog.count = 2 ∧
      t.eventLog.entries 1 = Timespec.ofNs 7 ∧ t.eventLog.printed = []) := by
  obtain ⟨hlog, hrecord⟩ := eventLogs_keepFirst
  constructor
  · have hkeep := (hlog .linux (WithLog.Node.boot (defaultGlobals none) ⟨0, 0, 0, 30, 0⟩) _
      [(.fire ⟨20000000, 20001000⟩ .restart, 20000000),
        (.pulse ⟨30000000, 30001000, 30001000, 0, 0⟩, 30000500)] rfl rfl rfl).filled
    have hcount := hkeep.count
    refine ⟨_, rfl, hcount, ?_, hkeep.printed⟩
    have hentry := hkeep.entries 1 (hcount ▸ by decide)
    exact (Option.some_inj.mp hentry).symm
  · have hkeep := (hrecord (.boot 0) _ [5, 7] rfl rfl rfl).filled
    have hcount := hkeep.count
    refine ⟨_, rfl, hcount, ?_, hkeep.printed⟩
    have hentry := hkeep.entries 1 (hcount ▸ by decide)
    exact (Option.some_inj.mp hentry).symm

end UcsmaRateControl
