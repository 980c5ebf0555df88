import Mathlib.Algebra.Order.Ring.Int
import Mathlib.Tactic.SplitIfs
import UcsmaRateControl.Machine.Run

/-!
# The interrupts of the chip

An interrupt that needs work turns the interrupts of the chip off and schedules the tasklet, which
turns them on again when it is done. A reset of the chip turns them off and on as well. A counter
keeps account of how often they have been turned off; they are on again when it is back at zero.

When the tasklet finds that the chip has to be reset, it leaves the interrupts off, counts as if it
had turned them on, and leaves it to the reset to do so. A reset that cannot restart reception does
not turn them on, and a reset that is cancelled does not either.

The calls that turn the interrupts off and on are in `mac.c`, which is not part of the repository,
so they are parameters here.
-/

namespace UcsmaRateControl

/-- `ath9k_hw_disable_interrupts` and `ath9k_hw_enable_interrupts`: what they make of
`intr_ref_cnt`, and the latter of whether the interrupts are on, given `ATH9K_INT_GLOBAL` in
`imask`. The former turns them off. -/
structure IntrCalls where
  disable : Bool → ℤ → ℤ
  enable : Bool → ℤ → Bool → ℤ × Bool

/-- What these calls do. -/
structure IntrCalls.Counting (K : IntrCalls) : Prop where
  disable : ∀ n, K.disable true n = n - 1
  enable : ∀ n on, K.enable true n on = (n + 1, on || decide (n + 1 = 0))
  unwanted : ∀ n on, K.enable false n on = (n, on)

/-- The status of an interrupt, with the bits that `ath9k_tasklet` tells apart. -/
structure IntrStatus where
  fatal : Bool
  bbWatchdog : Bool
  gtt : Bool
  tx : Bool
  /-- Any other bit of `SCHED_INTR`. -/
  other : Bool
  /-- Any bit that is not in `SCHED_INTR`. -/
  rest : Bool
deriving DecidableEq

/-- `status & SCHED_INTR`. -/
def IntrStatus.sched (s : IntrStatus) : Bool := s.fatal || s.bbWatchdog || s.gtt || s.tx || s.other

/-- The interrupts, and what of the driver has to do with them. -/
structure Intr where
  /-- `intr_ref_cnt`. -/
  intrRefCnt : ℤ
  /-- Whether the chip raises interrupts. -/
  on : Bool
  /-- `ATH9K_INT_GLOBAL` in `imask`. -/
  global : Bool
  /-- `ATH_OP_INVALID`. -/
  invalid : Bool
  /-- `ATH_OP_HW_RESET`. -/
  hwReset : Bool
  intrstatus : IntrStatus
  gttCnt : UInt8
  /-- Whether `intr_tq` is scheduled. -/
  tasklet : Bool
  /-- Whether `hw_reset_work` is queued. -/
  work : Bool
  /-- Whether `ath_reset_internal` is at work. -/
  resetting : Bool
  /-- Whether `ath9k_stop` is at work. -/
  stopping : Bool

/-- What is fixed about the chip. -/
structure IntrConfig where
  /-- `HW_BB_WATCHDOG`. -/
  hwBbWatchdog : Bool
  /-- `ATH9K_HW_CAP_EDMA`. -/
  edma : Bool

/-- What the tasklet gets from the chip. -/
structure TaskletCheck where
  /-- `ar9003_hw_bb_watchdog_check`. -/
  bbWatchdog : Bool
  /-- `ath9k_hw_check_alive`. -/
  alive : Bool

/-- How a reset can end. -/
inductive ResetEnd
  | done
  /-- `ath9k_hw_reset` has failed. -/
  | hwFailed
  /-- `ath_startrecv` has failed. -/
  | recvFailed
deriving DecidableEq

namespace Intr

variable (K : IntrCalls) (C : IntrConfig) (s : Intr)

/-- `ath9k_hw_disable_interrupts`. -/
def ath9kHwDisableInterrupts : Intr :=
  { s with intrRefCnt := K.disable s.global s.intrRefCnt, on := false }

/-- `ath9k_hw_enable_interrupts`. -/
def ath9kHwEnableInterrupts : Intr :=
  let p := K.enable s.global s.intrRefCnt s.on
  { s with intrRefCnt := p.1, on := p.2 }

/-- `ath9k_queue_reset`. -/
def ath9kQueueReset : Intr := { s with hwReset := true, work := true }

/-- `ath_isr`, when `ath9k_hw_intrpend` is true. -/
def athIsr (status : IntrStatus) : Intr :=
  if s.invalid then s
  else if s.hwReset then { s with on := false }
  else if !status.sched && !status.rest then s
  else
    let s := { s with intrstatus := status }
    if status.sched then { s.ath9kHwDisableInterrupts K with tasklet := true } else s

/-- The tasklet asks for a reset, and counts in its place. -/
def leaveToReset : Intr :=
  let s := s.ath9kQueueReset
  { s with intrRefCnt := s.intrRefCnt + 1 }

/-- The rest of `ath9k_tasklet`, after the checks. -/
def taskletRest : Intr :=
  let s := if s.intrstatus.tx && C.edma then { s with gttCnt := 0 } else s
  s.ath9kHwEnableInterrupts K

/-- `ath9k_tasklet`. -/
def ath9kTasklet (check : TaskletCheck) : Intr :=
  let s := { s with tasklet := false }
  if s.intrstatus.fatal then s.leaveToReset
  else if C.hwBbWatchdog && s.intrstatus.bbWatchdog && check.bbWatchdog then s.leaveToReset
  else if s.intrstatus.gtt then
    let s := { s with gttCnt := s.gttCnt + 1 }
    if s.gttCnt ≥ 5 && !check.alive then s.leaveToReset else s.taskletRest K C
  else s.taskletRest K C

/-- `ath_complete_reset`, where `ath_startrecv` succeeds. -/
def athCompleteReset : Intr :=
  let s := { s with hwReset := false }
  { s.ath9kHwEnableInterrupts K with gttCnt := 0 }

/-- `ath_reset_internal`, up to `ath9k_hw_reset`. -/
def resetBegin : Intr := { s.ath9kHwDisableInterrupts K with resetting := true }

/-- The rest of `ath_reset_internal`. -/
def resetEnd (r : ResetEnd) : Intr :=
  let s := { s with resetting := false }
  match r with
  | .done => s.athCompleteReset K
  | .hwFailed => (s.ath9kHwEnableInterrupts K).ath9kQueueReset
  | .recvFailed => s

/-- `ath9k_start`. -/
def ath9kStart (startrecv : Bool) : Intr :=
  let s := { s with intrRefCnt := -1, global := true, invalid := false }
  if startrecv then s.athCompleteReset K else s

/-- `ath9k_stop` turns the interrupts off for good. -/
def stopMask : Intr := { s with global := false }.ath9kHwDisableInterrupts K

/-- The rest of `ath9k_stop`, after `tasklet_kill` has waited for the tasklet. -/
def stopEnd : Intr :=
  { s.ath9kHwDisableInterrupts K with invalid := true, stopping := false }

/-- The driver has been started and is not being stopped. -/
def Started : Prop := s.invalid = false ∧ s.stopping = false

end Intr

/-- What can happen to the interrupts. -/
inductive IntrEvent
  /-- The chip raises an interrupt. -/
  | isr (status : IntrStatus)
  | tasklet (check : TaskletCheck)
  /-- Another part of the driver asks for a reset. -/
  | queueReset
  /-- A reset begins, the one that is queued or another one. -/
  | resetBegin (queued : Bool)
  | resetEnd (r : ResetEnd)
  /-- `cancel_work_sync` for `hw_reset_work`. -/
  | cancelWork
  | start (startrecv : Bool)
  /-- `ath9k_stop` cancels the reset that is queued. -/
  | stopCancel
  | stopMask
  | stopEnd

/-- The machine of the interrupts. The tasklet, the resets and the two parts of `ath9k_stop` exclude
each other, since they hold `sc_pcu_lock`. -/
def interrupts (K : IntrCalls) (C : IntrConfig) : Machine Intr IntrEvent where
  step s
    | .isr status => if s.on then some (s.athIsr K status) else none
    | .tasklet check =>
      if s.tasklet = true ∧ s.resetting = false then some (s.ath9kTasklet K C check) else none
    | .queueReset => some s.ath9kQueueReset
    | .resetBegin queued =>
      if s.resetting = false ∧ (queued = true → s.work = true) then
        some (if queued then { s with work := false }.resetBegin K else s.resetBegin K)
      else none
    | .resetEnd r => if s.resetting then some (s.resetEnd K r) else none
    | .cancelWork => some { s with work := false }
    | .start startrecv =>
      if s.invalid = true ∧ s.stopping = false ∧ s.resetting = false then
        some (s.ath9kStart K startrecv)
      else none
    | .stopCancel =>
      if s.invalid = false ∧ s.stopping = false ∧ s.resetting = false then
        some { s with work := false, stopping := true }
      else none
    | .stopMask =>
      if s.stopping = true ∧ s.resetting = false then some (s.stopMask K) else none
    | .stopEnd =>
      if s.stopping = true ∧ s.global = false ∧ s.tasklet = false ∧ s.resetting = false then
        some (s.stopEnd K)
      else none

/-! ## The counter -/

namespace Intr

variable {K : IntrCalls} {C : IntrConfig} {s t : Intr} {e : IntrEvent}

/-- How many are going to turn the interrupts on again: the tasklet and the reset. -/
def due (s : Intr) : ℤ := (if s.tasklet then 1 else 0) + if s.resetting then 1 else 0

theorem due_nonneg (s : Intr) : 0 ≤ s.due := by
  rw [due]
  split <;> split <;> decide

/-- What holds at any time: the interrupts have been turned off at least as often as they are going
to be turned on again. -/
structure Counted (s : Intr) : Prop where
  on : s.on = true → s.intrRefCnt = 0
  le : s.global = true → s.intrRefCnt ≤ -s.due
  off : s.global = false → s.on = false
  invalid : s.invalid = true → s.tasklet = false ∧ s.global = false
  started : s.Started → s.global = true
  /-- If nobody is going to turn them on they are on, unless a reset has been asked for. -/
  idle : s.global = true → s.intrRefCnt = 0 → s.hwReset = false → s.on = true

/-- **While the chip raises interrupts nobody is at work.** -/
theorem Counted.due_of_on (h : s.Counted) (hon : s.on = true) : s.due = 0 := by
  have hglobal : s.global = true := by
    by_contra hno
    exact nomatch (h.off (Bool.eq_false_iff.mpr hno)).symm.trans hon
  have hle := h.le hglobal
  have hnonneg := s.due_nonneg
  have hzero := h.on hon
  omega

theorem tasklet_of_due (h : s.due = 0) : s.tasklet = false ∧ s.resetting = false := by
  rw [due] at h
  cases ht : s.tasklet <;> cases hr : s.resetting <;> simp [ht, hr] at h ⊢

/-- What has to do with neither the counter nor the flags. -/
theorem Counted.of_eq (h : s.Counted) (hcnt : t.intrRefCnt = s.intrRefCnt) (hon : t.on = s.on)
    (hglobal : t.global = s.global) (hdue : t.due = s.due) (htasklet : t.tasklet = s.tasklet)
    (hinvalid : t.invalid = s.invalid) (hstarted : t.Started → s.Started)
    (hreset : t.hwReset = false → s.hwReset = false) : t.Counted := by
  refine ⟨?_, ?_, ?_, ?_, fun hst ↦ ?_, fun hg hzero hr ↦ ?_⟩
  · rw [hon, hcnt]
    exact h.on
  · rw [hglobal, hcnt, hdue]
    exact h.le
  · rw [hglobal, hon]
    exact h.off
  · rw [hinvalid, htasklet, hglobal]
    exact h.invalid
  · rw [hglobal]
    exact h.started (hstarted hst)
  · rw [hon]
    exact h.idle (hglobal ▸ hg) (hcnt ▸ hzero) (hreset hr)

theorem disable_eq (hK : K.Counting) (h : s.global = true) :
    s.ath9kHwDisableInterrupts K = { s with intrRefCnt := s.intrRefCnt - 1, on := false } := by
  rw [ath9kHwDisableInterrupts, h, hK.disable]

theorem enable_eq (hK : K.Counting) (h : s.global = true) :
    s.ath9kHwEnableInterrupts K =
      { s with
        intrRefCnt := s.intrRefCnt + 1
        on := s.on || decide (s.intrRefCnt + 1 = 0) } := by
  rw [ath9kHwEnableInterrupts, h, hK.enable]

theorem enable_unwanted (hK : K.Counting) (h : s.global = false) :
    s.ath9kHwEnableInterrupts K = s := by
  rw [ath9kHwEnableInterrupts, h, hK.unwanted, ← h]

/-- Somebody who was going to turn the interrupts on does so. -/
theorem Counted.enable (hK : K.Counting) (hoff : s.on = false)
    (hle : s.global = true → s.intrRefCnt < -s.due)
    (hinvalid : s.invalid = true → s.tasklet = false ∧ s.global = false)
    (hstarted : s.Started → s.global = true) : (s.ath9kHwEnableInterrupts K).Counted := by
  cases hglobal : s.global with
  | false =>
    rw [enable_unwanted hK hglobal]
    have hnot : s.global ≠ true := Bool.eq_false_iff.mp hglobal
    refine ⟨fun hon ↦ ?_, fun hg ↦ absurd hg hnot, fun _ ↦ hoff, hinvalid, hstarted,
      fun hg ↦ absurd hg hnot⟩
    exact nomatch hoff.symm.trans hon
  | true =>
    rw [enable_eq hK hglobal, hoff]
    refine ⟨fun hon ↦ of_decide_eq_true hon, fun _ ↦ hle hglobal, fun hg ↦ ?_, hinvalid,
      fun _ ↦ hglobal, fun _ hzero _ ↦ decide_eq_true hzero⟩
    exact nomatch hglobal.symm.trans hg

/-- How the tasklet ends: it turns the interrupts on, or leaves it to a reset. -/
theorem ath9kTasklet_eq (K : IntrCalls) (C : IntrConfig) (s : Intr) (check : TaskletCheck) :
    ∃ g, s.ath9kTasklet K C check = { s with tasklet := false, gttCnt := g }.leaveToReset ∨
      s.ath9kTasklet K C check =
        { s with tasklet := false, gttCnt := g }.ath9kHwEnableInterrupts K := by
  have hrest : ∀ u : Intr, ∃ g,
      u.taskletRest K C = { u with gttCnt := g }.ath9kHwEnableInterrupts K := by
    intro u
    rw [taskletRest]
    split
    · exact ⟨0, rfl⟩
    · exact ⟨u.gttCnt, rfl⟩
  rw [ath9kTasklet]
  dsimp only
  split_ifs
  · exact ⟨s.gttCnt, .inl rfl⟩
  · exact ⟨s.gttCnt, .inl rfl⟩
  · exact ⟨s.gttCnt + 1, .inl rfl⟩
  · obtain ⟨g, hg⟩ := hrest { s with tasklet := false, gttCnt := s.gttCnt + 1 }
    exact ⟨g, .inr hg⟩
  · obtain ⟨g, hg⟩ := hrest { s with tasklet := false }
    exact ⟨g, .inr hg⟩

/-! ### One step -/

theorem Counted.global_of_on (h : s.Counted) (hon : s.on = true) : s.global = true := by
  by_contra hno
  exact nomatch (h.off (Bool.eq_false_iff.mpr hno)).symm.trans hon

theorem Counted.off_of_due (h : s.Counted) (hdue : s.due ≠ 0) : s.on = false :=
  Bool.eq_false_iff.mpr fun hon ↦ hdue (h.due_of_on hon)

theorem Counted.athIsr (hK : K.Counting) (h : s.Counted) (hon : s.on = true)
    (status : IntrStatus) : (s.athIsr K status).Counted := by
  have hglobal := h.global_of_on hon
  obtain ⟨htasklet, hresetting⟩ := tasklet_of_due (h.due_of_on hon)
  rw [Intr.athIsr]
  dsimp only
  split_ifs with hinvalid hreset hempty hsched
  · exact h
  · refine ⟨nofun, h.le, fun _ ↦ rfl, h.invalid, h.started, fun _ _ hno ↦ ?_⟩
    exact nomatch hreset.symm.trans hno
  · exact h
  · have hzero := h.on hon
    rw [disable_eq hK (show ({ s with intrstatus := status } : Intr).global = true from hglobal)]
    refine ⟨nofun, fun _ ↦ ?_, fun _ ↦ rfl, fun hyes ↦ absurd hyes hinvalid, h.started,
      fun _ hone ↦ ?_⟩
    · simp only [due, hresetting, hzero]
      decide
    · simp only [hzero] at hone
      exact absurd hone (by decide)
  · exact h.of_eq rfl rfl rfl rfl rfl rfl id id

theorem Counted.ath9kTasklet (hK : K.Counting) (h : s.Counted) (ht : s.tasklet = true)
    (hr : s.resetting = false) (check : TaskletCheck) :
    (s.ath9kTasklet K C check).Counted := by
  have hdue : s.due = 1 := by simp [due, ht, hr]
  have hoff : s.on = false := h.off_of_due (by rw [hdue]; decide)
  have hvalid : s.invalid ≠ true := fun hinvalid ↦ nomatch ht.symm.trans (h.invalid hinvalid).1
  have hle := h.le
  rw [hdue] at hle
  obtain ⟨g, heq | heq⟩ := ath9kTasklet_eq K C s check
  · rw [heq]
    refine ⟨fun hon ↦ ?_, fun hglobal ↦ ?_, fun _ ↦ hoff, fun hinvalid ↦ absurd hinvalid hvalid,
      h.started, fun _ _ hno ↦ nomatch hno⟩
    · exact nomatch hoff.symm.trans hon
    · have hcnt := hle hglobal
      simp only [leaveToReset, ath9kQueueReset, due, hr, Bool.false_eq_true, if_false]
      omega
  · rw [heq]
    refine .enable hK hoff (fun hglobal ↦ ?_) (fun hinvalid ↦ absurd hinvalid hvalid) h.started
    have hcnt := hle hglobal
    simp only [due, hr, Bool.false_eq_true, if_false]
    omega

theorem Counted.resetBegin (hK : K.Counting) (h : s.Counted) (hr : s.resetting = false) :
    (s.resetBegin K).Counted := by
  rw [Intr.resetBegin]
  cases hglobal : s.global with
  | false =>
    have hnot : s.global ≠ true := Bool.eq_false_iff.mp hglobal
    exact ⟨nofun, fun hg ↦ absurd hg hnot, fun _ ↦ rfl, h.invalid, h.started,
      fun hg ↦ absurd hg hnot⟩
  | true =>
    have hle := h.le hglobal
    have hnonneg := s.due_nonneg
    rw [disable_eq hK hglobal]
    refine ⟨nofun, fun _ ↦ ?_, fun _ ↦ rfl, h.invalid, fun _ ↦ hglobal, fun _ hone _ ↦ ?_⟩
    · rw [due, hr] at hle
      simp only [due]
      simp at hle ⊢
      omega
    · simp only at hone
      omega

theorem Counted.resetEnd (hK : K.Counting) (h : s.Counted) (hr : s.resetting = true)
    (r : ResetEnd) : (s.resetEnd K r).Counted := by
  have hdue : s.due = { s with resetting := false }.due + 1 := by simp [due, hr]
  have hnonneg := due_nonneg { s with resetting := false }
  have hoff : s.on = false := h.off_of_due (by omega)
  have hle : s.global = true → s.intrRefCnt < -{ s with resetting := false }.due := by
    intro hglobal
    have hcnt := h.le hglobal
    omega
  cases r with
  | done =>
    have hdone : ({ s with resetting := false, hwReset := false }.ath9kHwEnableInterrupts
        K).Counted := .enable hK hoff hle h.invalid h.started
    exact hdone.of_eq rfl rfl rfl rfl rfl rfl id id
  | hwFailed =>
    have hfailed : ({ s with resetting := false }.ath9kHwEnableInterrupts K).Counted :=
      .enable hK hoff hle h.invalid h.started
    exact hfailed.of_eq rfl rfl rfl rfl rfl rfl id nofun
  | recvFailed =>
    refine ⟨fun hon ↦ ?_, fun hg ↦ (hle hg).le, h.off, h.invalid, h.started, fun hg hzero ↦ ?_⟩
    · exact nomatch hoff.symm.trans hon
    · have hcnt := hle hg
      have hzero' : s.intrRefCnt = 0 := hzero
      omega

theorem Counted.ath9kStart (hK : K.Counting) (h : s.Counted) (hinvalid : s.invalid = true)
    (hr : s.resetting = false) (startrecv : Bool) : (s.ath9kStart K startrecv).Counted := by
  obtain ⟨htasklet, hglobal⟩ := h.invalid hinvalid
  have hoff := h.off hglobal
  rw [Intr.ath9kStart]
  split
  · have hdone : ({ s with
        intrRefCnt := -1, global := true, invalid := false,
        hwReset := false }.ath9kHwEnableInterrupts K).Counted := by
      refine .enable hK hoff (fun _ ↦ ?_) nofun fun _ ↦ rfl
      simp [due, htasklet, hr]
    exact hdone.of_eq rfl rfl rfl rfl rfl rfl id id
  · refine ⟨fun hon ↦ ?_, fun _ ↦ ?_, nofun, nofun, fun _ ↦ rfl, nofun⟩
    · exact nomatch hoff.symm.trans hon
    · simp [due, htasklet, hr]

theorem Counted.step (hK : K.Counting) (h : s.Counted)
    (hst : (interrupts K C).step s e = some t) : t.Counted := by
  cases e with
  | isr status =>
    obtain ⟨hon, ⟨⟩⟩ := Option.ite_none_right_eq_some.mp hst
    exact h.athIsr hK hon status
  | tasklet check =>
    obtain ⟨⟨ht, hr⟩, ⟨⟩⟩ := Option.ite_none_right_eq_some.mp hst
    exact h.ath9kTasklet hK ht hr check
  | queueReset =>
    obtain ⟨⟩ := hst
    exact h.of_eq rfl rfl rfl rfl rfl rfl id nofun
  | resetBegin queued =>
    obtain ⟨⟨hr, -⟩, ⟨⟩⟩ := Option.ite_none_right_eq_some.mp hst
    split
    · have hwork : { s with work := false }.Counted := h.of_eq rfl rfl rfl rfl rfl rfl id id
      exact hwork.resetBegin hK hr
    · exact h.resetBegin hK hr
  | resetEnd r =>
    obtain ⟨hr, ⟨⟩⟩ := Option.ite_none_right_eq_some.mp hst
    exact h.resetEnd hK hr r
  | cancelWork =>
    obtain ⟨⟩ := hst
    exact h.of_eq rfl rfl rfl rfl rfl rfl id id
  | start startrecv =>
    obtain ⟨⟨hinvalid, -, hr⟩, ⟨⟩⟩ := Option.ite_none_right_eq_some.mp hst
    exact h.ath9kStart hK hinvalid hr startrecv
  | stopCancel =>
    obtain ⟨-, ⟨⟩⟩ := Option.ite_none_right_eq_some.mp hst
    exact h.of_eq rfl rfl rfl rfl rfl rfl (fun hst ↦ nomatch hst.2) id
  | stopMask =>
    obtain ⟨⟨hstop, -⟩, ⟨⟩⟩ := Option.ite_none_right_eq_some.mp hst
    refine ⟨nofun, nofun, fun _ ↦ rfl, fun hinvalid ↦ ⟨(h.invalid hinvalid).1, rfl⟩,
      fun hst ↦ ?_, nofun⟩
    exact nomatch hstop.symm.trans hst.2
  | stopEnd =>
    obtain ⟨⟨-, hglobal, htasklet, -⟩, ⟨⟩⟩ := Option.ite_none_right_eq_some.mp hst
    have hnot : s.global ≠ true := Bool.eq_false_iff.mp hglobal
    refine ⟨nofun, fun hg ↦ absurd hg hnot, fun _ ↦ rfl, fun _ ↦ ⟨htasklet, hglobal⟩,
      fun hst ↦ ?_, fun hg ↦ absurd hg hnot⟩
    exact nomatch hst.1

/-! ## The statuses -/

/-- The status of an interrupt that the tasklet has to deal with. -/
def asked (s : Intr) : IntrEvent → List IntrStatus
  | .isr status => if !s.invalid && !s.hwReset && status.sched then [status] else []
  | _ => []

/-- The status that the tasklet deals with. -/
def served (s : Intr) : IntrEvent → List IntrStatus
  | .tasklet _ => [s.intrstatus]
  | _ => []

/-- The status that the tasklet has not dealt with yet. -/
def pending (s : Intr) : List IntrStatus := if s.tasklet then [s.intrstatus] else []

theorem pending_of_not (h : s.tasklet = false) : s.pending = [] := by
  rw [pending, h]
  rfl

theorem Counted.pending_athIsr (K : IntrCalls) (h : s.Counted) (hon : s.on = true)
    (status : IntrStatus) : (s.athIsr K status).pending = s.asked (.isr status) := by
  have hidle := (tasklet_of_due (h.due_of_on hon)).1
  rw [Intr.athIsr, asked]
  cases hinvalid : s.invalid with
  | true => exact pending_of_not hidle
  | false =>
    cases hreset : s.hwReset with
    | true => exact pending_of_not hidle
    | false =>
      cases hsched : status.sched with
      | true => rfl
      | false => cases status.rest <;> exact pending_of_not hidle

/-- What is pending and what is asked for is served, or pending afterwards. -/
theorem Counted.pending_step (h : s.Counted) (hst : (interrupts K C).step s e = some t) :
    s.pending ++ s.asked e = s.served e ++ t.pending := by
  cases e with
  | isr status =>
    obtain ⟨hon, ⟨⟩⟩ := Option.ite_none_right_eq_some.mp hst
    rw [h.pending_athIsr K hon, pending_of_not (tasklet_of_due (h.due_of_on hon)).1]
    rfl
  | tasklet check =>
    obtain ⟨⟨ht, -⟩, ⟨⟩⟩ := Option.ite_none_right_eq_some.mp hst
    have hdone : (s.ath9kTasklet K C check).pending = [] := by
      obtain ⟨g, heq | heq⟩ := ath9kTasklet_eq K C s check <;> rw [heq] <;> rfl
    rw [hdone, pending, ht]
    rfl
  | resetBegin queued =>
    obtain ⟨-, ⟨⟩⟩ := Option.ite_none_right_eq_some.mp hst
    cases queued <;> exact List.append_nil _
  | resetEnd r =>
    obtain ⟨-, ⟨⟩⟩ := Option.ite_none_right_eq_some.mp hst
    cases r <;> exact List.append_nil _
  | start startrecv =>
    obtain ⟨-, ⟨⟩⟩ := Option.ite_none_right_eq_some.mp hst
    cases startrecv <;> exact List.append_nil _
  | queueReset | cancelWork =>
    obtain ⟨⟩ := hst
    exact List.append_nil _
  | stopCancel | stopMask | stopEnd =>
    obtain ⟨-, ⟨⟩⟩ := Option.ite_none_right_eq_some.mp hst
    exact List.append_nil _

/-! ## The interrupts do not stay off -/

/-- The counter is exact, and if a reset has been asked for it is going to happen. -/
structure Awake (s : Intr) : Prop where
  cnt : s.intrRefCnt = -s.due
  reset : s.hwReset = true → s.work = true ∨ s.resetting = true

/-- If a reset ends or the driver starts, reception starts, and no reset that has been asked for is
cancelled. -/
def Restarts (s : Intr) : IntrEvent → Prop
  | .resetEnd r => s.Started → r ≠ .recvFailed
  | .cancelWork => s.Started → s.hwReset = true → s.resetting = true
  | .start startrecv => startrecv = true
  | _ => True

theorem Awake.athIsr (hK : K.Counting) (hs : s.Counted) (h : s.Awake) (hon : s.on = true)
    (status : IntrStatus) : (s.athIsr K status).Awake := by
  have hglobal := hs.global_of_on hon
  obtain ⟨htasklet, hresetting⟩ := tasklet_of_due (hs.due_of_on hon)
  rw [Intr.athIsr]
  dsimp only
  split_ifs
  · exact h
  · exact ⟨h.cnt, h.reset⟩
  · exact h
  · rw [disable_eq hK (show ({ s with intrstatus := status } : Intr).global = true from hglobal)]
    refine ⟨?_, h.reset⟩
    simp only [due, hresetting, hs.on hon]
    decide
  · exact ⟨h.cnt, h.reset⟩

theorem awake_enable (hK : K.Counting) (hglobal : s.global = true)
    (hcnt : s.intrRefCnt = -s.due - 1)
    (hreset : s.hwReset = true → s.work = true ∨ s.resetting = true) :
    (s.ath9kHwEnableInterrupts K).Awake := by
  have hcnt' : s.intrRefCnt + 1 = -s.due := by omega
  rw [enable_eq hK hglobal]
  exact ⟨hcnt', hreset⟩

theorem Awake.ath9kTasklet (hK : K.Counting) (h : s.Awake) (hglobal : s.global = true)
    (ht : s.tasklet = true) (check : TaskletCheck) : (s.ath9kTasklet K C check).Awake := by
  have hcnt := h.cnt
  simp only [due, ht, if_true] at hcnt
  obtain ⟨g, heq | heq⟩ := ath9kTasklet_eq K C s check
  · rw [heq]
    refine ⟨?_, fun _ ↦ .inl rfl⟩
    simp only [leaveToReset, ath9kQueueReset, due, hcnt, Bool.false_eq_true, if_false]
    omega
  · rw [heq]
    refine awake_enable hK hglobal ?_ h.reset
    simp only [due, hcnt, Bool.false_eq_true, if_false]
    omega

theorem Awake.resetBegin (hK : K.Counting) (hcnt : s.intrRefCnt = -s.due)
    (hglobal : s.global = true) (hr : s.resetting = false) : (s.resetBegin K).Awake := by
  rw [Intr.resetBegin, disable_eq hK hglobal]
  refine ⟨?_, fun _ ↦ .inr rfl⟩
  simp only [hcnt, due, hr, Bool.false_eq_true, if_false, if_true]
  omega

/-- A reset that has ended keeps the account, unless reception has not started. -/
theorem awake_resetEnd (hK : K.Counting) (h : s.Awake) (hglobal : s.global = true)
    (hr : s.resetting = true) (r : ResetEnd) : (s.resetEnd K r).Awake ↔ r ≠ .recvFailed := by
  have hcnt : s.intrRefCnt = -{ s with resetting := false }.due - 1 := by
    rw [h.cnt]
    simp only [due, hr, Bool.false_eq_true, if_false, if_true]
    omega
  cases r with
  | done =>
    have hdone : ({ s with resetting := false, hwReset := false }.ath9kHwEnableInterrupts
        K).Awake := awake_enable hK hglobal hcnt nofun
    exact iff_of_true ⟨hdone.cnt, hdone.reset⟩ nofun
  | hwFailed =>
    have hfailed : ({ s with resetting := false, hwReset := false }.ath9kHwEnableInterrupts
        K).Awake := awake_enable hK hglobal hcnt nofun
    exact iff_of_true ⟨hfailed.cnt, fun _ ↦ .inl rfl⟩ nofun
  | recvFailed =>
    refine iff_of_false (fun hno ↦ ?_) fun hno ↦ hno rfl
    have hcnt' : s.intrRefCnt = -{ s with resetting := false }.due := hno.cnt
    omega

theorem awake_ath9kStart (hK : K.Counting) (htasklet : s.tasklet = false)
    (hr : s.resetting = false) (startrecv : Bool) :
    (s.ath9kStart K startrecv).Awake ↔ startrecv = true := by
  cases startrecv with
  | true =>
    refine iff_of_true ?_ rfl
    have hdone : ({ s with
        intrRefCnt := -1, global := true, invalid := false,
        hwReset := false }.ath9kHwEnableInterrupts K).Awake := by
      refine awake_enable hK rfl ?_ nofun
      simp [due, htasklet, hr]
    exact ⟨hdone.cnt, hdone.reset⟩
  | false =>
    refine iff_of_false (fun hno ↦ ?_) nofun
    have hcnt := hno.cnt
    simp [Intr.ath9kStart, due, htasklet, hr] at hcnt

/-- Only `ath9k_start` starts the driver. -/
theorem started_of_step (hst : (interrupts K C).step s e = some t) (he : ∀ b, e ≠ .start b)
    (ht : t.Started) : s.Started := by
  cases e with
  | isr status =>
    obtain ⟨-, ⟨⟩⟩ := Option.ite_none_right_eq_some.mp hst
    have hsame : (s.athIsr K status).invalid = s.invalid ∧
        (s.athIsr K status).stopping = s.stopping := by
      rw [Intr.athIsr]
      dsimp only
      split_ifs <;> exact ⟨rfl, rfl⟩
    exact ⟨hsame.1 ▸ ht.1, hsame.2 ▸ ht.2⟩
  | tasklet check =>
    obtain ⟨-, ⟨⟩⟩ := Option.ite_none_right_eq_some.mp hst
    obtain ⟨g, heq | heq⟩ := ath9kTasklet_eq K C s check <;> rw [heq] at ht <;> exact ht
  | resetBegin queued =>
    obtain ⟨-, ⟨⟩⟩ := Option.ite_none_right_eq_some.mp hst
    cases queued <;> exact ht
  | resetEnd r =>
    obtain ⟨-, ⟨⟩⟩ := Option.ite_none_right_eq_some.mp hst
    cases r <;> exact ht
  | start b => exact absurd rfl (he b)
  | queueReset | cancelWork =>
    obtain ⟨⟩ := hst
    exact ht
  | stopMask =>
    obtain ⟨-, ⟨⟩⟩ := Option.ite_none_right_eq_some.mp hst
    exact ht
  | stopCancel =>
    obtain ⟨-, ⟨⟩⟩ := Option.ite_none_right_eq_some.mp hst
    exact nomatch ht.2
  | stopEnd =>
    obtain ⟨-, ⟨⟩⟩ := Option.ite_none_right_eq_some.mp hst
    exact nomatch ht.1

/-- **A step keeps the account if and only if it restarts what it stops.** -/
theorem awake_step (hK : K.Counting) (hs : s.Counted) (h : s.Started → s.Awake)
    (hst : (interrupts K C).step s e = some t) : (t.Started → t.Awake) ↔ s.Restarts e := by
  have hback := started_of_step hst
  cases e with
  | isr status =>
    obtain ⟨hon, ⟨⟩⟩ := Option.ite_none_right_eq_some.mp hst
    exact iff_of_true (fun ht ↦ (h (hback nofun ht)).athIsr hK hs hon status) trivial
  | tasklet check =>
    obtain ⟨⟨htasklet, -⟩, ⟨⟩⟩ := Option.ite_none_right_eq_some.mp hst
    refine iff_of_true (fun ht ↦ ?_) trivial
    have hstarted := hback nofun ht
    exact (h hstarted).ath9kTasklet hK (hs.started hstarted) htasklet check
  | queueReset =>
    obtain ⟨⟩ := hst
    exact iff_of_true (fun ht ↦ ⟨(h ht).cnt, fun _ ↦ .inl rfl⟩) trivial
  | resetBegin queued =>
    obtain ⟨⟨hr, -⟩, ⟨⟩⟩ := Option.ite_none_right_eq_some.mp hst
    refine iff_of_true (fun ht ↦ ?_) trivial
    have hstarted := hback nofun ht
    cases queued with
    | true =>
      exact Awake.resetBegin (s := { s with work := false }) hK (h hstarted).cnt
        (hs.started hstarted) hr
    | false => exact .resetBegin hK (h hstarted).cnt (hs.started hstarted) hr
  | resetEnd r =>
    obtain ⟨hr, ⟨⟩⟩ := Option.ite_none_right_eq_some.mp hst
    have hsame : (s.resetEnd K r).Started ↔ s.Started := by
      cases r <;> exact Iff.rfl
    rw [hsame]
    exact forall_congr' fun hstarted ↦
      awake_resetEnd hK (h hstarted) (hs.started hstarted) hr r
  | cancelWork =>
    obtain ⟨⟩ := hst
    refine forall_congr' fun hstarted ↦ ?_
    refine ⟨fun ht hreset ↦ ?_, fun hC ↦ ⟨(h hstarted).cnt, fun hreset ↦ .inr (hC hreset)⟩⟩
    exact (ht.reset hreset).resolve_left nofun
  | start startrecv =>
    obtain ⟨⟨hinvalid, hstop, hr⟩, ⟨⟩⟩ := Option.ite_none_right_eq_some.mp hst
    have hstarted : (s.ath9kStart K startrecv).Started := by
      cases startrecv <;> exact ⟨rfl, hstop⟩
    rw [Restarts, ← awake_ath9kStart hK (hs.invalid hinvalid).1 hr]
    exact ⟨fun ht ↦ ht hstarted, fun ht _ ↦ ht⟩
  | stopCancel =>
    obtain ⟨-, ⟨⟩⟩ := Option.ite_none_right_eq_some.mp hst
    exact iff_of_true (fun ht ↦ nomatch ht.2) trivial
  | stopMask =>
    obtain ⟨⟨hstop, -⟩, ⟨⟩⟩ := Option.ite_none_right_eq_some.mp hst
    exact iff_of_true (fun ht ↦ nomatch hstop.symm.trans ht.2) trivial
  | stopEnd =>
    obtain ⟨-, ⟨⟩⟩ := Option.ite_none_right_eq_some.mp hst
    exact iff_of_true (fun ht ↦ nomatch ht.1) trivial

/-! ## Whole runs -/

/-- The driver has not been started. -/
structure Asleep (s : Intr) : Prop where
  invalid : s.invalid = true
  global : s.global = false
  on : s.on = false
  tasklet : s.tasklet = false

theorem Asleep.counted (h : s.Asleep) : s.Counted := by
  have hnot : s.global ≠ true := Bool.eq_false_iff.mp h.global
  refine ⟨fun hon ↦ ?_, fun hg ↦ absurd hg hnot, fun _ ↦ h.on, fun _ ↦ ⟨h.tasklet, h.global⟩,
    fun hst ↦ ?_, fun hg ↦ absurd hg hnot⟩
  · exact nomatch h.on.symm.trans hon
  · exact nomatch h.invalid.symm.trans hst.1

theorem Counted.of_run (hK : K.Counting) {es : List IntrEvent} (hs : s.Asleep)
    (h : (interrupts K C).run s es = some t) : t.Counted :=
  Machine.invariant (fun _ _ _ hu hst ↦ hu.step hK hst) hs.counted h

end Intr

section Results

variable {K : IntrCalls} {C : IntrConfig} {s t : Intr} {es : List IntrEvent}

/-- **No status is lost and none is served twice.** In any run from before the driver is started,
the tasklet has dealt with the statuses of the interrupts that need it, each once and in their
order, but for the last one while the tasklet is still scheduled; and whenever the chip raises
interrupts the tasklet is not scheduled and no reset is going on. -/
theorem served_of_run (hK : K.Counting) (hs : s.Asleep) (h : (interrupts K C).run s es = some t) :
    (interrupts K C).trace Intr.asked s es =
        (interrupts K C).trace Intr.served s es ++ t.pending ∧
      (t.on = true → t.tasklet = false ∧ t.resetting = false) := by
  refine ⟨?_, fun hon ↦ Intr.tasklet_of_due ((Intr.Counted.of_run hK hs h).due_of_on hon)⟩
  refine Machine.run_induction (P := fun es t ↦ (interrupts K C).trace Intr.asked s es =
    (interrupts K C).trace Intr.served s es ++ t.pending) ?_ ?_ h
  · exact (Intr.pending_of_not hs.tasklet).symm
  · intro es u e v hu ih huv
    rw [Machine.trace_concat _ e hu, Machine.trace_concat _ e hu, ih, List.append_assoc,
      List.append_assoc, (Intr.Counted.of_run hK hs hu).pending_step huv]

/-- The counter of the driver: it is one below zero as long as the interrupts are not wanted. -/
def intrCalls : IntrCalls where
  disable global n := if global then n - 1 else -1
  enable global n on := if global then (n + 1, on || decide (n + 1 = 0)) else (n, on)

theorem counting_intrCalls : intrCalls.Counting := ⟨fun _ ↦ rfl, fun _ _ ↦ rfl, fun _ _ ↦ rfl⟩

/-- Before the driver is started. -/
def asleep : Intr where
  intrRefCnt := -1
  on := false
  global := false
  invalid := true
  hwReset := false
  intrstatus := ⟨false, false, false, false, false, false⟩
  gttCnt := 0
  tasklet := false
  work := false
  resetting := false
  stopping := false

theorem asleep_asleep : asleep.Asleep := ⟨rfl, rfl, rfl, rfl⟩

/-- The chip is reset after a fatal interrupt, and another interrupt comes when that is done. -/
def fatalRun : List IntrEvent :=
  [.start true, .isr ⟨true, false, false, false, false, false⟩, .tasklet ⟨false, true⟩,
    .resetBegin true, .resetEnd .done, .isr ⟨false, false, false, true, false, false⟩]

/-- The second interrupt has not been served yet. -/
theorem served_of_run_fatal :
    ∃ t, (interrupts intrCalls ⟨false, false⟩).run asleep fatalRun = some t ∧
      (interrupts intrCalls ⟨false, false⟩).trace Intr.asked asleep fatalRun =
        (interrupts intrCalls ⟨false, false⟩).trace Intr.served asleep fatalRun ++
          [⟨false, false, false, true, false, false⟩] := by
  obtain ⟨t, ht, hpending⟩ :
      ∃ t, (interrupts intrCalls ⟨false, false⟩).run asleep fatalRun = some t ∧
        t.pending = [⟨false, false, false, true, false, false⟩] := ⟨_, rfl, rfl⟩
  exact ⟨t, ht, hpending ▸ (served_of_run counting_intrCalls asleep_asleep ht).1⟩

/-- **When the interrupts do not stay off.** In any run from before the driver is started the
counter is exact while the driver is started, and a reset that has been asked for is going to
happen, if and only if no start and no reset fails to restart reception and no reset that has been
asked for is cancelled. As long as this is so, the chip raises interrupts whenever the driver is
started, the tasklet is not scheduled, and no reset is going on or has been asked for. -/
theorem awake_iff_of_run (hK : K.Counting) (hs : s.Asleep)
    (h : (interrupts K C).run s es = some t) :
    ((interrupts K C).Throughout (fun u ↦ u.Started → u.Awake) s es ↔
        (interrupts K C).Meets Intr.Restarts s es) ∧
      ((interrupts K C).Meets Intr.Restarts s es → t.Started → t.due = 0 → t.hwReset = false →
        t.on = true) := by
  have hexact : (interrupts K C).Throughout (fun u ↦ u.Started → u.Awake) s es ↔
      (interrupts K C).Meets Intr.Restarts s es := by
    refine Machine.throughout_iff_meets (fun hst ↦ ?_) (fun pre u e v hu hPu huv ↦ ?_) h
    · exact nomatch hs.invalid.symm.trans hst.1
    · exact Intr.awake_step hK (Intr.Counted.of_run hK hs hu) hPu huv
  refine ⟨hexact, fun hmeets hstarted hdue hreset ↦ ?_⟩
  have hawake := (hexact.mpr hmeets).last h hstarted
  have hcounted := Intr.Counted.of_run hK hs h
  refine hcounted.idle (hcounted.started hstarted) ?_ hreset
  rw [hawake.cnt, hdue, neg_zero]

/-- A reset after which reception does not start leaves the interrupts off. -/
theorem awake_iff_of_run_recvFailed :
    ¬(interrupts intrCalls ⟨false, false⟩).Throughout (fun u ↦ u.Started → u.Awake) asleep
      [.start true, .resetBegin false, .resetEnd .recvFailed] := by
  have hrun : ∃ u t, (interrupts intrCalls ⟨false, false⟩).run asleep
      [.start true, .resetBegin false] = some u ∧ u.Started ∧
        (interrupts intrCalls ⟨false, false⟩).step u (.resetEnd .recvFailed) = some t :=
    ⟨_, _, rfl, ⟨rfl, rfl⟩, rfl⟩
  obtain ⟨u, t, hu, hstarted, ht⟩ := hrun
  have hall := Machine.run_concat_eq_some.mpr ⟨u, hu, ht⟩
  refine (awake_iff_of_run counting_intrCalls asleep_asleep hall).1.not.mpr fun hmeets ↦ ?_
  exact (Machine.meets_concat.mp hmeets).2 u hu hstarted rfl

end Results

end UcsmaRateControl
