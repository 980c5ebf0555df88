import UcsmaRateControl.Kernel.Timespec
import UcsmaRateControl.Machine.Run
import UcsmaRateControl.Machine.RunningStats

/-!
# The passes of `gpio-irq-latency-test.c`

A pin is wired to an interrupt. A timer lowers it, pass after pass; the handler of the interrupt
takes the time and raises it again, and the next time that the timer expires it looks how long that
took. The test is over after 1024 passes, or when more than a hundred of them have been missed.

The interrupt is noticed on a falling edge, and it can come between any two steps of the timer's
handler: while the handler looks whether it has come, takes it into account, takes the time of the
next pass, and lowers the pin. An edge can also go unnoticed.
-/

namespace UcsmaRateControl.GpioIrqLatency

/-- `NUM_TESTS`. -/
def numTests : ℕ := 1024

/-- `MISSED_IRQ_MAX`. -/
def missedIrqMax : ℕ := 100

/-- How far the handler of the timer has got. -/
inductive Phase
  /-- It does not run. -/
  | idle
  /-- The interrupt has come, and has been taken into account; `test_ok` says whether it counts. -/
  | measured (testOk : Bool)
  /-- `irq_fired` has been cleared, or was not set. -/
  | counted (testOk : Bool)
  /-- The time of the next pass has been taken. -/
  | stamped
deriving DecidableEq

/-- What is printed when the test has been passed. -/
structure Report where
  results : List UInt16
  avgNsecs : UInt32
  missedIrqs : UInt32
deriving DecidableEq

/-- `irq_latency_test`, and the wire. An `unsigned long` has 32 bits. -/
structure LatencyTest where
  gpioTime : Timespec
  irqTime : Timespec
  /-- The table of `NUM_TESTS` entries, with the memory behind it. -/
  results : ℕ → UInt16
  irqFired : Bool
  /-- Whether the interrupt is enabled. -/
  irqEnabled : Bool
  /-- Whether `timer` is pending. -/
  timer : Bool
  testCount : UInt32
  avgNsecs : UInt32
  missedIrqs : UInt32
  /-- Whether the pin is high. -/
  pin : Bool
  /-- There has been a falling edge, and the interrupt has not come yet. -/
  edge : Bool
  phase : Phase
  reports : List Report

namespace LatencyTest

variable (s : LatencyTest)

/-- The latency that the handler finds, if it counts. -/
def latency? : Option ℕ :=
  let delta := timespecSub s.irqTime s.gpioTime
  if s.irqFired = false ∨ delta.tvSec > 0 then none else some delta.tvNsec

/-- The handler of the interrupt. -/
def interruptHandler (now : Timespec) : LatencyTest :=
  { s with irqTime := now, irqFired := true, pin := true, edge := false }

/-- The handler of the timer, up to `irq_fired = 0`. -/
def expire : LatencyTest :=
  let s := { s with timer := false }
  if s.irqFired then
    let delta := timespecSub s.irqTime s.gpioTime
    if delta.tvSec > 0 then { s with missedIrqs := s.missedIrqs + 1, phase := .measured false }
    else
      { s with
        avgNsecs := (s.avgNsecs * s.testCount + delta.nsecU32) / (s.testCount + 1)
        results := Function.update s.results s.testCount.toNat delta.nsecU32.toUInt16
        phase := .measured true }
  else { s with missedIrqs := s.missedIrqs + 1, phase := .counted false }

/-- From the label `stopTesting` on. -/
def stopTesting : LatencyTest := { s with irqEnabled := false, phase := .idle }

/-- The next pass, unless too many have been missed. -/
def goOn (now : Timespec) : LatencyTest :=
  if s.missedIrqs > 100 then s.stopTesting else { s with gpioTime := now, phase := .stamped }

/-- The handler from there to `gpio_time`. -/
def settle (testOk : Bool) (now : Timespec) : LatencyTest :=
  if testOk then
    let s := { s with testCount := s.testCount + 1 }
    if s.testCount ≥ 1024 then
      let report := ⟨(List.range numTests).map s.results, s.avgNsecs, s.missedIrqs⟩
      { s with reports := report :: s.reports }.stopTesting
    else s.goOn now
  else s.goOn now

/-- The rest of the handler: the pin is lowered, and the timer is set again. -/
def lower : LatencyTest :=
  { s with pin := false, edge := s.edge || s.pin, timer := true, phase := .idle }

end LatencyTest

/-- What can happen to the test. -/
inductive LatencyEvent
  /-- The interrupt comes. -/
  | irq (now : Timespec)
  /-- The edge goes unnoticed. -/
  | lose
  /-- The timer expires, and its handler begins. -/
  | expire
  /-- The handler clears `irq_fired`. -/
  | clear
  /-- It goes on, or stops the test. -/
  | settle (now : Timespec)
  /-- It lowers the pin. -/
  | lower
deriving DecidableEq

/-- The machine of the test. -/
def latencyTest : Machine LatencyTest LatencyEvent where
  step s
    | .irq now =>
      if s.edge = true ∧ s.irqEnabled = true then some (s.interruptHandler now) else none
    | .lose => if s.edge then some { s with edge := false } else none
    | .expire => if s.timer then some s.expire else none
    | .clear =>
      match s.phase with
      | .measured testOk => some { s with irqFired := false, phase := .counted testOk }
      | _ => none
    | .settle now =>
      match s.phase with
      | .counted testOk => some (s.settle testOk now)
      | _ => none
    | .lower => if s.phase = .stamped then some s.lower else none

/-- The module once it has been loaded: the pin has just been lowered. -/
def started (now : Timespec) (behind : ℕ → UInt16) : LatencyTest where
  gpioTime := now
  irqTime := 0
  results := fun i ↦ if i < numTests then 0 else behind i
  irqFired := false
  irqEnabled := true
  timer := true
  testCount := 0
  avgNsecs := 0
  missedIrqs := 0
  pin := false
  edge := true
  phase := .idle
  reports := []

/-- What an event records. -/
def records (s : LatencyTest) : LatencyEvent → List ℕ
  | .expire => s.latency?.toList
  | _ => []

/-- How many passes have begun to be evaluated. -/
def ticks (es : List LatencyEvent) : ℕ := es.count .expire

/-- A step of the timer's handler. -/
def LatencyEvent.OfHandler : LatencyEvent → Prop
  | .irq _ | .lose => False
  | _ => True

/-! ## The books of the test -/

namespace LatencyTest

variable {s t : LatencyTest} {e : LatencyEvent} {xs : List ℕ} {x n : ℕ} {behind : ℕ → UInt16}

/-- The test is not over. -/
def Running (s : LatencyTest) : Prop := s.timer = true ∨ s.phase ≠ .idle

/-- How many passes have been recorded and are still to be counted. -/
def uncounted (s : LatencyTest) : ℕ :=
  match s.phase with
  | .measured true | .counted true => 1
  | _ => 0

/-- How a test ends, after the latencies `xs`. -/
inductive Over (xs : List ℕ) (s : LatencyTest) : Prop
  /-- It has been passed, and the latencies are printed. -/
  | passed (full : xs.length = numTests) (missed : s.missedIrqs.toNat ≤ missedIrqMax)
      (reports : s.reports = [⟨xs.map UInt16.ofNat, s.avgNsecs, s.missedIrqs⟩])
  /-- Too many passes have been missed. -/
  | failed (short : xs.length < numTests) (missed : s.missedIrqs.toNat = missedIrqMax + 1)
      (reports : s.reports = [])

/-- What is kept while the latencies `xs` are recorded in `n` passes. -/
structure Kept (behind : ℕ → UInt16) (s : LatencyTest) (xs : List ℕ) (n : ℕ) : Prop where
  testCount : s.testCount.toNat + s.uncounted = xs.length
  missedIrqs : s.missedIrqs.toNat + xs.length = n
  avgNsecs : (∀ x ∈ xs, x < 2 ^ 22) → s.avgNsecs.toNat = (RunningStats.ofList xs).mean
  results : ∀ i, (h : i < xs.length) → s.results i = UInt16.ofNat xs[i]
  outside : ∀ i, xs.length ≤ i → s.results i = if i < numTests then 0 else behind i
  timer : s.timer = true → s.phase = .idle
  going : s.Running → s.irqEnabled = true ∧ s.reports = [] ∧ s.testCount.toNat < numTests ∧
    s.missedIrqs.toNat ≤ missedIrqMax + 1
  /-- Only a pass that has just been missed can be one too many. -/
  spare : s.Running → s.missedIrqs.toNat = missedIrqMax + 1 →
    s.phase = .measured false ∨ s.phase = .counted false
  ended : ¬s.Running → s.irqEnabled = false ∧ s.Over xs

theorem kept_started (now : Timespec) : Kept behind (started now behind) [] 0 where
  testCount := rfl
  missedIrqs := rfl
  avgNsecs _ := rfl
  results _ h := absurd h (Nat.not_lt_zero _)
  outside _ _ := rfl
  timer _ := rfl
  going _ := ⟨rfl, rfl, Nat.zero_lt_succ _, Nat.zero_le _⟩
  spare _ h := absurd h (Nat.succ_ne_zero _).symm
  ended h := absurd (.inl rfl) h

/-! ### One step -/

theorem expire_of_none (h : s.latency? = none) :
    s.expire = { s with
      timer := false
      missedIrqs := s.missedIrqs + 1
      phase := if s.irqFired then .measured false else .counted false } := by
  rw [latency?] at h
  split_ifs at h with hno
  rw [expire]
  cases hfired : s.irqFired with
  | false => rfl
  | true =>
    have hsec := hno.resolve_left (by rw [hfired]; exact nofun)
    exact (if_pos rfl).trans (if_pos hsec)

theorem expire_of_some (h : s.latency? = some x) :
    x < 1000000000 ∧ s.expire = { s with
      timer := false
      avgNsecs := (s.avgNsecs * s.testCount + UInt32.ofNat x) / (s.testCount + 1)
      results := Function.update s.results s.testCount.toNat (UInt32.ofNat x).toUInt16
      phase := .measured true } := by
  rw [latency?] at h
  split_ifs at h with hyes
  obtain rfl := Option.some_inj.mp h
  obtain ⟨hfired, hsec⟩ := not_or.mp hyes
  refine ⟨(timespecSub s.irqTime s.gpioTime).tvNsec_lt, ?_⟩
  rw [expire]
  exact (if_pos (Bool.not_eq_false _ ▸ hfired)).trans (if_neg hsec)

/-- Steps that have nothing to do with the books. -/
theorem Kept.of_eq (h : Kept behind s xs n) (hcount : t.testCount = s.testCount)
    (hmissed : t.missedIrqs = s.missedIrqs) (havg : t.avgNsecs = s.avgNsecs)
    (hresults : t.results = s.results) (hreports : t.reports = s.reports)
    (hirq : t.irqEnabled = s.irqEnabled) (hopen : t.uncounted = s.uncounted)
    (htimer : t.timer = true → t.phase = .idle) (hrunning : t.Running ↔ s.Running)
    (hspare : s.phase = .measured false ∨ s.phase = .counted false →
      t.phase = .measured false ∨ t.phase = .counted false) : Kept behind t xs n := by
  refine ⟨?_, ?_, ?_, ?_, ?_, htimer, fun hrun ↦ ?_, fun hrun hmax ↦ ?_, fun hover ↦ ?_⟩
  · rw [hcount, hopen, h.testCount]
  · rw [hmissed, h.missedIrqs]
  · rw [havg]
    exact h.avgNsecs
  · rw [hresults]
    exact h.results
  · rw [hresults]
    exact h.outside
  · rw [hirq, hreports, hcount, hmissed]
    exact h.going (hrunning.mp hrun)
  · rw [hmissed] at hmax
    exact hspare (h.spare (hrunning.mp hrun) hmax)
  · rw [hirq]
    obtain ⟨hoff, hend⟩ := h.ended (mt hrunning.mpr hover)
    refine ⟨hoff, ?_⟩
    cases hend with
    | passed full missed reports =>
      exact .passed full (hmissed ▸ missed) (by rw [hreports, havg, hmissed, reports])
    | failed short missed reports => exact .failed short (hmissed ▸ missed) (hreports ▸ reports)

/-- When the timer expires, there is room for one more pass. -/
theorem Kept.room (h : Kept behind s xs n) (ht : s.timer = true) :
    s.uncounted = 0 ∧ xs.length < numTests ∧ s.missedIrqs.toNat ≤ missedIrqMax := by
  have hidle := h.timer ht
  obtain ⟨-, -, hlt, hle⟩ := h.going (.inl ht)
  have hopen : s.uncounted = 0 := by rw [uncounted, hidle]
  refine ⟨hopen, ?_, Nat.le_of_lt_succ (lt_of_le_of_ne hle fun hmax ↦ ?_)⟩
  · rw [← h.testCount, hopen]
    exact hlt
  · exact (h.spare (.inl ht) hmax).elim (fun hp ↦ nomatch hidle.symm.trans hp)
      fun hp ↦ nomatch hidle.symm.trans hp

theorem toNat_add_one {m : UInt32} (h : m.toNat < 2 ^ 32 - 1) : (m + 1).toNat = m.toNat + 1 := by
  rw [UInt32.toNat_add, UInt32.toNat_one]
  omega

/-- A pass that has been missed. -/
theorem Kept.missed (h : Kept behind s xs n) (ht : s.timer = true) (hnone : s.latency? = none) :
    Kept behind s.expire xs (n + 1) := by
  obtain ⟨hopen, hlen, hle⟩ := h.room ht
  obtain ⟨hirq, hreports, hlt, -⟩ := h.going (.inl ht)
  have hmax : missedIrqMax = 100 := rfl
  have hsucc : (s.missedIrqs + 1).toNat = s.missedIrqs.toNat + 1 := toNat_add_one (by omega)
  rw [expire_of_none hnone]
  have hphase : ∀ b : Bool, (if b then Phase.measured false else .counted false) = .measured false ∨
      (if b then Phase.measured false else .counted false) = .counted false := by
    intro b
    cases b
    · exact .inr rfl
    · exact .inl rfl
  refine ⟨?_, ?_, h.avgNsecs, h.results, h.outside, nofun, fun _ ↦ ⟨hirq, hreports, hlt, ?_⟩,
    fun _ _ ↦ hphase _, fun hover ↦ ?_⟩
  · rw [← h.testCount, hopen, uncounted]
    rcases hphase s.irqFired with hp | hp <;> rw [hp]
  · rw [hsucc, ← h.missedIrqs]
    omega
  · rw [hsucc]
    omega
  · refine absurd (.inr fun hidle ↦ ?_) hover
    cases hfired : s.irqFired <;> rw [hfired] at hidle <;> exact nomatch hidle

/-- A pass that is recorded. -/
theorem Kept.record (h : Kept behind s xs n) (ht : s.timer = true) (hsome : s.latency? = some x) :
    Kept behind s.expire (xs ++ [x]) (n + 1) := by
  obtain ⟨hopen, hlen, hle⟩ := h.room ht
  obtain ⟨hirq, hreports, hlt, -⟩ := h.going (.inl ht)
  obtain ⟨hx, heq⟩ := expire_of_some hsome
  have hcount : s.testCount.toNat = xs.length := by rw [← h.testCount, hopen, Nat.add_zero]
  have hnum : numTests = 1024 := rfl
  have hresults : s.expire.results =
      Function.update s.results s.testCount.toNat (UInt32.ofNat x).toUInt16 := by rw [heq]
  have hmissed : s.expire.missedIrqs = s.missedIrqs := by rw [heq]
  have havg : s.expire.avgNsecs =
      (s.avgNsecs * s.testCount + UInt32.ofNat x) / (s.testCount + 1) := by rw [heq]
  have hphase : s.expire.phase = .measured true := by rw [heq]
  refine ⟨?_, ?_, fun hsmall ↦ ?_, fun i hi ↦ ?_, fun i hi ↦ ?_, fun hset ↦ ?_, fun _ ↦ ?_,
    fun _ hfull ↦ ?_, fun hover ↦ ?_⟩
  · rw [List.length_append, List.length_singleton, ← hcount, heq]
    rfl
  · rw [hmissed, List.length_append, List.length_singleton, ← h.missedIrqs, Nat.add_assoc]
  · have hsmall' : ∀ y ∈ xs, y < 2 ^ 22 := fun y hy ↦ hsmall y (List.mem_append_left _ hy)
    have hx' : x < 2 ^ 22 := hsmall x (List.mem_append_right _ (List.mem_singleton_self x))
    have hmean : (RunningStats.ofList xs).mean ≤ 2 ^ 22 - 1 :=
      RunningStats.mean_le fun y hy ↦ Nat.le_pred_of_lt (hsmall' y hy)
    have hmul : (RunningStats.ofList xs).mean * xs.length ≤ (2 ^ 22 - 1) * 1023 :=
      Nat.mul_le_mul hmean (Nat.le_of_lt_succ hlen)
    rw [havg, UInt32.toNat_div, UInt32.toNat_add, UInt32.toNat_mul, UInt32.toNat_add,
      UInt32.toNat_one, UInt32.toNat_ofNat', h.avgNsecs hsmall', hcount, RunningStats.mean_concat]
    congr 1
    · omega
    · omega
  · rw [hresults, hcount]
    rcases Nat.lt_or_ge i xs.length with hlt' | hge
    · rw [Function.update_of_ne hlt'.ne, List.getElem_append_left hlt']
      exact h.results i hlt'
    · obtain rfl : i = xs.length := by
        rw [List.length_append, List.length_singleton] at hi
        omega
      rw [Function.update_self, List.getElem_concat_length rfl]
      exact UInt32.toUInt16_ofNat' x
  · rw [List.length_append, List.length_singleton] at hi
    rw [hresults, hcount, Function.update_of_ne (by omega)]
    exact h.outside i (by omega)
  · rw [heq] at hset
    exact nomatch hset
  · rw [heq]
    exact ⟨hirq, hreports, hlt, Nat.le_succ_of_le hle⟩
  · rw [hmissed] at hfull
    exact absurd (hfull ▸ hle) (Nat.not_succ_le_self _)
  · exact absurd (.inr (by rw [hphase]; exact nofun)) hover

/-- The next pass begins, or too many have been missed. -/
theorem Kept.goOn (h : Kept behind s xs n) (hphase : s.phase = .counted false) (now : Timespec) :
    Kept behind (s.goOn now) xs n := by
  obtain ⟨hirq, hreports, hlt, hle⟩ := h.going (.inr (by rw [hphase]; exact nofun))
  have htimer : s.timer = false := by
    rw [Bool.eq_false_iff]
    exact fun ht ↦ nomatch (h.timer ht).symm.trans hphase
  have hopen : s.uncounted = 0 := by rw [uncounted, hphase]
  have hcount := h.testCount
  rw [hopen, Nat.add_zero] at hcount
  have hmax : missedIrqMax = 100 := rfl
  have h100 : s.missedIrqs > 100 ↔ 100 < s.missedIrqs.toNat := UInt32.lt_iff_toNat_lt
  rw [LatencyTest.goOn]
  split_ifs with hmany
  · refine ⟨hcount, h.missedIrqs, h.avgNsecs, h.results, h.outside, fun _ ↦ rfl,
      fun hrun ↦ ?_, fun hrun ↦ ?_, fun _ ↦ ⟨rfl, .failed (hcount ▸ hlt) ?_ hreports⟩⟩
    · exact absurd hrun (not_or.mpr ⟨Bool.eq_false_iff.mp htimer, not_not.mpr rfl⟩)
    · exact absurd hrun (not_or.mpr ⟨Bool.eq_false_iff.mp htimer, not_not.mpr rfl⟩)
    · exact Nat.le_antisymm hle (h100.mp hmany)
  · refine ⟨hcount, h.missedIrqs, h.avgNsecs, h.results, h.outside, fun ht ↦ ?_,
      fun _ ↦ ⟨hirq, hreports, hlt, hle⟩, fun _ hfull ↦ ?_, fun hover ↦ ?_⟩
    · exact nomatch htimer.symm.trans ht
    · have hfull' : s.missedIrqs.toNat = missedIrqMax + 1 := hfull
      exact absurd (h100.mpr (by omega)) hmany
    · exact absurd (.inr nofun) hover

/-- A pass that has been recorded is counted. -/
theorem Kept.count (h : Kept behind s xs n) (hphase : s.phase = .counted true)
    (hlt : (s.testCount + 1).toNat < numTests) :
    Kept behind { s with testCount := s.testCount + 1, phase := .counted false } xs n := by
  obtain ⟨hirq, hreports, hlt', hle⟩ := h.going (.inr (by rw [hphase]; exact nofun))
  have hsucc : (s.testCount + 1).toNat = s.testCount.toNat + 1 := by
    have hnum : numTests = 1024 := rfl
    exact toNat_add_one (by omega)
  have hopen : s.uncounted = 1 := by rw [uncounted, hphase]
  refine ⟨?_, h.missedIrqs, h.avgNsecs, h.results, h.outside, fun ht ↦ ?_,
    fun _ ↦ ⟨hirq, hreports, hlt, hle⟩, fun _ _ ↦ .inr rfl, fun hover ↦ ?_⟩
  · rw [← h.testCount, hopen, ← hsucc]
    rfl
  · exact nomatch (h.timer ht).symm.trans hphase
  · exact absurd (.inr nofun) hover

theorem Kept.settle (h : Kept behind s xs n) {testOk : Bool} (hphase : s.phase = .counted testOk)
    (now : Timespec) : Kept behind (s.settle testOk now) xs n := by
  cases testOk with
  | false => exact h.goOn hphase now
  | true =>
    obtain ⟨-, hreports, hlt, hle⟩ := h.going (.inr (by rw [hphase]; exact nofun))
    have hnum : numTests = 1024 := rfl
    have hsucc : (s.testCount + 1).toNat = s.testCount.toNat + 1 := toNat_add_one (by omega)
    have hopen : s.uncounted = 1 := by rw [uncounted, hphase]
    have hcount := h.testCount
    rw [hopen] at hcount
    have h1024 : s.testCount + 1 ≥ 1024 ↔ 1024 ≤ (s.testCount + 1).toNat := UInt32.le_iff_toNat_le
    rw [LatencyTest.settle, if_pos rfl]
    dsimp only
    split_ifs with hfull
    · have hlen : xs.length = numTests := by
        have hge := h1024.mp hfull
        omega
      have hprinted : (List.range numTests).map s.results = xs.map UInt16.ofNat := by
        refine List.ext_getElem (by rw [List.length_map, List.length_map, List.length_range, hlen])
          fun i hi hi' ↦ ?_
        rw [List.getElem_map, List.getElem_map, List.getElem_range]
        exact h.results i _
      have htimer : s.timer = false := by
        rw [Bool.eq_false_iff]
        exact fun ht ↦ nomatch (h.timer ht).symm.trans hphase
      have hstopped : ¬({ s with testCount := s.testCount + 1, reports :=
          ⟨(List.range numTests).map s.results, s.avgNsecs, s.missedIrqs⟩ ::
            s.reports }.stopTesting).Running :=
        not_or.mpr ⟨Bool.eq_false_iff.mp htimer, not_not.mpr rfl⟩
      have hmissed : s.missedIrqs.toNat ≤ missedIrqMax := by
        refine Nat.le_of_lt_succ (lt_of_le_of_ne hle fun hmax ↦ ?_)
        exact (h.spare (.inr (by rw [hphase]; exact nofun)) hmax).elim
          (fun hp ↦ nomatch hphase.symm.trans hp) fun hp ↦ nomatch hphase.symm.trans hp
      refine ⟨?_, h.missedIrqs, h.avgNsecs, h.results, h.outside, fun _ ↦ rfl,
        fun hrun ↦ absurd hrun hstopped, fun hrun ↦ absurd hrun hstopped,
        fun _ ↦ ⟨rfl, .passed hlen hmissed ?_⟩⟩
      · rw [← hcount, ← hsucc]
        rfl
      · rw [← hprinted, ← hreports]
        rfl
    · have hshort := mt h1024.mpr hfull
      exact (h.count hphase (by omega)).goOn rfl now

theorem Kept.lower (h : Kept behind s xs n) (hphase : s.phase = .stamped) :
    Kept behind s.lower xs n := by
  refine h.of_eq rfl rfl rfl rfl rfl rfl ?_ (fun _ ↦ rfl) ?_ ?_
  · rw [uncounted, uncounted, hphase]
    rfl
  · exact iff_of_true (.inl rfl) (.inr (by rw [hphase]; exact nofun))
  · rintro (hp | hp) <;> exact nomatch hphase.symm.trans hp

theorem Kept.step (h : Kept behind s xs n) (hst : latencyTest.step s e = some t) :
    Kept behind t (xs ++ records s e) (n + ticks [e]) := by
  cases e with
  | irq now =>
    obtain ⟨-, ⟨⟩⟩ := Option.ite_none_right_eq_some.mp hst
    simp only [records, List.append_nil]
    exact h.of_eq rfl rfl rfl rfl rfl rfl rfl h.timer Iff.rfl id
  | lose =>
    obtain ⟨-, ⟨⟩⟩ := Option.ite_none_right_eq_some.mp hst
    simp only [records, List.append_nil]
    exact h.of_eq rfl rfl rfl rfl rfl rfl rfl h.timer Iff.rfl id
  | expire =>
    obtain ⟨ht, ⟨⟩⟩ := Option.ite_none_right_eq_some.mp hst
    rw [records]
    cases hlat : s.latency? with
    | none =>
      rw [Option.toList_none, List.append_nil]
      exact h.missed ht hlat
    | some x => exact h.record ht hlat
  | clear =>
    simp only [records, List.append_nil]
    simp only [latencyTest] at hst
    split at hst
    · rename_i testOk hphase
      obtain rfl := Option.some_inj.mp hst
      refine h.of_eq rfl rfl rfl rfl rfl rfl ?_ (fun ht ↦ ?_) ?_ ?_
      · rw [uncounted, uncounted, hphase]
        cases testOk <;> rfl
      · exact nomatch (h.timer ht).symm.trans hphase
      · exact iff_of_true (.inr nofun) (.inr (by rw [hphase]; exact nofun))
      · rintro (hp | hp)
        · rw [hphase] at hp
          obtain ⟨⟩ := hp
          exact .inr rfl
        · exact nomatch hphase.symm.trans hp
    · exact nomatch hst
  | settle now =>
    simp only [records, List.append_nil]
    simp only [latencyTest] at hst
    split at hst
    · rename_i testOk hphase
      obtain rfl := Option.some_inj.mp hst
      exact h.settle hphase now
    · exact nomatch hst
  | lower =>
    obtain ⟨hphase, ⟨⟩⟩ := Option.ite_none_right_eq_some.mp hst
    simp only [records, List.append_nil]
    exact h.lower hphase

/-- While the test goes on, its handler has something to do. -/
theorem exists_step_of_running (h : s.Running) :
    ∃ e, e.OfHandler ∧ (latencyTest.step s e).isSome = true := by
  rcases h with ht | hphase
  · have hst : latencyTest.step s .expire = some s.expire := if_pos ht
    exact ⟨.expire, trivial, by rw [hst]; rfl⟩
  · cases hp : s.phase with
    | idle => exact absurd hp hphase
    | measured testOk => exact ⟨.clear, trivial, by simp only [latencyTest, hp]; rfl⟩
    | counted testOk => exact ⟨.settle 0, trivial, by simp only [latencyTest, hp]; rfl⟩
    | stamped =>
      have hst : latencyTest.step s .lower = some s.lower := if_pos hp
      exact ⟨.lower, trivial, by rw [hst]; rfl⟩

/-- There are not many passes. -/
theorem Kept.passes_le (h : Kept behind s xs n) : n ≤ numTests + missedIrqMax := by
  have hcount := h.testCount
  have hmissed := h.missedIrqs
  by_cases hrun : s.Running
  · obtain ⟨-, -, hlt, hle⟩ := h.going hrun
    rcases Nat.lt_or_ge s.missedIrqs.toNat (missedIrqMax + 1) with hspare | hfull
    · have hopen : s.uncounted ≤ 1 := by
        rw [uncounted]
        split <;> decide
      omega
    · have hopen : s.uncounted = 0 := by
        rw [uncounted]
        rcases h.spare hrun (Nat.le_antisymm hle hfull) with hp | hp <;> rw [hp]
      omega
  · cases (h.ended hrun).2 with
    | passed full missed reports => omega
    | failed short missed reports => omega

/-! ## An edge that is lost -/

/-- The pin is low and no interrupt is on its way. -/
structure Dead (s : LatencyTest) : Prop where
  pin : s.pin = false
  edge : s.edge = false
  timer : s.timer = true → s.phase = .idle

/-- How many interrupts have come and have not been taken into account. -/
def unread (s : LatencyTest) : ℕ :=
  match s.phase with
  | .measured _ => 0
  | _ => s.irqFired.toNat

theorem unread_le (s : LatencyTest) : s.unread ≤ 1 := by
  rw [unread]
  split
  · exact Nat.zero_le 1
  · exact Bool.toNat_le _

/-- What the middle of the handler leaves alone. -/
theorem settle_frame (s : LatencyTest) (testOk : Bool) (now : Timespec) :
    (s.settle testOk now).pin = s.pin ∧ (s.settle testOk now).edge = s.edge ∧
      (s.settle testOk now).irqFired = s.irqFired ∧ (s.settle testOk now).timer = s.timer ∧
      ((s.settle testOk now).phase = .idle ∨ (s.settle testOk now).phase = .stamped) := by
  have hgoOn : ∀ u : LatencyTest, (u.goOn now).pin = u.pin ∧ (u.goOn now).edge = u.edge ∧
      (u.goOn now).irqFired = u.irqFired ∧ (u.goOn now).timer = u.timer ∧
      ((u.goOn now).phase = .idle ∨ (u.goOn now).phase = .stamped) := by
    intro u
    rw [goOn]
    split_ifs
    · exact ⟨rfl, rfl, rfl, rfl, .inl rfl⟩
    · exact ⟨rfl, rfl, rfl, rfl, .inr rfl⟩
  cases testOk with
  | false => exact hgoOn s
  | true =>
    rw [settle, if_pos rfl]
    dsimp only
    split_ifs
    · exact ⟨rfl, rfl, rfl, rfl, .inl rfl⟩
    · exact hgoOn { s with testCount := s.testCount + 1 }

/-- Nothing raises the pin any more, so it is never lowered again. -/
theorem Dead.step (h : s.Dead) (hst : latencyTest.step s e = some t) :
    t.Dead ∧ (records s e).length + t.unread ≤ s.unread := by
  cases e with
  | irq now =>
    obtain ⟨hc, -⟩ := Option.ite_none_right_eq_some.mp hst
    exact nomatch h.edge.symm.trans hc.1
  | lose =>
    obtain ⟨hc, -⟩ := Option.ite_none_right_eq_some.mp hst
    exact nomatch h.edge.symm.trans hc
  | expire =>
    obtain ⟨ht, ⟨⟩⟩ := Option.ite_none_right_eq_some.mp hst
    have hunread : s.unread = s.irqFired.toNat := by rw [unread, h.timer ht]
    rw [records, hunread]
    cases hlat : s.latency? with
    | none =>
      rw [expire_of_none hlat]
      refine ⟨⟨h.pin, h.edge, nofun⟩, ?_⟩
      cases hfired : s.irqFired with
      | true => exact Nat.zero_le 1
      | false => exact Nat.le_refl 0
    | some x =>
      have hfired : s.irqFired = true := by
        rw [latency?] at hlat
        split_ifs at hlat with hno
        exact Bool.not_eq_false _ ▸ (not_or.mp hno).1
      rw [(expire_of_some hlat).2, hfired]
      exact ⟨⟨h.pin, h.edge, nofun⟩, Nat.le_refl 1⟩
  | clear =>
    simp only [latencyTest] at hst
    split at hst
    · rename_i testOk hphase
      obtain rfl := Option.some_inj.mp hst
      refine ⟨⟨h.pin, h.edge, fun ht ↦ ?_⟩, Nat.zero_le _⟩
      exact nomatch (h.timer ht).symm.trans hphase
    · exact nomatch hst
  | settle now =>
    simp only [latencyTest] at hst
    split at hst
    · rename_i testOk hphase
      obtain rfl := Option.some_inj.mp hst
      obtain ⟨hpin, hedge, hfired, htimer, hafter⟩ := settle_frame s testOk now
      have hnot : s.timer ≠ true := fun ht ↦ nomatch (h.timer ht).symm.trans hphase
      refine ⟨⟨hpin.trans h.pin, hedge.trans h.edge, fun ht ↦ absurd (htimer ▸ ht) hnot⟩, ?_⟩
      have hunread : (s.settle testOk now).unread = s.unread := by
        rw [unread, unread, hphase, hfired]
        rcases hafter with hp | hp <;> rw [hp]
      rw [hunread]
      exact Nat.le_of_eq (Nat.zero_add _)
    · exact nomatch hst
  | lower =>
    obtain ⟨hphase, ⟨⟩⟩ := Option.ite_none_right_eq_some.mp hst
    refine ⟨⟨rfl, ?_, fun _ ↦ rfl⟩, ?_⟩
    · rw [lower, h.pin, h.edge]
      rfl
    · rw [unread, unread, hphase]
      exact Nat.le_of_eq (Nat.zero_add _)

/-- The edges are falling ones. -/
theorem pin_of_edge (h : s.edge = true → s.pin = false) (hst : latencyTest.step s e = some t) :
    t.edge = true → t.pin = false := by
  cases e with
  | irq now =>
    obtain ⟨-, ⟨⟩⟩ := Option.ite_none_right_eq_some.mp hst
    exact nofun
  | lose =>
    obtain ⟨-, ⟨⟩⟩ := Option.ite_none_right_eq_some.mp hst
    exact nofun
  | expire =>
    obtain ⟨-, ⟨⟩⟩ := Option.ite_none_right_eq_some.mp hst
    cases hlat : s.latency? with
    | none => rwa [expire_of_none hlat]
    | some x => rwa [(expire_of_some hlat).2]
  | clear =>
    simp only [latencyTest] at hst
    split at hst
    · obtain rfl := Option.some_inj.mp hst
      exact h
    · exact nomatch hst
  | settle now =>
    simp only [latencyTest] at hst
    split at hst
    · obtain rfl := Option.some_inj.mp hst
      obtain ⟨hpin, hedge, -⟩ := settle_frame s _ now
      rwa [hpin, hedge]
    · exact nomatch hst
  | lower =>
    obtain ⟨-, ⟨⟩⟩ := Option.ite_none_right_eq_some.mp hst
    exact fun _ ↦ rfl

end LatencyTest

/-! ## Whole tests -/

section Runs

open LatencyTest

variable {s u : LatencyTest} {es pre post : List LatencyEvent} {now : Timespec}
  {behind : ℕ → UInt16}

/-- The latencies that are recorded along a run, oldest first. -/
def recorded (s : LatencyTest) (es : List LatencyEvent) : List ℕ := latencyTest.trace records s es

theorem kept_of_run (h : latencyTest.run (started now behind) es = some s) :
    s.Kept behind (recorded (started now behind) es) (ticks es) := by
  refine Machine.run_induction (P := fun es s ↦
    s.Kept behind (recorded (started now behind) es) (ticks es)) (kept_started now) ?_ h
  intro es s e t hs hkept hst
  have hticks : ticks (es ++ [e]) = ticks es + ticks [e] := List.count_append
  rw [recorded, Machine.trace_concat records e hs, hticks]
  exact hkept.step hst

/-- **The books of the test.** Whatever order its steps come in, every pass is recorded or missed.
The table holds the latencies in 16 bits each, and nothing behind it is written. The average is the
running mean, as long as all latencies are below 2 ^ 22 nanoseconds. There are 1124 passes at most;
until the test is over its handler always has a step to take, and it is over when 1024 latencies
have been recorded, which are then printed, or when 101 passes have been missed, and then nothing is
printed and the interrupt has been disabled. -/
theorem books_of_run (h : latencyTest.run (started now behind) es = some s) :
    ticks es ≤ 1124 ∧
      s.missedIrqs.toNat + (recorded (started now behind) es).length = ticks es ∧
      (∀ i, (hi : i < (recorded (started now behind) es).length) →
        s.results i = UInt16.ofNat (recorded (started now behind) es)[i]) ∧
      (∀ i, numTests ≤ i → s.results i = behind i) ∧
      ((∀ x ∈ recorded (started now behind) es, x < 2 ^ 22) →
        s.avgNsecs.toNat = (RunningStats.ofList (recorded (started now behind) es)).mean) ∧
      (s.Running → ∃ e, e.OfHandler ∧ (latencyTest.step s e).isSome = true) ∧
      (¬s.Running → s.irqEnabled = false ∧ s.Over (recorded (started now behind) es)) := by
  have hkept := kept_of_run h
  refine ⟨hkept.passes_le, hkept.missedIrqs, hkept.results, fun i hi ↦ ?_, hkept.avgNsecs,
    exists_step_of_running, hkept.ended⟩
  have hlen : (recorded (started now behind) es).length ≤ numTests := by
    by_cases hrun : s.Running
    · obtain ⟨-, -, hlt, -⟩ := hkept.going hrun
      have hunread : s.uncounted ≤ 1 := by
        rw [uncounted]
        split <;> decide
      have hcount := hkept.testCount
      omega
    · cases (hkept.ended hrun).2 with
      | passed full missed reports => exact full.le
      | failed short missed reports => exact short.le
  rw [hkept.outside i (hlen.trans hi), if_neg (not_lt.mpr hi)]

/-- When nothing raises the pin any more, only an interrupt that has come already is recorded. -/
theorem LatencyTest.Dead.recorded_le (hu : u.Dead) (h : latencyTest.run u es = some s) :
    (recorded u es).length + s.unread ≤ u.unread := by
  refine (Machine.run_induction
    (P := fun es t ↦ t.Dead ∧ (recorded u es).length + t.unread ≤ u.unread) ?_ ?_ h).2
  · exact ⟨hu, Nat.le_of_eq (Nat.zero_add _)⟩
  · rintro es t e w ht ⟨hdead, hle⟩ hst
    obtain ⟨hdead', hle'⟩ := hdead.step hst
    refine ⟨hdead', ?_⟩
    rw [recorded] at hle ⊢
    rw [Machine.trace_concat records e ht, List.length_append]
    omega

/-- **A lost edge ends the test.** Once an edge has gone unnoticed, one more latency is recorded at
most, however long the test goes on. If it was not about to be passed, it fails: when it is over,
101 passes have been missed and nothing has been printed. -/
theorem fails_of_lose (hpre : latencyTest.run (started now behind) pre = some u)
    (hpost : latencyTest.run u (.lose :: post) = some s) :
    (recorded u (.lose :: post)).length ≤ 1 ∧
      ((recorded (started now behind) pre).length + 1 < numTests → ¬s.Running →
        s.missedIrqs.toNat = missedIrqMax + 1 ∧ s.reports = []) := by
  have hedges : u.edge = true → u.pin = false :=
    Machine.invariant (P := fun s : LatencyTest ↦ s.edge = true → s.pin = false)
      (fun _ _ _ h hst ↦ pin_of_edge h hst) (fun _ ↦ rfl) hpre
  obtain ⟨v, hv, hvs⟩ := Option.bind_eq_some_iff.mp hpost
  obtain ⟨hedge, ⟨⟩⟩ := Option.ite_none_right_eq_some.mp hv
  have hdead : { u with edge := false }.Dead := ⟨hedges hedge, rfl, (kept_of_run hpre).timer⟩
  have hfew : (recorded u (.lose :: post)).length ≤ 1 := by
    have htrace : recorded u (.lose :: post) = recorded { u with edge := false } post := by
      rw [recorded, Machine.trace, hv]
      rfl
    rw [htrace]
    exact (Nat.le_add_right _ _).trans ((hdead.recorded_le hvs).trans (unread_le _))
  refine ⟨hfew, fun hshort hover ↦ ?_⟩
  have hall := kept_of_run (Machine.run_append_eq_some.mpr ⟨u, hpre, hpost⟩)
  have hsplit : recorded (started now behind) (pre ++ .lose :: post) =
      recorded (started now behind) pre ++ recorded u (.lose :: post) :=
    Machine.trace_append records _ hpre
  rw [hsplit] at hall
  cases (hall.ended hover).2 with
  | passed full missed reports =>
    rw [List.length_append] at full
    omega
  | failed short missed reports => exact ⟨missed, reports⟩

/-- One pass of 70 microseconds, and the beginning of the next. -/
def onePass : List LatencyEvent :=
  [.irq (.ofNs 70000), .expire, .clear, .settle (.ofNs 10000000), .lower]

/-- What is left of 70 microseconds in 16 bits. -/
theorem books_of_run_one :
    ∃ s, latencyTest.run (started 0 fun _ ↦ 7) onePass = some s ∧
      s.results 0 = 4464 ∧ s.results 1024 = 7 := by
  have hrec : recorded (started 0 fun _ ↦ 7) onePass = [70000] := rfl
  obtain ⟨s, hs⟩ : ∃ s, latencyTest.run (started 0 fun _ ↦ 7) onePass = some s := ⟨_, rfl⟩
  have hbooks := books_of_run hs
  rw [hrec] at hbooks
  exact ⟨s, hs, hbooks.2.2.1 0 Nat.zero_lt_one, hbooks.2.2.2.1 1024 (Nat.le_refl _)⟩

/-- The edge of the first pass is lost. -/
theorem fails_of_lose_first :
    ∃ s, latencyTest.run (started 0 fun _ ↦ 0) [.lose, .expire] = some s ∧
      (recorded (started 0 fun _ ↦ 0) [.lose, .expire]).length ≤ 1 := by
  have hpre : latencyTest.run (started 0 fun _ ↦ 0) [] = some (started 0 fun _ ↦ 0) := rfl
  exact ⟨_, rfl, (fails_of_lose hpre rfl).1⟩

end Runs

end UcsmaRateControl.GpioIrqLatency
