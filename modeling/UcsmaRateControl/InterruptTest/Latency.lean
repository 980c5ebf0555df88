import UcsmaRateControl.Kernel.Timespec
import UcsmaRateControl.Machine.Run
import UcsmaRateControl.Machine.RunningStats

/-!
# Measuring the latency of a pin

The first node of the interrupt test raises a pin and measures how long it takes until the second
node answers on another one. A timer starts each pass, and the handler starts the timer again until
enough passes have been recorded. Times are kept in nanoseconds: the least, the greatest and the
mean in words of 32 bits, and all of them in a table of words of 16 bits.

The timer is started before `unlock_init` has set the number of passes, which is zero until then.
-/

namespace UcsmaRateControl.InterruptTest

/-- `MAX_TEST_COUNT`. -/
def maxTestCount : ℕ := 10000

/-- `irq_latency_test`. -/
structure IrqLatencyTest where
  start : Timespec
  stop : Timespec
  /-- Whether `timer` is pending. -/
  timer : Bool
  testCount : UInt32
  missedCount : UInt32
  maxCount : UInt32
  /-- The table of `MAX_TEST_COUNT` entries, with the memory behind it. -/
  results : ℕ → UInt16
  avgNsecs : UInt32
  minNsecs : UInt32
  maxNsecs : UInt32

/-- What the handler gets from outside. -/
structure Tick where
  start : Timespec
  /-- The readings of the pin. -/
  gpio : ℕ → Bool
  stop : Timespec

/-- The loop that reads the pin until it is high, at most `n` times more. -/
def poll (gpio : ℕ → Bool) : ℕ → ℕ → ℕ
  | 0, i => i
  | n + 1, i => if gpio i then i else poll gpio n (i + 1)

/-- The latency that a pass records, if it records any. -/
def Tick.latency? (t : Tick) : Option ℕ :=
  if poll t.gpio 1000000 0 < 1000000 then
    if (timespecSub t.stop t.start).tvSec > 0 then none
    else some (timespecSub t.stop t.start).tvNsec
  else none

namespace IrqLatencyTest

variable (d : IrqLatencyTest)

/-- Record a latency. An `unsigned long` has 32 bits. -/
def record (nsec : UInt32) : IrqLatencyTest :=
  { d with
    avgNsecs := (d.avgNsecs * d.testCount + nsec) / (d.testCount + 1)
    maxNsecs := if nsec > d.maxNsecs then nsec else d.maxNsecs
    minNsecs := if nsec < d.minNsecs ∨ d.minNsecs = 0 then nsec else d.minNsecs
    results := Function.update d.results d.testCount.toNat nsec.toUInt16 }

/-- The end of the handler: count a pass that was recorded, and start the timer unless enough have
been. -/
def finish (testOk : Bool) : IrqLatencyTest :=
  if testOk then
    let d := { d with testCount := d.testCount + 1 }
    if d.testCount ≥ d.maxCount then d else { d with timer := true }
  else { d with timer := true }

/-- `interrupt_test_node1_timer_handler`. -/
def timerHandler (t : Tick) : IrqLatencyTest :=
  let i := poll t.gpio 1000000 0
  let d := { d with start := t.start, stop := t.stop }
  if i < 1000000 then
    let delta := timespecSub d.stop d.start
    if delta.tvSec > 0 then { d with missedCount := d.missedCount + 1 }.finish false
    else (d.record delta.nsecU32).finish true
  else { d with missedCount := d.missedCount + 1 }.finish false

end IrqLatencyTest

/-- The module. -/
structure Node1 where
  testData : IrqLatencyTest
  /-- The parameter `test_count`. -/
  testCount : UInt32
  /-- Whether `unlock_init` has returned. -/
  ready : Bool

/-- What happens to the module. -/
inductive TestEvent
  /-- The rest of `unlock_init`, after `add_timer`. -/
  | setMaxCount
  /-- The timer expires. -/
  | tick (t : Tick)

/-- The machine of the module. -/
def node1 : Machine Node1 TestEvent where
  step s
    | .setMaxCount =>
      if s.ready then none
      else
        let testCount := if s.testCount > 10000 then 10000 else s.testCount
        some ⟨{ s.testData with maxCount := testCount }, testCount, true⟩
    | .tick t =>
      if s.testData.timer then
        some { s with testData := { s.testData with timer := false }.timerHandler t }
      else none

/-- The module once `unlock_init` has called `add_timer`. Everything else is zero, except what is
behind the table. -/
def armed (testCount : UInt32) (behind : ℕ → UInt16) : Node1 where
  testData :=
    { start := 0
      stop := 0
      timer := true
      testCount := 0
      missedCount := 0
      maxCount := 0
      results := fun i ↦ if i < maxTestCount then 0 else behind i
      avgNsecs := 0
      minNsecs := 0
      maxNsecs := 0 }
  testCount := testCount
  ready := false

/-- What an event records. -/
def TestEvent.latency : TestEvent → List ℕ
  | .setMaxCount => []
  | .tick t => t.latency?.toList

/-- The latencies that are recorded, oldest first. -/
def latencies (es : List TestEvent) : List ℕ := es.flatMap TestEvent.latency

/-- The latencies that are recorded before the number of passes is set. -/
def early : List TestEvent → List ℕ
  | [] => []
  | .setMaxCount :: _ => []
  | .tick t :: es => t.latency?.toList ++ early es

/-! ## One tick -/

section Tick

variable {d : IrqLatencyTest} {t : Tick}

theorem timerHandler_of_none (h : t.latency? = none) :
    d.timerHandler t =
      { d with
        start := t.start
        stop := t.stop
        missedCount := d.missedCount + 1
        timer := true } := by
  rw [Tick.latency?] at h
  rw [IrqLatencyTest.timerHandler]
  split_ifs at h with hlow hsec
  · exact (if_pos hlow).trans (if_pos hsec)
  · exact if_neg hlow

theorem timerHandler_of_some {x : ℕ} (h : t.latency? = some x) :
    x < 1000000000 ∧ d.timerHandler t =
      ({ d with start := t.start, stop := t.stop }.record (UInt32.ofNat x)).finish true := by
  rw [Tick.latency?] at h
  split_ifs at h with hlow hsec
  obtain rfl := Option.some_inj.mp h
  refine ⟨(timespecSub t.stop t.start).tvNsec_lt, ?_⟩
  exact (if_pos hlow).trans (if_neg hsec)

end Tick

/-! ## What is recorded -/

/-- The words hold the statistics of the latencies, and the table holds what is left of these in 16
bits. The mean is a word only while every latency has 16 bits. -/
structure IrqLatencyTest.Keeps (d₀ d : IrqLatencyTest) (xs : List ℕ) : Prop where
  testCount : d.testCount.toNat = xs.length
  maxNsecs : d.maxNsecs.toNat = (RunningStats.ofList xs).max
  minNsecs : d.minNsecs.toNat = (RunningStats.ofList xs).min
  avgNsecs : (∀ x ∈ xs, x < 2 ^ 16) → d.avgNsecs.toNat = (RunningStats.ofList xs).mean
  results : ∀ i, (h : i < xs.length) → d.results i = UInt16.ofNat xs[i]
  outside : ∀ i, xs.length ≤ i → d.results i = d₀.results i

section Keeps

variable {d₀ d : IrqLatencyTest} {xs : List ℕ} {x : ℕ}

/-- Only the statistics and the table count. -/
theorem IrqLatencyTest.Keeps.of_eq {d' : IrqLatencyTest} (h : d₀.Keeps d xs)
    (htest : d'.testCount = d.testCount) (hmax : d'.maxNsecs = d.maxNsecs)
    (hmin : d'.minNsecs = d.minNsecs) (havg : d'.avgNsecs = d.avgNsecs)
    (hresults : d'.results = d.results) : d₀.Keeps d' xs where
  testCount := htest ▸ h.testCount
  maxNsecs := hmax ▸ h.maxNsecs
  minNsecs := hmin ▸ h.minNsecs
  avgNsecs := havg ▸ h.avgNsecs
  results := hresults ▸ h.results
  outside := hresults ▸ h.outside

theorem finish_true : d.finish true =
    { d with
      testCount := d.testCount + 1
      timer := if d.testCount + 1 ≥ d.maxCount then d.timer else true } := by
  rw [IrqLatencyTest.finish, if_pos rfl]
  dsimp only
  split <;> rfl

/-- With latencies of 16 bits the mean never overflows. -/
theorem IrqLatencyTest.Keeps.avgNsecs_record (h : Keeps d₀ d xs) (hlt : xs.length < maxTestCount)
    (hsmall : ∀ y ∈ xs ++ [x], y < 2 ^ 16) :
    (d.record (UInt32.ofNat x)).avgNsecs.toNat = (RunningStats.ofList (xs ++ [x])).mean := by
  have hsmall' : ∀ y ∈ xs, y < 2 ^ 16 := fun y hy ↦ hsmall y (List.mem_append_left _ hy)
  have hx : x < 2 ^ 16 := hsmall x (List.mem_append_right _ (List.mem_singleton_self x))
  have hmean : (RunningStats.ofList xs).mean ≤ 2 ^ 16 - 1 :=
    RunningStats.mean_le fun y hy ↦ Nat.le_pred_of_lt (hsmall' y hy)
  have hmul : (RunningStats.ofList xs).mean * xs.length ≤ (2 ^ 16 - 1) * 10000 :=
    Nat.mul_le_mul hmean (Nat.le_of_lt hlt)
  have hcount : xs.length < 10000 := hlt
  rw [IrqLatencyTest.record]
  dsimp only
  rw [UInt32.toNat_div, UInt32.toNat_add, UInt32.toNat_mul, UInt32.toNat_add, UInt32.toNat_one,
    UInt32.toNat_ofNat', h.avgNsecs hsmall', h.testCount, RunningStats.mean_concat]
  congr 1
  · omega
  · omega

/-- A pass that is recorded. -/
theorem IrqLatencyTest.Keeps.record (h : Keeps d₀ d xs) (hlt : xs.length < maxTestCount)
    (hx : x < 1000000000) : Keeps d₀ ((d.record (UInt32.ofNat x)).finish true) (xs ++ [x]) := by
  have hnsec : (UInt32.ofNat x).toNat = x := by
    rw [UInt32.toNat_ofNat']
    omega
  have hcount : xs.length < 10000 := hlt
  rw [finish_true]
  refine ⟨?_, ?_, ?_, h.avgNsecs_record hlt, fun i hi ↦ ?_, fun i hi ↦ ?_⟩
  · change (d.testCount + 1).toNat = _
    rw [UInt32.toNat_add, UInt32.toNat_one, h.testCount, List.length_append, List.length_singleton]
    omega
  · rw [RunningStats.ofList_concat, RunningStats.push, ← h.maxNsecs, IrqLatencyTest.record]
    dsimp only
    simp only [GT.gt, UInt32.lt_iff_toNat_lt, hnsec]
    split_ifs
    · exact hnsec
    · rfl
  · rw [RunningStats.min_concat, ← h.minNsecs, IrqLatencyTest.record]
    dsimp only
    simp only [UInt32.lt_iff_toNat_lt, hnsec, ← UInt32.toNat_inj, UInt32.toNat_zero]
    split_ifs
    · exact hnsec
    · rfl
  · change Function.update d.results d.testCount.toNat (UInt32.ofNat x).toUInt16 i = _
    rw [h.testCount]
    rcases Nat.lt_or_ge i xs.length with hlt' | hge
    · rw [Function.update_of_ne hlt'.ne, List.getElem_append_left hlt']
      exact h.results i hlt'
    · obtain rfl : i = xs.length := by
        rw [List.length_append, List.length_singleton] at hi
        omega
      rw [Function.update_self, List.getElem_concat_length rfl]
      exact UInt32.toUInt16_ofNat' x
  · change Function.update d.results d.testCount.toNat (UInt32.ofNat x).toUInt16 i = _
    rw [List.length_append, List.length_singleton] at hi
    rw [h.testCount, Function.update_of_ne (by omega)]
    exact h.outside i (by omega)

end Keeps

/-! ## Runs -/

section Runs

variable {tc : UInt32} {behind : ℕ → UInt16} {s u : Node1} {e : TestEvent} {es : List TestEvent}
  {t : Tick} {x : ℕ}

theorem latencies_concat : latencies (es ++ [e]) = latencies es ++ e.latency := by
  rw [latencies, List.flatMap_append, List.flatMap_singleton]
  rfl

/-- Once the number of passes is set nothing is early any more. -/
theorem early_concat_of_mem (h : .setMaxCount ∈ es) : early (es ++ [e]) = early es := by
  induction es with
  | nil => exact absurd h List.not_mem_nil
  | cons d es ih =>
    cases d with
    | setMaxCount => rfl
    | tick t =>
      have hmem : .setMaxCount ∈ es := (List.mem_cons.mp h).resolve_left nofun
      rw [List.cons_append, early, early, ih hmem]

theorem early_of_not_mem (h : .setMaxCount ∉ es) : early es = latencies es := by
  induction es with
  | nil => rfl
  | cons d es ih =>
    cases d with
    | setMaxCount => exact absurd List.mem_cons_self h
    | tick t =>
      rw [early, ih fun hmem ↦ h (List.mem_cons_of_mem _ hmem)]
      rfl

theorem early_concat_of_not_mem (h : .setMaxCount ∉ es) :
    early (es ++ [e]) = latencies es ++ e.latency := by
  induction es with
  | nil =>
    cases e with
    | setMaxCount => rfl
    | tick t => exact List.append_nil _
  | cons d es ih =>
    cases d with
    | setMaxCount => exact absurd List.mem_cons_self h
    | tick t =>
      rw [List.cons_append, early, ih fun hmem ↦ h (List.mem_cons_of_mem _ hmem),
        ← List.append_assoc]
      rfl

/-- An event that records nothing. -/
theorem latencies_concat_of_nil (es : List TestEvent) (h : e.latency = []) :
    latencies (es ++ [e]) = latencies es ∧ early (es ++ [e]) = early es := by
  constructor
  · rw [latencies_concat, h, List.append_nil]
  · by_cases hmem : .setMaxCount ∈ es
    · exact early_concat_of_mem hmem
    · rw [early_concat_of_not_mem hmem, early_of_not_mem hmem, h, List.append_nil]

/-- How many passes are asked for. -/
def passes (tc : UInt32) : ℕ := min tc.toNat maxTestCount

/-- The state that a run leads to. -/
structure Node1.Tracks (tc : UInt32) (behind : ℕ → UInt16) (es : List TestEvent) (s : Node1) :
    Prop where
  keeps : (armed tc behind).testData.Keeps s.testData (latencies es)
  ready : s.ready = true ↔ .setMaxCount ∈ es
  param : .setMaxCount ∉ es → s.testCount = tc
  maxCount : s.testData.maxCount.toNat = if s.ready then passes tc else 0
  timer : s.testData.timer = true ↔
    latencies es = [] ∨ early es = [] ∧ (latencies es).length < passes tc
  length_le : (latencies es).length ≤ max 1 (passes tc)
  early_length : early es ≠ [] → (latencies es).length = 1

theorem tracks_armed : Node1.Tracks tc behind [] (armed tc behind) where
  keeps := ⟨rfl, rfl, rfl, fun _ ↦ rfl, nofun, fun _ _ ↦ rfl⟩
  ready := iff_of_false Bool.false_ne_true List.not_mem_nil
  param _ := rfl
  maxCount := rfl
  timer := iff_of_true rfl (.inl rfl)
  length_le := Nat.zero_le _
  early_length h := absurd rfl h

/-- The end of `unlock_init`. -/
theorem Node1.Tracks.setMaxCount (h : s.Tracks tc behind es)
    (hst : node1.step s .setMaxCount = some u) : u.Tracks tc behind (es ++ [.setMaxCount]) := by
  obtain ⟨hready, ⟨⟩⟩ := Option.ite_none_left_eq_some.mp hst
  have hnil : TestEvent.setMaxCount.latency = [] := rfl
  obtain ⟨hlat, hearly⟩ := latencies_concat_of_nil es hnil
  have hmem : .setMaxCount ∈ es ++ [.setMaxCount] := List.mem_append_right _ List.mem_cons_self
  have hparam := h.param fun hmem ↦ hready (h.ready.mpr hmem)
  refine ⟨?_, iff_of_true rfl hmem, fun hnot ↦ absurd hmem hnot, ?_, ?_, ?_, ?_⟩
  · rw [hlat]
    exact h.keeps.of_eq rfl rfl rfl rfl rfl
  · have hiff : s.testCount > 10000 ↔ 10000 < tc.toNat := hparam ▸ UInt32.lt_iff_toNat_lt
    simp only [if_true, passes, maxTestCount, hiff]
    split_ifs with hgt
    · exact (Nat.min_eq_right (Nat.le_of_lt hgt)).symm
    · rw [hparam]
      exact (Nat.min_eq_left (not_lt.mp hgt)).symm
  · rw [hlat, hearly]
    exact h.timer
  · rw [hlat]
    exact h.length_le
  · rw [hlat, hearly]
    exact h.early_length

/-- A pass that is missed. -/
theorem Node1.Tracks.missed (h : s.Tracks tc behind es) (ht : t.latency? = none)
    (hst : node1.step s (.tick t) = some u) : u.Tracks tc behind (es ++ [.tick t]) := by
  obtain ⟨hpending, ⟨⟩⟩ := Option.ite_none_right_eq_some.mp hst
  have hnil : (TestEvent.tick t).latency = [] := by
    rw [TestEvent.latency, ht]
    rfl
  obtain ⟨hlat, hearly⟩ := latencies_concat_of_nil es hnil
  have hmem : .setMaxCount ∈ es ++ [.tick t] ↔ .setMaxCount ∈ es := by simp
  rw [timerHandler_of_none ht]
  refine ⟨?_, h.ready.trans hmem.symm, fun hnot ↦ h.param (mt hmem.mpr hnot), h.maxCount, ?_, ?_,
    ?_⟩
  · rw [hlat]
    exact h.keeps.of_eq rfl rfl rfl rfl rfl
  · rw [hlat, hearly]
    exact iff_of_true rfl (h.timer.mp hpending)
  · rw [hlat]
    exact h.length_le
  · rw [hlat, hearly]
    exact h.early_length

/-- While the timer is pending, nothing early has been recorded. -/
theorem Node1.Tracks.early_eq_nil (h : s.Tracks tc behind es) (hpending : s.testData.timer = true) :
    early es = [] := by
  rcases h.timer.mp hpending with hnil | ⟨hearly, -⟩
  · by_contra hne
    have hlength := h.early_length hne
    rw [hnil] at hlength
    exact absurd hlength (by decide)
  · exact hearly

/-- A pass that is recorded. -/
theorem Node1.Tracks.recorded (h : s.Tracks tc behind es) (ht : t.latency? = some x)
    (hst : node1.step s (.tick t) = some u) : u.Tracks tc behind (es ++ [.tick t]) := by
  obtain ⟨hpending, ⟨⟩⟩ := Option.ite_none_right_eq_some.mp hst
  obtain ⟨hx, hhandler⟩ := timerHandler_of_some (d := { s.testData with timer := false }) ht
  have hlat : latencies (es ++ [.tick t]) = latencies es ++ [x] := by
    rw [latencies_concat, TestEvent.latency, ht]
    rfl
  have hlength : (latencies (es ++ [.tick t])).length = (latencies es).length + 1 := by
    rw [hlat, List.length_append, List.length_singleton]
  have hmem : .setMaxCount ∈ es ++ [.tick t] ↔ .setMaxCount ∈ es := by simp
  have hle : (latencies es).length = 0 ∨ (latencies es).length < passes tc :=
    (h.timer.mp hpending).imp (congrArg List.length) And.right
  have hpasses : passes tc ≤ 10000 := Nat.min_le_right _ _
  have hlt : (latencies es).length < maxTestCount := by
    have hmax : maxTestCount = 10000 := rfl
    omega
  have hkeeps : IrqLatencyTest.Keeps (armed tc behind).testData
      { s.testData with timer := false, start := t.start, stop := t.stop } (latencies es) := by
    exact h.keeps.of_eq rfl rfl rfl rfl rfl
  -- the timer is started again if this was not the last pass that is asked for
  have htimer : ((({ s.testData with timer := false, start := t.start, stop := t.stop } :
      IrqLatencyTest).record (UInt32.ofNat x)).finish true).timer = true ↔
        (latencies es).length + 1 < s.testData.maxCount.toNat := by
    have hcount : (s.testData.testCount + 1).toNat = (latencies es).length + 1 := by
      rw [UInt32.toNat_add, UInt32.toNat_one, h.keeps.testCount]
      omega
    have hge : s.testData.testCount + 1 ≥ s.testData.maxCount ↔
        s.testData.maxCount.toNat ≤ (latencies es).length + 1 := by
      rw [← hcount]
      exact UInt32.le_iff_toNat_le
    rw [finish_true]
    change (if s.testData.testCount + 1 ≥ s.testData.maxCount then false else true) = true ↔ _
    rw [ite_eq_right_iff, ← not_le, ← hge]
    exact ⟨fun h hge ↦ Bool.false_ne_true (h hge), fun h hge ↦ absurd hge h⟩
  rw [hhandler]
  refine ⟨hlat ▸ hkeeps.record hlt hx, h.ready.trans hmem.symm,
    fun hnot ↦ h.param (mt hmem.mpr hnot), ?_, htimer.trans ?_, ?_, ?_⟩
  · rw [finish_true]
    exact h.maxCount
  · have hne : latencies (es ++ [.tick t]) ≠ [] := by
      rw [hlat]
      exact List.append_ne_nil_of_right_ne_nil _ (List.cons_ne_nil _ _)
    rw [or_iff_right hne, hlength, h.maxCount]
    by_cases hin : .setMaxCount ∈ es
    · rw [early_concat_of_mem hin, if_pos (h.ready.mpr hin)]
      exact (and_iff_right (h.early_eq_nil hpending)).symm
    · rw [if_neg (mt h.ready.mp hin), early_concat_of_not_mem hin, ← latencies_concat]
      exact iff_of_false (Nat.not_lt_zero _) fun hearly ↦ hne hearly.1
  · rw [hlength]
    omega
  · intro hne
    rw [hlength]
    by_cases hin : .setMaxCount ∈ es
    · rw [early_concat_of_mem hin] at hne
      exact absurd (h.early_eq_nil hpending) hne
    · have hnil := h.early_eq_nil hpending
      rw [early_of_not_mem hin] at hnil
      rw [hnil]
      rfl

/-- **What a run leads to.** -/
theorem tracks_of_run (h : node1.run (armed tc behind) es = some s) : s.Tracks tc behind es := by
  refine Machine.run_induction (P := fun es s ↦ s.Tracks tc behind es) tracks_armed ?_ h
  intro es u e v _ hu huv
  cases e with
  | setMaxCount => exact hu.setMaxCount huv
  | tick t =>
    cases ht : t.latency? with
    | none => exact hu.missed ht huv
    | some x => exact hu.recorded ht huv

/-- The report of the test: the greatest and the least of the latencies, a mean between them, all of
them in the table and nothing behind it, and as many passes as were asked for, at least one and at
most as many as the table holds. -/
structure Node1.Reported (tc : UInt32) (behind : ℕ → UInt16) (es : List TestEvent) (s : Node1) :
    Prop where
  maxNsecs : latencies es ≠ [] → IsGreatest {x | x ∈ latencies es} s.testData.maxNsecs.toNat
  minNsecs : latencies es ≠ [] → IsLeast {x | x ∈ latencies es} s.testData.minNsecs.toNat
  avgNsecs : latencies es ≠ [] → s.testData.minNsecs ≤ s.testData.avgNsecs ∧
    s.testData.avgNsecs ≤ s.testData.maxNsecs
  results : ∀ i, (h : i < (latencies es).length) → (s.testData.results i).toNat = (latencies es)[i]
  outside : ∀ i, maxTestCount ≤ i → s.testData.results i = behind i
  length_le : (latencies es).length ≤ max 1 (passes tc)
  stops : s.testData.timer = false ↔ (latencies es).length = max 1 (passes tc)

/-- The table holds the latencies if and only if all of them have 16 bits. -/
theorem Node1.Tracks.results_iff (h : s.Tracks tc behind es) :
    (∀ i, (hi : i < (latencies es).length) →
      (s.testData.results i).toNat = (latencies es)[i]) ↔ ∀ x ∈ latencies es, x < 2 ^ 16 := by
  constructor
  · intro hresults x hx
    obtain ⟨i, hi, rfl⟩ := List.getElem_of_mem hx
    rw [← hresults i hi]
    exact UInt16.toNat_lt _
  · intro hsmall i hi
    rw [h.keeps.results i hi, UInt16.toNat_ofNat']
    exact Nat.mod_eq_of_lt (hsmall _ (List.getElem_mem hi))

/-- The test stops when it should if and only if nothing was recorded too early, or one pass was all
that was asked for. -/
theorem Node1.Tracks.stops_iff (h : s.Tracks tc behind es) :
    (s.testData.timer = false ↔ (latencies es).length = max 1 (passes tc)) ↔
      (early es ≠ [] → passes tc ≤ 1) := by
  have hlength := h.length_le
  rw [← Bool.not_eq_true, h.timer, ← List.length_eq_zero_iff]
  by_cases hearly : early es = []
  · refine iff_of_true ?_ fun hne ↦ absurd hearly hne
    rw [and_iff_right hearly]
    omega
  · have hone := h.early_length hearly
    rw [hone]
    simp only [hearly, false_and, or_false, ne_eq, not_false_eq_true, forall_const]
    omega

/-- **The report, exactly.** It is right if and only if every latency that was recorded has 16 bits,
a latency of zero was followed by no other, and no pass was recorded before `unlock_init` had set
the number of passes, unless this is one. -/
theorem reported_iff (h : node1.run (armed tc behind) es = some s) :
    s.Reported tc behind es ↔
      (∀ x ∈ latencies es, x < 2 ^ 16) ∧
        (0 ∈ latencies es → (latencies es).getLast? = some 0) ∧
        (early es ≠ [] → passes tc ≤ 1) := by
  have htracks := tracks_of_run h
  have hmin : latencies es ≠ [] →
      (IsLeast {x | x ∈ latencies es} s.testData.minNsecs.toNat ↔
        (0 ∈ latencies es → (latencies es).getLast? = some 0)) := by
    intro hne
    rw [htracks.keeps.minNsecs]
    exact RunningStats.isLeast_min_iff hne
  constructor
  · intro hrep
    refine ⟨htracks.results_iff.mp hrep.results, fun hzero ↦ ?_, htracks.stops_iff.mp hrep.stops⟩
    have hne := List.ne_nil_of_mem hzero
    exact (hmin hne).mp (hrep.minNsecs hne) hzero
  · rintro ⟨hsmall, hzero, hearly⟩
    refine ⟨fun hne ↦ ?_, fun hne ↦ (hmin hne).mpr hzero, fun hne ↦ ⟨?_, ?_⟩,
      htracks.results_iff.mpr hsmall, fun i hi ↦ ?_, htracks.length_le,
      htracks.stops_iff.mpr hearly⟩
    · rw [htracks.keeps.maxNsecs]
      exact RunningStats.isGreatest_max hne
    · rw [UInt32.le_iff_toNat_le, htracks.keeps.avgNsecs hsmall]
      exact RunningStats.le_mean hne ((hmin hne).mpr hzero).2
    · rw [UInt32.le_iff_toNat_le, htracks.keeps.avgNsecs hsmall, htracks.keeps.maxNsecs]
      exact RunningStats.mean_le fun x hx ↦ RunningStats.le_max hx
    · have hpasses : passes tc ≤ maxTestCount := Nat.min_le_right _ _
      have hlength := htracks.length_le
      have hmax : maxTestCount = 10000 := rfl
      rw [htracks.keeps.outside i (by omega)]
      exact if_neg (not_lt.mpr hi)

end Runs

/-- A pass whose pin is high at once, `x` nanoseconds after it began. -/
def promptTick (x : ℕ) : Tick := ⟨.ofNs 0, fun _ ↦ true, .ofNs x⟩

/-- Two passes of 3 and 5 microseconds. -/
theorem reported_iff_two :
    ∃ s, node1.run (armed 2 fun _ ↦ 0)
        [.setMaxCount, .tick (promptTick 3000), .tick (promptTick 5000)] = some s ∧
      s.Reported 2 (fun _ ↦ 0)
        [.setMaxCount, .tick (promptTick 3000), .tick (promptTick 5000)] := by
  have hrun : node1.run (armed 2 fun _ ↦ 0)
      [.setMaxCount, .tick (promptTick 3000), .tick (promptTick 5000)] = some _ := rfl
  exact ⟨_, hrun, (reported_iff hrun).mpr ⟨by decide, by decide, fun h ↦ absurd rfl h⟩⟩

/-- A pass of 70 microseconds is entered as 4464 nanoseconds. -/
theorem exists_truncated_result :
    ∃ s, node1.run (armed 2 fun _ ↦ 0) [.setMaxCount, .tick (promptTick 70000)] = some s ∧
      s.testData.results 0 = 4464 ∧
      ¬s.Reported 2 (fun _ ↦ 0) [.setMaxCount, .tick (promptTick 70000)] := by
  refine ⟨_, rfl, rfl, fun h ↦ ?_⟩
  exact absurd (h.results 0 (by decide)) (by decide)

end UcsmaRateControl.InterruptTest
