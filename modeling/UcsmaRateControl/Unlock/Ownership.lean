import UcsmaRateControl.Kernel.Gpio
import UcsmaRateControl.Machine.Run
import UcsmaRateControl.Unlock.WithLog
import Mathlib.Logic.Function.Basic

/-!
# Who frees the pins

Five modules request the same two pins when they are loaded and free them when they are unloaded.
They differ in their error ladders. `unlock.c` and `unlock_with_log.c` leave at once when their
request is refused; the other three go to the label that frees the pins, and so take them from
whoever made the request fail. Two of these also take the positive code by which
`request_any_context_irq` reports success for a failure, free their pins, and return it; the kernel
loads such a module anyway, and unloading it frees the pins once more.

Only what happens to the pins is modelled here. The instances of the modules are told apart by a
serial number.
-/

namespace UcsmaRateControl

/-- The modules that use the pins. -/
inductive PinModule
  | unlock
  | unlockWithLog
  | interruptTestNode1
  | interruptTestNode2
  | recordGpioEvent
deriving DecidableEq

/-- The pins in the table `unlock_gpios` of each of the modules. -/
def unlockGpios : List ℕ := [21, 22]

/-- What the fallible calls of `unlock_init` return. -/
structure InitCodes where
  gpioRequestArray : Int32
  gpioToIrq : Int32
  /-- The code of `request_irq` or of `request_any_context_irq`. -/
  requestIrq : Int32
deriving DecidableEq

/-- The codes among the inputs of `unlock_init`. -/
def InitInput.codes (i : InitInput) : InitCodes := ⟨i.gpioRequestArray, i.gpioToIrq, i.requestIrq⟩

section Ladders

variable {ω : Type*} (g : Gpios ω) (caller : ω) (codes : InitCodes)

/-- The rungs that four of the modules share: map the interrupt, request it, and free the pins if
either fails. -/
def requestIrqOrFree : Gpios ω × Int32 :=
  -- the result passes through a `short`
  let ret := codes.gpioToIrq.toInt16.toInt32
  if ret < 0 then (g.freeArray caller unlockGpios, ret)
  else
    let ret := codes.requestIrq
    if ret ≠ 0 then (g.freeArray caller unlockGpios, ret) else (g, 0)

/-- The ladder of `unlock.c` and `unlock_with_log.c`. -/
def initOrReturn : Gpios ω × Int32 :=
  let (g, ret) := g.requestArray caller unlockGpios codes.gpioRequestArray
  if ret ≠ 0 then (g, ret) else requestIrqOrFree g caller codes

/-- The ladder of `interrupt_test_node2.c` and `record_gpio_event.c`. -/
def initOrFail : Gpios ω × Int32 :=
  let (g, ret) := g.requestArray caller unlockGpios codes.gpioRequestArray
  if ret ≠ 0 then (g.freeArray caller unlockGpios, ret) else requestIrqOrFree g caller codes

end Ladders

/-! ## The modules -/

section Modules

variable {ω : Type*}

/-- `unlock_init` of `unlock.c`. -/
def unlockInitPins : Gpios ω → ω → InitCodes → Gpios ω × Int32 := initOrReturn

/-- `unlock_exit` of `unlock.c`. -/
def unlockExitPins (g : Gpios ω) (caller : ω) : Gpios ω := g.freeArray caller unlockGpios

namespace WithLog

/-- `unlock_init` of `unlock_with_log.c`. -/
def unlockInitPins : Gpios ω → ω → InitCodes → Gpios ω × Int32 := initOrReturn

/-- `unlock_exit` of `unlock_with_log.c`. -/
def unlockExitPins (g : Gpios ω) (caller : ω) : Gpios ω := g.freeArray caller unlockGpios

end WithLog

namespace InterruptTestNode1

/-- `unlock_init` of `interrupt_test_node1.c`, which uses no interrupt. -/
def unlockInitPins (g : Gpios ω) (caller : ω) (codes : InitCodes) : Gpios ω × Int32 :=
  let (g, ret) := g.requestArray caller unlockGpios codes.gpioRequestArray
  if ret ≠ 0 then (g.freeArray caller unlockGpios, ret) else (g, 0)

/-- `unlock_exit` of `interrupt_test_node1.c`. -/
def unlockExitPins (g : Gpios ω) (caller : ω) : Gpios ω := g.freeArray caller unlockGpios

end InterruptTestNode1

namespace InterruptTestNode2

/-- `unlock_init` of `interrupt_test_node2.c`. -/
def unlockInitPins : Gpios ω → ω → InitCodes → Gpios ω × Int32 := initOrFail

/-- `unlock_exit` of `interrupt_test_node2.c`. -/
def unlockExitPins (g : Gpios ω) (caller : ω) : Gpios ω := g.freeArray caller unlockGpios

end InterruptTestNode2

namespace RecordGpioEvent

/-- `unlock_init` of `record_gpio_event.c`. -/
def unlockInitPins : Gpios ω → ω → InitCodes → Gpios ω × Int32 := initOrFail

/-- `unlock_exit` of `record_gpio_event.c`. -/
def unlockExitPins (g : Gpios ω) (caller : ω) : Gpios ω := g.freeArray caller unlockGpios

end RecordGpioEvent

namespace PinModule

/-- The function that runs when the module is loaded. -/
def init : PinModule → Gpios ω → ω → InitCodes → Gpios ω × Int32
  | unlock => unlockInitPins
  | unlockWithLog => WithLog.unlockInitPins
  | interruptTestNode1 => InterruptTestNode1.unlockInitPins
  | interruptTestNode2 => InterruptTestNode2.unlockInitPins
  | recordGpioEvent => RecordGpioEvent.unlockInitPins

/-- The function that runs when the module is unloaded. -/
def exit : PinModule → Gpios ω → ω → Gpios ω
  | unlock => unlockExitPins
  | unlockWithLog => WithLog.unlockExitPins
  | interruptTestNode1 => InterruptTestNode1.unlockExitPins
  | interruptTestNode2 => InterruptTestNode2.unlockExitPins
  | recordGpioEvent => RecordGpioEvent.unlockExitPins

/-- The module frees the pins when its request for them is refused. -/
def freesOnRefusal : PinModule → Bool
  | unlock | unlockWithLog => false
  | interruptTestNode1 | interruptTestNode2 | recordGpioEvent => true

/-- The module installs its handler by `request_any_context_irq`. -/
def anyContext : PinModule → Bool
  | interruptTestNode2 | recordGpioEvent => true
  | unlock | unlockWithLog | interruptTestNode1 => false

/-- The codes that the calls of the module can return. Only `request_any_context_irq` has a positive
code, for an interrupt that is handled in a nested thread. -/
def Possible (m : PinModule) (codes : InitCodes) : Prop :=
  codes.gpioRequestArray ≤ 0 ∧ (m.anyContext = false → codes.requestIrq ≤ 0)

instance (m : PinModule) (codes : InitCodes) : Decidable (m.Possible codes) :=
  inferInstanceAs (Decidable (_ ∧ _))

end PinModule

end Modules

/-! ## A board -/

/-- An instance of a module: an attempt to load it, with the codes its `unlock_init` was given. -/
structure Instance where
  module : PinModule
  serial : ℕ
  codes : InitCodes
deriving DecidableEq

/-- The pins of a board and the modules that are loaded. -/
structure Board where
  gpios : Gpios Instance
  /-- The loaded instance of a module. -/
  loaded : PinModule → Option Instance
  /-- The attempts to load a module so far. -/
  serial : ℕ

/-- What can happen to the modules. -/
inductive LoadEvent
  | insmod (m : PinModule) (codes : InitCodes)
  | rmmod (m : PinModule)

/-- The calls of `unlock_init` can return these codes now: a request for the pins succeeds only if
they are free. -/
def Board.CanReturn (s : Board) (m : PinModule) (codes : InitCodes) : Prop :=
  m.Possible codes ∧ (codes.gpioRequestArray = 0 → s.gpios.Unheld unlockGpios)

instance (s : Board) (m : PinModule) (codes : InitCodes) : Decidable (s.CanReturn m codes) :=
  inferInstanceAs (Decidable (_ ∧ (_ → ∀ gpio ∈ unlockGpios, _)))

/-- Run `unlock_init`. The kernel keeps the module unless the code it returns is negative. -/
def Board.insmod (s : Board) (m : PinModule) (codes : InitCodes) : Board :=
  let caller : Instance := ⟨m, s.serial, codes⟩
  let (gpios, ret) := m.init s.gpios caller codes
  { gpios
    loaded := if ret < 0 then s.loaded else Function.update s.loaded m (some caller)
    serial := s.serial + 1 }

/-- Run `unlock_exit`. -/
def Board.rmmod (s : Board) (m : PinModule) (caller : Instance) : Board :=
  { s with gpios := m.exit s.gpios caller, loaded := Function.update s.loaded m none }

/-- Load attempts and unloads, in any order. The kernel itself refuses to load a module that is
loaded, and to unload one that is not. -/
def board : Machine Board LoadEvent where
  step s
    | .insmod m codes =>
      if s.loaded m ≠ none then some s
      else if s.CanReturn m codes then some (s.insmod m codes) else none
    | .rmmod m =>
      match s.loaded m with
      | none => some s
      | some caller => some (s.rmmod m caller)

/-- A board before the first attempt. -/
def Board.Booted (s : Board) : Prop :=
  (∀ gpio, s.gpios.holder gpio = none) ∧ s.gpios.frees = [] ∧ ∀ m, s.loaded m = none

/-! ## Where the ladders go wrong -/

/-- `request_any_context_irq` succeeded with a positive code, which was taken for a failure. -/
def Instance.Misread (c : Instance) : Prop :=
  c.module.anyContext = true ∧ c.codes.gpioRequestArray = 0 ∧
    ¬c.codes.gpioToIrq.toInt16.toInt32 < 0 ∧ 0 < c.codes.requestIrq

instance : DecidablePred Instance.Misread := fun _ ↦
  inferInstanceAs (Decidable (_ ∧ _ ∧ _ ∧ _))

/-- The event is no load of one of the three test modules whose request for the pins is refused, and
no unload of an instance whose interrupt code was misread. -/
def Harmless (s : Board) : LoadEvent → Prop
  | .insmod m codes =>
    s.loaded m = none → m.freesOnRefusal = true → codes.gpioRequestArray = 0
  | .rmmod m => ∀ c, s.loaded m = some c → ¬c.Misread

/-- The event, if it is an attempt whose request for the pins is refused, leaves all pins with those
who hold them. -/
def Spares (s : Board) (e : LoadEvent) : Prop :=
  ∀ m codes t, e = .insmod m codes → codes.gpioRequestArray ≠ 0 → board.step s e = some t →
    t.gpios.holder = s.gpios.holder

/-! ## What one step can do -/

/-- What the interrupt rungs of a module return. -/
def PinModule.irqRet (codes : InitCodes) : PinModule → Int32
  | .interruptTestNode1 => 0
  | .unlock | .unlockWithLog | .interruptTestNode2 | .recordGpioEvent =>
    if codes.gpioToIrq.toInt16.toInt32 < 0 then codes.gpioToIrq.toInt16.toInt32
    else codes.requestIrq

section Steps

variable {s t : Board} {e : LoadEvent} {m : PinModule} {codes : InitCodes}

/-- The paths a step can take. -/
inductive LoadStep (s : Board) : LoadEvent → Board → Prop
  /-- The request for the pins is refused. -/
  | refused (m : PinModule) (codes : InitCodes) (unloaded : s.loaded m = none)
      (ne : codes.gpioRequestArray ≠ 0) :
      LoadStep s (.insmod m codes)
        { gpios :=
            if m.freesOnRefusal then s.gpios.freeArray ⟨m, s.serial, codes⟩ unlockGpios
            else s.gpios
          loaded := s.loaded
          serial := s.serial + 1 }
  /-- The module is loaded and holds its pins. -/
  | loads (m : PinModule) (codes : InitCodes) (unloaded : s.loaded m = none)
      (granted : codes.gpioRequestArray = 0) (unheld : s.gpios.Unheld unlockGpios)
      (kept : ¬Instance.Misread ⟨m, s.serial, codes⟩) :
      LoadStep s (.insmod m codes)
        { gpios := (s.gpios.requestArray ⟨m, s.serial, codes⟩ unlockGpios 0).1
          loaded := Function.update s.loaded m (some ⟨m, s.serial, codes⟩)
          serial := s.serial + 1 }
  /-- An interrupt rung fails, and the pins are freed again. -/
  | backsOut (m : PinModule) (codes : InitCodes) (unloaded : s.loaded m = none)
      (granted : codes.gpioRequestArray = 0) (unheld : s.gpios.Unheld unlockGpios) :
      LoadStep s (.insmod m codes)
        { gpios := ((s.gpios.requestArray ⟨m, s.serial, codes⟩ unlockGpios 0).1.freeArray
            ⟨m, s.serial, codes⟩ unlockGpios)
          loaded := s.loaded
          serial := s.serial + 1 }
  /-- A positive code is misread: the pins are freed, and the module is loaded without them. -/
  | misreads (m : PinModule) (codes : InitCodes) (unloaded : s.loaded m = none)
      (granted : codes.gpioRequestArray = 0) (unheld : s.gpios.Unheld unlockGpios)
      (misread : Instance.Misread ⟨m, s.serial, codes⟩) :
      LoadStep s (.insmod m codes)
        { gpios := ((s.gpios.requestArray ⟨m, s.serial, codes⟩ unlockGpios 0).1.freeArray
            ⟨m, s.serial, codes⟩ unlockGpios)
          loaded := Function.update s.loaded m (some ⟨m, s.serial, codes⟩)
          serial := s.serial + 1 }
  /-- The kernel does not run `unlock_init`. -/
  | refusedLoad (m : PinModule) (codes : InitCodes) (loaded : s.loaded m ≠ none) :
      LoadStep s (.insmod m codes) s
  /-- The kernel does not run `unlock_exit`. -/
  | refusedUnload (m : PinModule) (unloaded : s.loaded m = none) : LoadStep s (.rmmod m) s
  | unloads (m : PinModule) (c : Instance) (loaded : s.loaded m = some c) :
      LoadStep s (.rmmod m)
        { s with
          gpios := s.gpios.freeArray c unlockGpios
          loaded := Function.update s.loaded m none }

theorem PinModule.exit_eq {ω : Type*} (g : Gpios ω) (c : ω) :
    m.exit g c = g.freeArray c unlockGpios := by
  cases m <;> rfl

theorem PinModule.init_of_refused {ω : Type*} (g : Gpios ω) (c : ω)
    (h : codes.gpioRequestArray ≠ 0) :
    m.init g c codes =
      (if m.freesOnRefusal then g.freeArray c unlockGpios else g, codes.gpioRequestArray) := by
  have hreq := g.requestArray_of_ne c unlockGpios h
  cases m with
  | unlock =>
    simp only [init, unlockInitPins, initOrReturn, hreq, if_pos h]
    rfl
  | unlockWithLog =>
    simp only [init, WithLog.unlockInitPins, initOrReturn, hreq, if_pos h]
    rfl
  | interruptTestNode1 =>
    simp only [init, InterruptTestNode1.unlockInitPins, hreq, if_pos h]
    rfl
  | interruptTestNode2 =>
    simp only [init, InterruptTestNode2.unlockInitPins, initOrFail, hreq, if_pos h]
    rfl
  | recordGpioEvent =>
    simp only [init, RecordGpioEvent.unlockInitPins, initOrFail, hreq, if_pos h]
    rfl

/-- Once the pins are granted, the ladders differ only in whether they have interrupt rungs. -/
theorem PinModule.init_of_granted {ω : Type*} (g : Gpios ω) (c : ω)
    (h : codes.gpioRequestArray = 0) :
    m.init g c codes =
      if m.irqRet codes = 0 then ((g.requestArray c unlockGpios 0).1, 0)
      else ((g.requestArray c unlockGpios 0).1.freeArray c unlockGpios, m.irqRet codes) := by
  have hrungs : ∀ g' : Gpios ω, requestIrqOrFree g' c codes =
      if unlock.irqRet codes = 0 then (g', 0)
      else (g'.freeArray c unlockGpios, unlock.irqRet codes) := by
    intro g'
    rw [requestIrqOrFree, irqRet]
    by_cases hirq : codes.gpioToIrq.toInt16.toInt32 < 0
    · have hne : codes.gpioToIrq.toInt16.toInt32 ≠ 0 := fun h0 ↦ absurd (h0 ▸ hirq) (by decide)
      rw [if_pos hirq, if_pos hirq, if_neg hne]
    · rw [if_neg hirq, if_neg hirq]
      exact ite_not ..
  have hzero : ¬(0 : Int32) ≠ 0 := not_not.mpr rfl
  have hreturn : initOrReturn g c codes =
      requestIrqOrFree (g.requestArray c unlockGpios 0).1 c codes := by
    rw [initOrReturn, h]
    exact if_neg hzero
  have hfail : initOrFail g c codes =
      requestIrqOrFree (g.requestArray c unlockGpios 0).1 c codes := by
    rw [initOrFail, h]
    exact if_neg hzero
  cases m with
  | unlock | unlockWithLog => exact hreturn.trans (hrungs _)
  | interruptTestNode1 =>
    rw [init, InterruptTestNode1.unlockInitPins, h]
    exact if_neg hzero
  | interruptTestNode2 | recordGpioEvent => exact hfail.trans (hrungs _)

/-- A positive code can come only from `request_any_context_irq`. -/
theorem misread_iff {n : ℕ} (hp : m.Possible codes) (h : codes.gpioRequestArray = 0) :
    Instance.Misread ⟨m, n, codes⟩ ↔ 0 < m.irqRet codes := by
  have hasymm : ∀ x : Int32, x < 0 → ¬0 < x := by
    intro x hx hpos
    rw [Int32.lt_iff_toInt_lt] at hx hpos
    exact lt_asymm hx hpos
  have hpos : 0 < PinModule.unlock.irqRet codes ↔
      ¬codes.gpioToIrq.toInt16.toInt32 < 0 ∧ 0 < codes.requestIrq := by
    rw [PinModule.irqRet]
    split_ifs with hirq
    · exact iff_of_false (hasymm _ hirq) fun hc ↦ hc.1 hirq
    · exact (and_iff_right hirq).symm
  have hnot : m.anyContext = false → ¬0 < codes.requestIrq := by
    intro hm hlt
    have hle := hp.2 hm
    rw [Int32.lt_iff_toInt_lt] at hlt
    rw [Int32.le_iff_toInt_le] at hle
    exact absurd hlt hle.not_gt
  rw [Instance.Misread]
  cases m with
  | unlock | unlockWithLog =>
    exact iff_of_false (fun hc ↦ nomatch hc.1) fun hc ↦ hnot rfl (hpos.mp hc).2
  | interruptTestNode1 => exact iff_of_false (fun hc ↦ nomatch hc.1) Int32.lt_irrefl
  | interruptTestNode2 | recordGpioEvent =>
    exact ⟨fun hc ↦ hpos.mpr hc.2.2, fun hc ↦ ⟨rfl, h, hpos.mp hc⟩⟩

/-- **The inversion of a step.** -/
theorem LoadStep.of_step (h : board.step s e = some t) : LoadStep s e t := by
  cases e with
  | insmod m codes =>
    by_cases hnone : s.loaded m = none
    · obtain ⟨⟨hposs, hunheld⟩, ⟨⟩⟩ := Option.ite_none_right_eq_some.mp
        ((if_neg (not_not.mpr hnone)).symm.trans h)
      by_cases hgpio : codes.gpioRequestArray = 0
      · have hmis := misread_iff (n := s.serial) hposs hgpio
        rw [Board.insmod, PinModule.init_of_granted _ _ hgpio]
        by_cases hret : m.irqRet codes = 0
        · rw [if_pos hret]
          exact .loads m codes hnone hgpio (hunheld hgpio) (by rw [hmis, hret]; decide)
        · rw [if_neg hret]
          by_cases hneg : m.irqRet codes < 0
          · simp only [if_pos hneg]
            exact .backsOut m codes hnone hgpio (hunheld hgpio)
          · simp only [if_neg hneg]
            refine .misreads m codes hnone hgpio (hunheld hgpio) (hmis.mpr ?_)
            rw [← Int32.toInt_inj] at hret
            rw [Int32.lt_iff_toInt_lt] at hneg ⊢
            exact lt_of_le_of_ne (not_lt.mp hneg) (Ne.symm hret)
      · have hneg : codes.gpioRequestArray < 0 := by
          have hle := hposs.1
          rw [← Int32.toInt_inj] at hgpio
          rw [Int32.le_iff_toInt_le] at hle
          rw [Int32.lt_iff_toInt_lt]
          exact lt_of_le_of_ne hle hgpio
        rw [Board.insmod, PinModule.init_of_refused _ _ hgpio]
        simp only [if_pos hneg]
        exact .refused m codes hnone hgpio
    · obtain rfl := Option.some_inj.mp ((if_pos hnone).symm.trans h)
      exact .refusedLoad m codes hnone
  | rmmod m =>
    cases hloaded : s.loaded m with
    | none =>
      simp only [board, hloaded, Option.some_inj] at h
      exact h ▸ .refusedUnload m hloaded
    | some c =>
      simp only [board, hloaded, Option.some_inj] at h
      rw [← h, Board.rmmod, PinModule.exit_eq]
      exact .unloads m c hloaded

/-! ## The invariant -/

/-- The loaded instances that have not misread a code hold their pins, and nobody else holds any. -/
structure Board.Owned (s : Board) : Prop where
  module : ∀ m c, s.loaded m = some c → c.module = m
  holds : ∀ m c, s.loaded m = some c → ¬c.Misread → s.gpios.Holds c unlockGpios
  held : ∀ gpio c, s.gpios.holder gpio = some c →
    gpio ∈ unlockGpios ∧ s.loaded c.module = some c ∧ ¬c.Misread

theorem nodup_unlockGpios : unlockGpios.Nodup := by decide

/-- An instance that is not loaded, or has misread a code, holds nothing. -/
theorem Board.Owned.not_holds (h : s.Owned) {c : Instance}
    (hc : s.loaded c.module = some c → c.Misread) : ¬s.gpios.Holds c unlockGpios := by
  intro hh
  obtain ⟨-, hl, hm⟩ := h.held 21 c (hh 21 (by decide))
  exact hm (hc hl)

/-- While the pins are free, all instances that are loaded have misread a code. -/
theorem Board.Owned.misread (h : s.Owned) (hu : s.gpios.Unheld unlockGpios) {c : Instance}
    (hl : s.loaded m = some c) : c.Misread := by
  by_contra hm
  have hnone := hu 21 (by decide)
  rw [h.holds m c hl hm 21 (by decide)] at hnone
  exact nomatch hnone

/-- **One step.** It frees only what its instance holds if and only if it is harmless. -/
theorem LoadStep.freedByHolders_iff (h : LoadStep s e t) (hs : s.Owned)
    (hf : s.gpios.FreedByHolders) : t.gpios.FreedByHolders ↔ Harmless s e := by
  cases h with
  | refused m codes unloaded ne =>
    cases hm : m.freesOnRefusal with
    | false => exact iff_of_true hf fun _ hc ↦ nomatch hm.symm.trans hc
    | true =>
      have hno : ¬s.gpios.Holds ⟨m, s.serial, codes⟩ unlockGpios :=
        hs.not_holds fun hl ↦ nomatch unloaded.symm.trans hl
      refine iff_of_false (fun ht ↦ hno ?_) fun hc ↦ ne (hc unloaded hm)
      exact ((Gpios.freedByHolders_freeArray_iff nodup_unlockGpios).mp ht).1
  | loads m codes unloaded granted unheld kept =>
    exact iff_of_true ((s.gpios.freedByHolders_requestArray_iff _ _ 0).mpr hf) fun _ _ ↦ granted
  | backsOut m codes unloaded granted unheld =>
    exact iff_of_true ((Gpios.freedByHolders_request_free_iff nodup_unlockGpios).mpr hf)
      fun _ _ ↦ granted
  | misreads m codes unloaded granted unheld misread =>
    exact iff_of_true ((Gpios.freedByHolders_request_free_iff nodup_unlockGpios).mpr hf)
      fun _ _ ↦ granted
  | refusedLoad m codes loaded => exact iff_of_true hf fun hnone ↦ absurd hnone loaded
  | refusedUnload m unloaded =>
    refine iff_of_true hf fun c hc ↦ ?_
    rw [unloaded] at hc
    exact nomatch hc
  | unloads m c loaded =>
    rw [Gpios.freedByHolders_freeArray_iff nodup_unlockGpios, and_iff_left hf]
    constructor
    · intro hh d hd hm
      rw [loaded, Option.some_inj] at hd
      exact hs.not_holds (fun _ ↦ hd ▸ hm) hh
    · exact fun hc ↦ hs.holds m c loaded (hc c loaded)

/-- The record of the frees only grows. -/
theorem LoadStep.freedByHolders (h : LoadStep s e t) (ht : t.gpios.FreedByHolders) :
    s.gpios.FreedByHolders := by
  cases h with
  | refused m codes unloaded ne =>
    cases hm : m.freesOnRefusal with
    | false =>
      simp only [hm] at ht
      exact ht
    | true =>
      simp only [hm] at ht
      exact ht.of_freeArray nodup_unlockGpios
  | loads => exact (s.gpios.freedByHolders_requestArray_iff _ _ 0).mp ht
  | backsOut | misreads =>
    exact (Gpios.freedByHolders_request_free_iff nodup_unlockGpios).mp ht
  | refusedLoad | refusedUnload => exact ht
  | unloads => exact ht.of_freeArray nodup_unlockGpios

/-- The pins after they have been requested and freed again. -/
theorem holder_request_free {c : Instance} {gpio : ℕ} :
    ((s.gpios.requestArray c unlockGpios 0).1.freeArray c unlockGpios).holder gpio =
      if gpio ∈ unlockGpios then none else s.gpios.holder gpio := by
  rw [Gpios.holder_freeArray, Gpios.holder_requestArray_zero]
  split <;> rfl

/-- An instance that is loaded after a change has just been put there, or was loaded before. -/
theorem eq_or_of_update {f : PinModule → Option Instance} {m m' : PinModule} {v : Option Instance}
    {c : Instance} (h : Function.update f m v m' = some c) :
    m' = m ∧ v = some c ∨ m' ≠ m ∧ f m' = some c := by
  by_cases hm : m' = m
  · subst hm
    rw [Function.update_self] at h
    exact .inl ⟨rfl, h⟩
  · rw [Function.update_of_ne hm] at h
    exact .inr ⟨hm, h⟩

namespace Board.Owned

/-- An instance is recorded under its module, before and after a change that records one so. -/
theorem module_of_update (hs : s.Owned) {m' : PinModule} {v : Option Instance} {c : Instance}
    (hv : ∀ d, v = some d → d.module = m) (hl : Function.update s.loaded m v m' = some c) :
    c.module = m' := by
  rcases eq_or_of_update hl with ⟨rfl, heq⟩ | ⟨-, hl⟩
  · exact hv c heq
  · exact hs.module m' c hl

/-- While the pins are free, nobody holds one. -/
theorem holder_ne (hs : s.Owned) (hu : s.gpios.Unheld unlockGpios) (gpio : ℕ) (c : Instance) :
    s.gpios.holder gpio ≠ some c := by
  intro hh
  obtain ⟨-, hl, hc⟩ := hs.held gpio c hh
  exact hc (hs.misread hu hl)

/-- Nor after they have been requested and freed again. -/
theorem holder_request_free_ne (hs : s.Owned) (hu : s.gpios.Unheld unlockGpios) (c : Instance)
    (gpio : ℕ) (d : Instance) :
    ((s.gpios.requestArray c unlockGpios 0).1.freeArray c unlockGpios).holder gpio ≠ some d := by
  rw [holder_request_free]
  split
  · exact nofun
  · exact hs.holder_ne hu gpio d

end Board.Owned

/-- As long as steps are harmless, the invariant is kept. -/
theorem LoadStep.owned (h : LoadStep s e t) (hs : s.Owned) (he : Harmless s e) : t.Owned := by
  cases h with
  | refused m codes unloaded ne =>
    have hm : m.freesOnRefusal = false := Bool.not_eq_true _ ▸ fun hm ↦ ne (he unloaded hm)
    simp only [hm]
    exact ⟨hs.module, hs.holds, hs.held⟩
  | loads m codes unloaded granted unheld kept =>
    refine ⟨fun m' c hl ↦ hs.module_of_update ?_ hl, fun m' c hl hc ↦ ?_, fun gpio c hh ↦ ?_⟩
    · rintro _ ⟨⟩
      rfl
    · rcases eq_or_of_update hl with ⟨rfl, heq⟩ | ⟨-, hl⟩
      · rw [← Option.some_inj.mp heq]
        exact s.gpios.holds_requestArray_zero _ _
      · exact absurd (hs.misread unheld hl) hc
    · rw [Gpios.holder_requestArray_zero] at hh
      split at hh
      · obtain rfl := Option.some_inj.mp hh
        exact ⟨‹_›, Function.update_self .., kept⟩
      · exact absurd hh (hs.holder_ne unheld gpio c)
  | backsOut m codes unloaded granted unheld =>
    exact ⟨hs.module, fun m' c hl hc ↦ absurd (hs.misread unheld hl) hc,
      fun gpio c hh ↦ absurd hh (hs.holder_request_free_ne unheld _ gpio c)⟩
  | misreads m codes unloaded granted unheld misread =>
    refine ⟨fun m' c hl ↦ hs.module_of_update ?_ hl, fun m' c hl hc ↦ ?_,
      fun gpio c hh ↦ absurd hh (hs.holder_request_free_ne unheld _ gpio c)⟩
    · rintro _ ⟨⟩
      rfl
    · rcases eq_or_of_update hl with ⟨rfl, heq⟩ | ⟨-, hl⟩
      · exact absurd misread (Option.some_inj.mp heq ▸ hc)
      · exact absurd (hs.misread unheld hl) hc
  | refusedLoad | refusedUnload => exact hs
  | unloads m c loaded =>
    have hc : s.gpios.Holds c unlockGpios := hs.holds m c loaded (he c loaded)
    refine ⟨fun m' d hl ↦ hs.module_of_update ?_ hl, fun m' d hl hd ↦ ?_, fun gpio d hh ↦ ?_⟩
    · rintro _ ⟨⟩
    · rcases eq_or_of_update hl with ⟨-, heq⟩ | ⟨hne, hl⟩
      · exact nomatch heq
      · -- two instances cannot both hold the pins
        have hboth := hs.holds m' d hl hd 21 (by decide)
        rw [hc 21 (by decide), Option.some_inj] at hboth
        subst hboth
        exact absurd ((hs.module m' c hl).symm.trans (hs.module m c loaded)) hne
    · rw [Gpios.holder_freeArray] at hh
      split at hh
      · exact nomatch hh
      · exact absurd (hs.held gpio d hh).1 ‹_›

/-- A harmless attempt whose request is refused changes no holder. -/
theorem LoadStep.spares (h : LoadStep s e t) (he : Harmless s e) {m : PinModule}
    {codes : InitCodes} (hm : e = .insmod m codes) (hne : codes.gpioRequestArray ≠ 0) :
    t.gpios.holder = s.gpios.holder := by
  subst hm
  cases h with
  | refused m codes unloaded =>
    have hm : m.freesOnRefusal = false := Bool.not_eq_true _ ▸ fun hm ↦ hne (he unloaded hm)
    simp only [hm]
    rfl
  | loads _ _ _ granted => exact absurd granted hne
  | backsOut _ _ _ granted => exact absurd granted hne
  | misreads _ _ _ granted => exact absurd granted hne
  | refusedLoad => rfl

end Steps

/-! ## The pins and the variables of the modules -/

section Refinement

variable {ω : Type*} {pins : Gpios ω} {caller : ω}

/-- What the ladder of `unlock.c` does to the pins, by the code it returns. -/
theorem initOrReturn_spec (i : InitInput) (hpins : ¬pins.Holds caller unlockGpios) :
    (initOrReturn pins caller i.codes).2 = i.ret ∧
      ((initOrReturn pins caller i.codes).1.Holds caller unlockGpios ↔ i.ret = 0) := by
  have hinit : initOrReturn pins caller i.codes = PinModule.unlock.init pins caller i.codes := rfl
  rw [hinit]
  by_cases hgpio : i.codes.gpioRequestArray = 0
  · have hret : i.ret = PinModule.unlock.irqRet i.codes := if_neg (not_not.mpr hgpio)
    rw [PinModule.init_of_granted _ _ hgpio, ← hret]
    by_cases hzero : i.ret = 0
    · rw [if_pos hzero]
      exact ⟨hzero.symm, iff_of_true (pins.holds_requestArray_zero _ _) hzero⟩
    · rw [if_neg hzero]
      refine ⟨rfl, iff_of_false (fun hh ↦ ?_) hzero⟩
      have hnone := hh 21 (by decide)
      rw [Gpios.holder_freeArray, if_pos (by decide)] at hnone
      exact nomatch hnone
  · have hret : i.ret = i.codes.gpioRequestArray := if_pos hgpio
    rw [PinModule.init_of_refused _ _ hgpio, hret]
    exact ⟨rfl, iff_of_false hpins hgpio⟩

/-- The pins go with the variable `gpiosHeld` of `unlock.c`. -/
theorem unlockInitPins_refines (g : Globals) (i : InitInput) (hg : g.gpiosHeld = false)
    (hpins : ¬pins.Holds caller unlockGpios) :
    (unlockInitPins pins caller i.codes).2 = (unlockInit g i).2 ∧
      ((unlockInitPins pins caller i.codes).1.Holds caller unlockGpios ↔
        (unlockInit g i).1.gpiosHeld = true) := by
  rw [unlockInit_snd, gpiosHeld_unlockInit g i hg]
  exact initOrReturn_spec i hpins

/-- The pins go with the variable `gpiosHeld` of `unlock_with_log.c`. -/
theorem WithLog.unlockInitPins_refines (g : WithLog.Globals) (i : InitInput)
    (hg : g.gpiosHeld = false) (hpins : ¬pins.Holds caller unlockGpios) :
    (WithLog.unlockInitPins pins caller i.codes).2 = (WithLog.unlockInit g i).2 ∧
      ((WithLog.unlockInitPins pins caller i.codes).1.Holds caller unlockGpios ↔
        (WithLog.unlockInit g i).1.gpiosHeld = true) := by
  rw [WithLog.unlockInit_snd, WithLog.gpiosHeld_unlockInit g i hg]
  exact initOrReturn_spec i hpins

theorem holder_freeArray_unlockGpios {gpio : ℕ} (h : gpio ∈ unlockGpios) :
    (pins.freeArray caller unlockGpios).holder gpio = none := by
  rw [Gpios.holder_freeArray, if_pos h]

/-- After `unlock_exit` the pins are free in either model. -/
theorem unlockExitPins_refines (g : Globals) :
    (unlockExit.foldl ExitStep.run g).gpiosHeld = false ∧
      (unlockExitPins pins caller).Unheld unlockGpios :=
  ⟨rfl, fun _ h ↦ holder_freeArray_unlockGpios h⟩

theorem WithLog.unlockExitPins_refines (g : WithLog.Globals) :
    (WithLog.unlockExit.foldl ExitStep.run g.toShared).gpiosHeld = false ∧
      (WithLog.unlockExitPins pins caller).Unheld unlockGpios :=
  ⟨rfl, fun _ h ↦ holder_freeArray_unlockGpios h⟩

end Refinement

/-! ## Runs -/

section Runs

variable {s t : Board} {es : List LoadEvent}

theorem Board.Booted.owned (h : s.Booted) : s.Owned := by
  obtain ⟨hpins, -, hloaded⟩ := h
  have hnot : ∀ m c, s.loaded m ≠ some c := by
    intro m c
    rw [hloaded m]
    exact nofun
  refine ⟨fun m c hl ↦ absurd hl (hnot m c), fun m c hl ↦ absurd hl (hnot m c), fun gpio c hh ↦ ?_⟩
  rw [hpins gpio] at hh
  exact nomatch hh

/-- The invariant holds as long as pins have been freed only by those who held them. -/
theorem Board.Owned.of_run (hs : s.Owned) (h : board.run s es = some t)
    (ht : t.gpios.FreedByHolders) : t.Owned := by
  revert ht
  refine Machine.invariant (P := fun u : Board ↦ u.gpios.FreedByHolders → u.Owned) ?_
    (fun _ ↦ hs) h
  intro u e v hu huv hv
  have hst := LoadStep.of_step huv
  have hfu := hst.freedByHolders hv
  exact hst.owned (hu hfu) ((hst.freedByHolders_iff (hu hfu) hfu).mp hv)

/-- **Who frees the pins.** Along a run of load attempts and unloads, pins are freed only by those
who hold them, and an attempt whose request is refused leaves all pins where they are, if and only
if no test module has its request refused and no instance is unloaded whose interrupt code was
misread. -/
theorem freedByHolders_iff_of_run (hs : s.Booted) (h : board.run s es = some t) :
    board.Throughout (fun u ↦ u.gpios.FreedByHolders) s es ∧ board.Meets Spares s es ↔
      board.Meets Harmless s es := by
  have hfreed : s.gpios.FreedByHolders := by
    rw [Gpios.FreedByHolders, hs.2.1]
    exact List.forall_mem_nil _
  have hiff := Machine.throughout_iff_meets (C := Harmless) hfreed
    (fun pre u e v hu hfu huv ↦
      (LoadStep.of_step huv).freedByHolders_iff (hs.owned.of_run hu hfu) hfu) h
  refine ⟨fun hc ↦ hiff.mp hc.1, fun hC ↦ ⟨hiff.mpr hC, fun pre e hp u hu ↦ ?_⟩⟩
  intro m codes v he hne huv
  exact (LoadStep.of_step huv).spares (hC pre e hp u hu) he hne

/-- A board on which nothing has been loaded. -/
def bareBoard : Board := ⟨⟨fun _ ↦ none, []⟩, fun _ ↦ none, 0⟩

/-- `unlock.ko` is loaded, and `unlock_with_log.ko` is refused the pins. -/
theorem freedByHolders_iff_of_run_refused :
    board.Throughout (fun u ↦ u.gpios.FreedByHolders) bareBoard
        [.insmod .unlock ⟨0, 30, 0⟩, .insmod .unlockWithLog ⟨-16, 30, 0⟩] ∧
      board.Meets Spares bareBoard
        [.insmod .unlock ⟨0, 30, 0⟩, .insmod .unlockWithLog ⟨-16, 30, 0⟩] := by
  have hrun : (board.run bareBoard
      [.insmod .unlock ⟨0, 30, 0⟩, .insmod .unlockWithLog ⟨-16, 30, 0⟩]).isSome = true := by
    decide +kernel
  obtain ⟨t, ht⟩ := Option.isSome_iff_exists.mp hrun
  refine (freedByHolders_iff_of_run ⟨fun _ ↦ rfl, rfl, fun _ ↦ rfl⟩ ht).mpr ?_
  intro pre e hp u hu
  rcases List.mem_pair.mp (hp.subset (List.mem_append_right pre List.mem_cons_self)) with rfl | rfl
  · exact nofun
  · exact nofun

/-- While `unlock.ko` is loaded and holds the pins, `record_gpio_event.ko` is refused them and frees
them. -/
theorem exists_robbed :
    ∃ t, board.run bareBoard
        [.insmod .unlock ⟨0, 30, 0⟩, .insmod .recordGpioEvent ⟨-16, 30, 0⟩] = some t ∧
      t.loaded .unlock = some ⟨.unlock, 0, ⟨0, 30, 0⟩⟩ ∧ t.loaded .recordGpioEvent = none ∧
      t.gpios.holder 21 = none ∧
      ⟨21, ⟨.recordGpioEvent, 1, ⟨-16, 30, 0⟩⟩, some ⟨.unlock, 0, ⟨0, 30, 0⟩⟩⟩ ∈ t.gpios.frees ∧
      ¬t.gpios.FreedByHolders := by
  refine ⟨_, rfl, rfl, rfl, rfl, by decide, fun h ↦ ?_⟩
  exact absurd (h _ List.mem_cons_self) (by decide)

end Runs

end UcsmaRateControl
