import UcsmaRateControl.Ath9k.InitSoftc
import UcsmaRateControl.Unlock.Ownership
import UcsmaRateControl.Unlock.Teardown
import Mathlib.Logic.Relation

/-!
# What loading and unloading leave in the driver

`unlock_init` sets three flags of `ath9k_ah` before anything in it can fail, and neither of its
error exits takes them back. `unlock_exit` writes four flags back as constants. Three of these are
the values that `ath9k_init_softc` gave the flags; the fourth, `force_quiet_bit_restore`, is not.

So a load that fails, and a load that succeeds together with its unload, both have a state of the
flags that they preserve, and change every other one.
-/

namespace UcsmaRateControl

/-- The flags of `ath9k_ah` that `unlock.c` writes. -/
structure ModuleFlags where
  unlockingLogging : Bool
  forceQuietBitRestore : Bool
  maxTimingCount : UInt32
  unlocked : Bool
deriving DecidableEq

/-- The flags as they stand. -/
def AthHw.moduleFlags (ah : AthHw) : ModuleFlags :=
  ⟨ah.unlockingLogging, ah.forceQuietBitRestore, ah.maxTimingCount, ah.unlocked⟩

/-! ## A load that fails -/

section Undoing

variable {ω : Type*} {g : Globals} {i : InitInput} {gp : Gpios ω} {caller : ω}

/-- If `unlock_init` fails, the pins are with those who held them before. -/
theorem holder_unlockInitPins (hret : i.ret ≠ 0)
    (hgp : i.gpioRequestArray = 0 → gp.Unheld unlockGpios) :
    (unlockInitPins gp caller i.codes).1.holder = gp.holder := by
  change (PinModule.unlock.init gp caller i.codes).1.holder = gp.holder
  by_cases hgpio : i.gpioRequestArray = 0
  · have hirq : PinModule.unlock.irqRet i.codes ≠ 0 := fun hirq ↦
      hret ((if_neg (not_not.mpr hgpio)).trans hirq)
    rw [PinModule.init_of_granted gp caller hgpio, if_neg hirq]
    funext gpio
    rw [Gpios.holder_freeArray, Gpios.holder_requestArray_zero]
    split_ifs with hmem
    · exact (hgp hgpio gpio hmem).symm
    · rfl
  · rw [PinModule.init_of_refused gp caller hgpio]
    rfl

/-- `unlock_init` has left the flags it writes, the pins, the interrupt line, the contention windows
and the timer as they were. -/
structure Undone (g : Globals) (i : InitInput) (gp : Gpios ω) (caller : ω) : Prop where
  unlockingLogging : (unlockInit g i).1.ah.unlockingLogging = g.ah.unlockingLogging
  forceQuietBitRestore : (unlockInit g i).1.ah.forceQuietBitRestore = g.ah.forceQuietBitRestore
  maxTimingCount : (unlockInit g i).1.ah.maxTimingCount = g.ah.maxTimingCount
  holder : (unlockInitPins gp caller i.codes).1.holder = gp.holder
  irqHeld : (unlockInit g i).1.irqHeld = g.irqHeld
  windows : ∀ qnum, (unlockInit g i).1.ah.regs (.dlclIfs qnum) = g.ah.regs (.dlclIfs qnum)
  pending : (unlockInit g i).1.unlockTimer.pending = g.unlockTimer.pending

/-- The state that an `unlock_init` leaves that fails, on either of its error exits: the flags are
set, and the timer is initialised. -/
theorem unlockInit_of_error (hret : i.ret ≠ 0) :
    (unlockInit g i).1.ah.unlockingLogging = true ∧
      (unlockInit g i).1.ah.forceQuietBitRestore = true ∧
      (unlockInit g i).1.ah.maxTimingCount = 10 ∧
      (unlockInit g i).1.irqHeld = g.irqHeld ∧
      (unlockInit g i).1.ah.regs = g.ah.regs ∧
      (unlockInit g i).1.unlockTimer.pending = false := by
  rw [ne_eq, InitInput.ret_eq_zero_iff] at hret
  simp only [unlockInit]
  split_ifs with hgpio hirq hreq
  · exact ⟨rfl, rfl, rfl, rfl, rfl, rfl⟩
  · exact ⟨rfl, rfl, rfl, rfl, rfl, rfl⟩
  · exact ⟨rfl, rfl, rfl, rfl, rfl, rfl⟩
  · exact absurd ⟨not_not.mp hgpio, hirq, not_not.mp hreq⟩ hret

/-- **A load that fails is undone, exactly** if the flags already had the values that `unlock_init`
gives them, and the timer, as it does in a module that was just loaded, was not pending. -/
theorem undone_iff_of_error (hret : (unlockInit g i).2 ≠ 0)
    (hgp : i.gpioRequestArray = 0 → gp.Unheld unlockGpios) :
    Undone g i gp caller ↔
      g.ah.unlockingLogging = true ∧ g.ah.forceQuietBitRestore = true ∧
        g.ah.maxTimingCount = 10 ∧ g.unlockTimer.pending = false := by
  rw [unlockInit_snd] at hret
  obtain ⟨hlogging, hquiet, hcount, hirq, hregs, hpending⟩ := unlockInit_of_error (g := g) hret
  constructor
  · intro h
    exact ⟨h.unlockingLogging.symm.trans hlogging, h.forceQuietBitRestore.symm.trans hquiet,
      h.maxTimingCount.symm.trans hcount, h.pending.symm.trans hpending⟩
  · rintro ⟨hlogging', hquiet', hcount', hpending'⟩
    exact ⟨hlogging.trans hlogging'.symm, hquiet.trans hquiet'.symm, hcount.trans hcount'.symm,
      holder_unlockInitPins hret hgp, hirq, fun qnum ↦ congrFun hregs (.dlclIfs qnum),
      hpending.trans hpending'.symm⟩

/-- The pins of a board on which nobody holds any. -/
def freePins : Gpios ℕ := ⟨fun _ ↦ none, []⟩

/-- The driver's flags have the values of a loaded module, and the interrupt is refused. -/
theorem undone_iff_of_error_reload :
    Undone
      { defaultGlobals none with
        ah := { (defaultGlobals none).ah with unlockingLogging := true, maxTimingCount := 10 } }
      ⟨0, 0, 0, 30, -16⟩ freePins 0 :=
  (undone_iff_of_error (by decide) fun _ _ _ ↦ rfl).mpr ⟨rfl, rfl, rfl, rfl⟩

/-- The module as it is loaded first, with the driver's flags as `ath9k_init_softc` leaves them. -/
def firstLoad : Globals := { defaultGlobals none with ah := zeroedChip.initFlags }

/-- The pins are refused, and the driver goes on as if the module were loaded. -/
theorem not_undone_firstLoad :
    firstLoad.Fresh ∧ (unlockInit firstLoad ⟨0, 0, -16, 30, 0⟩).2 = -16 ∧
      firstLoad.ah.unlockingLogging = false ∧
      (unlockInit firstLoad ⟨0, 0, -16, 30, 0⟩).1.ah.unlockingLogging = true ∧
      firstLoad.ah.maxTimingCount = 0 ∧
      (unlockInit firstLoad ⟨0, 0, -16, 30, 0⟩).1.ah.maxTimingCount = 10 ∧
      ¬Undone firstLoad ⟨0, 0, -16, 30, 0⟩ freePins 0 :=
  ⟨⟨rfl, rfl, rfl, rfl, rfl, rfl, rfl⟩, by decide, rfl, rfl, rfl, rfl,
    fun h ↦ Bool.false_ne_true h.unlockingLogging.symm⟩

end Undoing

/-! ## A load and its unload -/

/-- What `unlock_exit` makes of the flags. -/
def clearedFlags : ModuleFlags := ⟨false, false, 0, false⟩

namespace AthHw

variable (ah : AthHw)

theorem moduleFlags_foldl_editTurn (qs : List ℕ) (p : AthHw × UInt32) :
    (qs.foldl editTurn p).1.moduleFlags = p.1.moduleFlags := by
  induction qs generalizing p with
  | nil => rfl
  | cons q qs ih => rw [List.foldl_cons, ih]; rfl

theorem moduleFlags_editContentionWindow (w : UInt32) :
    (ah.editContentionWindow w).moduleFlags = ah.moduleFlags :=
  moduleFlags_foldl_editTurn _ _

end AthHw

section Cycles

variable {K : Kernel}

/-- Once the interrupt is freed, no event of the node changes the flags. -/
theorem Took.moduleFlags {s t : Node} {e : Event} (h : Took K s e t) (hirq : s.irqHeld = false) :
    t.ah.moduleFlags = s.ah.moduleFlags := by
  have hno : ∀ i : IrqInput, ¬s.Arrives K i := fun i harr ↦ Bool.eq_false_iff.mp hirq harr.held
  cases h with
  | fireNull => rfl
  | fireSome i garbage due txbuf list => exact AthHw.moduleFlags_editContentionWindow _ _
  | pulseSpins i arrives => exact absurd arrives (hno i)
  | pulseNull i arrives => exact absurd arrives (hno i)
  | pulseRejects i arrives => exact absurd arrives (hno i)
  | pulseTraps i arrives => exact absurd arrives (hno i)
  | pulseAccepts i arrives => exact absurd arrives (hno i)
  | setT => rfl
  | setDelta => rfl
  | txbuf => rfl
  | tick => rfl

/-- How far `unlock_exit` has got: the interrupt is freed before the flags are cleared. -/
structure Exiting.Clearing (s : Exiting) : Prop where
  suffix : s.todo <:+ unlockExit
  irqHeld : s.todo.length ≤ 2 → s.node.irqHeld = false
  cleared : s.todo = [] → s.node.ah.moduleFlags = clearedFlags

theorem Exiting.Clearing.step {s t : Exiting} {e : ExitEvent} (h : s.Clearing)
    (hst : (teardown K).step s e = some t) : t.Clearing := by
  cases e with
  | next =>
    obtain ⟨x, todo, htodo, -, rfl⟩ := teardown_next_eq_some hst
    have hsuffix : x :: todo <:+ unlockExit := htodo ▸ h.suffix
    -- the statements that are left tell which one this is
    have hwhich : x :: todo ∈ unlockExit.tails := (List.mem_tails _ _).mpr hsuffix
    simp only [unlockExit, List.tails, List.mem_cons, List.cons.injEq, List.not_mem_nil, or_false,
      reduceCtorEq] at hwhich
    refine ⟨(List.suffix_cons x todo).trans hsuffix, ?_, ?_⟩
    · rcases hwhich with ⟨rfl, rfl⟩ | ⟨rfl, rfl⟩ | ⟨rfl, rfl⟩ | ⟨rfl, rfl⟩
      · exact fun (hle : 3 ≤ 2) ↦ absurd hle (by decide)
      · exact fun _ ↦ rfl
      · exact fun _ ↦ h.irqHeld (htodo ▸ (by decide))
      · exact fun _ ↦ h.irqHeld (htodo ▸ (by decide))
    · rcases hwhich with ⟨rfl, rfl⟩ | ⟨rfl, rfl⟩ | ⟨rfl, rfl⟩ | ⟨rfl, rfl⟩
      · exact nofun
      · exact nofun
      · exact nofun
      · exact fun _ ↦ rfl
  | node e =>
    obtain ⟨u, hu, rfl⟩ := teardown_node_eq_some hst
    refine ⟨h.suffix, fun hle ↦ hu.irqHeld.trans (h.irqHeld hle), fun hnil ↦ ?_⟩
    have hirq : s.node.irqHeld = false := h.irqHeld (by rw [hnil]; decide)
    exact (hu.moduleFlags hirq).trans (h.cleared hnil)

/-- The module is loaded, runs, and is unloaded; the flags are `f` before and `f'` afterwards. The
events before the first statement of `unlock_exit` are the run of the module. What the driver does
with the rest of the chip between two cycles is left open. -/
def Cycled (K : Kernel) (f f' : ModuleFlags) : Prop :=
  ∃ g i es t, Globals.Fresh g ∧ g.ah.moduleFlags = f ∧ i.stamp ≤ i.started ∧
    (unlockInit g i).2 = 0 ∧ (teardown K).run ⟨Node.boot g i, unlockExit⟩ es = some t ∧
    t.todo = [] ∧ t.node.ah.moduleFlags = f'

variable {f f' : ModuleFlags}

/-- One cycle clears the flags, whatever they were and whatever happens in it. -/
theorem Cycled.eq_clearedFlags (h : Cycled K f f') : f' = clearedFlags := by
  obtain ⟨g, i, es, t, -, -, -, -, hrun, hret, rfl⟩ := h
  have hstart : (⟨Node.boot g i, unlockExit⟩ : Exiting).Clearing :=
    ⟨List.suffix_refl _, fun (hle : 4 ≤ 2) ↦ absurd hle (by decide), nofun⟩
  have hend : t.Clearing := Machine.invariant (fun _ _ _ hu huv ↦ hu.step huv) hstart hrun
  exact hend.cleared hret

/-- **Loading and unloading, any number of times, preserves the flags exactly** if they were cleared
before. -/
theorem flags_eq_iff_of_cycles (h : Relation.TransGen (Cycled K) f f') :
    f' = f ↔ f = clearedFlags := by
  obtain ⟨f₁, -, hlast⟩ := Relation.TransGen.tail'_iff.mp h
  rw [hlast.eq_clearedFlags]
  exact eq_comm

/-- A module that is unloaded again at once, without any event. -/
theorem exists_cycled (g : Globals) (hg : g.Fresh) : ∃ f', Cycled .linux g.ah.moduleFlags f' :=
  ⟨_, g, ⟨0, 0, 0, 30, 0⟩, [.next, .next, .next, .next], _, hg, rfl, le_rfl, rfl, rfl, rfl, rfl⟩

/-- Two cycles from cleared flags. -/
theorem flags_eq_iff_of_cycles_cleared :
    ∃ f', Relation.TransGen (Cycled .linux) clearedFlags f' ∧ f' = clearedFlags := by
  have hfresh : ({ firstLoad with ah := zeroedChip } : Globals).Fresh :=
    ⟨rfl, rfl, rfl, rfl, rfl, rfl, rfl⟩
  obtain ⟨f', hcycle⟩ := exists_cycled _ hfresh
  obtain rfl := hcycle.eq_clearedFlags
  have htwice : Relation.TransGen (Cycled .linux) clearedFlags clearedFlags :=
    .head hcycle (.single hcycle)
  exact ⟨clearedFlags, htwice, (flags_eq_iff_of_cycles htwice).mpr rfl⟩

/-- From the flags that `ath9k_init_softc` establishes, one cycle keeps three and loses the
fourth. -/
theorem cycled_initFlags :
    zeroedChip.initFlags.moduleFlags = ⟨false, true, 0, false⟩ ∧
      Cycled .linux zeroedChip.initFlags.moduleFlags ⟨false, false, 0, false⟩ ∧
      ¬∀ f f', Cycled .linux f f' → f' = f := by
  obtain ⟨f', hcycle⟩ := exists_cycled firstLoad ⟨rfl, rfl, rfl, rfl, rfl, rfl, rfl⟩
  obtain rfl := hcycle.eq_clearedFlags
  exact ⟨rfl, hcycle, fun hall ↦ absurd (hall _ _ hcycle) (by decide)⟩

end Cycles

end UcsmaRateControl
