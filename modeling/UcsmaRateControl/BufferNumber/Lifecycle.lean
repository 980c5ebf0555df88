import UcsmaRateControl.Kernel.Usage
import UcsmaRateControl.Machine.Run

/-!
# Loading and unloading the character device

`ebbchar_init` gets a major number, a device class and a device, one after the other, and when one
of them fails gives back those before it. `ebbchar_exit` gives back all three, and the class twice:
both `class_unregister` and `class_destroy` unregister it.

The resources are told apart by the numbers and pointers that the module keeps in its variables, so
that a release of the wrong one would show.
-/

namespace UcsmaRateControl.BufferNumber

/-! ## The module -/

/-- `IS_ERR`, for pointers of 32 bits. -/
def isErr (p : UInt32) : Bool := p ≥ 0xfffff001

/-- `PTR_ERR`. -/
def ptrErr (p : UInt32) : Int32 := p.toInt32

/-- What the module acquires. -/
inductive Resource
  | major (n : Int32)
  | cls (p : UInt32)
  /-- The device of a class, with the number `MKDEV(n, 0)`. -/
  | device (cls : UInt32) (n : Int32)
deriving DecidableEq

/-- What the fallible calls of `ebbchar_init` return. -/
structure InitCodes where
  registerChrdev : Int32
  classCreate : UInt32
  deviceCreate : UInt32

/-- The variables of the module, whether it is loaded, and what has been acquired and released. -/
structure Ebbchar where
  majorNumber : Int32
  ebbcharClass : UInt32
  ebbcharDevice : UInt32
  loaded : Bool
  usage : Usage Resource

namespace Ebbchar

variable (s : Ebbchar) (c : InitCodes)

/-- `register_chrdev`. -/
def registerChrdev : Ebbchar :=
  { s with
    majorNumber := c.registerChrdev
    usage := s.usage.acquireIf (.major c.registerChrdev) (¬c.registerChrdev < 0) }

/-- `class_create`. -/
def classCreate : Ebbchar :=
  { s with
    ebbcharClass := c.classCreate
    usage := s.usage.acquireIf (.cls c.classCreate) (!isErr c.classCreate) }

/-- `device_create`. -/
def deviceCreate : Ebbchar :=
  { s with
    ebbcharDevice := c.deviceCreate
    usage := s.usage.acquireIf (.device s.ebbcharClass s.majorNumber) (!isErr c.deviceCreate) }

/-- `device_destroy`. -/
def deviceDestroy : Ebbchar :=
  { s with usage := s.usage.release (.device s.ebbcharClass s.majorNumber) }

/-- `class_unregister`. -/
def classUnregister : Ebbchar := { s with usage := s.usage.release (.cls s.ebbcharClass) }

/-- `class_destroy` unregisters the class. -/
def classDestroy : Ebbchar := s.classUnregister

/-- `unregister_chrdev`. -/
def unregisterChrdev : Ebbchar := { s with usage := s.usage.release (.major s.majorNumber) }

/-- `ebbchar_init`. -/
def ebbcharInit : Ebbchar × Int32 :=
  let s := s.registerChrdev c
  if s.majorNumber < 0 then (s, s.majorNumber)
  else
    let s := s.classCreate c
    if isErr s.ebbcharClass then (s.unregisterChrdev, ptrErr s.ebbcharClass)
    else
      let s := s.deviceCreate c
      if isErr s.ebbcharDevice then (s.classDestroy.unregisterChrdev, ptrErr s.ebbcharDevice)
      else (s, 0)

/-- `ebbchar_exit`. -/
def ebbcharExit : Ebbchar := s.deviceDestroy.classUnregister.classDestroy.unregisterChrdev

/-- What the variables name. -/
def resources : List Resource :=
  [.major s.majorNumber, .cls s.ebbcharClass, .device s.ebbcharClass s.majorNumber]

/-- What the module has while it is loaded. -/
def held : List Resource := if s.loaded then s.resources else []

end Ebbchar

/-- What happens to the module. -/
inductive ModuleEvent
  /-- An attempt to load it. -/
  | load (c : InitCodes)
  | unload

/-- The machine of the module. It stays loaded if `ebbchar_init` returns zero. -/
def ebbchar : Machine Ebbchar ModuleEvent where
  step s
    | .load c =>
      if s.loaded then none
      else some { (s.ebbcharInit c).1 with loaded := (s.ebbcharInit c).2 = 0 }
    | .unload => if s.loaded then some { s.ebbcharExit with loaded := false } else none

/-- Before the module is first loaded. -/
def neverLoaded : Ebbchar := ⟨0, 0, 0, false, .unused⟩

/-- Every resource has been released as often as it was acquired, but for those that the module has
while it is loaded: these have been acquired once more. -/
def Ebbchar.Exact (s : Ebbchar) : Prop := ∀ r, s.usage.balance r = s.held.count r

/-! ## One step -/

section Steps

variable {s t : Ebbchar} {c : InitCodes}

/-- How far a resource is from that. -/
def Ebbchar.excess (s : Ebbchar) (r : Resource) : ℤ := s.held.count r - s.usage.balance r

theorem Ebbchar.exact_iff : s.Exact ↔ ∀ r, s.excess r = 0 := by
  refine forall_congr' fun r ↦ ?_
  rw [excess]
  omega

theorem ptrErr_ne_zero {p : UInt32} (h : isErr p = true) : ptrErr p ≠ 0 := by
  intro hzero
  obtain rfl : p = 0 := congrArg Int32.toUInt32 hzero
  exact absurd h (by decide)

theorem Ebbchar.count_resources (s : Ebbchar) (r : Resource) :
    (s.resources.count r : ℤ) = (if r = .major s.majorNumber then 1 else 0) +
      (if r = .cls s.ebbcharClass then 1 else 0) +
        if r = .device s.ebbcharClass s.majorNumber then 1 else 0 := by
  simp only [resources, List.count_cons, List.count_nil, beq_iff_eq, @eq_comm _ _ r]
  split_ifs <;> simp

/-- `ebbchar_init` acquires all three resources and returns zero, or it releases what it has
acquired and returns something else. -/
theorem balance_ebbcharInit (s : Ebbchar) (c : InitCodes) (r : Resource) :
    (s.ebbcharInit c).1.usage.balance r = s.usage.balance r +
      if (s.ebbcharInit c).2 = 0 then (s.ebbcharInit c).1.resources.count r else 0 := by
  by_cases hmajor : c.registerChrdev < 0
  · have hne : c.registerChrdev ≠ 0 := by
      intro heq
      rw [heq] at hmajor
      exact absurd hmajor (by decide)
    simp [Ebbchar.ebbcharInit, Ebbchar.registerChrdev, Usage.acquireIf, hmajor, hne]
  by_cases hclass : isErr c.classCreate = true
  · simp [Ebbchar.ebbcharInit, Ebbchar.registerChrdev, Ebbchar.classCreate,
      Ebbchar.unregisterChrdev, Usage.acquireIf, hmajor, hclass, ptrErr_ne_zero hclass]
  by_cases hdevice : isErr c.deviceCreate = true
  · simp [Ebbchar.ebbcharInit, Ebbchar.registerChrdev, Ebbchar.classCreate, Ebbchar.deviceCreate,
      Ebbchar.classDestroy, Ebbchar.classUnregister, Ebbchar.unregisterChrdev, Usage.acquireIf,
      hmajor, hclass, hdevice, ptrErr_ne_zero hdevice]
  · simp [Ebbchar.ebbcharInit, Ebbchar.registerChrdev, Ebbchar.classCreate, Ebbchar.deviceCreate,
      Ebbchar.count_resources, Usage.acquireIf, hmajor, hclass, hdevice]
    omega

/-- `ebbchar_exit` releases what the module has, and its class once more. -/
theorem balance_ebbcharExit (s : Ebbchar) (r : Resource) :
    s.ebbcharExit.usage.balance r =
      s.usage.balance r - s.resources.count r - if r = .cls s.ebbcharClass then 1 else 0 := by
  simp only [Ebbchar.ebbcharExit, Ebbchar.deviceDestroy, Ebbchar.classDestroy,
    Ebbchar.classUnregister, Ebbchar.unregisterChrdev, Usage.balance_release,
    Ebbchar.count_resources]
  omega

theorem Ebbchar.excess_load (h : ebbchar.step s (.load c) = some t) (r : Resource) :
    t.excess r = s.excess r := by
  obtain ⟨hloaded, ⟨⟩⟩ := Option.ite_none_left_eq_some.mp h
  have hbalance := balance_ebbcharInit s c r
  have hs : s.held = [] := if_neg hloaded
  rw [excess, excess, hs, List.count_nil]
  change (((if decide ((s.ebbcharInit c).2 = 0) = true then (s.ebbcharInit c).1.resources
    else []).count r : ℕ) : ℤ) - (s.ebbcharInit c).1.usage.balance r = _
  rw [hbalance]
  by_cases hret : (s.ebbcharInit c).2 = 0
  · rw [if_pos (decide_eq_true hret), if_pos hret]
    omega
  · rw [if_neg (by simpa using hret), if_neg hret, List.count_nil]
    omega

/-- Every time the module is unloaded, its class is released once too often. -/
theorem Ebbchar.excess_unload (h : ebbchar.step s .unload = some t) (r : Resource) :
    t.excess r = s.excess r + if r = .cls s.ebbcharClass then 1 else 0 := by
  obtain ⟨hloaded, ⟨⟩⟩ := Option.ite_none_right_eq_some.mp h
  have hbalance := balance_ebbcharExit s r
  have hs : s.held = s.resources := if_pos hloaded
  rw [excess, excess, hs]
  change (([].count r : ℕ) : ℤ) - s.ebbcharExit.usage.balance r = _
  rw [hbalance, List.count_nil]
  omega

end Steps

/-! ## Every sequence of loads and unloads -/

section Runs

variable {s : Ebbchar} {es : List ModuleEvent}

/-- What is released too often is never acquired again. -/
theorem excess_of_run (h : ebbchar.run neverLoaded es = some s) :
    (∀ r, 0 ≤ s.excess r) ∧ ((∀ r, s.excess r = 0) ↔ .unload ∉ es) := by
  refine Machine.run_induction
    (P := fun es s ↦ (∀ r, 0 ≤ s.excess r) ∧ ((∀ r, s.excess r = 0) ↔ .unload ∉ es)) ?_ ?_ h
  · exact ⟨fun _ ↦ Int.le_refl _, iff_of_true (fun _ ↦ rfl) List.not_mem_nil⟩
  · rintro es u e v - ⟨hle, hiff⟩ huv
    cases e with
    | load c =>
      have hkeep := Ebbchar.excess_load huv
      simp only [hkeep]
      exact ⟨hle, by simpa using hiff⟩
    | unload =>
      have hstep := Ebbchar.excess_unload huv
      refine ⟨fun r ↦ ?_, iff_of_false (fun hzero ↦ ?_) ?_⟩
      · rw [hstep]
        have hr := hle r
        split_ifs <;> omega
      · have hcls := hstep (.cls u.ebbcharClass)
        have hr := hle (.cls u.ebbcharClass)
        rw [hzero, if_pos rfl] at hcls
        omega
      · exact fun hnot ↦ hnot (List.mem_append_right _ (List.mem_singleton_self _))

/-- **Loading and unloading, exactly.** After any sequence of attempts to load the module and of
unloads, every resource has been released exactly as often as it should have been if and only if the
module has never been unloaded. -/
theorem exact_iff_of_run (h : ebbchar.run neverLoaded es = some s) : s.Exact ↔ .unload ∉ es :=
  Ebbchar.exact_iff.trans (excess_of_run h).2

end Runs

/-- The codes of a load that succeeds. -/
def plainCodes : InitCodes := ⟨240, 0x80010000, 0x80020000⟩

/-- The device cannot be created, and then it can. -/
theorem exact_iff_of_run_retry :
    ∃ s, ebbchar.run neverLoaded [.load { plainCodes with deviceCreate := 0xfffffff4 },
        .load plainCodes] = some s ∧ s.Exact := by
  have hrun : ebbchar.run neverLoaded [.load { plainCodes with deviceCreate := 0xfffffff4 },
    .load plainCodes] = some _ := rfl
  exact ⟨_, hrun, (exact_iff_of_run hrun).mpr (by simp)⟩

/-- The module is loaded and unloaded: the class has been acquired once and released twice. -/
theorem exists_twice_released :
    ∃ s, ebbchar.run neverLoaded [.load plainCodes, .unload] = some s ∧
      s.usage.acquired (.cls 0x80010000) = 1 ∧ s.usage.released (.cls 0x80010000) = 2 ∧
      ¬s.Exact := by
  refine ⟨_, rfl, rfl, rfl, fun h ↦ ?_⟩
  exact absurd (h (.cls 0x80010000)) (by decide)

end UcsmaRateControl.BufferNumber
