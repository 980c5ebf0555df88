import Mathlib.Data.List.Nodup
import Mathlib.Logic.Function.Basic

/-!
# General-purpose pins

Requesting an array of pins is all or nothing: on success the caller holds every one of them, and on
failure nothing has changed. Freeing an array frees whatever pins it is given, without asking who
holds them. The pins keep a record of each time one of them is freed; no code reads it.

The callers are of any type.
-/

/-- A pin was freed. -/
structure GpioFree (ω : Type*) where
  gpio : ℕ
  /-- Who freed it. -/
  caller : ω
  /-- Who held it. -/
  holder : Option ω
deriving DecidableEq

/-- The pins. -/
structure Gpios (ω : Type*) where
  /-- Who holds a pin. -/
  holder : ℕ → Option ω
  /-- The times a pin was freed, newest first. -/
  frees : List (GpioFree ω)

namespace Gpios

variable {ω : Type*} (g : Gpios ω) (caller : ω) (gpio : ℕ) (gpios : List ℕ)

/-- `gpio_request`, where it succeeds. -/
def request : Gpios ω := { g with holder := Function.update g.holder gpio (some caller) }

/-- `gpio_request_array`, with the code that it returns. -/
def requestArray (ret : Int32) : Gpios ω × Int32 :=
  if ret = 0 then (gpios.foldl (fun g gpio ↦ g.request caller gpio) g, 0) else (g, ret)

/-- `gpio_free`. -/
def free : Gpios ω where
  holder := Function.update g.holder gpio none
  frees := ⟨gpio, caller, g.holder gpio⟩ :: g.frees

/-- `gpio_free_array`. -/
def freeArray : Gpios ω := gpios.foldl (fun g gpio ↦ g.free caller gpio) g

/-- None of the pins is held, which is what a request needs to succeed. -/
def Unheld : Prop := ∀ gpio ∈ gpios, g.holder gpio = none

/-- The caller holds all of the pins. -/
def Holds : Prop := ∀ gpio ∈ gpios, g.holder gpio = some caller

/-- Pins have been freed only by those who held them. -/
def FreedByHolders : Prop := ∀ f ∈ g.frees, f.holder = some f.caller

/-- An operation that sets the holder of one pin, done to all pins of a list. -/
theorem holder_foldl {op : Gpios ω → ℕ → Gpios ω} {v : Option ω}
    (hop : ∀ g a, (op g a).holder = Function.update g.holder a v) :
    (gpios.foldl op g).holder gpio = if gpio ∈ gpios then v else g.holder gpio := by
  induction gpios generalizing g with
  | nil => rfl
  | cons a l ih =>
    rw [List.foldl_cons, ih, hop]
    by_cases hl : gpio ∈ l
    · rw [if_pos hl, if_pos (List.mem_cons_of_mem a hl)]
    · rw [if_neg hl]
      by_cases ha : gpio = a
      · rw [ha, if_pos List.mem_cons_self, Function.update_self]
      · rw [if_neg (List.not_mem_cons_of_ne_of_not_mem ha hl), Function.update_of_ne ha]

/-! ## Requesting -/

theorem requestArray_of_ne {ret : Int32} (h : ret ≠ 0) :
    g.requestArray caller gpios ret = (g, ret) := if_neg h

theorem frees_foldl_request :
    (gpios.foldl (fun g gpio ↦ g.request caller gpio) g).frees = g.frees := by
  induction gpios generalizing g with
  | nil => rfl
  | cons a l ih =>
    rw [List.foldl_cons, ih]
    rfl

@[simp] theorem holder_requestArray_zero :
    (g.requestArray caller gpios 0).1.holder gpio =
      if gpio ∈ gpios then some caller else g.holder gpio :=
  g.holder_foldl gpio gpios fun _ _ ↦ rfl

@[simp] theorem frees_requestArray (ret : Int32) :
    (g.requestArray caller gpios ret).1.frees = g.frees := by
  rw [requestArray]
  split
  · exact g.frees_foldl_request caller gpios
  · rfl

theorem freedByHolders_requestArray_iff (ret : Int32) :
    (g.requestArray caller gpios ret).1.FreedByHolders ↔ g.FreedByHolders := by
  rw [FreedByHolders, frees_requestArray, FreedByHolders]

theorem holds_requestArray_zero : (g.requestArray caller gpios 0).1.Holds caller gpios := by
  intro gpio hmem
  rw [holder_requestArray_zero, if_pos hmem]

/-! ## Freeing -/

@[simp] theorem holder_freeArray :
    (g.freeArray caller gpios).holder gpio = if gpio ∈ gpios then none else g.holder gpio :=
  g.holder_foldl gpio gpios fun _ _ ↦ rfl

variable {g caller gpios}

theorem freedByHolders_free_iff :
    (g.free caller gpio).FreedByHolders ↔ g.holder gpio = some caller ∧ g.FreedByHolders :=
  List.forall_mem_cons

/-- **Freeing an array** is in order if and only if the caller holds all of it. -/
theorem freedByHolders_freeArray_iff (hnodup : gpios.Nodup) :
    (g.freeArray caller gpios).FreedByHolders ↔ g.Holds caller gpios ∧ g.FreedByHolders := by
  rw [freeArray]
  induction gpios generalizing g with
  | nil => exact (and_iff_right nofun).symm
  | cons a l ih =>
    obtain ⟨ha, hl⟩ := List.nodup_cons.mp hnodup
    -- freeing the first pin says nothing about who holds the others
    have hrest : (g.free caller a).Holds caller l ↔ g.Holds caller l := by
      refine forall₂_congr fun gpio hmem ↦ ?_
      have hne : gpio ≠ a := fun heq ↦ ha (heq ▸ hmem)
      have hkeep : (g.free caller a).holder gpio = g.holder gpio := Function.update_of_ne hne _ _
      rw [hkeep]
    rw [List.foldl_cons, ih hl, hrest, freedByHolders_free_iff, Holds, Holds,
      List.forall_mem_cons, and_left_comm, and_assoc]

/-- What has just been granted may be freed. -/
theorem freedByHolders_request_free_iff (hnodup : gpios.Nodup) :
    ((g.requestArray caller gpios 0).1.freeArray caller gpios).FreedByHolders ↔
      g.FreedByHolders := by
  rw [freedByHolders_freeArray_iff hnodup, freedByHolders_requestArray_iff,
    and_iff_right (g.holds_requestArray_zero caller gpios)]

/-- What has been freed stays on record. -/
theorem FreedByHolders.of_freeArray (h : (g.freeArray caller gpios).FreedByHolders)
    (hnodup : gpios.Nodup) : g.FreedByHolders :=
  ((freedByHolders_freeArray_iff hnodup).mp h).2

end Gpios
