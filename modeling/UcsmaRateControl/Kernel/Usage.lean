import Mathlib.Data.Int.Notation
import Mathlib.Data.Nat.Notation
import Mathlib.Logic.Function.Basic
import Mathlib.Tactic.SplitIfs

/-!
# Counting acquisitions and releases

A function that acquires resources step by step has to release, on each of its exits, what it has
acquired so far. Here every acquisition and every release is counted, resource by resource, so that
a leak, a release of something that is not held, and a release done twice all show in the counts.

The resources are of any type.
-/

/-- How often each resource has been acquired and released. -/
structure Usage (ρ : Type*) where
  acquired : ρ → ℕ
  released : ρ → ℕ

namespace Usage

variable {ρ : Type*}

/-- Nothing has been acquired. -/
def unused : Usage ρ := ⟨fun _ ↦ 0, fun _ ↦ 0⟩

section

variable (u : Usage ρ) (r : ρ)

/-- The resource is held. -/
def Holds : Prop := u.released r < u.acquired r

/-- The resource has been acquired once and released once. -/
def ReleasedOnce : Prop := u.acquired r = 1 ∧ u.released r = 1

/-- The resource has been acquired and released once, or neither. -/
def Settled : Prop := u.released r = u.acquired r ∧ u.acquired r ≤ 1

instance : Decidable (u.Holds r) := inferInstanceAs (Decidable (_ < _))

instance : Decidable (u.ReleasedOnce r) := inferInstanceAs (Decidable (_ ∧ _))

instance : Decidable (u.Settled r) := inferInstanceAs (Decidable (_ ∧ _))

variable {u r} in
theorem Settled.not_holds (h : u.Settled r) : ¬u.Holds r := fun hlt ↦ Nat.ne_of_lt hlt h.1

variable [DecidableEq ρ]

/-- Acquire a resource. -/
def acquire : Usage ρ := { u with acquired := Function.update u.acquired r (u.acquired r + 1) }

/-- Release a resource. -/
def release : Usage ρ := { u with released := Function.update u.released r (u.released r + 1) }

/-- Acquire a resource, if there is anything to acquire. -/
def acquireIf (b : Bool) : Usage ρ := if b then u.acquire r else u

/-- Release a resource, if there is anything to release. -/
def releaseIf (b : Bool) : Usage ρ := if b then u.release r else u

end

/-! ## What is outstanding -/

section Balance

variable (u : Usage ρ) (r r' : ρ)

/-- How many acquisitions have not been released. It is negative if there were too many releases. -/
def balance : ℤ := u.acquired r - u.released r

@[simp] theorem balance_unused : (unused : Usage ρ).balance r = 0 := rfl

variable {u r} in
theorem Settled.balance (h : u.Settled r) : u.balance r = 0 := by
  rw [Usage.balance, h.1, Int.sub_self]

variable [DecidableEq ρ]

@[simp] theorem balance_acquire :
    (u.acquire r').balance r = u.balance r + if r = r' then 1 else 0 := by
  simp only [balance, acquire, Function.update_apply]
  split_ifs with h
  · subst h
    omega
  · omega

@[simp] theorem balance_release :
    (u.release r').balance r = u.balance r - if r = r' then 1 else 0 := by
  simp only [balance, release, Function.update_apply]
  split_ifs with h
  · subst h
    omega
  · omega

@[simp] theorem balance_acquireIf (b : Bool) :
    (u.acquireIf r' b).balance r = u.balance r + if r = r' then (b.toNat : ℤ) else 0 := by
  cases b <;> simp [acquireIf]

@[simp] theorem balance_releaseIf (b : Bool) :
    (u.releaseIf r' b).balance r = u.balance r - if r = r' then (b.toNat : ℤ) else 0 := by
  cases b <;> simp [releaseIf]

end Balance

variable [DecidableEq ρ] (u : Usage ρ) (rs : List ρ)

/-- Acquire all of a list. -/
def acquireAll : Usage ρ := rs.foldl (fun u r ↦ u.acquire r) u

/-- Release all of a list. -/
def releaseAll : Usage ρ := rs.foldl (fun u r ↦ u.release r) u

end Usage
