import UcsmaRateControl.Machine.Run

/-!
# Records that are cleared

A record is filled in by one measurement after another, and cleared from time to time. What it holds
is what has been measured since it was cleared last (`tally_of_run`).
-/

namespace Tally

variable {β δ : Type*}

/-- Enter a measurement, or clear the record. -/
def enter (zero : δ) (measure : β → δ → δ) (d : δ) (o : Option β) : δ :=
  o.elim zero fun m ↦ measure m d

/-- The measurements after the last clearing. -/
def lastStretch : List (Option β) → List β
  | [] => []
  | none :: os => lastStretch os
  | some m :: os => if os.all Option.isSome then m :: lastStretch os else lastStretch os

/-- **What a record holds.** Only without any clearing does it matter what was there before. -/
theorem foldl_enter (zero : δ) (measure : β → δ → δ) (os : List (Option β)) (d : δ) :
    os.foldl (enter zero measure) d =
      (lastStretch os).foldl (fun d m ↦ measure m d)
        (if os.all Option.isSome then d else zero) := by
  induction os generalizing d with
  | nil => rfl
  | cons o os ih =>
    rw [List.foldl_cons, ih]
    cases o with
    | none =>
      rw [List.all_cons, Option.isSome_none, Bool.false_and, if_neg Bool.false_ne_true]
      exact congrArg ((lastStretch os).foldl _) (ite_self zero)
    | some m =>
      rw [List.all_cons, Option.isSome_some, Bool.true_and]
      by_cases hall : os.all Option.isSome
      · rw [if_pos hall, if_pos hall, lastStretch, if_pos hall]
        rfl
      · rw [if_neg hall, if_neg hall, lastStretch, if_neg hall]

/-- The record of a machine. Each step makes the entries that `f` says, and the record is empty at
the start. -/
theorem tally_of_run {σ ε : Type*} {M : Machine σ ε} (rec : σ → δ) {zero : δ}
    {measure : β → δ → δ} {f : σ → ε → List (Option β)} {s t : σ} {es : List ε}
    (hs : rec s = zero)
    (hstep : ∀ pre u e v, M.run s pre = some u → M.step u e = some v →
      rec v = (f u e).foldl (enter zero measure) (rec u))
    (h : M.run s es = some t) :
    rec t = (lastStretch (M.trace f s es)).foldl (fun d m ↦ measure m d) zero := by
  have hfold : rec t = (M.trace f s es).foldl (enter zero measure) (rec s) := by
    refine M.run_induction
      (P := fun es t ↦ rec t = (M.trace f s es).foldl (enter zero measure) (rec s)) rfl ?_ h
    intro es u e v hu ih huv
    rw [hstep es u e v hu huv, ih, M.trace_concat f e hu, List.foldl_append]
  rw [hfold, foldl_enter, hs, ite_self]

end Tally
