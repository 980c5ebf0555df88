import Mathlib.Order.Fin.Basic
import UcsmaRateControl.Kernel.Usage

/-!
# Loading and unloading `gpio_timeline.c`

The module requests three pins, looks up their interrupts, and installs a handler on each. Its error
ladder takes every code of `request_any_context_irq` other than zero for a failure. One of these
codes reports success, for an interrupt that is handled in a nested thread: the ladder then releases
what it acquired before and keeps the interrupt it has just got.
-/

namespace UcsmaRateControl.GpioTimeline

/-- What the module acquires. -/
inductive Resource
  /-- A pin of the table `txinfo_gpios`. -/
  | gpio (k : Fin 3)
  /-- The interrupt in `txinfo_irqs`, with the pin as its `dev_id`. -/
  | irq (k : Fin 3)
deriving DecidableEq

theorem Resource.forall_iff {P : Resource → Prop} :
    (∀ r, P r) ↔ (∀ k, P (.gpio k)) ∧ ∀ k, P (.irq k) := by
  refine ⟨fun h ↦ ⟨fun k ↦ h _, fun k ↦ h _⟩, fun h r ↦ ?_⟩
  cases r with
  | gpio k => exact h.1 k
  | irq k => exact h.2 k

instance {P : Resource → Prop} [DecidablePred P] : Decidable (∀ r, P r) :=
  decidable_of_iff _ Resource.forall_iff.symm

/-- The pins of `txinfo_gpios`. -/
def txinfoGpios : List Resource := [.gpio 0, .gpio 1, .gpio 2]

/-- What the fallible calls of `txinfo_init` return. -/
structure InitCodes where
  gpioRequestArray : Int32
  gpioToIrq : Fin 3 → Int32
  requestAnyContextIrq : Fin 3 → Int32

/-- The codes that the calls can return: `gpio_request_array` has no positive one, and
`request_any_context_irq` has `IRQC_IS_HARDIRQ` and `IRQC_IS_NESTED` for success. -/
structure InitCodes.Possible (c : InitCodes) : Prop where
  gpioRequestArray_le : c.gpioRequestArray ≤ 0
  requestAnyContextIrq : ∀ k, c.requestAnyContextIrq k < 0 ∨ c.requestAnyContextIrq k = 0 ∨
    c.requestAnyContextIrq k = 1

/-- An entry of `txinfo_irqs`. The number passes through a `short`. -/
def InitCodes.txinfoIrqs (c : InitCodes) (k : Fin 3) : Int32 := (c.gpioToIrq k).toInt16.toInt32

section

variable (u : Usage Resource) (c : InitCodes)

/-- `request_any_context_irq` acquires the interrupt unless its code is negative. -/
def requestAnyContextIrq (k : Fin 3) : Usage Resource :=
  if c.requestAnyContextIrq k < 0 then u else u.acquire (.irq k)

/-- From the label `fail_req_irq1` on. -/
def failReqIrq1 : Usage Resource := u.releaseAll txinfoGpios

/-- From the label `fail_req_irq2` on. -/
def failReqIrq2 : Usage Resource := failReqIrq1 (u.release (.irq 0))

/-- From the label `fail_req_irq3` on. -/
def failReqIrq3 : Usage Resource := failReqIrq2 (u.release (.irq 1))

/-- `txinfo_init`. -/
def txinfoInit : Usage Resource × Int32 :=
  if c.gpioRequestArray ≠ 0 then (u, c.gpioRequestArray)
  else
    let u := u.acquireAll txinfoGpios
    if c.txinfoIrqs 0 < 0 then (failReqIrq1 u, c.txinfoIrqs 0)
    else if c.txinfoIrqs 1 < 0 then (failReqIrq1 u, c.txinfoIrqs 1)
    else if c.txinfoIrqs 2 < 0 then (failReqIrq1 u, c.txinfoIrqs 2)
    else
      let u := requestAnyContextIrq u c 0
      if c.requestAnyContextIrq 0 ≠ 0 then (failReqIrq1 u, c.requestAnyContextIrq 0)
      else
        let u := requestAnyContextIrq u c 1
        if c.requestAnyContextIrq 1 ≠ 0 then (failReqIrq2 u, c.requestAnyContextIrq 1)
        else
          let u := requestAnyContextIrq u c 2
          if c.requestAnyContextIrq 2 ≠ 0 then (failReqIrq3 u, c.requestAnyContextIrq 2)
          else (u, 0)

/-- `txinfo_exit`. -/
def txinfoExit : Usage Resource :=
  let u := ((u.release (.irq 0)).release (.irq 1)).release (.irq 2)
  u.releaseAll txinfoGpios

end

/-- All or nothing: the module has everything and says so, or it has nothing and returns a negative
code; and having everything, it releases it once when it is unloaded. -/
structure AllOrNothing (p : Usage Resource × Int32) : Prop where
  ret_eq_zero_iff : p.2 = 0 ↔ ∀ r, p.1.Holds r
  of_ret_ne_zero : p.2 ≠ 0 → p.2 < 0 ∧ ∀ r, ¬p.1.Holds r
  exit : p.2 = 0 → ∀ r, (txinfoExit p.1).ReleasedOnce r

/-- The first interrupt code other than zero that the ladder gets to is a success. -/
def InitCodes.Misread (c : InitCodes) : Prop :=
  c.gpioRequestArray = 0 ∧ (∀ k, ¬c.txinfoIrqs k < 0) ∧
    ∃ k, c.requestAnyContextIrq k = 1 ∧ ∀ j < k, c.requestAnyContextIrq j = 0

/-- A statement about the three pins, one by one. -/
theorem forall_fin_three {P : Fin 3 → Prop} (h0 : P 0) (h1 : P 1) (h2 : P 2) (k : Fin 3) : P k :=
  Fin.cases h0 (fun k ↦ Fin.cases h1 (fun k ↦ Fin.cases h2 (fun k ↦ k.elim0) k) k) k

section Exits

variable {u : Usage Resource} {ret : Int32}

theorem AllOrNothing.of_nothing (hret : ret < 0) (hu : ∀ r, ¬u.Holds r) :
    AllOrNothing (u, ret) := by
  have hne : ret ≠ 0 := by
    rintro rfl
    exact absurd hret (by decide)
  exact ⟨iff_of_false hne fun hall ↦ hu (.gpio 0) (hall _), fun _ ↦ ⟨hret, hu⟩,
    fun hzero ↦ absurd hzero hne⟩

theorem not_allOrNothing_of_one (h : ret = 1) : ¬AllOrNothing (u, ret) := by
  subst h
  exact fun hall ↦ absurd (hall.of_ret_ne_zero (by decide : (1 : Int32) ≠ 0)).1
    (by decide : ¬(1 : Int32) < 0)

end Exits

section Requests

variable {c : InitCodes} {k : Fin 3} (u : Usage Resource)

theorem requestAnyContextIrq_of_zero (h : c.requestAnyContextIrq k = 0) :
    requestAnyContextIrq u c k = u.acquire (.irq k) := by
  rw [requestAnyContextIrq, h]
  rfl

theorem requestAnyContextIrq_of_lt (h : c.requestAnyContextIrq k < 0) :
    requestAnyContextIrq u c k = u := if_pos h

/-- The first request whose code is not zero decides: it fails and its label releases everything, or
it is misread. -/
theorem allOrNothing_iff_of_request (hc : c.Possible) (hgpio : c.gpioRequestArray = 0)
    (hirqs : ∀ k, ¬c.txinfoIrqs k < 0) (hbefore : ∀ j < k, c.requestAnyContextIrq j = 0)
    (hne : c.requestAnyContextIrq k ≠ 0) {fail : Usage Resource → Usage Resource}
    (hfail : ∀ r, ¬(fail u).Holds r) :
    AllOrNothing (fail (requestAnyContextIrq u c k), c.requestAnyContextIrq k) ↔ ¬c.Misread := by
  rcases (hc.requestAnyContextIrq k).imp_right fun hsuccess ↦ hsuccess.resolve_left hne with
    hlt | hone
  · rw [requestAnyContextIrq_of_lt u hlt]
    refine iff_of_true (.of_nothing hlt hfail) ?_
    rintro ⟨-, -, k', hone, hzero⟩
    rcases lt_trichotomy k' k with hk | rfl | hk
    · exact absurd ((hbefore k' hk).symm.trans hone) (by decide)
    · rw [hone] at hlt
      exact absurd hlt (by decide)
    · exact hne (hzero k hk)
  · exact iff_of_false (not_allOrNothing_of_one hone)
      (not_not.mpr ⟨hgpio, hirqs, k, hone, hbefore⟩)

end Requests

/-- **Loading is all or nothing, exactly** if no interrupt request that is reached reports success
by a positive code. -/
theorem allOrNothing_iff {c : InitCodes} (hc : c.Possible) :
    AllOrNothing (txinfoInit .unused c) ↔ ¬c.Misread := by
  by_cases hgpio : c.gpioRequestArray = 0
  swap
  · have hlt : c.gpioRequestArray < 0 := Int32.lt_of_le_of_ne hc.gpioRequestArray_le hgpio
    rw [txinfoInit, if_pos hgpio]
    exact iff_of_true (.of_nothing hlt (by decide)) fun hm ↦ hgpio hm.1
  have hmapped : ∀ k, c.txinfoIrqs k < 0 → ¬c.Misread := fun k hk hm ↦ hm.2.1 k hk
  rw [txinfoInit, if_neg (not_not.mpr hgpio)]
  dsimp only
  split_ifs with h0 h1 h2 hr0 hr1 hr2
  · exact iff_of_true (.of_nothing h0 (by decide)) (hmapped 0 h0)
  · exact iff_of_true (.of_nothing h1 (by decide)) (hmapped 1 h1)
  · exact iff_of_true (.of_nothing h2 (by decide)) (hmapped 2 h2)
  all_goals have hirqs : ∀ k, ¬c.txinfoIrqs k < 0 := forall_fin_three h0 h1 h2
  · exact allOrNothing_iff_of_request _ hc hgpio hirqs (fun j hj ↦ absurd hj j.not_lt_zero) hr0
      (by decide)
  · rw [not_not] at hr0
    rw [requestAnyContextIrq_of_zero _ hr0]
    refine allOrNothing_iff_of_request _ hc hgpio hirqs ?_ hr1 (by decide)
    exact forall_fin_three (fun _ ↦ hr0) (fun hlt ↦ absurd hlt (lt_irrefl 1))
      fun hlt ↦ absurd hlt (by decide)
  · rw [not_not] at hr0 hr1
    rw [requestAnyContextIrq_of_zero _ hr0, requestAnyContextIrq_of_zero _ hr1]
    refine allOrNothing_iff_of_request _ hc hgpio hirqs ?_ hr2 (by decide)
    exact forall_fin_three (fun _ ↦ hr0) (fun _ ↦ hr1) fun hlt ↦ absurd hlt (lt_irrefl 2)
  · rw [not_not] at hr0 hr1 hr2
    rw [requestAnyContextIrq_of_zero _ hr0, requestAnyContextIrq_of_zero _ hr1,
      requestAnyContextIrq_of_zero _ hr2]
    refine iff_of_true ⟨iff_of_true rfl (by decide), fun hne ↦ absurd rfl hne,
      fun _ ↦ by decide⟩ ?_
    have hzero : ∀ k, c.requestAnyContextIrq k = 0 := forall_fin_three hr0 hr1 hr2
    rintro ⟨-, -, k, hone, -⟩
    exact absurd ((hzero k).symm.trans hone) (by decide)

/-- Every call succeeds, with the code for an interrupt that is handled at once. -/
def plainCodes : InitCodes := ⟨0, fun _ ↦ 30, fun _ ↦ 0⟩

theorem allOrNothing_iff_plainCodes : AllOrNothing (txinfoInit .unused plainCodes) := by
  refine (allOrNothing_iff ⟨by decide, fun _ ↦ .inr (.inl rfl)⟩).mpr ?_
  rintro ⟨-, -, _, hone, -⟩
  exact absurd hone (by decide : (0 : Int32) ≠ 1)

/-- The second interrupt is handled in a nested thread. -/
def nestedCodes : InitCodes := ⟨0, fun _ ↦ 30, fun k ↦ if k = 1 then 1 else 0⟩

/-- The handler of the second interrupt stays installed, and the pins are gone. The code that is
returned is no error. -/
theorem holds_irq_nestedCodes :
    nestedCodes.Possible ∧ (txinfoInit .unused nestedCodes).2 = 1 ∧
      (txinfoInit .unused nestedCodes).1.Holds (.irq 1) ∧
      (∀ k, ¬(txinfoInit .unused nestedCodes).1.Holds (.gpio k)) ∧
      ¬AllOrNothing (txinfoInit .unused nestedCodes) := by
  refine ⟨⟨by decide, by decide⟩, rfl, by decide, by decide, fun h ↦ ?_⟩
  exact absurd (h.of_ret_ne_zero (by decide)).1 (by decide)

end UcsmaRateControl.GpioTimeline
