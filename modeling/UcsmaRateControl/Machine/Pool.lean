import Mathlib.Algebra.BigOperators.Fin
import Mathlib.Algebra.Order.BigOperators.Group.Finset
import UcsmaRateControl.Machine.Run

/-!
# A pool shared by bounded queues

Finitely many queues draw from one pool. A frame that is submitted takes a buffer of the pool, or is
refused if there is none, and gives it back when it completes. A queue is stopped while more frames
of it are pending than its limit allows; the limit is tested after the frame is in, so a queue can
hold one frame more than its limit.

Whether stopping protects the pool is a matter of sizes alone: a sender that respects it never finds
the pool empty if and only if the queues, filled up, fit into the pool (`served_iff_sum_le`).
-/

namespace Pool

variable {ι : Type*}

/-- The buffers that are free, and the frames that are pending on each queue. -/
structure State (ι : Type*) where
  free : ℕ
  pending : ι → ℕ

/-- What can happen to a queue. -/
inductive Event (ι : Type*)
  | submit (q : ι)
  | complete (q : ι)

/-- No frame is pending. -/
def idle (size : ℕ) : State ι := ⟨size, fun _ ↦ 0⟩

section Machine

variable [DecidableEq ι]

/-- The machine of the pool. -/
def machine : Machine (State ι) (Event ι) where
  step s
    | .submit q =>
      some (if s.free = 0 then s
        else ⟨s.free - 1, Function.update s.pending q (s.pending q + 1)⟩)
    | .complete q =>
      if s.pending q = 0 then none
      else some ⟨s.free + 1, Function.update s.pending q (s.pending q - 1)⟩

end Machine

variable (limit : ι → ℕ)

/-- The queue has more frames pending than its limit allows. -/
def Stopped (s : State ι) (q : ι) : Prop := limit q < s.pending q

instance (s : State ι) (q : ι) : Decidable (Stopped limit s q) :=
  inferInstanceAs (Decidable (_ < _))

/-- The event is no submission to a stopped queue. -/
def Respects (s : State ι) (e : Event ι) : Prop := ∀ q, e = .submit q → ¬Stopped limit s q

/-- A submission finds the pool not empty. -/
def Accepted (s : State ι) (e : Event ι) : Prop := ∀ q, e = .submit q → s.free ≠ 0

/-- A submission to a queue that is not stopped finds the pool not empty. -/
def Served (s : State ι) (e : Event ι) : Prop :=
  ∀ q, e = .submit q → ¬Stopped limit s q → s.free ≠ 0

/-! ## Counts -/

section Counts

/-- How many frames are submitted. -/
def submitted (es : List (Event ι)) : ℕ := es.countP fun
  | .submit _ => true
  | .complete _ => false

/-- How many frames complete. -/
def completed (es : List (Event ι)) : ℕ := es.countP fun
  | .submit _ => false
  | .complete _ => true

variable (es : List (Event ι)) (q : ι)

theorem submitted_concat_submit : submitted (es ++ [.submit q]) = submitted es + 1 := by
  rw [submitted, List.countP_append]
  rfl

theorem submitted_concat_complete : submitted (es ++ [.complete q]) = submitted es := by
  rw [submitted, List.countP_append]
  rfl

theorem completed_concat_submit : completed (es ++ [.submit q]) = completed es := by
  rw [completed, List.countP_append]
  rfl

theorem completed_concat_complete : completed (es ++ [.complete q]) = completed es + 1 := by
  rw [completed, List.countP_append]
  rfl

end Counts

section Sums

variable [Fintype ι]

/-- The frames in flight. -/
def State.inFlight (s : State ι) : ℕ := ∑ q, s.pending q

variable [DecidableEq ι]

/-- What becomes of a sum when one of its terms is replaced. -/
theorem sum_update (f : ι → ℕ) (q : ι) (b : ℕ) :
    ∑ p, Function.update f q b p + f q = ∑ p, f p + b := by
  have hq : q ∈ Finset.univ := Finset.mem_univ q
  rw [Finset.sum_update_of_mem hq, ← Finset.sum_sdiff (Finset.singleton_subset_iff.mpr hq),
    Finset.sum_singleton]
  omega

end Sums

/-! ## Conservation -/

section Runs

variable [Fintype ι] [DecidableEq ι] {limit} {size : ℕ} {s t : State ι} {e : Event ι}
  {es : List (Event ι)}

theorem conserve_step (h : s.free + s.inFlight = size) (hst : machine.step s e = some t) :
    t.free + t.inFlight = size := by
  rw [State.inFlight] at h
  cases e with
  | submit q =>
    obtain rfl := Option.some_inj.mp hst
    by_cases hfree : s.free = 0
    · rw [if_pos hfree]
      exact h
    · have hsum := sum_update s.pending q (s.pending q + 1)
      rw [if_neg hfree, State.inFlight]
      dsimp only
      omega
  | complete q =>
    obtain ⟨hq, ⟨⟩⟩ := Option.ite_none_left_eq_some.mp hst
    have hsum := sum_update s.pending q (s.pending q - 1)
    rw [State.inFlight]
    dsimp only
    omega

/-- **Every buffer is free or in flight.** -/
theorem conserve (h : machine.run (idle size) es = some t) : t.free + t.inFlight = size :=
  Machine.invariant (P := fun u : State ι ↦ u.free + u.inFlight = size)
    (fun _ _ _ hu huv ↦ conserve_step hu huv)
    (by simp only [State.inFlight, idle, Finset.sum_const_zero, Nat.add_zero]) h

/-! ## What the history says -/

/-- The counts agree as long as every submission is accepted. -/
theorem inFlight_add_completed (haccepted : machine.Meets Accepted (idle size) es)
    (h : machine.run (idle size) es = some t) : t.inFlight + completed es = submitted es := by
  revert haccepted
  refine Machine.run_induction (P := fun es t ↦ machine.Meets Accepted (idle size) es →
    State.inFlight t + completed es = submitted es) (fun _ ↦ ?_) ?_ h
  · exact Finset.sum_const_zero
  · intro es u e v hu ih huv haccepted
    obtain ⟨hbefore, hlast⟩ := Machine.meets_concat.mp haccepted
    have hcount := ih hbefore
    rw [State.inFlight] at hcount ⊢
    cases e with
    | submit q =>
      have hsum := sum_update u.pending q (u.pending q + 1)
      have hv := Option.some_inj.mp huv
      rw [if_neg (hlast u hu q rfl)] at hv
      subst hv
      rw [submitted_concat_submit, completed_concat_submit]
      dsimp only
      omega
    | complete q =>
      obtain ⟨hq, ⟨⟩⟩ := Option.ite_none_left_eq_some.mp huv
      have hsum := sum_update u.pending q (u.pending q - 1)
      rw [submitted_concat_complete, completed_concat_complete]
      dsimp only
      omega

/-- **Every submission is accepted, exactly** if before each of them fewer frames have been
submitted than there are buffers, not counting those that have completed. -/
theorem meets_accepted_iff (h : machine.run (idle size) es = some t) :
    machine.Meets Accepted (idle size) es ↔
      ∀ pre q, pre ++ [.submit q] <+: es → submitted pre < completed pre + size := by
  constructor
  · intro haccepted pre q hp
    have hpre : pre <+: es := (List.prefix_append pre _).trans hp
    obtain ⟨u, hu⟩ := Machine.exists_run_of_prefix h hpre
    have hcount := inFlight_add_completed (haccepted.of_prefix hpre) hu
    have hconserve := conserve hu
    have hfree := haccepted pre _ hp u hu q rfl
    omega
  · refine Machine.run_induction (P := fun es _ ↦
      (∀ pre q, pre ++ [.submit q] <+: es → submitted pre < completed pre + size) →
        machine.Meets Accepted (idle size) es) (fun _ ↦ Machine.meets_nil _) ?_ h
    intro es u e v hu ih huv hhistory
    have hbefore := ih fun pre q hp ↦ hhistory pre q (hp.trans (List.prefix_append es [e]))
    refine Machine.meets_concat.mpr ⟨hbefore, fun u' hu' q he ↦ ?_⟩
    subst he
    have hcount := inFlight_add_completed hbefore hu'
    have hconserve := conserve hu'
    have hlt := hhistory es q (List.prefix_refl _)
    omega

/-- A queue whose limit is at least the size of the pool is never stopped. -/
theorem not_stopped {q : ι} (hlimit : size ≤ limit q) (h : machine.run (idle size) es = some t) :
    ¬Stopped limit t q := by
  have hconserve := conserve h
  have hle : t.pending q ≤ t.inFlight := Finset.single_le_sum_of_canonicallyOrdered
    (Finset.mem_univ q)
  rw [Stopped]
  omega

/-- Where no queue is ever stopped, being served means that every submission is accepted. -/
theorem meets_served_iff (hlimit : ∀ q, size ≤ limit q) :
    machine.Meets (Served limit) (idle size) es ↔ machine.Meets Accepted (idle size) es :=
  ⟨fun h pre e hp u hu q he ↦ h pre e hp u hu q he (not_stopped (hlimit q) hu),
    fun h pre e hp u hu q he _ ↦ h pre e hp u hu q he⟩

/-! ## The law of sizes -/

omit [Fintype ι] in
/-- A sender that respects the stopping leaves at most one frame more than the limit. -/
theorem pending_le (hrespects : machine.Meets (Respects limit) (idle size) es)
    (h : machine.run (idle size) es = some t) (q : ι) : t.pending q ≤ limit q + 1 := by
  refine Machine.invariant_of_meets (P := fun u : State ι ↦ ∀ q, u.pending q ≤ limit q + 1)
    ?_ (fun _ ↦ Nat.zero_le _) hrespects h q
  intro u e v hu hrespects huv p
  cases e with
  | submit q =>
    obtain rfl := Option.some_inj.mp huv
    have hq : u.pending q ≤ limit q := Nat.le_of_not_lt (hrespects q rfl)
    split
    · exact hu p
    · rcases eq_or_ne p q with rfl | hne
      · exact (Function.update_self p _ u.pending).trans_le (Nat.succ_le_succ hq)
      · exact (Function.update_of_ne hne _ u.pending).trans_le (hu p)
  | complete q =>
    obtain ⟨-, ⟨⟩⟩ := Option.ite_none_left_eq_some.mp huv
    rcases eq_or_ne p q with rfl | hne
    · exact (Function.update_self p _ u.pending).trans_le ((Nat.sub_le _ _).trans (hu p))
    · exact (Function.update_of_ne hne _ u.pending).trans_le (hu p)

/-- As long as the queues have room, the pool can be drained by a sender that respects the
stopping. -/
theorem exists_drained {k : ℕ} (hk : k ≤ size) (hroom : size < ∑ q, (limit q + 1)) :
    ∃ es t, machine.Meets (Respects limit) (idle size) es ∧
      machine.run (idle size) es = some t ∧ t.inFlight = k := by
  induction k with
  | zero => exact ⟨[], idle size, Machine.meets_nil _, rfl, Finset.sum_const_zero⟩
  | succ k ih =>
    obtain ⟨es, t, hrespects, hrun, hflight⟩ := ih (Nat.le_of_succ_le hk)
    have hconserve := conserve hrun
    have hfree : t.free ≠ 0 := by omega
    have hlt : ∑ q, t.pending q < ∑ q, (limit q + 1) := by
      rw [State.inFlight] at hflight
      omega
    obtain ⟨q, -, hq⟩ := Finset.exists_lt_of_sum_lt hlt
    refine ⟨es ++ [.submit q], ⟨t.free - 1, Function.update t.pending q (t.pending q + 1)⟩,
      ?_, ?_, ?_⟩
    · refine Machine.meets_concat.mpr ⟨hrespects, fun u hu p hp ↦ ?_⟩
      obtain rfl := Option.some_inj.mp (hrun.symm.trans hu)
      obtain rfl := Event.submit.inj hp
      exact Nat.not_lt.mpr (Nat.le_of_lt_succ hq)
    · exact Machine.run_concat_eq_some.mpr ⟨t, hrun, congrArg some (if_neg hfree)⟩
    · have hsum := sum_update t.pending q (t.pending q + 1)
      rw [State.inFlight] at hflight ⊢
      dsimp only
      omega

/-- **The law of sizes.** A sender that respects the stopping is always served if and only if the
queues fit into the pool when each of them is filled up to one more than its limit. -/
theorem served_iff_sum_le :
    (∀ es, machine.Meets (Respects limit) (idle size) es →
        machine.Meets (Served limit) (idle size) es) ↔ ∑ q, (limit q + 1) ≤ size := by
  constructor
  · intro hserved
    by_contra hlt
    have hroom : size < ∑ q, (limit q + 1) := Nat.lt_of_not_le hlt
    obtain ⟨es, t, hrespects, hrun, hflight⟩ := exists_drained (le_refl size) hroom
    rw [State.inFlight] at hflight
    obtain ⟨q, -, hq⟩ := Finset.exists_lt_of_sum_lt (hflight.trans_lt hroom)
    have hopen : ¬Stopped limit t q := Nat.not_lt.mpr (Nat.le_of_lt_succ hq)
    have hlast : machine.Meets (Respects limit) (idle size) (es ++ [.submit q]) := by
      refine Machine.meets_concat.mpr ⟨hrespects, fun u hu p hp ↦ ?_⟩
      obtain rfl := Option.some_inj.mp (hrun.symm.trans hu)
      exact Event.submit.inj hp ▸ hopen
    have hfree := (Machine.meets_concat.mp (hserved _ hlast)).2 t hrun q rfl hopen
    have hconserve := conserve hrun
    rw [State.inFlight] at hconserve
    omega
  · intro hle es hrespects pre e hp u hu q he hq hfree
    have hpre : pre <+: es := (List.prefix_append pre [e]).trans hp
    have hpending := pending_le (hrespects.of_prefix hpre) hu
    have hlt : ∑ p, u.pending p < ∑ p, (limit p + 1) :=
      Finset.sum_lt_sum (fun p _ ↦ hpending p)
        ⟨q, Finset.mem_univ q, Nat.lt_succ_of_le (Nat.le_of_not_lt hq)⟩
    have hconserve := conserve hu
    rw [State.inFlight] at hconserve
    omega

end Runs

end Pool
