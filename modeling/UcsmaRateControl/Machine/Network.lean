import Mathlib.Algebra.BigOperators.Group.Finset.Piecewise
import Mathlib.Algebra.Order.BigOperators.Group.Finset
import Mathlib.Algebra.Order.Ring.Nat
import Mathlib.Data.Fintype.Card
import Mathlib.Order.Lattice.Nat
import UcsmaRateControl.Machine.Run

/-!
# Machines that signal each other

Copies of one machine, indexed by `ι`, are joined by wires. Some labels of the machine receive a
signal: they can be taken only while a signal for that component is in flight, and use it up. A step
can also emit signals, and each of them puts one signal in flight on every wire that leaves the
component. Signals carry nothing, and are received in any order.

A run of the network projects to a run of each component (`run_component`). Signals are conserved
(`length_inFlight_of_run`), so the number of receptions is bounded by the number of emissions
(`receptions_le`): a network in which each component can emit only so often comes to rest, whatever
the wiring and whatever the order of the receptions.
-/

/-- Copies of a machine joined by wires. -/
structure Network (ι σ ε : Type*) where
  /-- The machine of every component. -/
  node : Machine σ ε
  /-- Where the wires from a component lead. -/
  wires : ι → List ι
  /-- Whether a label receives a signal. -/
  receives : ε → Bool
  /-- How many signals a label emits in a state. -/
  emits : σ → ε → ℕ

namespace Network

/-- The state of a network. -/
structure State (ι σ : Type*) where
  /-- The states of the components. -/
  nodes : ι → σ
  /-- The signals in flight, by their destinations. -/
  inFlight : List ι

variable {ι σ ε : Type*} [DecidableEq ι] (N : Network ι σ ε)

/-- The signals left in flight once the label `e` of component `i` has taken its own. -/
def taken (flight : List ι) (i : ι) (e : ε) : Option (List ι) :=
  if N.receives e then if i ∈ flight then some (flight.erase i) else none else some flight

/-- The network as a machine. A label names the component that moves. -/
def machine : Machine (State ι σ) (ι × ε) where
  step s l :=
    (N.taken s.inFlight l.1 l.2).bind fun rest ↦ (N.node.step (s.nodes l.1) l.2).map fun u ↦
      { nodes := Function.update s.nodes l.1 u
        inFlight := rest ++ (List.replicate (N.emits (s.nodes l.1) l.2) (N.wires l.1)).flatten }

/-- The labels of one component. -/
def component (i : ι) (ls : List (ι × ε)) : List ε :=
  ls.filterMap fun l ↦ if l.1 = i then some l.2 else none

/-- How often a network receives a signal. -/
def receptions (ls : List (ι × ε)) : ℕ := ls.countP fun l ↦ N.receives l.2

/-- The signals that a run emits, by their senders, oldest first. -/
def sent (s : State ι σ) (ls : List (ι × ε)) : List ι :=
  N.machine.trace (fun s l ↦ List.replicate (N.emits (s.nodes l.1) l.2) l.1) s ls

/-- The number of signals that a component emits in a run of its own. -/
def emitted (s : σ) (es : List ε) : ℕ :=
  (N.node.trace (fun s e ↦ List.replicate (N.emits s e) ()) s es).length

variable {N} {s t : State ι σ} {i : ι} {e : ε} {ls : List (ι × ε)}

/-! ## One step -/

theorem length_taken {flight rest : List ι} (h : N.taken flight i e = some rest) :
    rest.length + (if N.receives e then 1 else 0) = flight.length := by
  rw [taken] at h
  cases hrec : N.receives e with
  | false =>
    rw [hrec, if_neg Bool.false_ne_true, Option.some_inj] at h
    rw [h, if_neg Bool.false_ne_true, Nat.add_zero]
  | true =>
    rw [hrec, if_pos rfl] at h
    obtain ⟨hmem, hrest⟩ := Option.ite_none_right_eq_some.mp h
    rw [if_pos rfl, ← Option.some_inj.mp hrest, List.length_erase_of_mem hmem]
    exact Nat.sub_add_cancel (List.length_pos_of_mem hmem)

/-- **The inversion of a step.** -/
theorem step_eq_some (h : N.machine.step s (i, e) = some t) :
    ∃ rest u, N.taken s.inFlight i e = some rest ∧ N.node.step (s.nodes i) e = some u ∧
      t.nodes = Function.update s.nodes i u ∧
      t.inFlight = rest ++ (List.replicate (N.emits (s.nodes i) e) (N.wires i)).flatten := by
  obtain ⟨rest, hrest, hmap⟩ := Option.bind_eq_some_iff.mp h
  obtain ⟨u, hu, rfl⟩ := Option.map_eq_some_iff.mp hmap
  exact ⟨rest, u, hrest, hu, rfl, rfl⟩

@[simp] theorem component_concat (i : ι) (ls : List (ι × ε)) (l : ι × ε) :
    component i (ls ++ [l]) = component i ls ++ if l.1 = i then [l.2] else [] := by
  rw [component, List.filterMap_append, List.filterMap_cons, List.filterMap_nil]
  by_cases hl : l.1 = i
  · rw [if_pos hl, if_pos hl]
    rfl
  · rw [if_neg hl, if_neg hl]
    rfl

theorem mem_component : e ∈ component i ls ↔ (i, e) ∈ ls := by
  rw [component, List.mem_filterMap]
  constructor
  · rintro ⟨⟨j, d⟩, hmem, hl⟩
    obtain ⟨rfl, he⟩ := Option.ite_none_right_eq_some.mp hl
    exact Option.some_inj.mp he ▸ hmem
  · exact fun hmem ↦ ⟨(i, e), hmem, if_pos rfl⟩

/-! ## Runs -/

omit [DecidableEq ι] in
theorem emitted_concat {s t : σ} {es : List ε} (e : ε) (h : N.node.run s es = some t) :
    N.emitted s (es ++ [e]) = N.emitted s es + N.emits t e := by
  rw [emitted, Machine.trace_concat _ e h, List.length_append, List.length_replicate]
  rfl

/-- **Projection.** A run of the network is a run of each of its components. -/
theorem run_component (h : N.machine.run s ls = some t) (i : ι) :
    N.node.run (s.nodes i) (component i ls) = some (t.nodes i) := by
  refine Machine.run_induction
    (P := fun ls t ↦ N.node.run (s.nodes i) (component i ls) = some (t.nodes i)) rfl ?_ h
  rintro ls u ⟨j, e⟩ v - ih huv
  obtain ⟨rest, w, -, hw, hnodes, -⟩ := step_eq_some huv
  rw [component_concat, hnodes]
  by_cases hij : j = i
  · subst hij
    rw [if_pos rfl, Function.update_self]
    exact Machine.run_concat_eq_some.mpr ⟨u.nodes j, ih, hw⟩
  · rw [if_neg hij, List.append_nil, Function.update_of_ne (Ne.symm hij)]
    exact ih

/-- **Conservation.** What was in flight or has been emitted has been received or is in flight. -/
theorem length_inFlight_of_run (h : N.machine.run s ls = some t) :
    t.inFlight.length + N.receptions ls =
      s.inFlight.length + ((N.sent s ls).map fun i ↦ (N.wires i).length).sum := by
  refine Machine.run_induction (P := fun ls t ↦ t.inFlight.length + N.receptions ls =
    s.inFlight.length + ((N.sent s ls).map fun i ↦ (N.wires i).length).sum) rfl ?_ h
  rintro ls u ⟨i, e⟩ v hu ih huv
  obtain ⟨rest, w, hrest, -, -, hflight⟩ := step_eq_some huv
  have hone : N.receptions [(i, e)] = if N.receives e then 1 else 0 := by
    rw [receptions, List.countP_singleton]
  have hrec : N.receptions (ls ++ [(i, e)]) = N.receptions ls + N.receptions [(i, e)] :=
    List.countP_append
  have hsent : N.sent s (ls ++ [(i, e)]) =
      N.sent s ls ++ List.replicate (N.emits (u.nodes i) e) i := Machine.trace_concat _ _ hu
  have hlen := length_taken hrest
  rw [hrec, hone, hsent, hflight, List.length_append, List.length_flatten, List.map_replicate,
    List.map_append, List.sum_append, List.map_replicate]
  omega

/-- The signals of the network are those of its components. -/
theorem length_sent_of_run [Fintype ι] (h : N.machine.run s ls = some t) :
    (N.sent s ls).length = ∑ i, N.emitted (s.nodes i) (component i ls) := by
  refine Machine.run_induction (P := fun ls _ ↦
    (N.sent s ls).length = ∑ i, N.emitted (s.nodes i) (component i ls)) ?_ ?_ h
  · exact (Finset.sum_const_zero).symm
  · rintro ls u ⟨j, e⟩ v hu ih huv
    have hsent : N.sent s (ls ++ [(j, e)]) =
        N.sent s ls ++ List.replicate (N.emits (u.nodes j) e) j := Machine.trace_concat _ _ hu
    have hone : ∀ i, N.emitted (s.nodes i) (component i (ls ++ [(j, e)])) =
        N.emitted (s.nodes i) (component i ls) + if j = i then N.emits (u.nodes j) e else 0 := by
      intro i
      rw [component_concat]
      by_cases hij : j = i
      · subst hij
        rw [if_pos rfl, if_pos rfl]
        exact emitted_concat e (run_component hu j)
      · rw [if_neg hij, if_neg hij, List.append_nil, Nat.add_zero]
    rw [hsent, List.length_append, List.length_replicate, ih, Finset.sum_congr rfl fun i _ ↦ hone i,
      Finset.sum_add_distrib, Finset.sum_ite_eq, if_pos (Finset.mem_univ j)]

/-- A count over the network is the sum of the counts over its components. -/
theorem sum_countP_component [Fintype ι] (p : ε → Bool) (ls : List (ι × ε)) :
    ∑ i, (component i ls).countP p = ls.countP fun l ↦ p l.2 := by
  induction ls using List.reverseRecOn with
  | nil => exact Finset.sum_const_zero
  | append_singleton ls l ih =>
    have hone : ∀ i, (component i (ls ++ [l])).countP p =
        (component i ls).countP p + if l.1 = i then (if p l.2 then 1 else 0) else 0 := by
      intro i
      rw [component_concat, List.countP_append]
      split
      · rw [List.countP_singleton]
      · rfl
    rw [List.countP_append, List.countP_singleton, ← ih, Finset.sum_congr rfl fun i _ ↦ hone i,
      Finset.sum_add_distrib, Finset.sum_ite_eq, if_pos (Finset.mem_univ l.1)]

/-- The largest number of wires that leave a component. -/
def degree [Fintype ι] (N : Network ι σ ε) : ℕ := Finset.univ.sup fun i ↦ (N.wires i).length

/-- **Receptions are bounded by emissions.** -/
theorem receptions_le [Fintype ι] (h : N.machine.run s ls = some t) :
    N.receptions ls ≤ s.inFlight.length + N.degree * (N.sent s ls).length := by
  have hcons := length_inFlight_of_run h
  have hsum : ((N.sent s ls).map fun i ↦ (N.wires i).length).sum ≤
      ((N.sent s ls).map fun i ↦ (N.wires i).length).length • N.degree := by
    refine List.sum_le_card_nsmul _ _ fun n hn ↦ ?_
    obtain ⟨i, -, rfl⟩ := List.mem_map.mp hn
    exact Finset.le_sup (f := fun i ↦ (N.wires i).length) (Finset.mem_univ i)
  rw [List.length_map, Nat.nsmul_eq_mul, Nat.mul_comm] at hsum
  omega

end Network
