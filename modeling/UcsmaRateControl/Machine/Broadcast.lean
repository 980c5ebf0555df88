import Mathlib.Logic.Relation
import UcsmaRateControl.Machine.Network

/-!
# What a broadcast reaches

A network is at rest when no signal is in flight. Signals are neither lost nor made up
(`mem_inFlight_or_receives_iff`), so in a run that ends at rest every signal sent has been received.
If besides each component passes on what it receives, and emits only then or of its own accord, the
components that receive a signal are those that can be reached along the wires
(`receives_iff_reached`), in whatever order the signals are received.
-/

namespace Network

variable {ι σ ε : Type*} (N : Network ι σ ε)

/-- A wire leads from `i` to `j`. -/
def Wired (i j : ι) : Prop := j ∈ N.wires i

/-- A component receives a signal in the run. -/
def Receives (ls : List (ι × ε)) (i : ι) : Prop := ∃ e, (i, e) ∈ ls ∧ N.receives e = true

/-- A path leads to the component from the destination of a signal in `flight`, or a path of at
least one wire from a component that emits of its own accord. -/
def Reached (flight : List ι) (fires : ι → Prop) (i : ι) : Prop :=
  (∃ j ∈ flight, Relation.ReflTransGen N.Wired j i) ∨
    ∃ j, fires j ∧ Relation.TransGen N.Wired j i

variable {N} {flight : List ι} {fires : ι → Prop} {i j : ι} {e : ε} {ls : List (ι × ε)}

theorem Reached.wired (h : N.Reached flight fires i) (hw : N.Wired i j) :
    N.Reached flight fires j := by
  rcases h with ⟨k, hk, hpath⟩ | ⟨k, hk, hpath⟩
  · exact .inl ⟨k, hk, hpath.tail hw⟩
  · exact .inr ⟨k, hk, hpath.tail hw⟩

theorem reached_of_mem (h : i ∈ flight) : N.Reached flight fires i := .inl ⟨i, h, .refl⟩

theorem reached_of_fires (h : fires i) (hw : N.Wired i j) : N.Reached flight fires j :=
  .inr ⟨i, h, .single hw⟩

theorem receives_concat {l : ι × ε} :
    N.Receives (ls ++ [l]) i ↔ N.Receives ls i ∨ i = l.1 ∧ N.receives l.2 = true := by
  simp only [Receives, List.mem_append, List.mem_singleton]
  constructor
  · rintro ⟨e, he | rfl, hrec⟩
    · exact .inl ⟨e, he, hrec⟩
    · exact .inr ⟨rfl, hrec⟩
  · rintro (⟨e, he, hrec⟩ | ⟨rfl, hrec⟩)
    · exact ⟨e, .inl he, hrec⟩
    · exact ⟨l.2, .inr rfl, hrec⟩

/-- The signals that one step puts in flight. -/
theorem mem_emitted {n : ℕ} :
    j ∈ (List.replicate n (N.wires i)).flatten ↔ n ≠ 0 ∧ N.Wired i j := by
  rw [List.mem_flatten]
  constructor
  · rintro ⟨l, hl, hj⟩
    obtain ⟨hn, rfl⟩ := List.mem_replicate.mp hl
    exact ⟨hn, hj⟩
  · rintro ⟨hn, hj⟩
    exact ⟨_, List.mem_replicate.mpr ⟨hn, rfl⟩, hj⟩

section Runs

variable [DecidableEq ι] {s t : State ι σ}

/-- A component has sent what it emits in its own run. -/
theorem count_sent_of_run (h : N.machine.run s ls = some t) (i : ι) :
    (N.sent s ls).count i = N.emitted (s.nodes i) (component i ls) := by
  refine Machine.run_induction (P := fun ls _ ↦
    (N.sent s ls).count i = N.emitted (s.nodes i) (component i ls)) rfl ?_ h
  rintro ls u ⟨j, e⟩ v hu ih -
  have hsent : N.sent s (ls ++ [(j, e)]) =
      N.sent s ls ++ List.replicate (N.emits (u.nodes j) e) j := Machine.trace_concat _ _ hu
  rw [hsent, List.count_append, ih, component_concat]
  by_cases hij : j = i
  · subst hij
    rw [if_pos rfl, List.count_replicate_self, emitted_concat e (run_component hu j)]
  · rw [if_neg hij, List.append_nil, List.count_eq_zero.mpr, Nat.add_zero]
    exact fun hmem ↦ hij (List.mem_replicate.mp hmem).2.symm

/-- What was in flight still is, or has just been taken. -/
theorem mem_taken {rest : List ι} (h : N.taken flight i e = some rest) :
    (j ∈ rest ∨ j = i ∧ N.receives e = true) ↔ j ∈ flight := by
  rw [taken] at h
  by_cases hrec : N.receives e = true
  · rw [if_pos hrec] at h
    obtain ⟨hmem, hrest⟩ := Option.ite_none_right_eq_some.mp h
    obtain rfl := Option.some_inj.mp hrest
    by_cases hji : j = i
    · exact iff_of_true (.inr ⟨hji, hrec⟩) (hji ▸ hmem)
    · simp [hji, List.mem_erase_of_ne hji]
  · rw [if_neg hrec, Option.some_inj] at h
    simp [h, hrec]

/-- **Nothing is lost and nothing is made up.** A component has received a signal or has one in
flight to it if and only if there was one at the start or a component wired to it has sent one. -/
theorem mem_inFlight_or_receives_iff (h : N.machine.run s ls = some t) (j : ι) :
    (j ∈ t.inFlight ∨ N.Receives ls j) ↔ j ∈ s.inFlight ∨ ∃ i ∈ N.sent s ls, N.Wired i j := by
  refine Machine.run_induction (P := fun ls t ↦ (j ∈ t.inFlight ∨ N.Receives ls j) ↔
    j ∈ s.inFlight ∨ ∃ i ∈ N.sent s ls, N.Wired i j) ?_ ?_ h
  · simp [Receives, sent, Machine.trace]
  · rintro ls u ⟨i, e⟩ v hu ih huv
    obtain ⟨rest, w, hrest, -, -, hflight⟩ := step_eq_some huv
    have hsent : N.sent s (ls ++ [(i, e)]) =
        N.sent s ls ++ List.replicate (N.emits (u.nodes i) e) i := Machine.trace_concat _ _ hu
    have hnew : (∃ k ∈ N.sent s (ls ++ [(i, e)]), N.Wired k j) ↔
        (∃ k ∈ N.sent s ls, N.Wired k j) ∨ N.emits (u.nodes i) e ≠ 0 ∧ N.Wired i j := by
      rw [hsent]
      constructor
      · rintro ⟨k, hk, hw⟩
        rcases List.mem_append.mp hk with hk | hk
        · exact .inl ⟨k, hk, hw⟩
        · obtain ⟨hn, rfl⟩ := List.mem_replicate.mp hk
          exact .inr ⟨hn, hw⟩
      · rintro (⟨k, hk, hw⟩ | ⟨hn, hw⟩)
        · exact ⟨k, List.mem_append_left _ hk, hw⟩
        · exact ⟨i, List.mem_append_right _ (List.mem_replicate.mpr ⟨hn, rfl⟩), hw⟩
    rw [hnew, ← or_assoc, ← ih, ← mem_taken hrest, hflight, List.mem_append, mem_emitted,
      receives_concat, or_comm (a := N.Receives ls j), or_or_or_comm,
      or_comm (a := N.emits (u.nodes i) e ≠ 0 ∧ _), ← or_assoc]

/-- Only what can be reached receives a signal, or has one in flight to it. -/
theorem reached_of_run (h : N.machine.run s ls = some t)
    (hemits : ∀ l ∈ ls, ∀ u, N.emits u l.2 ≠ 0 → N.receives l.2 = true ∨ fires l.1) :
    (∀ j ∈ t.inFlight, N.Reached s.inFlight fires j) ∧
      ∀ j, N.Receives ls j → N.Reached s.inFlight fires j := by
  revert hemits
  refine Machine.run_induction (P := fun ls t ↦
    (∀ l ∈ ls, ∀ u, N.emits u l.2 ≠ 0 → N.receives l.2 = true ∨ fires l.1) →
    (∀ j ∈ t.inFlight, N.Reached s.inFlight fires j) ∧
      ∀ j, N.Receives ls j → N.Reached s.inFlight fires j) ?_ ?_ h
  · intro _
    exact ⟨fun j hj ↦ reached_of_mem hj, fun j ⟨e, he, _⟩ ↦ absurd he List.not_mem_nil⟩
  · rintro ls u ⟨i, e⟩ v - ih huv hemits
    obtain ⟨hflown, hgot⟩ := ih fun l hl ↦ hemits l (List.mem_append_left _ hl)
    obtain ⟨rest, w, hrest, -, -, hflight⟩ := step_eq_some huv
    have htaken : ∀ j, j ∈ rest ∨ j = i ∧ N.receives e = true →
        N.Reached s.inFlight fires j := fun j hj ↦ hflown j ((mem_taken hrest).mp hj)
    constructor
    · intro j hj
      rw [hflight, List.mem_append, mem_emitted] at hj
      rcases hj with hj | ⟨hn, hw⟩
      · exact htaken j (.inl hj)
      · -- what the component emits, it received, or emits of its own accord
        rcases hemits (i, e) List.mem_concat_self _ hn with hrec | hfire
        · exact (htaken i (.inr ⟨rfl, hrec⟩)).wired hw
        · exact reached_of_fires hfire hw
    · intro j hj
      rcases receives_concat.mp hj with hj | hj
      · exact hgot j hj
      · exact htaken j (.inr hj)

/-- **Coverage.** In a run that ends at rest, in which every component that receives or fires emits,
and no other does, the components that receive a signal are those that are reached. -/
theorem receives_iff_reached (h : N.machine.run s ls = some t) (hrest : t.inFlight = [])
    (hrelay : ∀ i, N.Receives ls i ∨ fires i → i ∈ N.sent s ls)
    (hemits : ∀ l ∈ ls, ∀ u, N.emits u l.2 ≠ 0 → N.receives l.2 = true ∨ fires l.1) (i : ι) :
    N.Receives ls i ↔ N.Reached s.inFlight fires i := by
  have hdone : ∀ j, N.Receives ls j ↔ j ∈ s.inFlight ∨ ∃ i ∈ N.sent s ls, N.Wired i j := by
    intro j
    rw [← mem_inFlight_or_receives_iff h j, hrest]
    simp
  have hpass : ∀ {j k}, N.Receives ls j ∨ fires j → N.Wired j k → N.Receives ls k :=
    fun hj hw ↦ (hdone _).mpr (.inr ⟨_, hrelay _ hj, hw⟩)
  constructor
  · exact (reached_of_run h hemits).2 i
  · rintro (⟨j, hj, hpath⟩ | ⟨j, hj, hpath⟩)
    · induction hpath with
      | refl => exact (hdone j).mpr (.inl hj)
      | tail _ hw ih => exact hpass (.inl ih) hw
    · induction hpath with
      | single hw => exact hpass (.inr hj) hw
      | tail _ hw ih => exact hpass (.inl ih) hw

end Runs

end Network
