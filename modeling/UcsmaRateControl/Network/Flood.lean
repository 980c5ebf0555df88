import UcsmaRateControl.Machine.Network
import UcsmaRateControl.Unlock.Debounce

/-!
# The flood of unlock signals

Nodes wired from `UNLOCK_OUT` to `UNLOCK_IN`, in any directed graph, with the pulses on the wires
delivered in any order. Every delivery can relay the pulse on all outgoing wires, so on a cycle a
pulse might travel for ever. It does not within half a period: a node is a gate that opens at most
once in such a window, so the nodes emit at most one relay each, besides the expiries of their
timers, and by conservation the deliveries are bounded as well.
-/

namespace UcsmaRateControl

/-! ## One node in a short window -/

/-- Whether an event is a pulse on `UNLOCK_IN`. -/
def Event.isPulse : Event → Bool
  | .pulse _ => true
  | _ => false

/-- Whether an event is an expiry of the timer. -/
def Event.isFire : Event → Bool
  | .fire _ _ => true
  | _ => false

/-- The event happens between `a` and `b`, and does not rewrite the period. -/
def Event.InWindow (a b : ℕ) : Event → Prop
  | .fire i _ => a ≤ i.start ∧ i.start ≤ b
  | .pulse i => a ≤ i.now ∧ i.now ≤ b
  | .setT _ => False
  | _ => True

section Node

variable {K : Kernel} {s t : Node} {e : Event} {es : List Event} {a b : ℕ}

/-- An event emits the pulse it accepts, or that of the timer. -/
theorem length_emissions (s : Node) (e : Event) :
    (emissions s e).length = (acceptance s e).length + if e.isFire then 1 else 0 := by
  cases e with
  | pulse i =>
    rw [emissions, acceptance]
    split <;> rfl
  | _ => rfl

theorem T_eq_of_inWindow (hwin : ∀ e ∈ es, e.InWindow a b)
    (h : (unlockNode K).run s es = some t) : t.T = s.T :=
  T_eq_of_meets (C := fun _ e ↦ e.InWindow a b) (fun _ _ ↦ id) (Machine.meets_of_forall hwin) h

/-- The accepted pulses of a run in a window lie in the window. -/
theorem acceptedTimes_inWindow (hwin : ∀ e ∈ es, e.InWindow a b) {x : ℕ}
    (hx : x ∈ acceptedTimes K s es) : a ≤ x ∧ x ≤ b := by
  obtain ⟨pre, e, u, hp, -, hxe⟩ := Machine.mem_trace hx
  have he : e.InWindow a b := hwin e (hp.subset (List.mem_append_right pre List.mem_cons_self))
  cases e with
  | pulse i =>
    rw [acceptance] at hxe
    split at hxe
    · exact List.mem_singleton.mp hxe ▸ he
    · exact absurd hxe List.not_mem_nil
  | _ => exact absurd hxe List.not_mem_nil

/-- **A node relays at most one pulse** in a window shorter than half of its period. -/
theorem length_acceptedTimes_le_one (hT : 500 * s.T.toNat < 2 ^ 32)
    (hshort : b < a + 500 * s.T.toNat) (hwin : ∀ e ∈ es, e.InWindow a b)
    (h : (unlockNode K).run s es = some t) : (acceptedTimes K s es).length ≤ 1 := by
  obtain ⟨o, ho, hrel, -⟩ := refines_gate h
  have hopened : o.opened = (acceptedTimes K s es).reverse.map Nat.cast := by
    rw [relayTimes_of_run h, List.map_append] at hrel
    exact (List.append_cancel_right hrel).symm
  have hlo : ∀ p ∈ (unlockNode K).trace arrival s es, p.1 = (500 * s.T.toNat : ℤ) := by
    intro p hp
    obtain ⟨pre, e, u, hpre, hu, hpe⟩ := Machine.mem_trace hp
    have hTu : u.T = s.T := T_eq_of_inWindow
      (fun d hd ↦ hwin d (hpre.subset (List.mem_append_left _ hd))) hu
    cases e with
    | pulse i =>
      rw [arrival] at hpe
      split at hpe
      · rw [List.mem_singleton.mp hpe]
        exact (u.threshold_eq (hTu ▸ hT)).trans (by rw [hTu])
      · exact absurd hpe List.not_mem_nil
    | _ => exact absurd hpe List.not_mem_nil
  have hspaced : Gate.Spaced (500 * s.T.toNat : ℤ) o.opened :=
    (Gate.machine_spaced (by omega) hlo ho).sublist (List.sublist_append_left _ _)
  have hle : o.opened.length ≤ 1 := by
    refine hspaced.length_le_one (a := (a : ℤ)) (b := (b : ℤ)) (fun x hx ↦ ?_) (by omega)
    rw [hopened] at hx
    obtain ⟨n, hn, rfl⟩ := List.mem_map.mp hx
    have hin := acceptedTimes_inWindow hwin (List.mem_reverse.mp hn)
    exact ⟨Int.ofNat_le.mpr hin.1, Int.ofNat_le.mpr hin.2⟩
  rwa [hopened, List.length_map, List.length_reverse] at hle

end Node

/-! ## The network -/

/-- Nodes joined by wires. -/
def unlockNetwork {ι : Type*} (K : Kernel) (wires : ι → List ι) : Network ι Node Event where
  node := unlockNode K
  wires := wires
  receives := Event.isPulse
  emits := fun s e ↦ (emissions s e).length

variable {ι : Type*} {K : Kernel} {wires : ι → List ι} {T : UInt32} {a b : ι → ℕ}
  {s t : Network.State ι Node} {ls : List (ι × Event)}

/-- The number of expiries in a run. -/
def firings (ls : List (ι × Event)) : ℕ := ls.countP fun l ↦ l.2.isFire

/-- The emissions of a node are its relays and its expiries. -/
theorem emitted_eq {s t : Node} {es : List Event} (h : (unlockNode K).run s es = some t) :
    (unlockNetwork K wires).emitted s es =
      (acceptedTimes K s es).length + es.countP Event.isFire := by
  refine Machine.run_induction (P := fun es _ ↦ (unlockNetwork K wires).emitted s es =
    (acceptedTimes K s es).length + es.countP Event.isFire) rfl ?_ h
  intro es u e v hu ih huv
  have hconcat : (unlockNetwork K wires).emitted s (es ++ [e]) =
      (unlockNetwork K wires).emitted s es + (emissions u e).length := Network.emitted_concat e hu
  rw [hconcat, ih, acceptedTimes_concat e hu, List.length_append, List.countP_append,
    List.countP_singleton, length_emissions]
  omega

/-- What a node has emitted is on record in `unlockOut`. -/
theorem length_unlockOut_of_run {s t : Node} {es : List Event}
    (h : (unlockNode K).run s es = some t) :
    t.unlockOut.length = s.unlockOut.length + (unlockNetwork K wires).emitted s es := by
  refine Machine.run_induction (P := fun es t ↦ t.unlockOut.length =
    s.unlockOut.length + (unlockNetwork K wires).emitted s es) rfl ?_ h
  intro es u e v hu ih huv
  have hconcat : (unlockNetwork K wires).emitted s (es ++ [e]) =
      (unlockNetwork K wires).emitted s es + (emissions u e).length := Network.emitted_concat e hu
  rw [hconcat, unlockOut_step huv, List.length_append, ih, Nat.add_comm, Nat.add_assoc]

variable [DecidableEq ι]

/-- In a window shorter than half a period the nodes emit at most one relay each. -/
theorem length_sent_le [Fintype ι] (hT : 500 * T.toNat < 2 ^ 32)
    (hshort : ∀ i, b i < a i + 500 * T.toNat) (hs : ∀ i, (s.nodes i).T = T)
    (hwin : ∀ l ∈ ls, l.2.InWindow (a l.1) (b l.1))
    (h : (unlockNetwork K wires).machine.run s ls = some t) :
    ((unlockNetwork K wires).sent s ls).length ≤ Fintype.card ι + firings ls := by
  rw [Network.length_sent_of_run h, firings, ← Network.sum_countP_component, Fintype.card,
    Finset.card_eq_sum_ones, ← Finset.sum_add_distrib]
  refine Finset.sum_le_sum fun i _ ↦ ?_
  have hrun := Network.run_component h i
  have hone : (acceptedTimes K (s.nodes i) (Network.component i ls)).length ≤ 1 :=
    length_acceptedTimes_le_one (by rw [hs]; exact hT) (by rw [hs]; exact hshort i)
      (fun e he ↦ hwin (i, e) (Network.mem_component.mp he)) hrun
  rw [emitted_eq hrun]
  exact Nat.add_le_add_right hone _

/-- **The flood is bounded.** Let the nodes have the same period and let the window of each, read on
its own clock, be shorter than half of it. In the window, from any state, along any wiring and in
any order of delivery: each node relays at most one pulse; the pulses emitted are at most as many as
there are nodes and expiries of timers; the pulses delivered are bounded; and no chain of
deliveries goes on for ever. -/
theorem flood_bounded [Fintype ι] (hT : 500 * T.toNat < 2 ^ 32)
    (hshort : ∀ i, b i < a i + 500 * T.toNat) (hs : ∀ i, (s.nodes i).T = T) :
    (∀ ls t, (∀ l ∈ ls, l.2.InWindow (a l.1) (b l.1)) →
      (unlockNetwork K wires).machine.run s ls = some t →
      (∀ i, (t.nodes i).relayTimes.length ≤ (s.nodes i).relayTimes.length + 1) ∧
      ∑ i, (t.nodes i).unlockOut.length ≤
        ∑ i, (s.nodes i).unlockOut.length + (Fintype.card ι + firings ls) ∧
      (unlockNetwork K wires).receptions ls ≤ s.inFlight.length +
        (unlockNetwork K wires).degree * (Fintype.card ι + firings ls)) ∧
    ∀ chain : ℕ → ι × Event,
      (∀ k, (chain k).2.isPulse = true ∧ (chain k).2.InWindow (a (chain k).1) (b (chain k).1)) →
      ∃ m, (unlockNetwork K wires).machine.run s ((List.range m).map chain) = none := by
  have hbound : ∀ ls t, (∀ l ∈ ls, l.2.InWindow (a l.1) (b l.1)) →
      (unlockNetwork K wires).machine.run s ls = some t →
      (unlockNetwork K wires).receptions ls ≤ s.inFlight.length +
        (unlockNetwork K wires).degree * (Fintype.card ι + firings ls) := by
    intro ls t hwin h
    refine (Network.receptions_le h).trans (Nat.add_le_add_left (Nat.mul_le_mul_left _ ?_) _)
    exact length_sent_le hT hshort hs hwin h
  refine ⟨fun ls t hwin h ↦ ⟨fun i ↦ ?_, ?_, hbound ls t hwin h⟩, fun chain hchain ↦ ?_⟩
  · have hrun := Network.run_component h i
    have hone : (acceptedTimes K (s.nodes i) (Network.component i ls)).length ≤ 1 :=
      length_acceptedTimes_le_one (by rw [hs]; exact hT) (by rw [hs]; exact hshort i)
        (fun e he ↦ hwin (i, e) (Network.mem_component.mp he)) hrun
    rw [relayTimes_of_run hrun, List.length_append, List.length_reverse, Nat.add_comm]
    exact Nat.add_le_add_left hone _
  · have hsum : ∑ i, (t.nodes i).unlockOut.length = ∑ i, (s.nodes i).unlockOut.length +
        ((unlockNetwork K wires).sent s ls).length := by
      rw [Network.length_sent_of_run h, ← Finset.sum_add_distrib]
      exact Finset.sum_congr rfl fun i _ ↦ length_unlockOut_of_run (Network.run_component h i)
    rw [hsum]
    exact Nat.add_le_add_left (length_sent_le hT hshort hs hwin h) _
  · by_contra hno
    push Not at hno
    -- a prefix of the chain with one delivery more than the bound allows
    obtain ⟨m, hm⟩ : ∃ m, m = s.inFlight.length +
        (unlockNetwork K wires).degree * Fintype.card ι + 1 := ⟨_, rfl⟩
    obtain ⟨t, ht⟩ := Option.ne_none_iff_exists'.mp (hno m)
    have hmem : ∀ l ∈ (List.range m).map chain, ∃ k, chain k = l := fun l hl ↦
      (List.mem_map.mp hl).imp fun k hk ↦ hk.2
    have hfire : firings ((List.range m).map chain) = 0 := by
      refine List.countP_eq_zero.mpr fun l hl ↦ ?_
      obtain ⟨k, rfl⟩ := hmem l hl
      have hpulse := (hchain k).1
      cases hk : (chain k).2 with
      | fire i garbage => rw [hk] at hpulse; exact absurd hpulse Bool.false_ne_true
      | _ => exact Bool.false_ne_true
    have hrec : (unlockNetwork K wires).receptions ((List.range m).map chain) = m := by
      rw [Network.receptions, List.countP_eq_length.mpr, List.length_map, List.length_range]
      intro l hl
      obtain ⟨k, rfl⟩ := hmem l hl
      exact (hchain k).1
    have hle := hbound _ t (fun l hl ↦ by
      obtain ⟨k, rfl⟩ := hmem l hl
      exact (hchain k).2) ht
    rw [hrec, hfire, Nat.add_zero] at hle
    omega

/-- Two nodes wired to each other: a pulse goes once around and is then dropped. -/
theorem flood_bounded_pair :
    ∃ t, (unlockNetwork .linux fun b : Bool ↦ [!b]).machine.run
        ⟨fun _ ↦ defaultNode (some .empty), [false]⟩
        [(false, .pulse ⟨15000000, 15001000, 15001000, 0, 0⟩),
          (true, .pulse ⟨15010000, 15011000, 15011000, 0, 0⟩),
          (false, .pulse ⟨15020000, 0, 0, 0, 0⟩)] = some t ∧
      ∀ b, (t.nodes b).relayTimes.length ≤ 1 := by
  have hrun : ((unlockNetwork .linux fun b : Bool ↦ [!b]).machine.run
      ⟨fun _ ↦ defaultNode (some .empty), [false]⟩
      [(false, .pulse ⟨15000000, 15001000, 15001000, 0, 0⟩),
        (true, .pulse ⟨15010000, 15011000, 15011000, 0, 0⟩),
        (false, .pulse ⟨15020000, 0, 0, 0, 0⟩)]).isSome = true := by decide +kernel
  obtain ⟨t, ht⟩ := Option.isSome_iff_exists.mp hrun
  refine ⟨t, ht, fun b ↦ ?_⟩
  refine ((flood_bounded (T := 20000) (a := fun _ ↦ 15000000) (b := fun _ ↦ 15500000) (by decide)
    (fun _ ↦ by decide) (fun _ ↦ rfl)).1 _ t ?_ ht).1 b
  simp [Event.InWindow]

end UcsmaRateControl
