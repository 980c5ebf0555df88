import UcsmaRateControl.Machine.Broadcast
import UcsmaRateControl.Network.Flood

/-!
# The reach of a flood of unlock signals

The bound on the flood says how often the nodes relay at most. Here is how often they do relay: when
the wires have fallen silent, a node that was ready at the start of the window has relayed once if a
path of wires leads to it from a pulse that was travelling, or from a node whose timer expired, and
not at all otherwise. Neither the order in which the pulses are delivered nor the shape of the graph
matters.
-/

namespace UcsmaRateControl

/-! ## One node in a short window -/

/-- A node that will relay the next pulse, as long as it comes between `a` and `b`. -/
structure Node.Ready (s : Node) (a b : ℕ) : Prop where
  running : s.halted = none
  free : s.driverLock = false
  list : s.txbufFff.isSome = true
  rested : s.lastUnlock.toNs + 500 * s.T.toNat ≤ a
  alive : (b : ℤ) < s.lastUnlock.toNs + 1000000000

section Node

variable {K : Kernel} {s t : Node} {e : Event} {es : List Event} {a b : ℕ}

theorem Node.Ready.accepts (h : s.Ready a b) (hT : 500 * s.T.toNat < 2 ^ 32) {i : IrqInput}
    (ha : a ≤ i.now) (hb : i.now ≤ b) : s.Accepts i := by
  refine ⟨h.free, h.list, (s.not_rejects_iff i.now).mpr ?_⟩
  have hlo := h.rested
  have hhi := h.alive
  rw [s.threshold_eq hT]
  constructor <;> omega

/-- A ready node stays ready until a pulse comes. -/
theorem Node.Ready.step (h : s.Ready a b) (hwin : e.InWindow a b) (hne : e.isPulse = false)
    (hst : Took K s e t) : t.Ready a b := by
  obtain ⟨hrun, hfree, hlist, hlo, hhi⟩ := h
  cases hst with
  | fireNull i garbage due null => exact ⟨hrun, hfree, hlist, hlo, hhi⟩
  | fireSome i garbage due txbuf list => exact ⟨hrun, hfree, hlist, hlo, hhi⟩
  | setT T => exact absurd hwin id
  | setDelta | tick => exact ⟨hrun, hfree, hlist, hlo, hhi⟩
  | txbuf => exact ⟨hrun, hfree, rfl, hlo, hhi⟩
  | _ => exact absurd hne (by simp [Event.isPulse])

/-- **A ready node relays the first pulse that reaches it.** -/
theorem acceptedTimes_ne_nil (hs : s.Ready a b) (hT : 500 * s.T.toNat < 2 ^ 32)
    (hwin : ∀ e ∈ es, e.InWindow a b) (h : (unlockNode K).run s es = some t)
    (hpulse : ∃ e ∈ es, e.isPulse = true) : acceptedTimes K s es ≠ [] := by
  -- as long as no pulse has been accepted none has come, and the node is still ready
  have hinv : (∀ e ∈ es, e.InWindow a b) → acceptedTimes K s es = [] →
      t.Ready a b ∧ ∀ e ∈ es, e.isPulse = false := by
    refine Machine.run_induction (P := fun es t ↦ (∀ e ∈ es, e.InWindow a b) →
      acceptedTimes K s es = [] → t.Ready a b ∧ ∀ e ∈ es, e.isPulse = false) ?_ ?_ h
    · exact fun _ _ ↦ ⟨hs, fun e he ↦ absurd he List.not_mem_nil⟩
    · intro es u e v hu ih huv hwin hnone
      rw [acceptedTimes_concat e hu, List.append_eq_nil_iff] at hnone
      have hwin' : ∀ d ∈ es, d.InWindow a b := fun d hd ↦ hwin d (List.mem_append_left _ hd)
      obtain ⟨hready, hno⟩ := ih hwin' hnone.1
      have he : e.InWindow a b := hwin e List.mem_concat_self
      have hne : e.isPulse = false := by
        rw [Bool.eq_false_iff]
        intro htrue
        cases e with
        | pulse i =>
          have hTu : 500 * u.T.toNat < 2 ^ 32 := by rwa [T_eq_of_inWindow hwin' hu]
          have hacc : acceptance u (.pulse i) = [i.now] := if_pos (hready.accepts hTu he.1 he.2)
          exact absurd (hacc.symm.trans hnone.2) (List.cons_ne_nil _ _)
        | _ => exact absurd htrue Bool.false_ne_true
      refine ⟨hready.step he hne (Took.of_step huv), fun d hd ↦ ?_⟩
      rcases List.mem_append.mp hd with hd | hd
      · exact hno d hd
      · exact List.mem_singleton.mp hd ▸ hne
  intro hnone
  obtain ⟨e, he, htrue⟩ := hpulse
  exact absurd (((hinv hwin hnone).2 e he).symm.trans htrue) Bool.false_ne_true

/-- Only a pulse is accepted. -/
theorem acceptedTimes_eq_nil (hno : ∀ e ∈ es, e.isPulse = false) :
    acceptedTimes K s es = [] := by
  refine List.eq_nil_iff_forall_not_mem.mpr fun x hx ↦ ?_
  obtain ⟨pre, e, u, hp, -, hxe⟩ := Machine.mem_trace hx
  have he := hno e (hp.subset List.mem_concat_self)
  cases e with
  | pulse i => exact absurd he.symm Bool.false_ne_true
  | _ => exact absurd hxe List.not_mem_nil

end Node

/-! ## The network -/

section Network

variable {ι : Type*} [DecidableEq ι] {K : Kernel} {wires : ι → List ι} {T : UInt32} {a b : ι → ℕ}
  {s t : Network.State ι Node} {ls : List (ι × Event)}

/-- The timer of the node expires in the run. -/
def Fires (ls : List (ι × Event)) (i : ι) : Prop := ∃ e, (i, e) ∈ ls ∧ e.isFire = true

/-- A node sends if it accepts a pulse or its timer expires. -/
theorem mem_sent_of_run (h : (unlockNetwork K wires).machine.run s ls = some t) {i : ι}
    (hi : acceptedTimes K (s.nodes i) (Network.component i ls) ≠ [] ∨ Fires ls i) :
    i ∈ (unlockNetwork K wires).sent s ls := by
  rw [← List.count_pos_iff, Network.count_sent_of_run h, emitted_eq (Network.run_component h i)]
  rcases hi with hacc | ⟨e, he, hfire⟩
  · exact Nat.add_pos_left (List.length_pos_of_ne_nil hacc) _
  · exact Nat.add_pos_right _ (List.countP_pos_iff.mpr ⟨e, Network.mem_component.mpr he, hfire⟩)

omit [DecidableEq ι] in
/-- A node emits when it receives a pulse or its timer expires. -/
theorem receives_or_fires {l : ι × Event} (hl : l ∈ ls) {u : Node}
    (h : (unlockNetwork K wires).emits u l.2 ≠ 0) :
    (unlockNetwork K wires).receives l.2 = true ∨ Fires ls l.1 := by
  obtain ⟨i, e⟩ := l
  cases e with
  | fire j garbage => exact .inr ⟨_, hl, rfl⟩
  | pulse j => exact .inl rfl
  | _ => exact absurd rfl h

/-- **The flood reaches what it can reach, once.** Let the nodes have the same period, let the
window of each, read on its own clock, be shorter than half of it, and let every node be ready for
its window. When no pulse is on the wires any more, a node has relayed exactly one pulse if a path
of wires leads to it from a pulse that was in flight at the start, or from a node whose timer
expired; the other nodes have relayed none. -/
theorem flood_covers (hT : 500 * T.toNat < 2 ^ 32) (hshort : ∀ i, b i < a i + 500 * T.toNat)
    (hs : ∀ i, (s.nodes i).T = T) (hready : ∀ i, (s.nodes i).Ready (a i) (b i))
    (hwin : ∀ l ∈ ls, l.2.InWindow (a l.1) (b l.1))
    (h : (unlockNetwork K wires).machine.run s ls = some t) (hrest : t.inFlight = []) (i : ι) :
    ((unlockNetwork K wires).Reached s.inFlight (Fires ls) i →
      (t.nodes i).relayTimes.length = (s.nodes i).relayTimes.length + 1) ∧
    (¬(unlockNetwork K wires).Reached s.inFlight (Fires ls) i →
      (t.nodes i).relayTimes = (s.nodes i).relayTimes) := by
  have hwin' : ∀ j, ∀ e ∈ Network.component j ls, e.InWindow (a j) (b j) := fun j e he ↦
    hwin (j, e) (Network.mem_component.mp he)
  have hrelay : ∀ j, (unlockNetwork K wires).Receives ls j →
      acceptedTimes K (s.nodes j) (Network.component j ls) ≠ [] := by
    rintro j ⟨e, he, hpulse⟩
    exact acceptedTimes_ne_nil (hready j) (by rw [hs]; exact hT) (hwin' j)
      (Network.run_component h j) ⟨e, Network.mem_component.mpr he, hpulse⟩
  have hiff : (unlockNetwork K wires).Receives ls i ↔
      (unlockNetwork K wires).Reached s.inFlight (Fires ls) i :=
    Network.receives_iff_reached h hrest
      (fun j hj ↦ mem_sent_of_run h (hj.imp_left (hrelay j)))
      (fun l hl u hu ↦ receives_or_fires hl hu) i
  have hrun := Network.run_component h i
  rw [← hiff, relayTimes_of_run hrun]
  constructor
  · intro hrec
    have hpos := List.length_pos_of_ne_nil (hrelay i hrec)
    have hone : (acceptedTimes K (s.nodes i) (Network.component i ls)).length ≤ 1 :=
      length_acceptedTimes_le_one (by rw [hs]; exact hT) (by rw [hs]; exact hshort i) (hwin' i) hrun
    rw [List.length_append, List.length_reverse]
    omega
  · intro hrec
    rw [acceptedTimes_eq_nil]
    · rfl
    · intro e he
      rw [Bool.eq_false_iff]
      exact fun hpulse ↦ hrec ⟨e, Network.mem_component.mp he, hpulse⟩

/-- A chain of three nodes: the pulse goes along it. -/
theorem flood_covers_chain :
    ∃ t, (unlockNetwork .linux fun i : Fin 3 ↦ if i.val < 2 then [i + 1] else []).machine.run
        ⟨fun _ ↦ defaultNode (some .empty), [0]⟩
        [(0, .pulse ⟨15000000, 15001000, 15001000, 0, 0⟩),
          (1, .pulse ⟨15010000, 15011000, 15011000, 0, 0⟩),
          (2, .pulse ⟨15020000, 15021000, 15021000, 0, 0⟩)] = some t ∧
      (t.nodes 2).relayTimes.length = 1 := by
  have hrun : ((unlockNetwork .linux fun i : Fin 3 ↦
      if i.val < 2 then [i + 1] else []).machine.run ⟨fun _ ↦ defaultNode (some .empty), [0]⟩
      [(0, .pulse ⟨15000000, 15001000, 15001000, 0, 0⟩),
        (1, .pulse ⟨15010000, 15011000, 15011000, 0, 0⟩),
        (2, .pulse ⟨15020000, 15021000, 15021000, 0, 0⟩)]).any
      (fun t ↦ t.inFlight.isEmpty) = true := by decide +kernel
  obtain ⟨t, ht, hempty⟩ := (Option.any_eq_true _ _).mp hrun
  have hready : (defaultNode (some .empty)).Ready 15000000 15500000 :=
    ⟨rfl, rfl, rfl, by decide, by decide⟩
  refine ⟨t, ht, (flood_covers (T := 20000) (a := fun _ ↦ 15000000) (b := fun _ ↦ 15500000)
    (by decide) (fun _ ↦ by decide) (fun _ ↦ rfl) (fun _ ↦ hready) (by simp [Event.InWindow]) ht
    (List.isEmpty_iff.mp hempty) 2).1 ?_⟩
  exact ((Network.reached_of_mem (i := 0) List.mem_cons_self).wired (j := 1)
    List.mem_cons_self).wired List.mem_cons_self

end Network

end UcsmaRateControl
