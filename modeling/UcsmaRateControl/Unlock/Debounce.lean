import UcsmaRateControl.Machine.Gate
import UcsmaRateControl.Unlock.Node

/-!
# The debounce test as a gate

The test of `unlock_r_irq_handler` accepts a pulse if it comes at least `T * 500` nanoseconds, and
less than one second, after the stamp in `last_unlock`. This is a refractory gate, and a node
refines it: `last_unlock` and `last_unlock_2nd` are the last two openings, the relayed pulses are
the history, and timer callbacks do not touch it. The threshold is the product as computed, in 32
bits, so the refinement needs no bound on `T`.
-/

namespace UcsmaRateControl

/-! ## One test -/

namespace Globals

variable (g : Globals)

/-- The threshold of the debounce test, in nanoseconds, as computed. -/
def threshold : ℤ := (g.T * 500).toNat

theorem threshold_nonneg : 0 ≤ g.threshold := Int.natCast_nonneg _

theorem threshold_eq (h : 500 * g.T.toNat < 2 ^ 32) : g.threshold = 500 * g.T.toNat := by
  rw [threshold, UInt32.toNat_mul, show (500 : UInt32).toNat = 500 from rfl,
    Nat.mod_eq_of_lt (by omega)]
  omega

/-- **The debounce test is a gate.** -/
theorem not_rejects_iff (now : ℕ) :
    ¬g.Rejects now ↔ Gate.Opens g.threshold 1000000000 g.lastUnlock.toNs now := by
  have hsub : (timespecSub (Timespec.ofNs now) g.lastUnlock).toNs = now - g.lastUnlock.toNs := by
    rw [toNs_timespecSub, Timespec.toNs_ofNs]
  have hnn := g.threshold_nonneg
  simp only [Rejects, not_or, not_not, UInt32.lt_iff_toNat_lt, Timespec.toNat_nsecU32]
  constructor
  · rintro ⟨hsec, hge⟩
    have hns := Timespec.tvNsec_eq_toNs hsec
    have hwin := Timespec.tvSec_eq_zero_iff.mp hsec
    rw [hsub] at hns hwin
    rw [threshold]
    constructor <;> omega
  · rintro ⟨hlo, hhi⟩
    rw [threshold] at hlo hnn
    have hsec : (timespecSub (Timespec.ofNs now) g.lastUnlock).tvSec = 0 := by
      rw [Timespec.tvSec_eq_zero_iff, hsub]
      omega
    have hns := Timespec.tvNsec_eq_toNs hsec
    rw [hsub] at hns
    exact ⟨hsec, by omega⟩

end Globals

/-- The modulus of both draws is not zero. -/
theorem add_self_ne_zero {Delta : UInt32} (h0 : 0 < Delta.toNat) (h : Delta.toNat < 2 ^ 31) :
    Delta + Delta ≠ 0 := by
  intro hzero
  have hnat := congrArg UInt32.toNat hzero
  rw [UInt32.toNat_add, Nat.mod_eq_of_lt (by omega)] at hnat
  have : (0 : UInt32).toNat = 0 := rfl
  omega

/-! ## The refinement -/

/-- The times of the pulses relayed so far, newest first. -/
def Globals.relayTimes (g : Globals) : List ℕ :=
  (g.unlockOut.filter fun m ↦ m.source = .relay).map Emission.time

/-- The pulse that an event accepts, by its time. -/
def acceptance (s : Node) : Event → List ℕ
  | .pulse i => if s.Accepts i then [i.now] else []
  | _ => []

/-- The times of the accepted pulses of a run, oldest first. -/
def acceptedTimes (K : Kernel) (s : Node) (es : List Event) : List ℕ :=
  (unlockNode K).trace acceptance s es

theorem acceptedTimes_concat {K : Kernel} {s t : Node} {es : List Event} (e : Event)
    (h : (unlockNode K).run s es = some t) :
    acceptedTimes K s (es ++ [e]) = acceptedTimes K s es ++ acceptance t e :=
  Machine.trace_concat acceptance e h

/-- The arrival that an event makes at the gate: a pulse whose handler gets to the debounce test. -/
def arrival (s : Node) : Event → List (ℤ × ℤ)
  | .pulse i =>
    if s.driverLock = false ∧ s.txbufFff.isSome = true then [(s.threshold, (i.now : ℤ))] else []
  | _ => []

/-- The gate that `s` refines, its history appended to the relays of `base`. -/
structure Tracks (base : List ℕ) (s : Node) (o : Gate.State ℤ) : Prop where
  relays : s.relayTimes.map Nat.cast = o.opened ++ base.map Nat.cast
  stamps : s.halted ≠ some .trapped → s.lastUnlock.toNs = o.last ∧ s.lastUnlock2nd.toNs = o.prev

section Refinement

variable {K : Kernel} {s t : Node} {e : Event}

theorem Tracks.stamps_of_running {base : List ℕ} {o : Gate.State ℤ} (h : Tracks base s o)
    (hrun : s.halted = none) : s.lastUnlock.toNs = o.last ∧ s.lastUnlock2nd.toNs = o.prev :=
  h.stamps (fun htrap ↦ nomatch hrun.symm.trans htrap)

/-- The debounce test is the gate. -/
theorem Tracks.opens_iff {base : List ℕ} {o : Gate.State ℤ} (h : Tracks base s o)
    (hrun : s.halted = none) (now : ℕ) :
    Gate.Opens s.threshold 1000000000 o.last (now : ℤ) ↔ ¬s.Rejects now := by
  rw [← (h.stamps_of_running hrun).1, s.not_rejects_iff now]

/-- A step that brings nothing to the gate's door and keeps the stamps and the relays. -/
theorem Tracks.frame {base : List ℕ} {o : Gate.State ℤ} (h : Tracks base s o)
    (hrun : s.halted = none) (hout : t.relayTimes = s.relayTimes)
    (hlast : t.lastUnlock = s.lastUnlock) (h2nd : t.lastUnlock2nd = s.lastUnlock2nd) :
    Tracks base t o := by
  refine ⟨by rw [hout]; exact h.relays, fun _ ↦ ?_⟩
  rw [hlast, h2nd]
  exact h.stamps_of_running hrun

theorem Tracks.step {base : List ℕ} {o : Gate.State ℤ} (h : Tracks base s o)
    (hst : (unlockNode K).step s e = some t) :
    ∃ p, (Gate.machine 1000000000).run o (arrival s e) = some p ∧ Tracks base t p := by
  cases Took.of_step hst with
  | fireNull i garbage due null =>
    exact ⟨o, rfl, h.frame due.running rfl rfl rfl⟩
  | fireSome i garbage due txbuf list =>
    exact ⟨o, rfl, h.frame due.running rfl rfl rfl⟩
  | pulseSpins i arrives locked =>
    refine ⟨o, ?_, h.frame arrives.running rfl rfl rfl⟩
    rw [arrival, if_neg (fun hc ↦ Bool.eq_false_iff.mp hc.1 locked)]
    rfl
  | pulseNull i arrives free null =>
    refine ⟨o, ?_, h.frame arrives.running rfl rfl rfl⟩
    rw [arrival, if_neg (fun hc ↦ Option.isSome_iff_ne_none.mp hc.2 null)]
    rfl
  | pulseRejects i arrives free txbuf list rejects =>
    refine ⟨o, ?_, h.frame arrives.running rfl rfl rfl⟩
    rw [arrival, if_pos ⟨free, Option.isSome_of_eq_some list⟩]
    have hno : ¬Gate.Opens s.threshold 1000000000 o.last (i.now : ℤ) :=
      fun ho ↦ (h.opens_iff arrives.running i.now).mp ho rejects
    exact congrArg some (if_neg hno)
  | pulseTraps i arrives txbuf list accepts zero =>
    -- the division by zero comes after the relay and before the stamps are moved
    refine ⟨⟨i.now, o.last, i.now :: o.opened⟩, ?_, ?_, fun htrap ↦ absurd rfl htrap⟩
    · rw [arrival, if_pos ⟨accepts.1, accepts.2.1⟩]
      have ho := (h.opens_iff arrives.running i.now).mpr accepts.2.2
      exact congrArg some (if_pos ho)
    · exact congrArg (List.cons (i.now : ℤ)) h.relays
  | pulseAccepts i arrives txbuf list accepts nonzero =>
    refine ⟨⟨i.now, o.last, i.now :: o.opened⟩, ?_, ?_, fun _ ↦ ⟨Timespec.toNs_ofNs _, ?_⟩⟩
    · rw [arrival, if_pos ⟨accepts.1, accepts.2.1⟩]
      have ho := (h.opens_iff arrives.running i.now).mpr accepts.2.2
      exact congrArg some (if_pos ho)
    · exact congrArg (List.cons (i.now : ℤ)) h.relays
    · exact (h.stamps_of_running arrives.running).1
  | setT T running => exact ⟨o, rfl, h.frame running rfl rfl rfl⟩
  | setDelta Delta running => exact ⟨o, rfl, h.frame running rfl rfl rfl⟩
  | txbuf txbuf running => exact ⟨o, rfl, h.frame running rfl rfl rfl⟩
  | tick t running le => exact ⟨o, rfl, h.frame running rfl rfl rfl⟩

/-- **A node refines its gate.** The gate starts from the two stamps of the start state. -/
theorem refines_gate {es : List Event} (h : (unlockNode K).run s es = some t) :
    ∃ o, (Gate.machine 1000000000).run ⟨s.lastUnlock.toNs, s.lastUnlock2nd.toNs, []⟩
        ((unlockNode K).trace arrival s es) = some o ∧ Tracks s.relayTimes t o :=
  Machine.simulation (fun _ _ _ _ hR hst ↦ hR.step hst) ⟨rfl, fun _ ↦ ⟨rfl, rfl⟩⟩ h

/-- The relays among the emissions of a step are the pulses it accepts. -/
theorem relays_emissions (s : Node) (e : Event) :
    ((emissions s e).filter fun m ↦ m.source = .relay).map Emission.time = acceptance s e := by
  cases e with
  | pulse i =>
    rw [emissions, acceptance]
    split <;> rfl
  | _ => rfl

theorem relayTimes_step (hst : (unlockNode K).step s e = some t) :
    t.relayTimes = acceptance s e ++ s.relayTimes := by
  rw [Globals.relayTimes, unlockOut_step hst, List.filter_append, List.map_append,
    relays_emissions]
  rfl

/-- The pulses relayed in a run are the accepted ones. -/
theorem relayTimes_of_run {es : List Event} (h : (unlockNode K).run s es = some t) :
    t.relayTimes = (acceptedTimes K s es).reverse ++ s.relayTimes := by
  refine Machine.run_induction
    (P := fun es t ↦ t.relayTimes = (acceptedTimes K s es).reverse ++ s.relayTimes) rfl ?_ h
  intro es u e v hu ih huv
  have hone : (acceptance u e).reverse = acceptance u e := by
    cases e <;> try rfl
    rw [acceptance]
    split <;> rfl
  rw [relayTimes_step huv, ih, acceptedTimes_concat e hu, List.reverse_append, hone,
    List.append_assoc]

end Refinement

end UcsmaRateControl
