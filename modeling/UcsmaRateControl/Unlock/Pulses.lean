import UcsmaRateControl.Unlock.Stamps

/-!
# What a node emits, and when

An accepted pulse arms the timer for the period, lengthened or shortened by one draw, less the time
already slept by the other. `Fits.rearmDelay_add` computes that delay on machine integers, for draws
that fit the period. From it follow two results about whole runs: the pulses a node emits are half a
period apart as long as no echo of its own timer is accepted, and a node that follows a regular
signal never originates one.
-/

namespace UcsmaRateControl

variable {K : Kernel} {s t : Node} {e : Event} {es : List Event} {i : InitInput}

/-! ## The delay for which the timer is armed -/

namespace Globals

variable {g : Globals} {j : IrqInput}

/-- The draw that changes the period, in microseconds. -/
def rngOf (g : Globals) (j : IrqInput) : UInt32 := j.rng % (g.Delta + g.Delta)

/-- The draws leave a period of at least half its length, and of which the backoff can be taken away
and the nanoseconds computed without wrapping around. -/
structure Fits (g : Globals) (j : IrqInput) : Prop where
  half_le : g.T.toNat ≤ 2 * (g.period (g.rngOf j)).toNat
  backoff_le : (g.backoffOf j).toNat ≤ (g.period (g.rngOf j)).toNat
  lt_wrap : 1000 * (g.period (g.rngOf j)).toNat < 2 ^ 32

instance (g : Globals) (j : IrqInput) : Decidable (g.Fits j) :=
  decidable_of_iff (_ ∧ _ ∧ _) ⟨fun ⟨h1, h2, h3⟩ ↦ ⟨h1, h2, h3⟩, fun ⟨h1, h2, h3⟩ ↦ ⟨h1, h2, h3⟩⟩

/-- Parameters for which all draws fit. -/
structure Tame (g : Globals) : Prop where
  Delta_pos : 0 < g.Delta.toNat
  four_mul_le : 4 * g.Delta.toNat ≤ g.T.toNat
  lt_wrap : 1000 * (g.T.toNat + 2 * g.Delta.toNat) < 2 ^ 32

theorem Tame.congr {g' : Globals} (h : g.Tame) (hT : g'.T = g.T) (hDelta : g'.Delta = g.Delta) :
    g'.Tame := by
  refine ⟨?_, ?_, ?_⟩ <;> simp only [hT, hDelta]
  · exact h.Delta_pos
  · exact h.four_mul_le
  · exact h.lt_wrap

theorem Tame.toNat_add (h : g.Tame) : (g.Delta + g.Delta).toNat = 2 * g.Delta.toNat := by
  have hwrap := h.lt_wrap
  rw [UInt32.toNat_add, Nat.mod_eq_of_lt (by omega), Nat.two_mul]

theorem Tame.add_ne_zero (h : g.Tame) : g.Delta + g.Delta ≠ 0 := by
  have hwrap := h.lt_wrap
  exact add_self_ne_zero h.Delta_pos (by omega)

theorem Tame.rng_lt (h : g.Tame) : (g.rngOf j).toNat < 2 * g.Delta.toNat := by
  rw [rngOf, UInt32.toNat_mod, h.toNat_add]
  exact Nat.mod_lt _ (Nat.mul_pos Nat.two_pos h.Delta_pos)

theorem Tame.backoff_lt (h : g.Tame) : (g.backoffOf j).toNat < 2 * g.Delta.toNat := by
  rw [backoffOf, UInt32.toNat_mod, h.toNat_add]
  exact Nat.mod_lt _ (Nat.mul_pos Nat.two_pos h.Delta_pos)

/-- The period is lengthened or shortened by the draw. -/
theorem Tame.toNat_period (h : g.Tame) :
    (g.period (g.rngOf j)).toNat = g.T.toNat + (g.rngOf j).toNat ∨
      (g.period (g.rngOf j)).toNat = g.T.toNat - (g.rngOf j).toNat := by
  have hrng := h.rng_lt (j := j)
  have hfour := h.four_mul_le
  have hwrap := h.lt_wrap
  rw [period]
  split
  · left
    rw [UInt32.toNat_add, Nat.mod_eq_of_lt (by omega)]
  · right
    exact UInt32.toNat_sub_of_le _ _ (UInt32.le_iff_toNat_le.mpr (by omega))

theorem Tame.fits (h : g.Tame) (j : IrqInput) : g.Fits j := by
  have hrng := h.rng_lt (j := j)
  have hbackoff := h.backoff_lt (j := j)
  have hfour := h.four_mul_le
  have hwrap := h.lt_wrap
  rcases h.toNat_period (j := j) with hp | hp
  · exact ⟨by omega, by omega, by omega⟩
  · exact ⟨by omega, by omega, by omega⟩

/-- **The delay of an accepted pulse**, together with the backoff, is the period. -/
theorem Fits.rearmDelay_add (h : g.Fits j) :
    g.rearmDelay j + 1000 * (g.backoffOf j).toNat = 1000 * (g.period (g.rngOf j)).toNat := by
  have hle := h.backoff_le
  have hwrap := h.lt_wrap
  have hsub := UInt32.toNat_sub_of_le _ _ (UInt32.le_iff_toNat_le.mpr hle)
  have hdelay : g.rearmDelay j = ((g.period (g.rngOf j) - g.backoffOf j) * 1000).toNat := by
    rw [rearmDelay, clampTimer_eq]
    rfl
  rw [hdelay, toNat_mul_thousand (by omega), hsub, ← Nat.mul_add, Nat.sub_add_cancel hle]

/-- The backoff is slept in full before the timer is armed. -/
theorem Fits.slept_le (h : g.Fits j) (htimed : g.Timed K j) :
    j.now + 1000 * (g.backoffOf j).toNat ≤ j.armed := by
  have hle := h.backoff_le
  have hwrap := h.lt_wrap
  calc j.now + 1000 * (g.backoffOf j).toNat
      ≤ j.now + K.udelay1 + (g.backoffOf j * 1000).toNat := by
        rw [toNat_mul_thousand (by omega)]
        omega
    _ ≤ j.restored := htimed.1
    _ ≤ j.armed := htimed.2

/-- The new expiry is at least the period away from the pulse. -/
theorem Fits.le_expires (h : g.Fits j) (htimed : g.Timed K j) :
    j.now + 1000 * (g.period (g.rngOf j)).toNat ≤ j.armed + g.rearmDelay j := by
  rw [← h.rearmDelay_add]
  have hslept := h.slept_le htimed
  omega

/-- Draws that fit leave half of the period. -/
theorem Fits.half_le_expires (h : g.Fits j) (htimed : g.Timed K j) :
    j.now + 500 * g.T.toNat ≤ j.armed + g.rearmDelay j := by
  have hhalf := h.half_le
  refine le_trans (Nat.add_le_add_left ?_ _) (h.le_expires htimed)
  omega

/-- Tame parameters leave more than `T - 2 * Delta` of the period. -/
theorem Tame.lt_expires (h : g.Tame) (htimed : g.Timed K j) :
    j.now + 1000 * (g.T.toNat - 2 * g.Delta.toNat) < j.armed + g.rearmDelay j := by
  have hrng := h.rng_lt (j := j)
  have hfour := h.four_mul_le
  refine lt_of_lt_of_le (Nat.add_lt_add_left ?_ _) ((h.fits j).le_expires htimed)
  rcases h.toNat_period (j := j) with hp | hp <;> omega

end Globals

/-! ## The distance between two pulses of a node -/

/-- The times of all pulses emitted so far, newest first. -/
def Globals.outTimes (g : Globals) : List ℤ := g.unlockOut.map fun m ↦ (m.time : ℤ)

/-- The timer fires when it is due, and the period is not rewritten. -/
def OnTime (s : Node) : Event → Prop
  | .fire j _ => j.start = s.unlockTimer.expires
  | .setT _ => False
  | _ => True

/-- A callback runs after the first transmission, and the draws of an accepted pulse fit. -/
def Regular (s : Node) : Event → Prop
  | .fire _ _ => s.txbufFff.isSome = true
  | .pulse j => s.Accepts j → s.Fits j
  | _ => True

/-- An accepted pulse comes at least half a period after the node's own signals. -/
def EchoFree (s : Node) (e : Event) : Prop :=
  ∀ j, e = .pulse j → s.Accepts j →
    ∀ m ∈ s.unlockOut, m.source = .timer → m.time + 500 * s.T.toNat ≤ j.now

instance (s : Node) : DecidablePred (OnTime s)
  | .fire _ _ => inferInstanceAs (Decidable (_ = _))
  | .setT _ => inferInstanceAs (Decidable False)
  | .pulse _ | .setDelta _ | .txbuf _ | .tick _ => inferInstanceAs (Decidable True)

instance (s : Node) : DecidablePred (Regular s)
  | .fire _ _ => inferInstanceAs (Decidable (_ = _))
  | .pulse _ => inferInstanceAs (Decidable (_ → _))
  | .setT _ | .setDelta _ | .txbuf _ | .tick _ => inferInstanceAs (Decidable True)

instance (s : Node) : DecidablePred (EchoFree s)
  | .pulse j =>
    decidable_of_iff (s.Accepts j →
      ∀ m ∈ s.unlockOut, m.source = .timer → m.time + 500 * s.T.toNat ≤ j.now)
      ⟨by rintro h _ ⟨⟩; exact h, fun h ↦ h j rfl⟩
  | .fire _ _ | .setT _ | .setDelta _ | .txbuf _ | .tick _ => .isTrue nofun

/-- What keeps the emissions of a node with period `T` apart. -/
structure Node.Apart (T : UInt32) (s : Node) : Prop where
  period : s.T = T
  spaced : Gate.Spaced (500 * T.toNat : ℤ) s.outTimes
  relay_le : s.halted = none → ∀ m ∈ s.unlockOut, m.source = .relay → m.time ≤ s.lastUnlock.toNs
  add_le : s.halted = none → ∀ m ∈ s.unlockOut, m.time + 500 * T.toNat ≤ s.unlockTimer.expires

theorem Booted.apart (h : Booted s i) : s.Apart s.T := by
  refine ⟨rfl, ?_, fun _ m hm ↦ ?_, fun _ m hm ↦ ?_⟩
  · rw [Globals.outTimes, h.unlockOut]
    exact List.Pairwise.nil
  all_goals
    rw [h.unlockOut] at hm
    exact absurd hm List.not_mem_nil

/-- One more emission, far enough from the ones before. -/
theorem Node.Apart.spaced_cons {T : UInt32} (h : s.Apart T) {time : ℕ}
    (hfar : ∀ m ∈ s.unlockOut, m.time + 500 * T.toNat ≤ time) :
    Gate.Spaced (500 * T.toNat : ℤ) ((time : ℤ) :: s.outTimes) := by
  refine List.pairwise_cons.mpr ⟨fun x hx ↦ ?_, h.spaced⟩
  obtain ⟨m, hm, rfl⟩ := List.mem_map.mp hx
  have hle := hfar m hm
  omega

/-- An accepted pulse that is no echo is far from all emissions: the debounce test keeps it away
from the relays. -/
theorem Node.Apart.far_of_accepts {T : UInt32} {j : IrqInput} (h : s.Apart T)
    (hrun : s.halted = none) (hT : 500 * T.toNat < 2 ^ 32) (ha : s.Accepts j)
    (hecho : ∀ m ∈ s.unlockOut, m.source = .timer → m.time + 500 * s.T.toNat ≤ j.now) :
    ∀ m ∈ s.unlockOut, m.time + 500 * T.toNat ≤ j.now := by
  intro m hm
  cases hsource : m.source with
  | timer => exact h.period ▸ hecho m hm hsource
  | relay =>
    have hopen := ((s.not_rejects_iff j.now).mp ha.2.2).1
    rw [s.threshold_eq (h.period ▸ hT), h.period] at hopen
    have hle := h.relay_le hrun m hm hsource
    omega

theorem Node.Apart.step {T : UInt32} (hT0 : 0 < T.toNat) (hT : 500 * T.toNat < 1000000000)
    (h : s.Apart T) (hon : OnTime s e) (hreg : Regular s e) (hecho : EchoFree s e)
    (hst : (unlockNode K).step s e = some t) : t.Apart T := by
  cases Took.of_step hst with
  | fireNull j garbage due null => exact absurd null (Option.isSome_iff_ne_none.mp hreg)
  | fireSome j garbage due txbuf list =>
    have hinterval : (s.T * 1000).toNat = 1000 * T.toNat := by
      rw [h.period, toNat_mul_thousand (by omega)]
    have hstart : j.start = s.unlockTimer.expires := hon
    have hfwd : s.unlockTimer.expires + 1000 * T.toNat ≤
        K.forward s.unlockTimer.expires j.stop (s.T * 1000).toNat := by
      rw [← hinterval]
      refine K.add_le_forward (by omega) ?_
      exact due.expires_le.trans ((Nat.le_add_right _ _).trans due.stop_le)
    -- the callback runs when the timer is due, which no emission comes close to
    have hfar := h.add_le due.running
    refine ⟨h.period, h.spaced_cons (hstart ▸ hfar), fun hrun m hm hsource ↦ ?_,
      fun hrun m hm ↦ ?_⟩
    · rcases List.mem_cons.mp hm with rfl | hm
      · exact nomatch hsource
      · exact h.relay_le hrun m hm hsource
    · refine le_trans ?_ hfwd
      rcases List.mem_cons.mp hm with rfl | hm
      · change j.start + 500 * T.toNat ≤ _
        omega
      · have hle := hfar m hm
        omega
  | pulseTraps j arrives txbuf list accepts zero =>
    have hfar := h.far_of_accepts arrives.running (by omega) accepts (hecho j rfl accepts)
    exact ⟨h.period, h.spaced_cons hfar, nofun, nofun⟩
  | pulseAccepts j arrives txbuf list accepts nonzero =>
    have hfar := h.far_of_accepts arrives.running (by omega) accepts (hecho j rfl accepts)
    have hexp := (hreg accepts).half_le_expires (arrives.timed accepts)
    rw [h.period] at hexp
    refine ⟨h.period, h.spaced_cons hfar, fun hrun m hm hsource ↦ ?_, fun hrun m hm ↦ ?_⟩
    · refine le_trans ?_ (Timespec.toNs_ofNs j.now).ge
      rcases List.mem_cons.mp hm with rfl | hm
      · exact le_rfl
      · have hle := hfar m hm
        omega
    · rcases List.mem_cons.mp hm with rfl | hm
      · exact hexp
      · have hle := hfar m hm
        exact (hle.trans (Nat.le_add_right _ _)).trans hexp
  | pulseSpins => exact ⟨h.period, h.spaced, nofun, nofun⟩
  | setT T' => exact hon.elim
  | _ => exact ⟨h.period, h.spaced, h.relay_le, h.add_le⟩

/-- Where the relay of an accepted pulse is far from what came before, the pulse was no echo. -/
theorem echoFree_of_spaced (hst : (unlockNode K).step s e = some t)
    (hsp : Gate.Spaced (500 * s.T.toNat : ℤ) t.outTimes) : EchoFree s e := by
  rintro j rfl ha m hm -
  rw [Globals.outTimes, unlockOut_step hst, emissions, if_pos ha, List.singleton_append,
    List.map_cons] at hsp
  have hfar := (List.pairwise_cons.mp hsp).1 m.time (List.mem_map_of_mem hm)
  change (m.time : ℤ) + 500 * s.T.toNat ≤ j.now at hfar
  omega

theorem Node.Apart.of_run (hs : Booted s i) (hT0 : 0 < 500 * s.T.toNat)
    (hT : 500 * s.T.toNat < 1000000000) (hon : (unlockNode K).Meets OnTime s es)
    (hreg : (unlockNode K).Meets Regular s es) (hecho : (unlockNode K).Meets EchoFree s es)
    (h : (unlockNode K).run s es = some t) : t.Apart s.T :=
  Machine.invariant_of_meets (P := Node.Apart s.T)
    (fun _ _ _ hu hC huv ↦ hu.step (by omega) hT hC.1 hC.2.1 hC.2.2 huv) hs.apart
    (hon.and (hreg.and hecho)) h

/-- **The pulses of a node are half a period apart exactly as long as it accepts no echo of its own
signal**, along every run from a successful `unlock_init` whose timer fires on time: they are if it
accepts none and every step is regular, and among the runs whose steps are regular no others have
them apart. -/
theorem spaced_iff_of_run (hs : Started s i) (hT0 : 0 < 500 * s.T.toNat)
    (hT : 500 * s.T.toNat < 1000000000) (hon : (unlockNode K).Meets OnTime s es)
    (h : (unlockNode K).run s es = some t) :
    ((unlockNode K).Meets (fun u e ↦ Regular u e ∧ EchoFree u e) s es →
      (unlockNode K).Throughout (fun u ↦ Gate.Spaced (500 * s.T.toNat : ℤ) u.outTimes) s es) ∧
    ((unlockNode K).Meets Regular s es →
      ((unlockNode K).Throughout (fun u ↦ Gate.Spaced (500 * s.T.toNat : ℤ) u.outTimes) s es ↔
        (unlockNode K).Meets EchoFree s es)) := by
  have henough (hreg : (unlockNode K).Meets Regular s es)
      (hecho : (unlockNode K).Meets EchoFree s es) :
      (unlockNode K).Throughout (fun u ↦ Gate.Spaced (500 * s.T.toNat : ℤ) u.outTimes) s es := by
    intro pre hp u hu
    exact (Node.Apart.of_run hs.booted hT0 hT (hon.of_prefix hp) (hreg.of_prefix hp)
      (hecho.of_prefix hp) hu).spaced
  refine ⟨fun hC ↦ henough (fun pre e hp u hu ↦ (hC pre e hp u hu).1)
    fun pre e hp u hu ↦ (hC pre e hp u hu).2, fun hreg ↦ ⟨fun hsp pre e hp u hu ↦ ?_, henough hreg⟩⟩
  obtain ⟨v, hv⟩ := Machine.exists_run_of_prefix h hp
  obtain ⟨w, hw, hst⟩ := Machine.run_concat_eq_some.mp hv
  obtain rfl : u = w := Option.some_inj.mp (hu.symm.trans hw)
  have hT : u.T = s.T :=
    T_eq_of_meets (fun _ _ ↦ id) (hon.of_prefix ((List.prefix_append pre [e]).trans hp)) hu
  exact echoFree_of_spaced hst (hT ▸ hsp _ hp v hv)

/-- An expiry on time, and a pulse fifteen milliseconds later. -/
def fireThenPulse : List Event :=
  [.fire ⟨20000000, 20001000⟩ .restart, .pulse ⟨35000000, 35001000, 35001000, 7, 0⟩]

/-- Both are signalled, and they are far enough apart. -/
theorem spaced_iff_of_run_fire :
    ∃ t, (unlockNode .linux).run (defaultNode (some .empty)) fireThenPulse = some t ∧
      t.unlockOut = [⟨35000000, .relay⟩, ⟨20000000, .timer⟩] ∧
      (unlockNode .linux).Throughout (fun u ↦ Gate.Spaced (500 * 20000 : ℤ) u.outTimes)
        (defaultNode (some .empty)) fireThenPulse := by
  have hrun : ((unlockNode .linux).run (defaultNode (some .empty)) fireThenPulse).any (fun t ↦
      decide (t.unlockOut = [⟨35000000, .relay⟩, ⟨20000000, .timer⟩])) = true := by decide +kernel
  obtain ⟨t, ht, hout⟩ := (Option.any_eq_true _ _).mp hrun
  refine ⟨t, ht, of_decide_eq_true hout, ?_⟩
  exact (spaced_iff_of_run (started_defaultNode (some .empty)) (by decide) (by decide)
    (by decide +kernel) ht).1 (by decide +kernel)

/-- A neighbour's echo, a tenth of a millisecond after the node's own signal, is relayed again. -/
theorem exists_echo_run :
    ∃ t, (unlockNode .linux).run (defaultNode (some .empty))
        [.fire ⟨20000000, 20001000⟩ .restart, .pulse ⟨20100000, 20101000, 20101000, 0, 0⟩] =
        some t ∧
      (defaultNode (some .empty)).unlockTimer.expires = 20000000 ∧ t.T = 20000 ∧
      t.unlockOut = [⟨20100000, .relay⟩, ⟨20000000, .timer⟩] ∧
      ¬Gate.Spaced (500 * t.T.toNat : ℤ) t.outTimes := by
  have heval : ((unlockNode .linux).run (defaultNode (some .empty))
      [.fire ⟨20000000, 20001000⟩ .restart, .pulse ⟨20100000, 20101000, 20101000, 0, 0⟩]).any
      (fun t ↦ decide (t.T = 20000 ∧
        t.unlockOut = [⟨20100000, .relay⟩, ⟨20000000, .timer⟩])) = true := by
    decide +kernel
  obtain ⟨t, ht, hcond⟩ := (Option.any_eq_true _ _).mp heval
  obtain ⟨hT, hout⟩ := of_decide_eq_true hcond
  refine ⟨t, ht, rfl, hT, hout, fun hsp ↦ ?_⟩
  rw [Globals.outTimes, hout, hT] at hsp
  exact absurd ((List.pairwise_cons.mp hsp).1 20000000 List.mem_cons_self) (by decide)

/-! ## Following a regular signal -/

/-- The times of a regular signal: each at least `T / 2` and at most `T - 2 * Delta` after the one
before, and less than a second. -/
def RegularSignal (T Delta : UInt32) (p : ℕ → ℕ) : Prop :=
  ∀ k, p k + 500 * T.toNat ≤ p (k + 1) ∧
    p (k + 1) ≤ p k + 1000 * (T.toNat - 2 * Delta.toNat) ∧ p (k + 1) < p k + 1000000000

/-- A run that has heard the first `k` pulses of a signal, and nothing else but pulses less than
`T / 2` after one of them. `p 0` is the moment from which the first pulse is counted. No event comes
later than the next pulse of the signal. -/
inductive Follows (T : UInt32) (p : ℕ → ℕ) : ℕ → List Event → Prop
  | nil : Follows T p 0 []
  | main {k : ℕ} {es : List Event} (h : Follows T p k es) (j : IrqInput) (now : j.now = p (k + 1)) :
      Follows T p (k + 1) (es ++ [.pulse j])
  | extra {k : ℕ} {es : List Event} (h : Follows T p k es) (j : IrqInput) (m : ℕ) (le : m ≤ k)
      (now : p m ≤ j.now) (near : j.now < p m + 500 * T.toNat) :
      Follows T p k (es ++ [.pulse j])
  | fire {k : ℕ} {es : List Event} (h : Follows T p k es) (j : FireInput)
      (garbage : HrtimerRestart) (le : j.start ≤ p (k + 1)) :
      Follows T p k (es ++ [.fire j garbage])
  | tick {k : ℕ} {es : List Event} (h : Follows T p k es) (now : ℕ) (le : now ≤ p (k + 1)) :
      Follows T p k (es ++ [.tick now])
  | txbuf {k : ℕ} {es : List Event} (h : Follows T p k es) (txbuf : ListHead) :
      Follows T p k (es ++ [.txbuf txbuf])

theorem RegularSignal.monotone {T Delta : UInt32} {p : ℕ → ℕ} (h : RegularSignal T Delta p) :
    Monotone p := monotone_nat_of_le_succ fun k ↦ (Nat.le_add_right _ _).trans (h k).1

/-- What the last accepted pulse, at `last`, has left behind. -/
structure Node.Following (T Delta : UInt32) (last : ℕ) (s : Node) : Prop where
  period : s.T = T
  delta : s.Delta = Delta
  listening : s.Listening
  running : s.halted = none
  lastUnlock : s.lastUnlock = Timespec.ofNs last
  lt_expires : last + 1000 * (T.toNat - 2 * Delta.toNat) < s.unlockTimer.expires
  relays : ∀ m ∈ s.unlockOut, m.source = .relay

theorem Booted.following (h : Booted s i) (htx : s.txbufFff.isSome = true) (ht : s.Tame) :
    s.Following s.T s.Delta i.stamp := by
  have hpos := ht.Delta_pos
  have hfour := ht.four_mul_le
  have hwrap := ht.lt_wrap
  refine ⟨rfl, rfl, h.listening htx, h.running, h.lastUnlock, ?_, ?_⟩
  · rw [h.unlockTimer, hrtimerStart, toNat_mul_thousand (by omega)]
    have hle := h.stamp_le
    change _ < s.clock + _
    omega
  · rw [h.unlockOut]
    exact fun m hm ↦ absurd hm List.not_mem_nil

namespace Node.Following

variable {T Delta : UInt32} {last : ℕ}

/-- The next pulse of the signal passes the debounce test. -/
theorem accepts (h : s.Following T Delta last) (hT : 500 * T.toNat < 1000000000) {j : IrqInput}
    (hge : last + 500 * T.toNat ≤ j.now) (hlt : j.now < last + 1000000000) : s.Accepts j := by
  refine ⟨h.listening.free h.running, h.listening.list, (s.not_rejects_iff j.now).mpr ?_⟩
  rw [h.lastUnlock, Timespec.toNs_ofNs, s.threshold_eq (by rw [h.period]; omega), h.period]
  constructor <;> omega

/-- A pulse soon after the last one does not. -/
theorem rejects (h : s.Following T Delta last) (hT : 500 * T.toNat < 1000000000) {j : IrqInput}
    (hlt : j.now < last + 500 * T.toNat) : s.Rejects j.now := by
  by_contra hno
  have hopen := ((s.not_rejects_iff j.now).mp hno).1
  rw [h.lastUnlock, Timespec.toNs_ofNs, s.threshold_eq (by rw [h.period]; omega), h.period] at hopen
  omega

/-- An expiry comes later than the next pulse of the signal. -/
theorem not_due (h : s.Following T Delta last) {j : FireInput}
    (hle : j.start ≤ last + 1000 * (T.toNat - 2 * Delta.toNat)) : ¬s.Due K j := fun hdue ↦
  ((hle.trans_lt h.lt_expires).trans_le hdue.expires_le).false

/-- A step that leaves the parameters, the stamp, the timer and the emissions alone. -/
theorem frame (h : s.Following T Delta last) (hst : Took K s e t) (hT : t.T = s.T)
    (hDelta : t.Delta = s.Delta) (hrun : t.halted = s.halted)
    (hlast : t.lastUnlock = s.lastUnlock) (htimer : t.unlockTimer = s.unlockTimer)
    (hout : t.unlockOut = s.unlockOut) : t.Following T Delta last := by
  refine ⟨hT.trans h.period, hDelta.trans h.delta, h.listening.step hst, hrun.trans h.running,
    hlast.trans h.lastUnlock, ?_, ?_⟩
  · rw [htimer]
    exact h.lt_expires
  · rw [hout]
    exact h.relays

/-- An accepted pulse hands the invariant on to itself. -/
theorem step_accepts (h : s.Following T Delta last) (htame : s.Tame) {j : IrqInput}
    (ha : s.Accepts j) (hst : (unlockNode K).step s (.pulse j) = some t) :
    t.Following T Delta j.now := by
  have hlistening : t.Listening := h.listening.step (Took.of_step hst)
  have harr : s.Arrives K j := (Option.ite_none_right_eq_some.mp hst).1
  obtain ⟨txbuf, -, hacc⟩ := step_of_accepts harr ha htame.add_ne_zero
  obtain rfl := Option.some_inj.mp (hst.symm.trans hacc)
  refine ⟨h.period, h.delta, hlistening, h.running, rfl, ?_, fun m hm ↦ ?_⟩
  · rw [← h.period, ← h.delta]
    exact htame.lt_expires (harr.timed ha)
  · rcases List.mem_cons.mp hm with rfl | hm
    · rfl
    · exact h.relays m hm

/-- A rejected pulse changes nothing that matters. -/
theorem step_rejects (h : s.Following T Delta last) {j : IrqInput} (hr : s.Rejects j.now)
    (hst : (unlockNode K).step s (.pulse j) = some t) : t.Following T Delta last := by
  have hno : ¬s.Accepts j := Globals.not_accepts_of_rejects hr
  cases Took.of_step hst with
  | pulseSpins j arrives locked =>
    exact absurd locked (Bool.eq_false_iff.mp (h.listening.free h.running))
  | pulseNull j arrives free null =>
    exact absurd null (Option.isSome_iff_ne_none.mp h.listening.list)
  | pulseRejects j arrives free txbuf list rejects =>
    exact h.frame (Took.of_step hst) rfl rfl rfl rfl rfl rfl
  | pulseTraps j arrives txbuf list accepts zero => exact absurd accepts hno
  | pulseAccepts j arrives txbuf list accepts nonzero => exact absurd accepts hno

end Node.Following

theorem not_mem_concat_of_not_fire (hes : ∀ j garbage, .fire j garbage ∉ es)
    (he : ∀ j garbage, .fire j garbage ≠ e) (j : FireInput) (garbage : HrtimerRestart) :
    .fire j garbage ∉ es ++ [e] := by
  rw [List.mem_append, List.mem_singleton, not_or]
  exact ⟨hes j garbage, he j garbage⟩

/-- An event that runs no callback and is not accepted leaves both counts as they are. -/
theorem acceptedTimes_concat_of_quiet {l : List ℕ} (hu : (unlockNode K).run s es = some t)
    (he : ∀ j garbage, .fire j garbage ≠ e) (hnone : acceptance t e = [])
    (h : (∀ j garbage, .fire j garbage ∉ es) ∧ acceptedTimes K s es = l) :
    (∀ j garbage, .fire j garbage ∉ es ++ [e]) ∧ acceptedTimes K s (es ++ [e]) = l := by
  refine ⟨not_mem_concat_of_not_fire h.1 he, ?_⟩
  rw [acceptedTimes_concat e hu, h.2, hnone, List.append_nil]

/-- A run along a regular signal leaves the node following, runs no callback, and accepts the signal
and nothing else. -/
theorem Follows.following {p : ℕ → ℕ} {k : ℕ} (hf : Follows s.T p k es)
    (hs : s.Following s.T s.Delta (p 0)) (htame : s.Tame) (hT : 500 * s.T.toNat < 1000000000)
    (hp : RegularSignal s.T s.Delta p) (h : (unlockNode K).run s es = some t) :
    t.Following s.T s.Delta (p k) ∧ (∀ j garbage, .fire j garbage ∉ es) ∧
      acceptedTimes K s es = (List.range k).map fun m ↦ p (m + 1) := by
  have hpulse : ∀ i j garbage, Event.fire j garbage ≠ .pulse i := nofun
  have htick : ∀ now j garbage, Event.fire j garbage ≠ .tick now := nofun
  have htxbuf : ∀ txbuf j garbage, Event.fire j garbage ≠ .txbuf txbuf := nofun
  induction hf generalizing t with
  | nil => exact ⟨Option.some_inj.mp h ▸ hs, fun j garbage ↦ List.not_mem_nil, rfl⟩
  | @main k es hf j now ih =>
    obtain ⟨u, hu, hut⟩ := Machine.run_concat_eq_some.mp h
    obtain ⟨hfol, hfire, hacc⟩ := ih hu
    obtain ⟨hlo, -, hhi⟩ := hp k
    have ha : u.Accepts j := hfol.accepts hT (now ▸ hlo) (now ▸ hhi)
    refine ⟨?_, not_mem_concat_of_not_fire hfire (hpulse j), ?_⟩
    · rw [← now]
      exact hfol.step_accepts (htame.congr hfol.period hfol.delta) ha hut
    · rw [acceptedTimes_concat _ hu, hacc, acceptance, if_pos ha, List.range_succ,
        List.map_append, now]
      rfl
  | @extra k es hf j m le now near ih =>
    obtain ⟨u, hu, hut⟩ := Machine.run_concat_eq_some.mp h
    obtain ⟨hfol, hrest⟩ := ih hu
    -- close to an earlier pulse of the signal is close to the last one
    have hle : p m ≤ p k := hp.monotone le
    have hr : u.Rejects j.now := hfol.rejects hT (by omega)
    have hnone : acceptance u (.pulse j) = [] := if_neg (Globals.not_accepts_of_rejects hr)
    exact ⟨hfol.step_rejects hr hut, acceptedTimes_concat_of_quiet hu (hpulse j) hnone hrest⟩
  | @fire k es hf j garbage le ih =>
    obtain ⟨u, hu, hut⟩ := Machine.run_concat_eq_some.mp h
    obtain ⟨hfol, -, -⟩ := ih hu
    -- the timer is due only after the next pulse of the signal
    exact absurd (Option.ite_none_right_eq_some.mp hut).1 (hfol.not_due (le.trans (hp k).2.1))
  | tick hf now le ih =>
    obtain ⟨u, hu, hut⟩ := Machine.run_concat_eq_some.mp h
    obtain ⟨hfol, hrest⟩ := ih hu
    refine ⟨?_, acceptedTimes_concat_of_quiet hu (htick now) rfl hrest⟩
    cases Took.of_step hut
    exact hfol.frame (Took.of_step hut) rfl rfl rfl rfl rfl rfl
  | txbuf hf txbuf ih =>
    obtain ⟨u, hu, hut⟩ := Machine.run_concat_eq_some.mp h
    obtain ⟨hfol, hrest⟩ := ih hu
    refine ⟨?_, acceptedTimes_concat_of_quiet hu (htxbuf txbuf) rfl hrest⟩
    cases Took.of_step hut
    exact hfol.frame (Took.of_step hut) rfl rfl rfl rfl rfl rfl

/-- **Follower suppression.** A node that has been started and hears a regular signal, the first
pulse of it counted from the stamp of `unlock_init`, accepts every pulse of the signal, never runs
its timer callback and emits nothing but relays, whatever is drawn and whatever other pulses come
less than `T / 2` after one of the signal. -/
theorem follows_of_run {p : ℕ → ℕ} {k : ℕ} (hs : Started s i) (htx : s.txbufFff.isSome = true)
    (htame : s.Tame) (hT : 500 * s.T.toNat < 1000000000) (hp0 : p 0 = i.stamp)
    (hp : RegularSignal s.T s.Delta p) (hf : Follows s.T p k es)
    (h : (unlockNode K).run s es = some t) :
    (∀ j garbage, .fire j garbage ∉ es) ∧ (∀ m ∈ t.unlockOut, m.source = .relay) ∧
      (acceptedTimes K s es = (List.range k).map fun m ↦ p (m + 1)) ∧
      ∀ j, j.now = p (k + 1) → t.Accepts j := by
  obtain ⟨hfol, hfire, hacc⟩ :=
    hf.following (hp0 ▸ hs.booted.following htx htame) htame hT hp h
  refine ⟨hfire, hfol.relays, hacc, fun j now ↦ ?_⟩
  exact hfol.accepts hT (now ▸ (hp k).1) (now ▸ (hp k).2.2)

/-- Two pulses fifteen milliseconds apart, and an echo after the first. -/
theorem follows_of_run_two :
    ∃ t, (unlockNode .linux).run (defaultNode (some .empty))
        [.pulse ⟨15000000, 15001000, 15001000, 0, 0⟩, .pulse ⟨16000000, 0, 0, 0, 0⟩,
          .pulse ⟨30000000, 30001000, 30001000, 0, 0⟩] = some t ∧
      ∀ m ∈ t.unlockOut, m.source = .relay := by
  have hrun : ((unlockNode .linux).run (defaultNode (some .empty))
      [.pulse ⟨15000000, 15001000, 15001000, 0, 0⟩, .pulse ⟨16000000, 0, 0, 0, 0⟩,
        .pulse ⟨30000000, 30001000, 30001000, 0, 0⟩]).isSome = true := by decide +kernel
  obtain ⟨t, ht⟩ := Option.isSome_iff_exists.mp hrun
  have hsignal : RegularSignal 20000 100 fun k ↦ 15000000 * k := by
    intro k
    have hT : (20000 : UInt32).toNat = 20000 := rfl
    have hDelta : (100 : UInt32).toNat = 100 := rfl
    rw [hT, hDelta]
    refine ⟨?_, ?_, ?_⟩ <;> beta_reduce <;> omega
  have hfollows : Follows 20000 (fun k ↦ 15000000 * k) 2
      [.pulse ⟨15000000, 15001000, 15001000, 0, 0⟩, .pulse ⟨16000000, 0, 0, 0, 0⟩,
        .pulse ⟨30000000, 30001000, 30001000, 0, 0⟩] :=
    .main (.extra (.main .nil ⟨15000000, 15001000, 15001000, 0, 0⟩ rfl) ⟨16000000, 0, 0, 0, 0⟩ 1
      le_rfl (by decide) (by decide)) ⟨30000000, 30001000, 30001000, 0, 0⟩ rfl
  exact ⟨t, ht, (follows_of_run (started_defaultNode (some .empty)) rfl
    ⟨by decide, by decide, by decide⟩ (by decide) rfl hsignal hfollows ht).2.1⟩

end UcsmaRateControl
