import UcsmaRateControl.Packetspammer.SendLoop

/-!
# How many packets are sent

The loop counts its packets in 32 bits and leaves when the count equals the number that was asked
for. Zero stands for a loop without end. But the counter comes back to zero: after 2³² packets such
a loop leaves as well.

What `pcap_inject` returns is compared with `send_length` as an unsigned number. A length of 2³¹ and
more, which a negative `-l` leads to, makes the loop take a negative result for a success.
-/

namespace UcsmaRateControl

variable {w : Sender} {ins : ℕ → Turn × (ℕ → UInt8)} {n k : ℕ}

/-- The labels of the first turns. -/
def firstTurns (ins : ℕ → Turn × (ℕ → UInt8)) (n : ℕ) : List (Turn × (ℕ → UInt8)) :=
  (List.range n).map ins

theorem firstTurns_succ : firstTurns ins (n + 1) = firstTurns ins n ++ [ins n] := by
  rw [firstTurns, List.range_succ, List.map_append]
  rfl

namespace Sender

/-- The sender at the top of the loop, after `n` packets. -/
def after (w : Sender) (n : ℕ) : Sender :=
  { w with
    stats :=
      { w.stats with
        sentByte := w.stats.sentByte + Int32.ofNat n * w.frameLen.toInt32
        sentPacket := Int32.ofNat n }
    sentPacket := UInt32.ofNat n }

/-- The packet is sent: `pcap_inject` returns its length. -/
def Sent (w : Sender) (t : Turn) : Prop := t.r.toInt = w.sendLength.toNat

instance (t : Turn) : Decidable (w.Sent t) := inferInstanceAs (Decidable (_ = _))

/-- What is returned is another number, which turns into the length where it is made unsigned. -/
def Mistaken (w : Sender) (t : Turn) : Prop := t.r.toInt + 2 ^ 32 = w.sendLength.toNat

/-- The turn with number `n`, from zero on, is taken for a success and does not leave. -/
def Goes (w : Sender) (ins : ℕ → Turn × (ℕ → UInt8)) (n : ℕ) : Prop :=
  w.Accepted (ins n).1 ∧ UInt32.ofNat (n + 1) ≠ w.count

/-- The program stops after exactly `k` injections. -/
def StopsAfter (w : Sender) (ins : ℕ → Turn × (ℕ → UInt8)) (k : ℕ) : Prop :=
  ∃ t, sendLoop.run w (firstTurns ins k) = some t ∧ t.status ≠ .running

/-- The loop never stops. -/
def NeverStops (w : Sender) (ins : ℕ → Turn × (ℕ → UInt8)) : Prop :=
  ∀ k, ∃ t, sendLoop.run w (firstTurns ins k) = some t ∧ t.status = .running

/-- The first `k` injections succeed. -/
def AllSent (w : Sender) (ins : ℕ → Turn × (ℕ → UInt8)) (k : ℕ) : Prop :=
  ∀ j < k, w.Sent (ins j).1

/-- The turn `k` is the first to fail, and none of those before it is the last. -/
structure FailsFirst (w : Sender) (ins : ℕ → Turn × (ℕ → UInt8)) (k : ℕ) : Prop where
  before : w.AllSent ins k
  fails : ¬w.Sent (ins k).1
  within : w.count = 0 ∨ k < w.count.toNat

/-! ## One turn -/

/-- What the comparison of the loop accepts. -/
theorem accepted_iff (t : Turn) : w.Accepted t ↔ w.Sent t ∨ w.Mistaken t := by
  have hint : t.r.toInt = if 2 * t.r.toUInt32.toNat < 2 ^ 32 then (t.r.toUInt32.toNat : ℤ)
      else t.r.toUInt32.toNat - 2 ^ 32 := t.r.toBitVec.toInt_eq_toNat_cond
  have hr := t.r.toUInt32.toNat_lt
  have hlength := w.sendLength.toNat_lt
  rw [Accepted, Sent, Mistaken, ← UInt32.toNat_inj, hint]
  split <;> omega

theorem Sent.accepted {t : Turn} (h : w.Sent t) : w.Accepted t := (accepted_iff t).mpr (.inl h)

theorem Starts.after_zero {s : Settings} (h : w.Starts s) : w.after 0 = w := by
  obtain ⟨buffer, sendLength, frameLen, count, device, ⟨sentByte, sleepInterval, sentPacket⟩,
    sentPacket', status⟩ := w
  obtain ⟨-, -, rfl, rfl, -⟩ := h
  simp [after]

theorem turn_after (n : ℕ) : (w.after n).turn (ins n).1 =
    if w.Accepted (ins n).1 then
      { w.after (n + 1) with
        status := if UInt32.ofNat (n + 1) = w.count then .left else .running }
    else { (w.after n) with stats := (w.after (n + 1)).stats, status := .failed } := by
  have hbytes : w.stats.sentByte + Int32.ofNat n * w.frameLen.toInt32 + w.frameLen.toInt32 =
      w.stats.sentByte + Int32.ofNat (n + 1) * w.frameLen.toInt32 := by
    rw [Int32.ofNat_add]
    grind
  have hpackets : Int32.ofNat n + 1 = Int32.ofNat (n + 1) := (Int32.ofNat_add n 1).symm
  have hsent : UInt32.ofNat n + 1 = UInt32.ofNat (n + 1) := (UInt32.ofNat_add n 1).symm
  rw [turn]
  dsimp only [after]
  rw [hbytes, hpackets, hsent]
  rfl

/-- What the turn `n` does, from the top of the loop after `n` packets. -/
theorem step_after (ins : ℕ → Turn × (ℕ → UInt8)) (hw : w.status = .running) (n : ℕ) :
    ∃ t, sendLoop.step (w.after n) (ins n) = some t ∧
      (w.Goes ins n → t = w.after (n + 1)) ∧ (¬w.Goes ins n → t.status ≠ .running) := by
  refine ⟨_, if_pos hw, ?_, ?_⟩
  · rintro ⟨haccepted, hne⟩
    rw [turn_after, if_pos haccepted, if_neg hne, ← hw]
    rfl
  · intro hgoes
    rw [turn_after]
    by_cases haccepted : w.Accepted (ins n).1
    · have heq : UInt32.ofNat (n + 1) = w.count := not_not.mp fun hne ↦ hgoes ⟨haccepted, hne⟩
      rw [if_pos haccepted, if_pos heq]
      exact nofun
    · rw [if_neg haccepted]
      exact nofun

/-! ## Runs -/

section Runs

variable (hw : w.status = .running) (hzero : w.after 0 = w)

include hw hzero

/-- While every turn goes on, the loop comes back to its top. -/
theorem run_firstTurns (h : ∀ j < n, w.Goes ins j) :
    sendLoop.run w (firstTurns ins n) = some (w.after n) := by
  induction n with
  | zero => exact congrArg some hzero.symm
  | succ n ih =>
    obtain ⟨t, ht, hgoes, -⟩ := step_after ins hw n
    obtain rfl := hgoes (h n n.lt_succ_self)
    rw [firstTurns_succ]
    exact Machine.run_concat_eq_some.mpr ⟨_, ih fun j hj ↦ h j (hj.trans n.lt_succ_self), ht⟩

/-- The loop gets to the top after `n` packets only if every turn has gone on. -/
theorem goes_of_run {t : Sender} (h : sendLoop.run w (firstTurns ins n) = some t)
    (ht : t.status = .running) : (∀ j < n, w.Goes ins j) ∧ t = w.after n := by
  induction n generalizing t with
  | zero => exact ⟨nofun, (Option.some_inj.mp h).symm.trans hzero.symm⟩
  | succ n ih =>
    rw [firstTurns_succ] at h
    obtain ⟨u, hu, hut⟩ := Machine.run_concat_eq_some.mp h
    obtain ⟨hrunning, -⟩ := Option.ite_none_right_eq_some.mp hut
    obtain ⟨hall, rfl⟩ := ih hu hrunning
    obtain ⟨v, hv, hgoes, hstops⟩ := step_after ins hw n
    obtain rfl := Option.some_inj.mp (hut.symm.trans hv)
    have hn : w.Goes ins n := by
      by_contra hn
      exact hstops hn ht
    exact ⟨fun j hj ↦ (Nat.lt_succ_iff_lt_or_eq.mp hj).elim (hall j) fun heq ↦ heq ▸ hn, hgoes hn⟩

/-- The program stops at the first turn that does not go on. -/
theorem stopsAfter_iff :
    w.StopsAfter ins k ↔ ∃ n, k = n + 1 ∧ (∀ j < n, w.Goes ins j) ∧ ¬w.Goes ins n := by
  constructor
  · rintro ⟨t, ht, hstatus⟩
    cases k with
    | zero =>
      obtain rfl := Option.some_inj.mp ht
      exact absurd hw hstatus
    | succ n =>
      rw [firstTurns_succ] at ht
      obtain ⟨u, hu, hut⟩ := Machine.run_concat_eq_some.mp ht
      obtain ⟨hrunning, -⟩ := Option.ite_none_right_eq_some.mp hut
      obtain ⟨hall, rfl⟩ := goes_of_run hw hzero hu hrunning
      obtain ⟨v, hv, hgoes, -⟩ := step_after ins hw n
      obtain rfl := Option.some_inj.mp (hut.symm.trans hv)
      exact ⟨n, rfl, hall, fun hn ↦ hstatus (hgoes hn ▸ hw)⟩
  · rintro ⟨n, rfl, hall, hn⟩
    obtain ⟨t, ht, -, hstops⟩ := step_after ins hw n
    refine ⟨t, ?_, hstops hn⟩
    rw [firstTurns_succ]
    exact Machine.run_concat_eq_some.mpr ⟨_, run_firstTurns hw hzero hall, ht⟩

theorem neverStops_iff : w.NeverStops ins ↔ ∀ n, w.Goes ins n := by
  constructor
  · intro h n
    obtain ⟨t, ht, hstatus⟩ := h (n + 1)
    exact (goes_of_run hw hzero ht hstatus).1 n n.lt_succ_self
  · exact fun h k ↦ ⟨_, run_firstTurns hw hzero fun j _ ↦ h j, hw⟩

end Runs

/-- The number of packets is what was asked for, a failure stops the program, and the statistics
count the successes. -/
structure Counted (w : Sender) (ins : ℕ → Turn × (ℕ → UInt8)) : Prop where
  limited : w.count ≠ 0 → w.AllSent ins w.count.toNat → w.StopsAfter ins w.count.toNat
  unlimited : w.count = 0 → (∀ k, w.AllSent ins k) → w.NeverStops ins
  failed : ∀ k, w.FailsFirst ins k → w.StopsAfter ins (k + 1)
  stats : ∀ n t, sendLoop.run w (firstTurns ins n) = some t → t.status = .running →
    t.stats.sentPacket =
      Int32.ofNat ((List.range n).countP fun j ↦ decide (w.Sent (ins j).1))

/-- The first failure is not mistaken for a success, or comes with the last packet. -/
def Noticed (w : Sender) (ins : ℕ → Turn × (ℕ → UInt8)) : Prop :=
  ∀ k, w.FailsFirst ins k → w.Mistaken (ins k).1 → UInt32.ofNat (k + 1) = w.count

/-- The first failure stops the program if and only if it is noticed. -/
theorem noticed_iff : w.Noticed ins ↔ ∀ k, w.FailsFirst ins k → ¬w.Goes ins k := by
  refine forall₂_congr fun k hk ↦ ?_
  have haccepted : w.Accepted (ins k).1 ↔ w.Mistaken (ins k).1 :=
    (accepted_iff _).trans (or_iff_right hk.fails)
  rw [Goes, not_and, not_ne_iff, haccepted]

/-- While the loop is at its top, no injection has failed. -/
theorem Noticed.allSent (h : w.Noticed ins) (hall : ∀ j < n, w.Goes ins j) : w.AllSent ins n := by
  intro j
  induction j using Nat.strong_induction_on with
  | h j ih =>
    intro hj
    by_contra hfails
    refine noticed_iff.mp h j ⟨fun i hi ↦ ih i hi (hi.trans hj), hfails, ?_⟩ (hall j hj)
    by_contra! hwithin
    obtain ⟨hne, hle⟩ := hwithin
    have hpos : w.count.toNat ≠ 0 := fun hzero ↦ hne (UInt32.toNat_inj.mp hzero)
    -- the turn that completes the count is among them
    refine (hall (w.count.toNat - 1) (by omega)).2 ?_
    rw [Nat.sub_add_cancel (Nat.one_le_iff_ne_zero.mpr hpos), UInt32.ofNat_toNat]

/-- At the top of the loop the statistics have counted the turns. -/
theorem sentPacket_of_run (hw : w.status = .running) (hzero : w.after 0 = w)
    (hnoticed : w.Noticed ins) {t : Sender} (h : sendLoop.run w (firstTurns ins n) = some t)
    (ht : t.status = .running) :
    t.stats.sentPacket =
      Int32.ofNat ((List.range n).countP fun j ↦ decide (w.Sent (ins j).1)) := by
  obtain ⟨hall, rfl⟩ := goes_of_run hw hzero h ht
  have hsent := hnoticed.allSent hall
  have hcount : (List.range n).countP (fun j ↦ decide (w.Sent (ins j).1)) = n := by
    refine (List.countP_eq_length.mpr fun j hj ↦ ?_).trans List.length_range
    exact decide_eq_true (hsent j (List.mem_range.mp hj))
  rw [hcount]
  rfl

/-- The counter meets the count at the count, or, if that is zero, at 2³². -/
theorem ofNat_succ_ne (hlt : n + 1 < 2 ^ 32) (h : w.count = 0 ∨ n + 1 < w.count.toNat) :
    UInt32.ofNat (n + 1) ≠ w.count := by
  intro heq
  have hnat : w.count.toNat = n + 1 := by
    rw [← heq, UInt32.toNat_ofNat', Nat.mod_eq_of_lt hlt]
  rcases h with h | h
  · rw [h] at hnat
    exact absurd hnat.symm n.succ_ne_zero
  · omega

/-- A loop without end leaves after 2³² packets, if it gets that far. -/
theorem stopsAfter_two_pow (hw : w.status = .running) (hzero : w.after 0 = w) (hcount : w.count = 0)
    (hsent : w.AllSent ins (2 ^ 32)) : w.StopsAfter ins (2 ^ 32) := by
  refine (stopsAfter_iff hw hzero).mpr ⟨2 ^ 32 - 1, by decide, fun j hj ↦ ?_, fun hgoes ↦ ?_⟩
  · exact ⟨(hsent j (by omega)).accepted, ofNat_succ_ne (by omega) (.inl hcount)⟩
  · exact hgoes.2 hcount.symm

/-- A program that stops neither goes on for ever nor stops later. -/
theorem StopsAfter.le (hw : w.status = .running) (hzero : w.after 0 = w) (h : w.StopsAfter ins n) :
    ¬w.NeverStops ins ∧ ∀ k, w.StopsAfter ins k → k ≤ n := by
  obtain ⟨m, rfl, -, hm⟩ := (stopsAfter_iff hw hzero).mp h
  refine ⟨fun hnever ↦ hm ((neverStops_iff hw hzero).mp hnever m), fun k hk ↦ ?_⟩
  obtain ⟨l, rfl, hgoes, -⟩ := (stopsAfter_iff hw hzero).mp hk
  by_contra! hlt
  exact hm (hgoes m (by omega))

theorem not_counted (hw : w.status = .running) (hzero : w.after 0 = w) (hcount : w.count = 0)
    (hsent : w.AllSent ins (2 ^ 32)) : ¬w.Counted ins := by
  intro hc
  obtain ⟨hnever, hle⟩ := (stopsAfter_two_pow hw hzero hcount hsent).le hw hzero
  by_cases hall : ∀ k, w.Sent (ins k).1
  · exact hnever (hc.unlimited hcount fun _ j _ ↦ hall j)
  · have hex : ∃ k, ¬w.Sent (ins k).1 := not_forall.mp hall
    have hbefore : w.AllSent ins (Nat.find hex) := fun j hj ↦ not_not.mp (Nat.find_min hex hj)
    have hstops := hle _ (hc.failed _ ⟨hbefore, Nat.find_spec hex, .inl hcount⟩)
    exact Nat.find_spec hex (hsent _ hstops)

/-- A failure that stops the program has been noticed. -/
theorem Counted.noticed (hw : w.status = .running) (hzero : w.after 0 = w) (h : w.Counted ins) :
    w.Noticed ins := by
  refine noticed_iff.mpr fun k hk ↦ ?_
  obtain ⟨n, hn, -, hlast⟩ := (stopsAfter_iff hw hzero).mp (h.failed k hk)
  exact Nat.succ_injective hn ▸ hlast

/-- Where a number is asked for, or an injection fails in time, the counter does not come back to
zero. -/
theorem counted_of_inTime (hw : w.status = .running) (hzero : w.after 0 = w)
    (h : w.count ≠ 0 ∨ ∃ k < 2 ^ 32, ¬w.Sent (ins k).1) (hnoticed : w.Noticed ins) :
    w.Counted ins where
  limited hne hsent := by
    have hpos : w.count.toNat ≠ 0 := fun hzero ↦ hne (UInt32.toNat_inj.mp hzero)
    have hlt := w.count.toNat_lt
    refine (stopsAfter_iff hw hzero).mpr
      ⟨w.count.toNat - 1, by omega, fun j hj ↦ ?_, fun hgoes ↦ ?_⟩
    · exact ⟨(hsent j (by omega)).accepted, ofNat_succ_ne (by omega) (.inr (by omega))⟩
    · refine hgoes.2 ?_
      rw [Nat.sub_add_cancel (Nat.one_le_iff_ne_zero.mpr hpos), UInt32.ofNat_toNat]
  unlimited hcount hall := by
    obtain ⟨k, -, hk⟩ := h.resolve_left (not_not.mpr hcount)
    exact absurd (hall (k + 1) k k.lt_succ_self) hk
  failed k hk := by
    refine (stopsAfter_iff hw hzero).mpr
      ⟨k, rfl, fun j hj ↦ ⟨(hk.before j hj).accepted, ?_⟩, noticed_iff.mp hnoticed k hk⟩
    rcases hk.within with hcount | hlt
    · obtain ⟨m, hm, hfail⟩ := h.resolve_left (not_not.mpr hcount)
      have hle : k ≤ m := not_lt.mp fun hlt ↦ hfail (hk.before m hlt)
      exact ofNat_succ_ne (by omega) (.inl hcount)
    · have hcount := w.count.toNat_lt
      exact ofNat_succ_ne (by omega) (.inr (by omega))
  stats _ _ ht hstatus := sentPacket_of_run hw hzero hnoticed ht hstatus

/-- **The number of packets, exactly.** It is as it should be if and only if a number was asked for
or one of the first 2³² injections fails, and the first injection that fails is not mistaken for a
success or comes with the last packet. -/
theorem counted_iff {s : Settings} {env : SpamEnv} {w : Sender} (h : s.startSending env = .ok w)
    (ins : ℕ → Turn × (ℕ → UInt8)) :
    w.Counted ins ↔
      (s.count ≠ 0 ∨ ∃ k < 2 ^ 32, ¬w.Sent (ins k).1) ∧ w.Noticed ins := by
  have hstarts := Settings.starts_of_startSending h
  rw [← hstarts.count]
  constructor
  · refine fun hc ↦ ⟨?_, hc.noticed hstarts.status hstarts.after_zero⟩
    by_contra! hcon
    exact not_counted hstarts.status hstarts.after_zero hcon.1 hcon.2 hc
  · rintro ⟨hintime, hnoticed⟩
    exact counted_of_inTime hstarts.status hstarts.after_zero hintime hnoticed

/-- A turn in which everything succeeds, with 80 free buffers. -/
def plainTurn (s : Settings) : Turn × (ℕ → UInt8) :=
  (⟨s.sendLength.toInt32, 80, 0⟩, fun _ ↦ 0)

/-- Three packets are asked for. -/
def threePackets : Settings := { defaultSettings with count := 3 }

theorem counted_iff_three :
    ∃ w, threePackets.startSending plainEnv = .ok w ∧ w.Counted fun _ ↦ plainTurn threePackets := by
  obtain ⟨w, hw⟩ : ∃ w, threePackets.startSending plainEnv = .ok w := ⟨_, rfl⟩
  have hsent : w.Sent (plainTurn threePackets).1 := by
    rw [Sent, (Settings.starts_of_startSending hw).sendLength]
    decide
  exact ⟨w, hw, (counted_iff hw _).mpr ⟨.inl (by decide), fun k hk ↦ absurd hsent hk.fails⟩⟩

/-- No number is given, and every injection succeeds: the program stops after 2³² of them. And
`-c 3 -l -22`, where every injection fails: the program makes three attempts. -/
theorem exists_endless_stop :
    (∃ w, defaultSettings.startSending plainEnv = .ok w ∧ w.count = 0 ∧
      (∀ k, w.AllSent (fun _ ↦ plainTurn defaultSettings) k) ∧
      w.StopsAfter (fun _ ↦ plainTurn defaultSettings) (2 ^ 32) ∧
      ¬w.Counted (fun _ ↦ plainTurn defaultSettings)) ∧
    ∃ s w, defaultSettings.options [.c ⟨[51], fun _ ↦ 0⟩, .l ⟨[45, 50, 50], fun _ ↦ 0⟩] = some s ∧
      s.startSending plainEnv = .ok w ∧ w.sendLength = 0xffffffff ∧
      ¬w.Sent ⟨-1, 80, 0⟩ ∧ w.StopsAfter (fun _ ↦ (⟨-1, 80, 0⟩, fun _ ↦ 0)) 3 ∧
      ¬w.Counted fun _ ↦ (⟨-1, 80, 0⟩, fun _ ↦ 0) := by
  constructor
  · obtain ⟨w, hw⟩ : ∃ w, defaultSettings.startSending plainEnv = .ok w := ⟨_, rfl⟩
    have hstarts := Settings.starts_of_startSending hw
    have hzero := hstarts.after_zero
    have hcount : w.count = 0 := hstarts.count
    have hsent : ∀ k, w.AllSent (fun _ ↦ plainTurn defaultSettings) k := by
      have hone : w.Sent (plainTurn defaultSettings).1 := by
        rw [Sent, hstarts.sendLength]
        decide
      exact fun k j _ ↦ hone
    exact ⟨w, hw, hcount, hsent, stopsAfter_two_pow hstarts.status hzero hcount (hsent _),
      not_counted hstarts.status hzero hcount (hsent _)⟩
  · obtain ⟨s, hs, hlen, hnum⟩ : ∃ s, defaultSettings.options
        [.c ⟨[51], fun _ ↦ 0⟩, .l ⟨[45, 50, 50], fun _ ↦ 0⟩] = some s ∧
          s.sendLength = 0xffffffff ∧ s.count = 3 := ⟨_, rfl, by decide +kernel, by decide +kernel⟩
    obtain ⟨w, hw⟩ : ∃ w, s.startSending plainEnv = .ok w := ⟨_, rfl⟩
    have hstarts := Settings.starts_of_startSending hw
    have hlength : w.sendLength = 0xffffffff := hstarts.sendLength.trans hlen
    have hcount : w.count = 3 := hstarts.count.trans hnum
    have hfails : ¬w.Sent ⟨-1, 80, 0⟩ := by
      rw [Sent, hlength]
      decide
    have haccepted : w.Accepted ⟨-1, 80, 0⟩ := by
      rw [Accepted, hlength]
      decide
    refine ⟨s, w, hs, hw, hlength, hfails, ?_, fun hc ↦ ?_⟩
    · refine (stopsAfter_iff hstarts.status hstarts.after_zero).mpr
        ⟨2, rfl, fun j hj ↦ ⟨haccepted, ?_⟩, fun hgoes ↦ hgoes.2 hcount.symm⟩
      exact ofNat_succ_ne (by omega) (.inr (by rw [hcount]; exact Nat.succ_lt_succ hj))
    · refine noticed_iff.mp (hc.noticed hstarts.status hstarts.after_zero) 0
        ⟨nofun, hfails, .inr (by rw [hcount]; decide)⟩ ⟨haccepted, ?_⟩
      rw [hcount]
      decide

end Sender

end UcsmaRateControl
