import UcsmaRateControl.Machine.Hidden
import UcsmaRateControl.Packetspammer.SendLoop

/-!
# What the send loop puts out

The loop sends packets whose length nothing has checked, and sleeps for a time that comes from a
variable of the loop's body. The variable is declared anew in every turn, and it is `read` that
gives it a value, if it gives it one.
-/

namespace UcsmaRateControl

/-! ## The length of the packets -/

/-- The packet lies in the buffer and has both headers, and what follows the radiotap header is the
frame, with its checksum if that is included. -/
def Settings.FrameFits (s : Settings) (len : UInt32) : Prop :=
  len.toNat ≤ 2500 ∧ 49 ≤ len.toNat ∧
    (len.toNat : ℤ) - 25 = s.frameLen.toNat - if s.flagMarkWithFCS then 0 else 4

/-- The lengths for which there is such a packet. -/
def Settings.LenInRange (s : Settings) : Prop :=
  if s.flagMarkWithFCS then 24 ≤ s.frameLen.toNat ∧ s.frameLen.toNat ≤ 2475
  else 28 ≤ s.frameLen.toNat ∧ s.frameLen.toNat ≤ 2479

/-- The length that is sent fits if any does. -/
theorem Settings.frameFits_sendLength_iff (s : Settings) :
    s.FrameFits s.sendLength ↔ s.LenInRange := by
  have hlt := s.frameLen.toNat_lt
  rw [FrameFits, LenInRange, s.toNat_sendLength]
  split_ifs
  · omega
  · omega

variable {o : ByteOrder} {w t : Sender} {es : List (Turn × (ℕ → UInt8))}

/-- What no turn changes. -/
theorem Sender.fixed_of_run (h : sendLoop.run w es = some t) :
    t.buffer = w.buffer ∧ t.sendLength = w.sendLength ∧ t.device = w.device := by
  refine Machine.invariant (M := sendLoop)
    (P := fun u ↦ u.buffer = w.buffer ∧ u.sendLength = w.sendLength ∧ u.device = w.device) ?_
    ⟨rfl, rfl, rfl⟩ h
  intro u e v hu huv
  obtain ⟨-, ⟨⟩⟩ := Option.ite_none_right_eq_some.mp huv
  rw [Sender.turn]
  split_ifs
  · exact hu
  · exact hu

theorem Sender.mem_pause {t : Turn} {garbage : ℕ → UInt8} {e : SendEvent} :
    e ∈ w.pause o t garbage ↔
      wait (w.bufFree o t garbage) ≠ 0 ∧ e = .sleep (wait (w.bufFree o t garbage)) := by
  rw [Sender.pause]
  split_ifs with h
  · exact List.mem_singleton.trans (and_iff_right h).symm
  · exact iff_of_false List.not_mem_nil fun hne ↦ h hne.1

/-- Every packet is the same. -/
theorem Sender.eq_of_inject {buf : Fin 2500 → UInt8} {len : UInt32}
    (h : .inject buf len ∈ sendLoop.trace (Sender.output o) w es) :
    buf = w.buffer ∧ len = w.sendLength := by
  obtain ⟨pre, e, u, -, hu, hmem⟩ := Machine.mem_trace h
  obtain ⟨hbuffer, hlength, -⟩ := Sender.fixed_of_run hu
  obtain ⟨-, hmem⟩ := List.mem_ite_nil_right.mp hmem
  rcases List.mem_cons.mp hmem with heq | hmem
  · obtain ⟨rfl, rfl⟩ := SendEvent.inject.inj heq
    exact ⟨hbuffer, hlength⟩
  · obtain ⟨-, hpause⟩ := List.mem_ite_nil_right.mp hmem
    exact nomatch (Sender.mem_pause.mp hpause).2

/-- **The length of the packets, exactly.** Every packet that is sent fits if and only if the option
for the length is in range. Nothing is refused. -/
theorem frameFits_iff {s : Settings} {env : SpamEnv} (h : s.startSending env = .ok w)
    (o : ByteOrder) :
    (∀ es t, sendLoop.run w es = some t → ∀ buf len,
        .inject buf len ∈ sendLoop.trace (Sender.output o) w es → s.FrameFits len) ↔
      s.LenInRange := by
  have hstarts := Settings.starts_of_startSending h
  rw [← s.frameFits_sendLength_iff, ← hstarts.sendLength]
  constructor
  · intro hall
    -- the first turn sends, whatever it gets
    let e : Turn × (ℕ → UInt8) := (⟨0, 0, 0⟩, fun _ ↦ 0)
    have hstep : sendLoop.step w e = some (w.turn e.1) := if_pos hstarts.status
    have hrun : sendLoop.run w [e] = some (w.turn e.1) := by
      rw [Machine.run_cons, hstep]
      rfl
    have hmem : .inject w.buffer w.sendLength ∈ w.output o e := by
      rw [Sender.output, if_pos hstarts.status]
      exact List.mem_cons_self
    exact hall [e] _ hrun _ _ (List.mem_append_left _ hmem)
  · intro hfits es t _ buf len hmem
    rw [(Sender.eq_of_inject hmem).2]
    exact hfits

/-- A frame of 1400 bytes. -/
theorem frameFits_iff_1400 :
    ∃ w, { defaultSettings with frameLen := 1400 }.startSending plainEnv = .ok w ∧
      ∀ es t, sendLoop.run w es = some t → ∀ buf len,
        .inject buf len ∈ sendLoop.trace (Sender.output .big) w es →
          { defaultSettings with frameLen := 1400 }.FrameFits len := by
  obtain ⟨w, hw⟩ : ∃ w, { defaultSettings with frameLen := 1400 }.startSending plainEnv = .ok w :=
    ⟨_, rfl⟩
  exact ⟨w, hw, (frameFits_iff hw .big).mpr ⟨by decide, by decide⟩⟩

/-- `-l 3000`: 3021 bytes of a buffer of 2500 are sent. -/
theorem exists_overlong_packet :
    ∃ s w t, defaultSettings.options [.l ⟨[51, 48, 48, 48], fun _ ↦ 0⟩] = some s ∧
      s.startSending plainEnv = .ok w ∧
      sendLoop.run w [(⟨3021, 80, 0⟩, fun _ ↦ 0)] = some t ∧
      .inject w.buffer 3021 ∈
        sendLoop.trace (Sender.output .big) w [(⟨3021, 80, 0⟩, fun _ ↦ 0)] ∧
      ¬s.FrameFits 3021 := by
  refine ⟨{ defaultSettings with frameLen := 3000 }, _, _, rfl, rfl, rfl, List.mem_cons_self, ?_⟩
  exact fun h ↦ absurd h.1 (by decide)

/-! ## The pauses -/

/-- `read` fills the whole of `buf_free`. -/
def Sender.Filled (s : Sender) (t : Turn) : Prop := s.device = true ∧ t.errorCount = 0

theorem Sender.written_of_filled {t : Turn} (h : w.Filled t) : w.written t = 4 := by
  rw [Sender.written, if_pos h.1, devRead, h.2]

theorem Sender.written_lt {t : Turn} (h : ¬w.Filled t) : w.written t < 4 := by
  rw [Sender.written]
  split
  · have hne : t.errorCount ≠ 0 := fun hzero ↦ h ⟨‹_›, hzero⟩
    rw [devRead]
    exact Nat.sub_lt (by decide) (Nat.pos_of_ne_zero hne)
  · decide

/-- Then it holds the counter. -/
theorem Sender.bufFree_of_filled {t : Turn} (h : w.Filled t) (garbage : ℕ → UInt8) :
    w.bufFree o t garbage = t.counter := by
  rw [Sender.bufFree, Sender.written_of_filled h, ByteOrder.load_overwrite le_rfl,
    ByteOrder.load_byte t.counter.toUInt32.toNat_lt, UInt32.ofNat_toNat, Int32.toInt32_toUInt32]

/-- Two values whose last bytes in memory differ by one are not waited for alike. -/
theorem wait_add_ne (x : Int32) : wait (x + 1) ≠ wait x ∧ wait (x + 16777216) ≠ wait x := by
  simp only [wait]
  constructor
  · intro h
    grind
  · intro h
    grind

/-- Otherwise what it holds shows in the pause. -/
theorem Sender.exists_wait_ne {t : Turn} (h : ¬w.Filled t) :
    ∃ g g', wait (w.bufFree o t g) ≠ wait (w.bufFree o t g') := by
  have hle := Nat.le_of_lt_succ (Sender.written_lt h)
  refine ⟨Function.update (fun _ ↦ 0) 3 1, Function.update (fun _ ↦ 0) 3 0, ?_⟩
  rw [Sender.bufFree, ByteOrder.load_overwrite_update hle, UInt32.ofNat_add, UInt32.toInt32_add]
  cases o with
  | little => exact (wait_add_ne _).2
  | big => exact (wait_add_ne _).1

/-- A pause shows what is waited for. -/
theorem Sender.wait_eq_of_pause {t : Turn} {g g' : ℕ → UInt8}
    (h : w.pause o t g = w.pause o t g') : wait (w.bufFree o t g) = wait (w.bufFree o t g') := by
  rw [Sender.pause, Sender.pause] at h
  split_ifs at h with hg hg' hg'
  · exact SendEvent.sleep.inj (List.head_eq_of_cons_eq h)
  · rw [not_not.mp hg, not_not.mp hg']

/-- A turn hides what `buf_free` holds at first if and only if `read` fills it, or is not
reached. -/
theorem Sender.hides_iff (hw : w.status = .running) (e : Turn × (ℕ → UInt8)) :
    Machine.Hides (Sender.output o) w e ↔ (w.Accepted e.1 → w.Filled e.1) := by
  have houtput : ∀ g, w.output o (e.1, g) =
      .inject w.buffer w.sendLength :: if w.Accepted e.1 then w.pause o e.1 g else [] :=
    fun g ↦ if_pos hw
  constructor
  · intro hhides haccepted
    by_contra hfilled
    obtain ⟨g, g', hne⟩ := Sender.exists_wait_ne (o := o) hfilled
    have heq := hhides g g'
    rw [houtput, houtput, if_pos haccepted, if_pos haccepted] at heq
    exact hne (Sender.wait_eq_of_pause (List.tail_eq_of_cons_eq heq))
  · intro hfilled g g'
    rw [houtput, houtput]
    by_cases haccepted : w.Accepted e.1
    · rw [if_pos haccepted, if_pos haccepted, Sender.pause, Sender.pause,
        Sender.bufFree_of_filled (hfilled haccepted), Sender.bufFree_of_filled (hfilled haccepted)]
    · rw [if_neg haccepted, if_neg haccepted]

/-- Where `read` always fills `buf_free`, every pause comes from a sample. -/
theorem Sender.sleep_of_filled (hall : ∀ e ∈ es, w.Accepted e.1 → w.Filled e.1) {us : Int32}
    (h : .sleep us ∈ sendLoop.trace (Sender.output o) w es) :
    ∃ e ∈ es, w.Accepted e.1 ∧ us = wait e.1.counter := by
  obtain ⟨pre, e, u, hp, hu, hmem⟩ := Machine.mem_trace h
  obtain ⟨-, hlength, hdevice⟩ := Sender.fixed_of_run hu
  obtain ⟨-, hmem⟩ := List.mem_ite_nil_right.mp hmem
  rcases List.mem_cons.mp hmem with heq | hmem
  · exact nomatch heq
  obtain ⟨haccepted, hpause⟩ := List.mem_ite_nil_right.mp hmem
  obtain ⟨-, heq⟩ := Sender.mem_pause.mp hpause
  have hin : e ∈ es := hp.subset (List.mem_append_right pre List.mem_cons_self)
  have haccepted' : w.Accepted e.1 := haccepted.trans hlength
  obtain ⟨hopened, hcopied⟩ := hall e hin haccepted'
  refine ⟨e, hin, haccepted', ?_⟩
  rw [SendEvent.sleep.inj heq, Sender.bufFree_of_filled ⟨hdevice.trans hopened, hcopied⟩]

/-- **The pauses, exactly.** What `buf_free` holds at first shows in nothing the loop does, and the
pauses are not negative if the samples are in range, if and only if every turn that gets to its
`read` has `buf_free` filled. -/
theorem pacing_iff (o : ByteOrder) (h : sendLoop.run w es = some t) :
    ((∀ fs gs, fs.map Prod.fst = es.map Prod.fst → gs.map Prod.fst = es.map Prod.fst →
          sendLoop.trace (Sender.output o) w fs = sendLoop.trace (Sender.output o) w gs) ∧
        ((∀ e ∈ es, w.Accepted e.1 → w.Filled e.1 →
            0 ≤ e.1.counter.toInt ∧ e.1.counter.toInt ≤ 80) →
          ∀ fs, fs.map Prod.fst = es.map Prod.fst →
            ∀ us, .sleep us ∈ sendLoop.trace (Sender.output o) w fs → 0 ≤ us.toInt)) ↔
      ∀ e ∈ es, w.Accepted e.1 → w.Filled e.1 := by
  have hmeets : sendLoop.Meets (Machine.Hides (Sender.output o)) w es ↔
      ∀ e ∈ es, w.Accepted e.1 → w.Filled e.1 := by
    refine Machine.meets_iff_forall h fun pre u e v hu huv ↦ ?_
    obtain ⟨-, hlength, hdevice⟩ := Sender.fixed_of_run hu
    obtain ⟨hrunning, -⟩ := Option.ite_none_right_eq_some.mp huv
    rw [Sender.hides_iff hrunning, Sender.Accepted, Sender.Filled, hlength, hdevice]
    rfl
  rw [Machine.trace_eq_iff_meets (fun _ _ _ _ ↦ rfl) h, hmeets]
  refine ⟨And.left, fun hall ↦ ⟨hall, fun hrange fs hfs us hus ↦ ?_⟩⟩
  have hlift : ∀ e ∈ fs, ∃ e' ∈ es, e'.1 = e.1 := fun e he ↦
    List.mem_map.mp (hfs ▸ List.mem_map_of_mem he)
  have hall' : ∀ e ∈ fs, w.Accepted e.1 → w.Filled e.1 := by
    intro e he
    obtain ⟨e', he', heq⟩ := hlift e he
    exact heq ▸ hall e' he'
  obtain ⟨e, he, haccepted, rfl⟩ := Sender.sleep_of_filled hall' hus
  obtain ⟨e', he', heq⟩ := hlift e he
  rw [← heq] at haccepted ⊢
  obtain ⟨hlo, hhi⟩ := hrange e' he' haccepted (hall e' he' haccepted)
  rw [toInt_wait _ hlo hhi]
  omega

/-- What a turn gets with 79 free buffers, for a packet of the default length. -/
def sampleTurn : Turn := ⟨1021, 79, 0⟩

/-- Memory that holds 81 on a processor that keeps the last byte of a word for its low bits. -/
def eightyOne : ℕ → UInt8 := Function.update (fun _ ↦ 0) 3 81

theorem pacing_iff_sample :
    ∃ w, defaultSettings.startSending plainEnv = .ok w ∧
      sendLoop.trace (Sender.output .big) w [(sampleTurn, fun _ ↦ 0)] =
        sendLoop.trace (Sender.output .big) w [(sampleTurn, eightyOne)] := by
  obtain ⟨w, t, hw, hdevice, hrun⟩ : ∃ w t, defaultSettings.startSending plainEnv = .ok w ∧
      w.device = true ∧ sendLoop.run w [(sampleTurn, fun _ ↦ 0)] = some t := ⟨_, _, rfl, rfl, rfl⟩
  refine ⟨w, hw, ((pacing_iff .big hrun).mpr fun e he _ ↦ ?_).1 _ _ rfl rfl⟩
  obtain rfl := List.mem_singleton.mp he
  exact ⟨hdevice, rfl⟩

/-- The device cannot be opened. Then the sender sleeps for 8000 microseconds if `buf_free` holds
zero at first, and is told to sleep for -100 if it holds 81. -/
theorem exists_garbage_pause :
    ∃ w t, defaultSettings.startSending { plainEnv with device := false } = .ok w ∧
      sendLoop.run w [(sampleTurn, fun _ ↦ 0)] = some t ∧
      .sleep (-100) ∈ sendLoop.trace (Sender.output .big) w [(sampleTurn, eightyOne)] ∧
      sendLoop.trace (Sender.output .big) w [(sampleTurn, fun _ ↦ 0)] ≠
        sendLoop.trace (Sender.output .big) w [(sampleTurn, eightyOne)] := by
  obtain ⟨w, t, hw, hrun, hzero, hgarbage⟩ : ∃ w t,
      defaultSettings.startSending { plainEnv with device := false } = .ok w ∧
      sendLoop.run w [(sampleTurn, fun _ ↦ 0)] = some t ∧
      sendLoop.trace (Sender.output .big) w [(sampleTurn, fun _ ↦ 0)] =
        [.inject w.buffer w.sendLength, .sleep 8000] ∧
      sendLoop.trace (Sender.output .big) w [(sampleTurn, eightyOne)] =
        [.inject w.buffer w.sendLength, .sleep (-100)] := ⟨_, _, rfl, rfl, rfl, rfl⟩
  refine ⟨w, t, hw, hrun, hgarbage ▸ List.mem_cons_of_mem _ List.mem_cons_self, fun heq ↦ ?_⟩
  rw [hzero, hgarbage] at heq
  exact absurd (SendEvent.sleep.inj (List.head_eq_of_cons_eq (List.tail_eq_of_cons_eq heq)))
    (by decide)

end UcsmaRateControl
