import UcsmaRateControl.Ath9k.Descdma
import UcsmaRateControl.Ath9k.PowerSave
import UcsmaRateControl.Ath9k.Queues
import UcsmaRateControl.Unlock.Sampling

/-!
# From the pool to the sender

The driver links its transmit buffers into a pool. The handlers of the module count the buffers that
are free and export the count. A character device delivers the count to `packetspammer`, which takes
it from the number 80 and sleeps for the difference. That the difference is the number of buffers in
use rests on two things: the driver has linked 80 buffers, and every one of them is either in the
pool or in use.

The transmission path is not part of the repository. It takes single buffers out of the pool, and
puts none back that it has not taken.
-/

namespace UcsmaRateControl

/-! ## The device and the sender -/

/-- A call of `dev_read`. -/
structure DevRead where
  /-- The copy of `buf_counter` that is passed to `copy_to_user`. -/
  counter : Int32
  /-- How many bytes of it are written to the caller's buffer. -/
  written : ℕ
  /-- The return value. -/
  ret : Int32

/-- `dev_read`, which does not look at the length it is asked for. `copy_to_user` returns the number
of bytes that it has not copied. -/
def devRead (bufCounter : Int32) (_len errorCount : ℕ) : DevRead :=
  ⟨bufCounter, 4 - errorCount, if errorCount = 0 then 0 else -14⟩

/-- What is in `buf_free` after `read(fd, &buf_free, sizeof(int))`. A copy that is cut short leaves
`mixed`. -/
def DevRead.bufFree (r : DevRead) (mixed : Int32) : Int32 :=
  if r.written = 4 then r.counter else mixed

/-- `wait` of `packetspammer`. -/
def wait (buf : Int32) : Int32 :=
  let use := 80 - buf
  100 * use

/-- With at most 80 free buffers the arithmetic is exact. -/
theorem toInt_wait (buf : Int32) (hlo : 0 ≤ buf.toInt) (hhi : buf.toInt ≤ 80) :
    (wait buf).toInt = 100 * (80 - buf.toInt) := by
  have heighty : (80 : Int32).toInt = 80 := by decide
  have hhundred : (100 : Int32).toInt = 100 := by decide
  have huse : (80 - buf).toInt = 80 - buf.toInt := by
    rw [Int32.toInt_sub, heighty]
    exact Int.bmod_eq_of_le (by omega) (by omega)
  rw [wait, Int32.toInt_mul, hhundred, huse]
  exact Int.bmod_eq_of_le (by omega) (by omega)

/-! ## The system -/

/-- The pool, the module and the sender. -/
structure Feedback where
  /-- The module, with the exported counter. -/
  node : Node
  /-- The pool, `tx.txbuf`. -/
  txbuf : ListHead
  /-- The buffers that the transmission path has taken. -/
  inUse : List ℕ
  /-- Whether `txbuf_fff` points to the pool. -/
  exported : Bool

/-- What can happen to them. -/
inductive FeedbackEvent
  /-- The first lines of `ath9k_tx`. -/
  | tx
  /-- A frame takes a buffer, which leaves the pool as `txbuf`. -/
  | unlink (buf : ℕ) (txbuf : ListHead)
  /-- A buffer is put back, which leaves the pool as `txbuf`. -/
  | relink (buf : ℕ) (txbuf : ListHead)
  /-- The module takes an event. Its own `txbuf` event changes nothing here, since the handlers find
  the pool behind the pointer. -/
  | unlock (e : Event)
  /-- `packetspammer` reads the counter, with success. -/
  | read (errorCount : ℕ)

namespace Feedback

variable (s : Feedback)

/-- The module, with the pool behind `txbuf_fff`. -/
def view : Node := { s.node with txbufFff := if s.exported then some s.txbuf else none }

/-- What a read that leaves `errorCount` bytes uncopied makes the sender wait. -/
def waits (errorCount : ℕ) (mixed : Int32) : Int32 :=
  wait ((devRead s.node.bufCounter 4 errorCount).bufFree mixed)

end Feedback

/-- The machine of the system. -/
def feedback (K : Kernel) : Machine Feedback FeedbackEvent where
  step s
    | .tx => some { s with exported := true }
    | .unlink buf txbuf =>
      if s.txbuf.entries.Perm (buf :: txbuf.entries) then
        some { s with txbuf, inUse := buf :: s.inUse }
      else none
    | .relink buf txbuf =>
      if buf ∈ s.inUse ∧ txbuf.entries.Perm (buf :: s.txbuf.entries) then
        some { s with txbuf, inUse := s.inUse.erase buf }
      else none
    | .unlock e => ((unlockNode K).step s.view e).map fun node ↦ { s with node }
    | .read errorCount =>
      if (devRead s.node.bufCounter 4 errorCount).ret = 0 then some s else none

/-- The pool is as `ath_descdma_setup` has left it, no buffer is in use, and the counter is zero. -/
structure Feedback.Starts (s : Feedback) : Prop where
  pool : ∃ (d : DescdmaInput) (fuel : ℕ) (m : Links) (st : DescdmaState),
    d.Allocates ∧ d.isTx = true ∧ d.nbuf = txNbufs ∧ d.ndesc = 1 ∧
      athDescdmaSetup d fuel m = .ok (st, 0) ∧
      s.txbuf.next = st.links.next ∧ s.txbuf.head = d.head
  inUse : s.inUse = []
  bufCounter : s.node.bufCounter = 0

/-- How many buffers are in use, if the event samples the pool. -/
def sampled (s : Feedback) : FeedbackEvent → List ℕ
  | .unlock e => if s.view.Touches e then [s.inUse.length] else []
  | _ => []

/-- The numbers of buffers in use at the samples of a run, oldest first. -/
def samples (K : Kernel) (s : Feedback) (es : List FeedbackEvent) : List ℕ :=
  (feedback K).trace sampled s es

/-! ## One step -/

section Runs

variable {K : Kernel} {s t : Feedback} {e : FeedbackEvent} {es : List FeedbackEvent}

/-- The set-up links 80 buffers. -/
theorem Feedback.Starts.length_entries (h : s.Starts) : s.txbuf.entries.length = 80 := by
  obtain ⟨d, fuel, m, st, halloc, -, hnbuf, -, hok, hnext, hhead⟩ := h.pool
  obtain ⟨hring, hlength⟩ := ring_athDescdmaSetup halloc hok
  have hlinked := s.txbuf.linked
  rw [hnext, hhead] at hlinked
  rw [hlinked.unique hring.linked, List.length_map, hlength, hnbuf]
  rfl

/-- Every buffer is in the pool or in use. -/
def Feedback.Conserved (s : Feedback) : Prop := s.txbuf.entries.length + s.inUse.length = 80

theorem Feedback.Starts.conserved (h : s.Starts) : s.Conserved := by
  rw [Conserved, h.length_entries, h.inUse]
  rfl

theorem Feedback.Conserved.step (h : s.Conserved) (hst : (feedback K).step s e = some t) :
    t.Conserved := by
  rw [Conserved] at h ⊢
  cases e with
  | tx =>
    obtain rfl := Option.some_inj.mp hst
    exact h
  | unlink buf txbuf =>
    obtain ⟨hperm, ⟨⟩⟩ := Option.ite_none_right_eq_some.mp hst
    have hlength := hperm.length_eq
    rw [List.length_cons] at hlength ⊢
    dsimp only
    omega
  | relink buf txbuf =>
    obtain ⟨⟨hmem, hperm⟩, ⟨⟩⟩ := Option.ite_none_right_eq_some.mp hst
    have hlength := hperm.length_eq
    have hpos := List.length_pos_of_mem hmem
    rw [List.length_cons] at hlength
    dsimp only
    rw [List.length_erase_of_mem hmem]
    omega
  | unlock e =>
    obtain ⟨u, -, rfl⟩ := Option.map_eq_some_iff.mp hst
    exact h
  | read errorCount =>
    obtain ⟨-, ⟨⟩⟩ := Option.ite_none_right_eq_some.mp hst
    exact h

/-- A handler that gets to the registers has counted the list, and no other step changes the
counter. -/
theorem Took.bufCounter {s t : Node} {e : Event} (h : Took K s e t) :
    (s.Touches e →
        ∃ txbuf, s.txbufFff = some txbuf ∧ t.bufCounter = (s.sample txbuf).bufCounter) ∧
      (¬s.Touches e → t.bufCounter = s.bufCounter) := by
  rcases h.samples_or_keeps with ⟨htouch, txbuf, hs⟩ | ⟨hno, hcounter, -⟩
  · exact ⟨fun _ ↦ ⟨txbuf, hs.list, hs.bufCounter⟩, fun hno ↦ absurd htouch hno⟩
  · exact ⟨fun htouch ↦ absurd htouch hno, fun _ ↦ hcounter⟩

theorem Feedback.view_eq_some {txbuf : ListHead} (h : s.view.txbufFff = some txbuf) :
    s.txbuf = txbuf := by
  rw [view] at h
  exact (Option.ite_none_right_eq_some.mp h).2 |> Option.some_inj.mp

/-- What a step does to the counter. -/
theorem bufCounter_step (hs : s.Conserved) (hst : (feedback K).step s e = some t) :
    t.node.bufCounter.toInt =
      (sampled s e).getLast?.elim s.node.bufCounter.toInt fun k ↦ 80 - (k : ℤ) := by
  cases e with
  | tx =>
    obtain rfl := Option.some_inj.mp hst
    rfl
  | unlink buf txbuf =>
    obtain ⟨-, ⟨⟩⟩ := Option.ite_none_right_eq_some.mp hst
    rfl
  | relink buf txbuf =>
    obtain ⟨-, ⟨⟩⟩ := Option.ite_none_right_eq_some.mp hst
    rfl
  | unlock e =>
    obtain ⟨u, hu, rfl⟩ := Option.map_eq_some_iff.mp hst
    obtain ⟨hsample, hleave⟩ := (Took.of_step hu).bufCounter
    rw [sampled]
    by_cases htouch : s.view.Touches e
    · obtain ⟨txbuf, htxbuf, hcounter⟩ := hsample htouch
      obtain rfl := Feedback.view_eq_some htxbuf
      rw [Feedback.Conserved] at hs
      rw [if_pos htouch, hcounter, bufCounter_sample _ (by omega)]
      change (s.txbuf.entries.length : ℤ) = 80 - (s.inUse.length : ℤ)
      omega
    · rw [if_neg htouch, hleave htouch]
      rfl
  | read errorCount =>
    obtain ⟨-, ⟨⟩⟩ := Option.ite_none_right_eq_some.mp hst
    rfl

/-! ## Runs -/

theorem Feedback.Conserved.of_run (hs : s.Conserved) (h : (feedback K).run s es = some t) :
    t.Conserved :=
  Machine.invariant (fun _ _ _ hu huv ↦ hu.step huv) hs h

/-- The counter is what the last sample has made of it. -/
theorem bufCounter_of_run (hs : s.Starts) (h : (feedback K).run s es = some t) :
    t.node.bufCounter.toInt = (samples K s es).getLast?.elim 0 fun k ↦ 80 - (k : ℤ) := by
  have hzero : s.node.bufCounter.toInt = 0 := by
    rw [hs.bufCounter]
    rfl
  rw [← hzero]
  exact Machine.observe_of_run (fun u : Feedback ↦ u.node.bufCounter.toInt) _
    (fun _ _ _ _ hu huv ↦ bufCounter_step (hs.conserved.of_run hu) huv) h

/-- No sample finds more than 80 buffers in use. -/
theorem le_of_mem_samples (hs : s.Starts) {k : ℕ} (hk : k ∈ samples K s es) : k ≤ 80 := by
  obtain ⟨pre, e, u, -, hu, hmem⟩ := Machine.mem_trace hk
  have hconserved := hs.conserved.of_run hu
  rw [Feedback.Conserved] at hconserved
  cases e with
  | unlock e =>
    obtain ⟨-, hk⟩ := List.mem_ite_nil_right.mp hmem
    rw [List.mem_singleton.mp hk]
    omega
  | _ => exact absurd hmem List.not_mem_nil

/-- A read that succeeds delivers the counter. -/
theorem Feedback.waits_of_ret {errorCount : ℕ}
    (h : (devRead s.node.bufCounter 4 errorCount).ret = 0) (mixed : Int32) :
    s.waits errorCount mixed = wait s.node.bufCounter := by
  have hzero : errorCount = 0 := by
    by_contra hne
    have hret : (devRead s.node.bufCounter 4 errorCount).ret = -14 := if_neg hne
    exact absurd (hret.symm.trans h) (by decide)
  rw [waits, hzero]
  rfl

/-- **The feedback, end to end.** Whenever a read succeeds, the sender waits between 0 and 8000
microseconds. After a sample it waits 100 microseconds for each buffer that was in use at the last
one, and so not at all exactly if none was. -/
theorem waits_of_run (hs : s.Starts) (h : (feedback K).run s es = some t) {errorCount : ℕ}
    (hread : (devRead t.node.bufCounter 4 errorCount).ret = 0) (mixed : Int32) :
    0 ≤ (t.waits errorCount mixed).toInt ∧ (t.waits errorCount mixed).toInt ≤ 8000 ∧
      ∀ k ∈ (samples K s es).getLast?,
        (t.waits errorCount mixed).toInt = 100 * k ∧
          ((t.waits errorCount mixed).toInt = 0 ↔ k = 0) := by
  have hcounter := bufCounter_of_run hs h
  rw [Feedback.waits_of_ret hread]
  cases hlast : (samples K s es).getLast? with
  | none =>
    rw [hlast, Option.elim_none] at hcounter
    have hwait := toInt_wait t.node.bufCounter (by omega) (by omega)
    exact ⟨by omega, by omega, nofun⟩
  | some k =>
    have hle : k ≤ 80 := le_of_mem_samples hs (List.mem_of_getLast? hlast)
    rw [hlast, Option.elim_some] at hcounter
    have hwait := toInt_wait t.node.bufCounter (by omega) (by omega)
    refine ⟨by omega, by omega, fun k' hk' ↦ ?_⟩
    obtain rfl := Option.some_inj.mp hk'
    omega

end Runs

/-! ## A run -/

/-- Eighty buffers of 64 bytes, on hardware that can split a descriptor fetch. -/
def plainDescdma : DescdmaInput where
  head := 8
  nbuf := txNbufs
  ndesc := 1
  isTx := true
  txDescLen := 96
  athDescSize := 100
  athBufSize := 64
  athRxbufSize := 64
  splittrans := true
  ddDesc := some (0x10000, 0x10000)
  bf := some 0x1000

theorem plainDescdma_allocates : plainDescdma.Allocates := by
  refine ⟨by decide, fun bf hbf i _ ↦ ?_⟩
  obtain rfl := Option.some_inj.mp hbf
  have hhead : plainDescdma.head = 8 := rfl
  omega

section Evaluation

variable {K : Kernel} {s : Feedback} {u : Node} {e : Event}

theorem step_fire {s : Node} {i : FireInput} (garbage : HrtimerRestart) (h : s.Due K i) :
    (unlockNode K).step s (.fire i garbage) = some (s.fire K i garbage) := if_pos h

theorem step_unlock (h : (unlockNode K).step s.view e = some u) :
    (feedback K).step s (.unlock e) = some { s with node := u } := by
  rw [feedback]
  dsimp only
  rw [h, Option.map_some]

theorem sampled_of_touches (h : s.view.Touches e) : sampled s (.unlock e) = [s.inUse.length] :=
  if_pos h

end Evaluation

/-- A module that has just been loaded, and a pool that has just been set up. -/
theorem exists_starts : ∃ txbuf, (⟨defaultNode none, txbuf, [], false⟩ : Feedback).Starts := by
  have hok : (athDescdmaSetup plainDescdma 0 ⟨id, id⟩).toOption.any (fun p ↦ p.2 = 0) = true := by
    decide +kernel
  cases hsetup : athDescdmaSetup plainDescdma 0 ⟨id, id⟩ with
  | error => rw [hsetup] at hok; exact nomatch hok
  | ok p =>
    obtain ⟨st, ret⟩ := p
    rw [hsetup] at hok
    obtain rfl : ret = 0 := of_decide_eq_true hok
    exact ⟨(ring_athDescdmaSetup plainDescdma_allocates hsetup).1.toListHead,
      ⟨plainDescdma, 0, ⟨id, id⟩, st, plainDescdma_allocates, rfl, rfl, rfl, hsetup, rfl, rfl⟩,
      rfl, rfl⟩

/-- Two frames are under way when the timer expires. -/
theorem waits_of_run_fire :
    ∃ (s t : Feedback) (es : List FeedbackEvent), s.Starts ∧ (feedback .linux).run s es = some t ∧
      t.inUse.length = 2 ∧ (t.waits 0 0).toInt = 200 := by
  obtain ⟨txbuf, hs⟩ := exists_starts
  obtain ⟨a, b, l, hentries⟩ : ∃ a b l, txbuf.entries = a :: b :: l := by
    have hlength : txbuf.entries.length = 80 := hs.length_entries
    match txbuf.entries, hlength with
    | a :: b :: l, _ => exact ⟨a, b, l, rfl⟩
  let one := txbuf.delFirst hentries
  let two := one.delFirst rfl
  have hexpires : (defaultNode none).unlockTimer.expires = 20000000 := by decide +kernel
  have hdue : (⟨defaultNode none, two, [b, a], true⟩ : Feedback).view.Due .linux
      ⟨20000000, 20001000⟩ := ⟨rfl, rfl, hexpires.le, Nat.zero_le _, le_rfl⟩
  have hframes : (feedback .linux).run ⟨defaultNode none, txbuf, [], false⟩
      [.tx, .unlink a one, .unlink b two] = some ⟨defaultNode none, two, [b, a], true⟩ := by
    have hone : txbuf.entries.Perm (a :: one.entries) := hentries ▸ List.Perm.refl _
    simp only [Machine.run_cons, Machine.run_nil, feedback, Option.bind_some, if_pos hone]
    exact congrArg (Option.bind · some) (if_pos (List.Perm.refl _))
  have hrun := Machine.run_concat_eq_some.mpr
    ⟨_, hframes, step_unlock (step_fire .restart hdue)⟩
  have hsampled : sampled ⟨defaultNode none, two, [b, a], true⟩
      (.unlock (.fire ⟨20000000, 20001000⟩ .restart)) = [2] := sampled_of_touches rfl
  have hsamples : (samples .linux ⟨defaultNode none, txbuf, [], false⟩
      ([.tx, .unlink a one, .unlink b two] ++
        [.unlock (.fire ⟨20000000, 20001000⟩ .restart)])).getLast? = some 2 := by
    rw [samples, Machine.trace_concat sampled _ hframes, hsampled, List.getLast?_concat]
  have hread : ∀ counter, (devRead counter 4 0).ret = 0 := fun _ ↦ rfl
  exact ⟨_, _, _, hs, hrun, rfl, ((waits_of_run hs hrun (hread _) 0).2.2 2 hsamples).1⟩

end UcsmaRateControl
