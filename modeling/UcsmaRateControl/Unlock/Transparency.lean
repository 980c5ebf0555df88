import UcsmaRateControl.Unlock.Sampling
import UcsmaRateControl.Unlock.WithLog

/-!
# Logging is not transparent

A node that runs `unlock_with_log.c` is put beside one that runs `unlock.c`. Both take the same
events, each log entry being stamped with a clock reading of its own. They part at the first timer
callback, after which only `unlock.c` has its timer queued again, and at the pulse after the one
that fills the log, which only `unlock.c` relays. Up to there they agree on everything but the log,
the contention window, the samples, and what the driver logs through its chip.
-/

namespace UcsmaRateControl

/-! ## What the two modules share -/

/-- The chips agree, apart from the contention windows and from what the driver logs: the flags
that `unlock.c` sets for it, and the accesses. -/
structure AthHw.Agrees (a b : AthHw) : Prop where
  powerMode : a.powerMode = b.powerMode
  forceQuietColl : a.forceQuietColl = b.forceQuietColl
  regs : ∀ r, (∀ q < 8, r ≠ .dlclIfs q) → a.regs r = b.regs r

/-- The variables agree, apart from the samples and from the three clocks of the chip, which
`unlock.c` reads and does not use. -/
structure Globals.Agrees (g h : Globals) : Prop where
  T : g.T = h.T
  Delta : g.Delta = h.Delta
  unlockIrq : g.unlockIrq = h.unlockIrq
  lastUnlock : g.lastUnlock = h.lastUnlock
  lastUnlock2nd : g.lastUnlock2nd = h.lastUnlock2nd
  unlockTimer : g.unlockTimer = h.unlockTimer
  driverLock : g.driverLock = h.driverLock
  gpiosHeld : g.gpiosHeld = h.gpiosHeld
  irqHeld : g.irqHeld = h.irqHeld
  txbufFff : g.txbufFff = h.txbufFff
  ah : g.ah.Agrees h.ah
  unlockOut : g.unlockOut = h.unlockOut

/-- The two nodes have emitted the same pulses at the same times, and their timers are in the same
state. -/
structure SameOutput (s : Node) (u : WithLog.Node) : Prop where
  unlockOut : s.unlockOut = u.unlockOut
  unlockTimer : s.unlockTimer = u.unlockTimer

/-- The two nodes differ only in the log, the contention window, the samples, and what the driver
logs. -/
structure Transparent (s : Node) (u : WithLog.Node) : Prop where
  globals : s.toGlobals.Agrees u.toShared
  clock : s.clock = u.clock
  halted : s.halted = u.halted
  finished : s.finished = u.finished

/-- The event runs no timer callback. -/
def Event.NoFire : Event → Prop
  | .fire _ _ => False
  | _ => True

namespace AthHw

variable {a b : AthHw}

theorem Agrees.editContentionWindow (h : a.Agrees b) {c : UInt32} (hc : c < 1024) :
    (a.editContentionWindow c).Agrees b := by
  refine ⟨by rw [powerMode_editContentionWindow, h.powerMode],
    by rw [forceQuietColl_editContentionWindow, h.forceQuietColl], fun r hr ↦ ?_⟩
  have hmem : r ∉ (List.range 8).map Reg.dlclIfs := by
    intro hm
    obtain ⟨q, hq, rfl⟩ := List.mem_map.mp hm
    exact hr q (List.mem_range.mp hq) rfl
  rw [regs_editContentionWindow a hc, if_neg hmem, h.regs r hr]

theorem Agrees.forceQuiet (h : a.Agrees b) (restored : ℕ) :
    (a.forceQuiet restored).Agrees (WithLog.forceQuiet b) := by
  refine ⟨h.powerMode, h.forceQuietColl, fun r hr ↦ ?_⟩
  by_cases hmisc : r = .pcuMisc
  · subst hmisc
    simp [AthHw.forceQuiet, WithLog.forceQuiet, regSetBit, regClrBit, regRmw, AthHw.access,
      h.forceQuietColl, h.regs _ hr]
  · simp [AthHw.forceQuiet, WithLog.forceQuiet, regSetBit, regClrBit, regRmw, AthHw.access, hmisc,
      h.regs _ hr]

end AthHw

namespace Globals

variable {g h : Globals}

theorem Agrees.sample (hg : g.Agrees h) (txbuf : ListHead) : (g.sample txbuf).Agrees h :=
  { hg with ah := hg.ah.editContentionWindow (cwVal_lt _) }

theorem Agrees.rejects_iff (hg : g.Agrees h) (now : ℕ) : g.Rejects now ↔ h.Rejects now := by
  rw [Rejects, Rejects, hg.lastUnlock, hg.T]

theorem Agrees.rearmDelay (hg : g.Agrees h) (i : IrqInput) : g.rearmDelay i = h.rearmDelay i := by
  simp only [Globals.rearmDelay, period, backoffOf, hg.T, hg.Delta, hg.lastUnlock,
    hg.lastUnlock2nd]

/-- After `unlock_init` the modules agree. -/
theorem agrees_unlockInit (g : Globals) {i : InitInput} (hret : i.ret = 0) :
    (unlockInit g i).1.Agrees (WithLog.unlockInit (WithLog.load g) i).1.toShared := by
  rw [unlockInit_of_ret g hret, WithLog.unlockInit_of_ret _ hret]
  have hchip : (unlockInit g i).1.ah.Agrees g.ah := by
    obtain ⟨hgpio, hirq, hreq⟩ := InitInput.ret_eq_zero_iff.mp hret
    simp only [unlockInit, hgpio, hirq, hreq, ne_eq, not_true_eq_false, if_false]
    refine AthHw.Agrees.editContentionWindow ?_ (by decide)
    exact ⟨rfl, rfl, fun _ _ ↦ rfl⟩
  exact ⟨rfl, rfl, rfl, rfl, rfl, rfl, rfl, rfl, rfl, rfl, hchip, rfl⟩

end Globals

/-! ## One step -/

/-- The event runs no timer callback, and if it brings a pulse that is relayed then fewer than a
thousand pulses have been emitted. -/
def FindsRoom (s : Node) (e : Event) : Prop :=
  e.NoFire ∧ s.unlockOut.length + (acceptance s e).length ≤ 1000

section Steps

variable {K : Kernel} {s t : Node} {u : WithLog.Node} {e : Event} {i : IrqInput}

theorem Transparent.accepts_iff (h : Transparent s u) (htx : s.txbufFff.isSome = true) :
    u.Accepts i ↔ s.Accepts i := by
  rw [WithLog.Globals.Accepts, Globals.Accepts, ← h.globals.driverLock,
    ← h.globals.rejects_iff i.now]
  exact ⟨fun ha ↦ ⟨ha.1, htx, ha.2⟩, fun ha ↦ ⟨ha.1, ha.2.2⟩⟩

theorem Transparent.arrives (h : Transparent s u) (htx : s.txbufFff.isSome = true)
    (ha : s.Arrives K i) : u.Arrives K i := by
  refine ⟨h.halted ▸ ha.running, h.globals.irqHeld ▸ ha.held, h.clock ▸ ha.clock_le, fun hacc ↦ ?_⟩
  have hb : u.backoffOf i = s.backoffOf i := by
    rw [Globals.backoffOf, Globals.backoffOf, h.globals.Delta]
  have hdelay := u.delay_le K
  obtain ⟨hrest, harm⟩ := ha.timed ((h.accepts_iff htx).mp hacc)
  rw [hb]
  omega

/-- The log has room if and only if fewer than a thousand pulses have been emitted. -/
theorem Transparent.room_iff (h : Transparent s u) (hlog : u.Logged) :
    u.curCount < WithLog.recordCount ↔ s.unlockOut.length + 1 ≤ 1000 := by
  rw [h.globals.unlockOut, hlog.length]
  exact UInt32.lt_iff_toNat_lt

/-- With no room in the log the two nodes part. -/
theorem Transparent.unlockOut_ne (h : Transparent s u) (hfull : ¬u.curCount < WithLog.recordCount)
    (stamp : ℕ) (tag : Int32) (m : Emission) :
    m :: s.unlockOut ≠ (u.record stamp tag m.time m.source).unlockOut := by
  intro heq
  have hlen := congrArg List.length heq
  rw [u.unlockOut_record_of_full _ _ _ _ hfull, h.globals.unlockOut, List.length_cons] at hlen
  omega

theorem Transparent.agrees_relayed (h : Transparent s u) (hroom : u.curCount < WithLog.recordCount)
    (stamp : ℕ) (txbuf : ListHead) : (s.relayed txbuf i).Agrees (u.relayed stamp i).toShared := by
  have hg := h.globals.sample txbuf
  rw [WithLog.Globals.toShared_relayed _ _ _ hroom]
  exact
    { hg with
      driverLock := rfl
      unlockTimer := congrArg hrtimerCancel hg.unlockTimer
      unlockOut := congrArg (List.cons _) hg.unlockOut }

theorem Transparent.agrees_accepted (h : Transparent s u) (hroom : u.curCount < WithLog.recordCount)
    (stamp : ℕ) (txbuf : ListHead) : (s.accepted txbuf i).Agrees (u.accepted stamp i).toShared := by
  have hg := h.globals.sample txbuf
  rw [WithLog.Globals.toShared_accepted _ _ _ hroom]
  exact
    { hg with
      driverLock := rfl
      lastUnlock := rfl
      lastUnlock2nd := h.globals.lastUnlock
      ah := hg.ah.forceQuiet i.restored
      unlockTimer := congrArg (hrtimerStart i.armed) (h.globals.rearmDelay i)
      unlockOut := congrArg (List.cons _) hg.unlockOut }

theorem Transparent.sameOutput (h : Transparent s u) : SameOutput s u :=
  ⟨h.globals.unlockOut, h.globals.unlockTimer⟩

/-- A relayed pulse finds room if and only if the log has room. -/
theorem Transparent.findsRoom_iff (h : Transparent s u) (hlog : u.Logged) (ha : s.Accepts i) :
    FindsRoom s (.pulse i) ↔ u.curCount < WithLog.recordCount := by
  rw [h.room_iff hlog, FindsRoom, acceptance, if_pos ha]
  exact and_iff_right trivial

/-- The event relays nothing. -/
theorem findsRoom_of_quiet (he : e.NoFire) (ha : ∀ j, e = .pulse j → ¬s.Accepts j)
    (hle : s.unlockOut.length ≤ 1000) : FindsRoom s e := by
  refine ⟨he, ?_⟩
  cases e with
  | pulse j => rwa [acceptance, if_neg (ha j rfl)]
  | _ => exact hle

/-- The pulse that reaches the one node reaches the other. -/
theorem Transparent.step_pulse (h : Transparent s u) (htx : s.txbufFff.isSome = true)
    (ha : s.Arrives K i) (stamp : ℕ) :
    (WithLog.unlockNode K).step u (.pulse i, stamp) = some (u.pulse i stamp) :=
  if_pos (h.arrives htx ha)

/-- The callback that the one node may run the other may run too. -/
theorem Transparent.step_fire (h : Transparent s u) {j : FireInput} (garbage : HrtimerRestart)
    (hd : s.Due K j) (stamp : ℕ) :
    (WithLog.unlockNode K).step u (.fire j garbage, stamp) = some (u.fire K j stamp) := by
  refine if_pos ⟨h.halted ▸ hd.running, h.globals.unlockTimer ▸ hd.pending,
    h.globals.unlockTimer ▸ hd.expires_le, h.clock ▸ hd.clock_le, ?_⟩
  exact (Nat.add_le_add_left (u.delay_le K) _).trans hd.stop_le

/-- **One step.** The two nodes stay alike if the step finds room, and show that they differ if it
does not. -/
theorem Transparent.step (h : Transparent s u) (hlog : u.Logged) (htx : s.txbufFff.isSome = true)
    (hst : (unlockNode K).step s e = some t) (stamp : ℕ) :
    ∃ v, (WithLog.unlockNode K).step u (e, stamp) = some v ∧ (FindsRoom s e → Transparent t v) ∧
      (SameOutput t v → FindsRoom s e) := by
  have hle : s.unlockOut.length ≤ 1000 := by
    rw [h.globals.unlockOut, hlog.length]
    exact UInt32.le_iff_toNat_le.mp hlog.le
  have hg := h.globals
  have hquiet := findsRoom_of_quiet (s := s) (e := e)
  cases Took.of_step hst with
  | fireNull i garbage due null => exact absurd null (Option.isSome_iff_ne_none.mp htx)
  | pulseNull i arrives free null => exact absurd null (Option.isSome_iff_ne_none.mp htx)
  | fireSome i garbage due txbuf list =>
    -- the one timer is queued again, the other is not
    refine ⟨_, h.step_fire garbage due stamp, fun hroom ↦ hroom.1.elim, fun hout ↦ ?_⟩
    exact nomatch congrArg Hrtimer.pending hout.unlockTimer
  | pulseSpins i arrives locked =>
    refine ⟨_, h.step_pulse htx arrives stamp, fun _ ↦ ?_, fun _ ↦ hquiet trivial ?_ hle⟩
    · rw [WithLog.pulse_of_locked stamp (hg.driverLock ▸ locked)]
      exact ⟨hg, rfl, rfl, h.finished⟩
    · rintro j ⟨⟩
      exact Globals.not_accepts_of_locked locked
  | pulseRejects i arrives free txbuf list rejects =>
    refine ⟨_, h.step_pulse htx arrives stamp, fun _ ↦ ?_, fun _ ↦ hquiet trivial ?_ hle⟩
    · rw [WithLog.pulse_of_rejects stamp (hg.driverLock ▸ free)
        ((hg.rejects_iff i.now).mp rejects)]
      exact ⟨hg.sample txbuf, rfl, h.halted, congrArg (List.cons _) h.finished⟩
    · rintro j ⟨⟩
      exact Globals.not_accepts_of_rejects rejects
  | pulseTraps i arrives txbuf list accepts zero =>
    refine ⟨_, h.step_pulse htx arrives stamp, ?_⟩
    rw [WithLog.pulse_of_zero stamp ((h.accepts_iff htx).mpr accepts) (hg.Delta ▸ zero),
      h.findsRoom_iff hlog accepts]
    refine ⟨fun hroom ↦ ⟨h.agrees_relayed hroom stamp txbuf, rfl, rfl, h.finished⟩, fun hout ↦ ?_⟩
    exact by_contra fun hfull ↦ h.unlockOut_ne hfull stamp 0 ⟨i.now, .relay⟩ hout.unlockOut
  | pulseAccepts i arrives txbuf list accepts nonzero =>
    refine ⟨_, h.step_pulse htx arrives stamp, ?_⟩
    rw [WithLog.pulse_of_accepts stamp ((h.accepts_iff htx).mpr accepts) (hg.Delta ▸ nonzero),
      h.findsRoom_iff hlog accepts]
    refine ⟨fun hroom ↦ ⟨h.agrees_accepted hroom stamp txbuf, rfl, h.halted,
      congrArg (List.cons _) h.finished⟩, fun hout ↦ ?_⟩
    exact by_contra fun hfull ↦ h.unlockOut_ne hfull stamp 0 ⟨i.now, .relay⟩ hout.unlockOut
  | setT T running =>
    refine ⟨_, if_pos (h.halted ▸ running), fun _ ↦ ?_, fun _ ↦ hquiet trivial nofun hle⟩
    exact ⟨{ hg with T := rfl }, h.clock, h.halted, h.finished⟩
  | setDelta Delta running =>
    refine ⟨_, if_pos (h.halted ▸ running), fun _ ↦ ?_, fun _ ↦ hquiet trivial nofun hle⟩
    exact ⟨{ hg with Delta := rfl }, h.clock, h.halted, h.finished⟩
  | txbuf txbuf running =>
    refine ⟨_, if_pos (h.halted ▸ running), fun _ ↦ ?_, fun _ ↦ hquiet trivial nofun hle⟩
    exact ⟨{ hg with txbufFff := rfl }, h.clock, h.halted, h.finished⟩
  | tick t running le =>
    refine ⟨_, if_pos ⟨h.halted ▸ running, h.clock ▸ le⟩, fun _ ↦ ?_,
      fun _ ↦ hquiet trivial nofun hle⟩
    exact ⟨hg, rfl, h.halted, h.finished⟩

theorem Took.isSome_txbufFff (h : Took K s e t) (htx : s.txbufFff.isSome = true) :
    t.txbufFff.isSome = true := by
  cases h with
  | txbuf txbuf running => rfl
  | _ => exact htx

end Steps

/-! ## Runs -/

section Runs

variable {K : Kernel} {s t : Node} {es : List Event}

/-- As long as no timer callback has run, the pulses that were emitted are the accepted ones. -/
theorem length_unlockOut_of_noFire (hs : s.unlockOut = []) (hfire : ∀ e ∈ es, e.NoFire)
    (h : (unlockNode K).run s es = some t) :
    t.unlockOut.length = (acceptedTimes K s es).length := by
  have hlen : ∀ u e, e.NoFire → (emissions u e).length = (acceptance u e).length := by
    intro u e he
    cases e with
    | fire i garbage => exact absurd he id
    | pulse i =>
      rw [emissions, acceptance]
      split <;> rfl
    | _ => rfl
  revert hfire
  refine Machine.run_induction (P := fun es t ↦ (∀ e ∈ es, e.NoFire) →
    t.unlockOut.length = (acceptedTimes K s es).length) (fun _ ↦ by rw [hs]; rfl) ?_ h
  intro es u e v hu ih huv hfire
  rw [unlockOut_step huv, acceptedTimes_concat e hu, List.length_append, List.length_append,
    hlen u e (hfire e (List.mem_append_right es List.mem_cons_self)),
    ih fun d hd ↦ hfire d (List.mem_append_left [e] hd), Nat.add_comm]

/-- Every step of a run finds room if and only if no timer callback runs and at most a thousand
pulses are accepted. -/
theorem meets_findsRoom_iff (hs : s.unlockOut = []) (h : (unlockNode K).run s es = some t) :
    (unlockNode K).Meets FindsRoom s es ↔
      (∀ e ∈ es, e.NoFire) ∧ (acceptedTimes K s es).length ≤ 1000 := by
  refine Machine.run_induction (P := fun es _ ↦ (unlockNode K).Meets FindsRoom s es ↔
    (∀ e ∈ es, e.NoFire) ∧ (acceptedTimes K s es).length ≤ 1000) ?_ ?_ h
  · exact iff_of_true (Machine.meets_nil s) ⟨nofun, Nat.zero_le _⟩
  · intro es u e v hu ih huv
    rw [Machine.meets_concat, ih, acceptedTimes_concat e hu, List.length_append]
    constructor
    · rintro ⟨⟨hfire, -⟩, hroom⟩
      obtain ⟨he, hle⟩ := hroom u hu
      rw [length_unlockOut_of_noFire hs hfire hu] at hle
      exact ⟨List.forall_mem_append.mpr ⟨hfire, List.forall_mem_singleton.mpr he⟩, hle⟩
    · rintro ⟨hfire, hle⟩
      obtain ⟨hfire, he⟩ := List.forall_mem_append.mp hfire
      refine ⟨⟨hfire, (Nat.le_add_right _ _).trans hle⟩, fun w hw ↦ ⟨he e List.mem_cons_self, ?_⟩⟩
      rw [hu, Option.some_inj] at hw
      rw [← hw, length_unlockOut_of_noFire hs hfire hu]
      exact hle

/-- After `unlock_init` the two nodes are alike. -/
theorem transparent_boot (g : Globals) {i : InitInput} (hret : i.ret = 0) :
    Transparent (Node.boot g i) (WithLog.Node.boot g i) :=
  ⟨Globals.agrees_unlockInit g hret, rfl, rfl, rfl⟩

theorem WithLog.logged_boot {g : UcsmaRateControl.Globals} {i : InitInput}
    (hout : g.unlockOut = []) (hret : i.ret = 0) : (WithLog.Node.boot g i).Logged := by
  have hinit := WithLog.unlockInit_of_ret (WithLog.load g) hret
  refine ⟨?_, ?_⟩ <;> rw [WithLog.Node.boot, hinit]
  · exact congrArg List.length hout
  · exact (by decide : (0 : UInt32) ≤ WithLog.recordCount)

theorem isSome_txbufFff_of_run (htx : s.txbufFff.isSome = true)
    (h : (unlockNode K).run s es = some t) : t.txbufFff.isSome = true :=
  Machine.invariant (P := fun u : Node ↦ u.txbufFff.isSome = true)
    (fun _ _ _ hu huv ↦ (Took.of_step huv).isSome_txbufFff hu) htx h

/-- **When logging is transparent.** With `txbuf_fff` set and the same parameters, a node that runs
`unlock_with_log.c` emits the same pulses as one that runs `unlock.c`, and arms and re-arms its
timer alike, if and only if no timer callback runs and at most a thousand pulses are accepted. Then
the two differ in nothing else either. -/
theorem transparent_iff_of_run {g : Globals} {i : InitInput} {ds : List (Event × ℕ)}
    (hg : g.Fresh) (htx : g.txbufFff.isSome = true) (hret : (unlockInit g i).2 = 0)
    (h : (unlockNode K).run (Node.boot g i) (ds.map Prod.fst) = some t) :
    ((unlockNode K).Mirrors (WithLog.unlockNode K) Prod.fst SameOutput (Node.boot g i)
        (WithLog.Node.boot g i) ds ↔
      (∀ e ∈ ds.map Prod.fst, e.NoFire) ∧
        (acceptedTimes K (Node.boot g i) (ds.map Prod.fst)).length ≤ 1000) ∧
    ((unlockNode K).Mirrors (WithLog.unlockNode K) Prod.fst SameOutput (Node.boot g i)
        (WithLog.Node.boot g i) ds →
      (unlockNode K).Mirrors (WithLog.unlockNode K) Prod.fst Transparent (Node.boot g i)
        (WithLog.Node.boot g i) ds) := by
  rw [unlockInit_snd] at hret
  have hboot := transparent_boot g hret
  have hlog := WithLog.logged_boot hg.unlockOut hret
  have hout : (Node.boot g i).unlockOut = [] := by
    rw [Node.boot, unlockInit_of_ret g hret]
    exact hg.unlockOut
  have htx' : (Node.boot g i).txbufFff.isSome = true := by
    rw [Node.boot, unlockInit_of_ret g hret]
    exact htx
  have hstep : ∀ pre d t u v, (unlockNode K).run (Node.boot g i) (pre.map Prod.fst) = some t →
      (WithLog.unlockNode K).run (WithLog.Node.boot g i) pre = some u → Transparent t u →
      (unlockNode K).step t d.1 = some v → ∃ w, (WithLog.unlockNode K).step u d = some w ∧
        (FindsRoom t d.1 → Transparent v w) ∧ (SameOutput v w → FindsRoom t d.1) :=
    fun pre d t u v ht hu hT htv ↦
      hT.step (hlog.of_run hu) (isSome_txbufFff_of_run htx' ht) htv d.2
  have hiff := Machine.mirrors_iff_meets hboot (fun _ _ hT ↦ hT.sameOutput) hstep h
  refine ⟨hiff.trans (meets_findsRoom_iff hout h), fun hsame ↦ ?_⟩
  refine Machine.mirrors_of_meets hboot (fun pre d t u v ht hu hT htv hC ↦ ?_) (hiff.mp hsame)
  obtain ⟨w, hw, hkeep, -⟩ := hstep pre d t u v ht hu hT htv
  exact ⟨w, hw, hkeep hC⟩

/-- One accepted pulse is served alike. -/
theorem transparent_iff_of_run_pulse :
    (unlockNode .linux).Mirrors (WithLog.unlockNode .linux) Prod.fst SameOutput
      (Node.boot (defaultGlobals (some .empty)) ⟨0, 0, 0, 30, 0⟩)
      (WithLog.Node.boot (defaultGlobals (some .empty)) ⟨0, 0, 0, 30, 0⟩)
      [(.pulse ⟨15000000, 15051000, 15051000, 7, 50⟩, 15000100)] := by
  have hrun : ((unlockNode .linux).run
      (Node.boot (defaultGlobals (some .empty)) ⟨0, 0, 0, 30, 0⟩)
      ([(.pulse ⟨15000000, 15051000, 15051000, 7, 50⟩, 15000100)].map Prod.fst)).isSome = true := by
    decide +kernel
  obtain ⟨t, ht⟩ := Option.isSome_iff_exists.mp hrun
  refine (transparent_iff_of_run ⟨rfl, rfl, rfl, rfl, rfl, rfl, rfl⟩ rfl rfl ht).1.mpr
    ⟨?_, by decide +kernel⟩
  intro e he
  rw [List.mem_singleton.mp he]
  trivial

/-- After one timer callback the timer of `unlock.c` is pending again and that of
`unlock_with_log.c` is not. -/
theorem exists_unqueued :
    ∃ t u,
      (unlockNode .linux).run (Node.boot (defaultGlobals (some .empty)) ⟨0, 0, 0, 30, 0⟩)
        [.fire ⟨20000000, 20001000⟩ .restart] = some t ∧
      (WithLog.unlockNode .linux).run
        (WithLog.Node.boot (defaultGlobals (some .empty)) ⟨0, 0, 0, 30, 0⟩)
        [(.fire ⟨20000000, 20001000⟩ .restart, 20000100)] = some u ∧
      t.unlockTimer = ⟨40000000, true⟩ ∧ u.unlockTimer = ⟨40000000, false⟩ ∧
      ¬(unlockNode .linux).Mirrors (WithLog.unlockNode .linux) Prod.fst SameOutput
        (Node.boot (defaultGlobals (some .empty)) ⟨0, 0, 0, 30, 0⟩)
        (WithLog.Node.boot (defaultGlobals (some .empty)) ⟨0, 0, 0, 30, 0⟩)
        [(.fire ⟨20000000, 20001000⟩ .restart, 20000100)] := by
  refine ⟨_, _, rfl, rfl, rfl, rfl, fun h ↦ ?_⟩
  obtain ⟨u, hu, hout⟩ := h _ (List.prefix_refl _) _ rfl
  cases hu
  exact nomatch congrArg Hrtimer.pending hout.unlockTimer

end Runs

end UcsmaRateControl
