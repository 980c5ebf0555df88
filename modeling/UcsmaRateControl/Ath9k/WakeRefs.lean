import UcsmaRateControl.Ath9k.Callbacks

/-!
# Power save keeps count of its users

The callbacks of the driver run at the same time, interrupt each other and are interrupted by
`sleep_timer`. Each takes its references and gives them back, so that the counter says how many
users there are. The timer is started only by the last user who leaves, and stopped by the first who
comes; while there are users, the chip is awake.
-/

namespace UcsmaRateControl

/-- The callbacks, with what they find. -/
inductive Callback
  | tx (i : TxInput)
  | start (i : StartInput)
  | stop (i : StopInput)
  | addInterface (i : InterfaceInput)
  | changeInterface (i : InterfaceInput)
  | removeInterface (i : InterfaceInput)
  | config (i : ConfigInput)
  | configureFilter (setrxfilter : Callee)
  | confTx (queue : UInt16) (update : Callee) (ret : Int32)
  | setKey (i : SetKeyInput)
  | bssInfoChanged (i : BssInfoInput)
  | getTsf (gettsf : Callee)
  | setTsf (settsf : Callee)
  | resetTsf (c : Callee)
  | ampduAction (i : AmpduInput)
  | setCoverageClass (tx99 : Bool) (initGlobalSettings : Callee)
  | flush (i : FlushInput)
  | tasklet (i : TaskletInput)
  | isr (i : IsrInput)
  | reset (i : ResetInternalInput)
  | resetWork (i : ResetInternalInput)
  | spectralScanTrigger (mode : SpectralMode) (i : SpectralInput)
  | spectralScanConfig (mode : SpectralMode) (i : SpectralInput)
  | regNotifier (apply : Callee) (curchan : Bool) (setTxpowerlimit : Callee)
  | deinitDevice (deinitLeds cleanup : Callee)
  /-- A user of the chip in another file. -/
  | outside (c : Callee)

/-- The program of a callback. -/
def Callback.prog : Callback → PsProg Unit
  | .tx i => ath9kTx i
  | .start i => (ath9kStart i).void
  | .stop i => ath9kStop i
  | .addInterface i => (ath9kAddInterface i).void
  | .changeInterface i => (ath9kChangeInterface i).void
  | .removeInterface i => ath9kRemoveInterface i
  | .config i => (ath9kConfig i).void
  | .configureFilter setrxfilter => ath9kConfigureFilter setrxfilter
  | .confTx queue update ret => (ath9kConfTx queue update ret).void
  | .setKey i => (ath9kSetKey i).void
  | .bssInfoChanged i => ath9kBssInfoChanged i
  | .getTsf gettsf => ath9kGetTsf gettsf
  | .setTsf settsf => ath9kSetTsf settsf
  | .resetTsf c => ath9kResetTsf c
  | .ampduAction i => (ath9kAmpduAction i).void
  | .setCoverageClass tx99 initGlobalSettings => ath9kSetCoverageClass tx99 initGlobalSettings
  | .flush i => ath9kFlush i
  | .tasklet i => ath9kTasklet i
  | .isr i => athIsr i
  | .reset i => (athReset i).void
  | .resetWork i => athResetWork i
  | .spectralScanTrigger mode i => ath9kSpectralScanTrigger mode i
  | .spectralScanConfig mode i => (ath9kSpectralScanConfig mode i).void
  | .regNotifier apply curchan setTxpowerlimit => ath9kRegNotifier apply curchan setTxpowerlimit
  | .deinitDevice deinitLeds cleanup => ath9kDeinitDevice deinitLeds cleanup
  | .outside c => c.call

/-- No callback nests more than three references around the functions outside. -/
theorem Callback.balanced_prog (c : Callback) : PsBalanced 3 c.prog := by
  cases c with
  | tx i => exact balanced_ath9kTx i
  | start i => exact (balanced_ath9kStart i).void
  | stop i => exact balanced_ath9kStop i
  | addInterface i => exact (balanced_ath9kAddInterface i).void
  | changeInterface i => exact (balanced_ath9kChangeInterface i).void
  | removeInterface i => exact balanced_ath9kRemoveInterface i
  | config i => exact (balanced_ath9kConfig i).void
  | configureFilter setrxfilter => exact balanced_held setrxfilter.balanced_call
  | confTx queue update ret => exact (balanced_ath9kConfTx queue update ret).void
  | setKey i => exact (balanced_ath9kSetKey i).void
  | bssInfoChanged i => exact balanced_ath9kBssInfoChanged i
  | getTsf gettsf => exact balanced_held gettsf.balanced_call
  | setTsf settsf => exact balanced_held settsf.balanced_call
  | resetTsf c => exact balanced_held c.balanced_call
  | ampduAction i => exact (balanced_ath9kAmpduAction i).void
  | setCoverageClass tx99 initGlobalSettings =>
    exact balanced_ath9kSetCoverageClass tx99 initGlobalSettings
  | flush i => exact balanced_ath9kFlush i
  | tasklet i => exact balanced_ath9kTasklet i
  | isr i => exact balanced_athIsr i
  | reset i => exact (balanced_athReset i).void
  | resetWork i => exact (balanced_athReset i).void
  | spectralScanTrigger mode i => exact balanced_ath9kSpectralScanTrigger mode i
  | spectralScanConfig mode i => exact (balanced_ath9kSpectralScanConfig mode i).void
  | regNotifier apply curchan setTxpowerlimit =>
    exact balanced_ath9kRegNotifier apply curchan setTxpowerlimit
  | deinitDevice deinitLeds cleanup => exact balanced_ath9kDeinitDevice deinitLeds cleanup
  | outside c => exact c.balanced_call

/-- What happens to the shared state between the operations of the callbacks. -/
inductive PsEvent
  /-- `sleep_timer` expires, and its handler starts. -/
  | expire
  /-- The handler puts the chip into full sleep. -/
  | fullSleep
  /-- A reset of the chip wakes it up. -/
  | setpowerAwake
  /-- The driver changes its power-save state elsewhere. -/
  | config (psIdle psEnabled : Bool) (psFlags : UInt16)

/-- What such an event does. -/
def PsEvent.exec : PsEvent → PsState → Option PsState
  | .expire, s =>
    if s.sc.sleepTimer = true ∧ s.fullSleeping = false then
      some { s with sc := { s.sc with sleepTimer := false }, fullSleeping := true }
    else none
  | .fullSleep, s =>
    if s.fullSleeping = true then
      some { s with ah := (s.sc.athPsFullSleep s.ah).2, fullSleeping := false }
    else none
  | .setpowerAwake, s => some { s with ah := s.ah.setPower .awake }
  | .config psIdle psEnabled psFlags, s =>
    some { s with sc := { s.sc with psIdle, psEnabled, psFlags } }

/-- The driver. The kernel has no more than `PID_MAX_LIMIT` threads. -/
def psScheme : Scheme PsOp PsState Callback PsEvent where
  exec := PsOp.exec
  env := PsEvent.exec
  prog := Callback.prog
  count s := s.sc.psUsecount.toNat
  limit := 2 ^ 22

/-- While there are users, the chip is awake, and `sleep_timer` is neither pending nor running. -/
def PsState.AwakeInUse (s : PsState) : Prop :=
  s.sc.psUsecount ≠ 0 → s.ah.powerMode = .awake ∧ s.sc.sleepTimer = false ∧ s.fullSleeping = false

section

variable {s t : PsState} {i m : ℕ}

/-- An operation that leaves the users, the timer and its handler alone, and does not put the chip
to sleep. -/
theorem PsState.AwakeInUse.of_keeps (h : s.AwakeInUse) (huse : t.sc.psUsecount = s.sc.psUsecount)
    (hmode : t.ah.powerMode = s.ah.powerMode ∨ t.ah.powerMode = .awake)
    (htimer : t.sc.sleepTimer = s.sc.sleepTimer) (hsleep : t.fullSleeping = s.fullSleeping) :
    t.AwakeInUse := by
  intro hne
  obtain ⟨hawake, hpending, hrunning⟩ := h (huse ▸ hne)
  refine ⟨?_, htimer.trans hpending, hsleep.trans hrunning⟩
  rcases hmode with hmode | hmode
  · exact hmode.trans hawake
  · exact hmode

/-- There is room on the counter for one user more. -/
theorem toNat_add_one {n : UInt32} (h : n.toNat + 1 < 2 ^ 32) : (n + 1).toNat = n.toNat + 1 := by
  rw [UInt32.toNat_add, UInt32.toNat_one, Nat.mod_eq_of_lt h]

theorem toNat_sub_one {n : UInt32} (h : n ≠ 0) : (n - 1).toNat + 1 = n.toNat := by
  have hpos : 1 ≤ n := by
    rw [UInt32.le_iff_toNat_le, UInt32.toNat_one]
    exact Nat.one_le_iff_ne_zero.mpr fun hzero ↦ h (UInt32.toNat_inj.mp hzero)
  rw [UInt32.toNat_sub_of_le _ _ hpos, UInt32.toNat_one]
  exact Nat.sub_add_cancel (UInt32.le_iff_toNat_le.mp hpos)

/-- A wakeup adds a user. The first one finds no handler running, stops the timer and wakes the
chip. -/
theorem PsState.AwakeInUse.wakeup (h : s.AwakeInUse) (hroom : s.sc.psUsecount.toNat + 1 < 2 ^ 32)
    (hst : PsOp.exec .wakeup s = some t) :
    t.AwakeInUse ∧ t.sc.psUsecount.toNat = s.sc.psUsecount.toNat + 1 := by
  have hadd := toNat_add_one hroom
  obtain ⟨hwait, ⟨⟩⟩ := Option.ite_none_left_eq_some.mp hst
  rw [PsState.put, PowerSave.ath9kPsWakeup]
  by_cases hone : s.sc.psUsecount + 1 = 1
  · rw [if_neg (not_not.mpr hone)]
    refine ⟨fun _ ↦ ⟨rfl, rfl, ?_⟩, hadd⟩
    exact Bool.eq_false_iff.mpr fun hsleep ↦ hwait ⟨hone, hsleep⟩
  · rw [if_pos hone]
    refine ⟨fun _ ↦ h fun hzero ↦ hone ?_, hadd⟩
    rw [hzero]
    rfl

/-- A restore takes a user away. Only the last one does anything else. -/
theorem PsState.AwakeInUse.restore (h : s.AwakeInUse) (huse : s.sc.psUsecount ≠ 0)
    (hst : PsOp.exec .restore s = some t) :
    t.AwakeInUse ∧ t.sc.psUsecount.toNat + 1 = s.sc.psUsecount.toNat := by
  have hsub := toNat_sub_one huse
  obtain rfl := Option.some_inj.mp hst
  rw [PsState.put, PowerSave.ath9kPsRestore]
  by_cases hlast : s.sc.psUsecount - 1 = 0
  · rw [if_neg (not_not.mpr hlast)]
    split_ifs
    · exact ⟨fun hne ↦ absurd hlast hne, hsub⟩
    · exact ⟨fun hne ↦ absurd hlast hne, hsub⟩
    · exact ⟨fun hne ↦ absurd hlast hne, hsub⟩
  · rw [if_pos hlast]
    exact ⟨fun _ ↦ h huse, hsub⟩

/-- What an operation of a callback does, if the ledger has it. -/
theorem PsState.AwakeInUse.exec {o : PsOp} (h : s.AwakeInUse) (hledger : o.ledger i = some m)
    (hle : i ≤ s.sc.psUsecount.toNat) (hroom : s.sc.psUsecount.toNat + m < 2 ^ 32 + i)
    (hst : o.exec s = some t) :
    t.AwakeInUse ∧ t.sc.psUsecount.toNat + i = s.sc.psUsecount.toNat + m := by
  cases o with
  | wakeup =>
    obtain ⟨-, ⟨⟩⟩ := Option.ite_none_right_eq_some.mp hledger
    obtain ⟨hsound, hcount⟩ := h.wakeup (by omega) hst
    exact ⟨hsound, by omega⟩
  | restore =>
    obtain ⟨hpos, ⟨⟩⟩ := Option.ite_none_right_eq_some.mp hledger
    have huse : s.sc.psUsecount ≠ 0 := by
      intro hzero
      rw [hzero, UInt32.toNat_zero] at hle
      omega
    obtain ⟨hsound, hcount⟩ := h.restore huse hst
    exact ⟨hsound, by omega⟩
  | read =>
    obtain rfl := Option.some_inj.mp hledger
    obtain rfl := Option.some_inj.mp hst
    exact ⟨h, rfl⟩
  | setpowerAwake =>
    obtain rfl := Option.some_inj.mp hledger
    obtain rfl := Option.some_inj.mp hst
    exact ⟨h.of_keeps rfl (.inr rfl) rfl rfl, rfl⟩
  | setPsIdle | setPsEnabled | setPsFlags =>
    obtain rfl := Option.some_inj.mp hledger
    obtain rfl := Option.some_inj.mp hst
    exact ⟨h.of_keeps rfl (.inl rfl) rfl rfl, rfl⟩

/-- What happens between the operations leaves the users alone. A timer that expires was pending,
so there are none. -/
theorem PsState.AwakeInUse.event {e : PsEvent} (h : s.AwakeInUse) (hst : e.exec s = some t) :
    t.AwakeInUse ∧ t.sc.psUsecount = s.sc.psUsecount := by
  cases e with
  | expire =>
    obtain ⟨⟨hpending, -⟩, ⟨⟩⟩ := Option.ite_none_right_eq_some.mp hst
    refine ⟨fun huse ↦ ?_, rfl⟩
    exact absurd ((h huse).2.1.symm.trans hpending) Bool.false_ne_true
  | fullSleep =>
    obtain ⟨hrunning, ⟨⟩⟩ := Option.ite_none_right_eq_some.mp hst
    refine ⟨fun huse ↦ ?_, rfl⟩
    exact absurd ((h huse).2.2.symm.trans hrunning) Bool.false_ne_true
  | setpowerAwake =>
    obtain rfl := Option.some_inj.mp hst
    exact ⟨h.of_keeps rfl (.inr rfl) rfl rfl, rfl⟩
  | config =>
    obtain rfl := Option.some_inj.mp hst
    exact ⟨h.of_keeps rfl (.inl rfl) rfl rfl, rfl⟩

/-- The ledger stays below the cap. -/
theorem PsOp.le_psCap_of_ledger {o : PsOp} (hi : i ≤ psCap) (h : o.ledger i = some m) :
    m ≤ psCap := by
  cases o with
  | wakeup =>
    obtain ⟨hlt, ⟨⟩⟩ := Option.ite_none_right_eq_some.mp h
    exact hlt
  | restore =>
    obtain ⟨-, ⟨⟩⟩ := Option.ite_none_right_eq_some.mp h
    exact (Nat.sub_le i 1).trans hi
  | read | setpowerAwake | setPsIdle | setPsEnabled | setPsFlags =>
    obtain rfl := Option.some_inj.mp h
    exact hi

end

/-- All threads together cannot hold so many references that the counter overflows. -/
theorem limit_mul_psCap_lt : psScheme.limit * psCap < 2 ^ 32 := by decide

/-- The accounts of the driver: one user for each reference that a callback holds. -/
def psAccounts : psScheme.Accounts where
  ledger := PsOp.ledger
  cap := psCap
  Sound := PsState.AwakeInUse
  ledger_le hi hm := PsOp.le_psCap_of_ledger hi hm
  prog c := c.balanced_prog 0 (by decide)
  exec {_ i} _ _ _ hm hs hle hroom hst :=
    hs.exec hm hle (hroom.trans_lt (Nat.add_lt_add_right limit_mul_psCap_lt i)) hst
  env hs hst := (hs.event hst).imp_right (congrArg UInt32.toNat)

/-! ## Every run of the callbacks -/

/-- **The counter of the users is kept.** Let no callback be under way, and let there be no user.
Then in every state that is reached, whatever callbacks are started, however their operations are
interleaved with each other and with the timer, and on whichever path each of them goes:

* the counter is what the callbacks under way have added to it, and one that has returned has added
  nothing;
* a callback that is about to leave finds a user, so that the counter does not underflow;
* if there are users, the chip is awake, and `sleep_timer` is not pending. -/
theorem wakeRefs_of_run {s : PsState} {es : List (ThreadEvent Callback PsEvent)}
    {r : Threaded PsOp PsState} (hzero : s.sc.psUsecount = 0)
    (h : psScheme.machine.run ⟨s, []⟩ es = some r) :
    ((r.threads.map Thread.change).sum = r.shared.sc.psUsecount.toNat ∧
        ∀ t ∈ r.threads, t.prog.done = true → t.change = 0) ∧
      (∀ t ∈ r.threads, ∀ next, t.prog = .op .restore next → r.shared.sc.psUsecount ≠ 0) ∧
      (0 < r.shared.sc.psUsecount →
        r.shared.ah.powerMode = .awake ∧ r.shared.sc.sleepTimer = false) := by
  have hcount : psScheme.count s = 0 := congrArg UInt32.toNat hzero
  have hbalanced := psAccounts.balanced_of_run (fun huse ↦ absurd hzero huse) hcount h
  refine ⟨⟨hbalanced.sum_change, fun t ht ↦ (hbalanced.keeps t ht).change_eq_zero⟩,
    fun t ht next hprog huse ↦ ?_, fun hpos ↦ ?_⟩
  · obtain ⟨m, hm⟩ := hbalanced.exists_ledger ht hprog
    obtain ⟨hheld, -⟩ := Option.ite_none_right_eq_some.mp hm
    have hle : Scheme.held t ≤ r.shared.sc.psUsecount.toNat := hbalanced.held_le_count ht
    rw [huse, UInt32.toNat_zero] at hle
    exact absurd (hheld.trans_le hle) (lt_irrefl 0)
  · obtain ⟨hawake, htimer, -⟩ := hbalanced.sound (UInt32.ne_of_lt hpos).symm
    exact ⟨hawake, htimer⟩

/-- A function outside that does not touch the power save. -/
def Callee.idle : Callee := ⟨pure (), Prog.balanced_pure ()⟩

/-- The last user has left an idle chip, and the timer is pending. -/
def lastLeft : PsState :=
  ⟨⟨0, true, false, 0, true⟩, ⟨.awake, fun _ ↦ 0, 0, false, false, 0, false, 0, []⟩, false⟩

/-- The timer expires under a configuration of a queue, which has to wait for the handler; it wakes
the chip, and the clock is read while it is under way. Then it returns with an error. -/
theorem wakeRefs_of_run_confTx :
    ∃ r, psScheme.machine.run ⟨lastLeft, []⟩
        [.start (.confTx 2 .idle (-5)), .env .expire, .env .fullSleep, .step 0,
          .start (.getTsf .idle), .step 1, .step 0] = some r ∧
      (∀ t ∈ r.threads, t.prog.done = true → t.change = 0) ∧
      r.shared.sc.psUsecount = 1 ∧ r.shared.ah.powerMode = .awake ∧
      r.shared.sc.sleepTimer = false := by
  have hrun : psScheme.machine.run ⟨lastLeft, []⟩
      [.start (.confTx 2 .idle (-5)), .env .expire, .env .fullSleep, .step 0,
        .start (.getTsf .idle), .step 1, .step 0] = some _ := rfl
  obtain ⟨⟨-, hreturned⟩, -, hawake⟩ := wakeRefs_of_run rfl hrun
  exact ⟨_, hrun, hreturned, rfl, hawake (by decide)⟩

end UcsmaRateControl
