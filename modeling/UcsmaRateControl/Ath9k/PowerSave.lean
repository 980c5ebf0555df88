import UcsmaRateControl.Unlock.Node

/-!
# Power save under the module

The driver counts the users of the chip. The first one wakes it; when the last one leaves, the chip
is put into network sleep, or a timer is started that puts it into full sleep, or nothing happens,
depending on the power-save state. The handlers of the module write registers without becoming a
user, so they find the chip in whatever mode the driver has left it.
-/

namespace UcsmaRateControl

/-! ## The operations of the driver -/

/-- The power-save part of `struct ath_softc`. -/
structure PowerSave where
  psUsecount : UInt32
  psIdle : Bool
  psEnabled : Bool
  psFlags : UInt16
  /-- Whether `sleep_timer` is pending. -/
  sleepTimer : Bool

/-- `ath9k_hw_setpower`. -/
def AthHw.setPower (ah : AthHw) (mode : PowerMode) : AthHw := { ah with powerMode := mode }

namespace PowerSave

/-- `PS_WAIT_FOR_BEACON`, `PS_WAIT_FOR_CAB`, `PS_WAIT_FOR_PSPOLL_DATA`, `PS_WAIT_FOR_TX_ACK` and
`PS_WAIT_FOR_ANI`. -/
def psWait : UInt16 :=
  let bit (n : UInt16) : UInt16 := 1 <<< n
  bit 0 ||| bit 1 ||| bit 2 ||| bit 3 ||| bit 5

variable (sc : PowerSave) (ah : AthHw)

/-- `ath9k_ps_wakeup`. -/
def ath9kPsWakeup : PowerSave × AthHw :=
  let sc := { sc with psUsecount := sc.psUsecount + 1 }
  if sc.psUsecount ≠ 1 then (sc, ah)
  else ({ sc with sleepTimer := false }, ah.setPower .awake)

/-- `ath9k_ps_restore`. -/
def ath9kPsRestore : PowerSave × AthHw :=
  let sc := { sc with psUsecount := sc.psUsecount - 1 }
  if sc.psUsecount ≠ 0 then (sc, ah)
  else if sc.psIdle then ({ sc with sleepTimer := true }, ah)
  else if sc.psEnabled ∧ sc.psFlags &&& psWait = 0 then (sc, ah.setPower .networkSleep)
  else (sc, ah)

/-- `ath_ps_full_sleep`, which runs when `sleep_timer` expires. -/
def athPsFullSleep : PowerSave × AthHw := ({ sc with sleepTimer := false }, ah.setPower .fullSleep)

/-- A restore sends the chip to sleep: the last user leaves, the chip is not idle, power save is on
and nothing is awaited. -/
def Sleeps : Prop :=
  sc.psUsecount - 1 = 0 ∧ sc.psIdle = false ∧ sc.psEnabled = true ∧ sc.psFlags &&& psWait = 0

instance : Decidable sc.Sleeps := inferInstanceAs (Decidable (_ ∧ _ ∧ _ ∧ _))

/-- A wakeup touches the chip only for the first user. -/
theorem snd_ath9kPsWakeup :
    (sc.ath9kPsWakeup ah).2 = if sc.psUsecount + 1 = 1 then ah.setPower .awake else ah := by
  by_cases hone : sc.psUsecount + 1 = 1 <;> simp [ath9kPsWakeup, hone]

/-- A restore touches the chip only to send it to sleep. -/
theorem snd_ath9kPsRestore :
    (sc.ath9kPsRestore ah).2 = if sc.Sleeps then ah.setPower .networkSleep else ah := by
  by_cases hzero : sc.psUsecount - 1 = 0
  · cases hidle : sc.psIdle with
    | true => simp [ath9kPsRestore, Sleeps, hzero, hidle]
    | false =>
      by_cases hsleep : sc.psEnabled = true ∧ sc.psFlags &&& psWait = 0 <;>
        simp [ath9kPsRestore, Sleeps, hzero, hidle, hsleep]
  · simp [ath9kPsRestore, Sleeps, hzero]

end PowerSave

/-! ## Driver and module together -/

/-- The driver's power-save state and the module, which share the chip. -/
structure Powered where
  sc : PowerSave
  node : Node

/-- What can happen to them. -/
inductive PowerEvent
  | wakeup
  | restore
  /-- `sleep_timer` expires. -/
  | fullSleep
  /-- The driver sets the power mode to awake, on a TIM interrupt or to leave power save. -/
  | setAwake
  /-- The driver changes its power-save state. -/
  | config (psIdle psEnabled : Bool) (psFlags : UInt16)
  /-- The module takes an event. -/
  | unlock (e : Event)

/-- Set the driver's state and the chip. -/
def Powered.put (s : Powered) (p : PowerSave × AthHw) : Powered :=
  ⟨p.1, { s.node with ah := p.2 }⟩

/-- The machine of driver and module. -/
def powered (K : Kernel) : Machine Powered PowerEvent where
  step s
    | .wakeup => some (s.put (s.sc.ath9kPsWakeup s.node.ah))
    | .restore => some (s.put (s.sc.ath9kPsRestore s.node.ah))
    | .fullSleep =>
      if s.sc.sleepTimer = true then some (s.put (s.sc.athPsFullSleep s.node.ah)) else none
    | .setAwake => some (s.put (s.sc, s.node.ah.setPower .awake))
    | .config psIdle psEnabled psFlags =>
      some { s with sc := { s.sc with psIdle, psEnabled, psFlags } }
    | .unlock e => ((unlockNode K).step s.node e).map fun node ↦ { s with node }

/-- Every register access so far has found the chip awake. -/
def Powered.AllAwake (s : Powered) : Prop := ∀ a ∈ s.node.ah.accesses, a.mode = .awake

/-- The event runs a handler that gets to the registers. -/
def Node.Touches (s : Node) : Event → Prop
  | .fire _ _ => s.txbufFff.isSome = true
  | .pulse _ => s.driverLock = false ∧ s.txbufFff.isSome = true
  | _ => False

instance (s : Node) : (e : Event) → Decidable (s.Touches e)
  | .fire _ _ => inferInstanceAs (Decidable (_ = true))
  | .pulse _ => inferInstanceAs (Decidable (_ ∧ _))
  | .setT _ | .setDelta _ | .txbuf _ | .tick _ => inferInstanceAs (Decidable False)

/-- What an operation of the driver does to the power mode: `true` for waking the chip, `false` for
sending it to sleep. -/
def powerChange (s : Powered) : PowerEvent → List Bool
  | .wakeup => if s.sc.psUsecount + 1 = 1 then [true] else []
  | .restore => if s.sc.Sleeps then [false] else []
  | .fullSleep => [false]
  | .setAwake => [true]
  | _ => []

/-- The last change of the power mode in a run, if any, was to wake the chip. -/
def LastWoken (K : Kernel) (s : Powered) (es : List PowerEvent) : Prop :=
  ((powered K).trace powerChange s es).getLast? ≠ some false

instance (K : Kernel) (s : Powered) (es : List PowerEvent) : Decidable (LastWoken K s es) :=
  inferInstanceAs (Decidable (_ ≠ _))

instance (s : Powered) : Decidable s.AllAwake :=
  inferInstanceAs (Decidable (∀ a ∈ s.node.ah.accesses, a.mode = .awake))

/-! ## What the handlers do to the chip -/

/-- The chip has been accessed, always in the power mode it has kept. -/
structure AthHw.Touched (ah ah' : AthHw) : Prop where
  powerMode : ah'.powerMode = ah.powerMode
  accesses : ∃ a l, ah'.accesses = a :: l ++ ah.accesses ∧ ∀ b ∈ a :: l, b.mode = ah.powerMode

namespace AthHw

theorem Touched.trans {a b c : AthHw} (h : Touched a b) (h' : Touched b c) : Touched a c := by
  obtain ⟨x, l, hl, hmode⟩ := h.accesses
  obtain ⟨x', l', hl', hmode'⟩ := h'.accesses
  refine ⟨h'.powerMode.trans h.powerMode, x', l' ++ (x :: l), ?_, fun y hy ↦ ?_⟩
  · rw [hl', hl, ← List.append_assoc]
    rfl
  · rw [← List.cons_append] at hy
    rcases List.mem_append.mp hy with hy | hy
    · exact (hmode' y hy).trans h.powerMode
    · exact hmode y hy

theorem touched_editContentionWindow (ah : AthHw) (w : UInt32) :
    Touched ah (ah.editContentionWindow w) := by
  refine ⟨powerMode_editContentionWindow ah w, ⟨.dlclIfs 7, ah.powerMode⟩,
    (List.range 7).reverse.map fun qnum ↦ ⟨.dlclIfs qnum, ah.powerMode⟩, ?_, fun b hb ↦ ?_⟩
  · exact accesses_editContentionWindow ah w
  · rcases List.mem_cons.mp hb with rfl | hb
    · rfl
    · obtain ⟨qnum, -, rfl⟩ := List.mem_map.mp hb
      rfl

theorem touched_forceQuiet (ah : AthHw) (restored : ℕ) : Touched ah (ah.forceQuiet restored) := by
  refine ⟨rfl, ⟨.pcuMisc, ah.powerMode⟩, [⟨.pcuMisc, ah.powerMode⟩], rfl, fun b hb ↦ ?_⟩
  rw [List.eq_of_mem_replicate (n := 2) hb]

end AthHw

section Runs

variable {K : Kernel} {s t : Powered} {e : PowerEvent} {es : List PowerEvent}

/-- A handler has sampled the list, and it may have held the medium quiet. -/
structure Node.Samples (s t : Node) (txbuf : ListHead) : Prop where
  list : s.txbufFff = some txbuf
  bufCounter : t.bufCounter = (s.sample txbuf).bufCounter
  ah : t.ah = (s.sample txbuf).ah ∨ ∃ restored, t.ah = (s.sample txbuf).ah.forceQuiet restored

/-- **What a step does to the driver's side.** A handler that gets to the registers samples the
list, and any other step leaves the counter and the chip alone. -/
theorem Took.samples_or_keeps {s t : Node} {e : Event} (h : Took K s e t) :
    (s.Touches e ∧ ∃ txbuf, s.Samples t txbuf) ∨
      (¬s.Touches e ∧ t.bufCounter = s.bufCounter ∧ t.ah = s.ah) := by
  cases h with
  | fireNull i garbage due null =>
    exact .inr ⟨Option.not_isSome_iff_eq_none.mpr null, rfl, rfl⟩
  | fireSome i garbage due txbuf list =>
    exact .inl ⟨Option.isSome_of_eq_some list, txbuf, list, rfl, .inl rfl⟩
  | pulseSpins i arrives locked =>
    exact .inr ⟨fun htouch ↦ absurd locked (Bool.eq_false_iff.mp htouch.1), rfl, rfl⟩
  | pulseNull i arrives free null =>
    exact .inr ⟨fun htouch ↦ absurd null (Option.isSome_iff_ne_none.mp htouch.2), rfl, rfl⟩
  | pulseRejects i arrives free txbuf list rejects =>
    exact .inl ⟨⟨free, Option.isSome_of_eq_some list⟩, txbuf, list, rfl, .inl rfl⟩
  | pulseTraps i arrives txbuf list accepts zero =>
    exact .inl ⟨⟨accepts.1, accepts.2.1⟩, txbuf, list, rfl, .inl rfl⟩
  | pulseAccepts i arrives txbuf list accepts nonzero =>
    exact .inl ⟨⟨accepts.1, accepts.2.1⟩, txbuf, list, rfl, .inr ⟨i.restored, rfl⟩⟩
  | setT | setDelta | txbuf | tick => exact .inr ⟨id, rfl, rfl⟩

/-- A handler that gets to the registers touches the chip, any other event leaves it alone. -/
theorem Took.touches {s t : Node} {e : Event} (h : Took K s e t) :
    (s.Touches e → s.ah.Touched t.ah) ∧ (¬s.Touches e → t.ah = s.ah) := by
  rcases h.samples_or_keeps with ⟨htouch, txbuf, hs⟩ | ⟨hno, -, hah⟩
  · have hsample : s.ah.Touched (s.sample txbuf).ah := s.ah.touched_editContentionWindow _
    refine ⟨fun _ ↦ ?_, fun hno ↦ absurd htouch hno⟩
    rcases hs.ah with hah | ⟨restored, hah⟩
    · rw [hah]
      exact hsample
    · rw [hah]
      exact hsample.trans (AthHw.touched_forceQuiet _ restored)
  · exact ⟨fun htouch ↦ absurd htouch hno, fun _ ↦ hah⟩

/-! ## The power mode along a run -/

/-- What one step does to the power mode. -/
theorem powerMode_step (hst : (powered K).step s e = some t) :
    decide (t.node.ah.powerMode = .awake) =
      (powerChange s e).getLast?.elim (decide (s.node.ah.powerMode = .awake)) id := by
  cases e with
  | wakeup =>
    obtain rfl := Option.some_inj.mp hst
    rw [Powered.put, PowerSave.snd_ath9kPsWakeup, powerChange]
    split <;> rfl
  | restore =>
    obtain rfl := Option.some_inj.mp hst
    rw [Powered.put, PowerSave.snd_ath9kPsRestore, powerChange]
    split <;> rfl
  | fullSleep =>
    obtain ⟨-, ⟨⟩⟩ := Option.ite_none_right_eq_some.mp hst
    rfl
  | setAwake =>
    obtain rfl := Option.some_inj.mp hst
    rfl
  | config =>
    obtain rfl := Option.some_inj.mp hst
    rfl
  | unlock e =>
    obtain ⟨u, hu, rfl⟩ := Option.map_eq_some_iff.mp hst
    obtain ⟨htouch, hleave⟩ := (Took.of_step hu).touches
    have hmode : u.ah.powerMode = s.node.ah.powerMode := by
      by_cases hc : s.node.Touches e
      · exact (htouch hc).powerMode
      · exact congrArg AthHw.powerMode (hleave hc)
    rw [hmode]
    rfl

/-- **The chip is awake** exactly while the last change of its power mode was to wake it. -/
theorem powerMode_of_run (hs : s.node.ah.powerMode = .awake)
    (h : (powered K).run s es = some t) : t.node.ah.powerMode = .awake ↔ LastWoken K s es := by
  have hlast := Machine.observe_of_run (fun u : Powered ↦ decide (u.node.ah.powerMode = .awake)) id
    (fun _ _ _ _ _ hst ↦ powerMode_step hst) h
  rw [LastWoken, ← decide_eq_true_iff (p := t.node.ah.powerMode = .awake), hlast]
  cases ((powered K).trace powerChange s es).getLast? with
  | none => exact iff_of_true (decide_eq_true hs) nofun
  | some woken =>
    rw [Option.elim_some]
    cases woken <;> decide

/-! ## The accesses along a run -/

/-- The step gets to the registers only if the chip is awake. -/
def AwakeWhenTouched (s : Powered) (e : PowerEvent) : Prop :=
  ∀ e', e = .unlock e' → s.node.Touches e' → s.node.ah.powerMode = .awake

/-- The driver's operations are not in the log of the handlers' accesses. -/
theorem accesses_driver_step (hst : (powered K).step s e = some t) (he : ∀ e', e ≠ .unlock e') :
    t.node.ah.accesses = s.node.ah.accesses := by
  cases e with
  | wakeup =>
    obtain rfl := Option.some_inj.mp hst
    rw [Powered.put, PowerSave.snd_ath9kPsWakeup]
    split <;> rfl
  | restore =>
    obtain rfl := Option.some_inj.mp hst
    rw [Powered.put, PowerSave.snd_ath9kPsRestore]
    split <;> rfl
  | fullSleep =>
    obtain ⟨-, ⟨⟩⟩ := Option.ite_none_right_eq_some.mp hst
    rfl
  | setAwake =>
    obtain rfl := Option.some_inj.mp hst
    rfl
  | config =>
    obtain rfl := Option.some_inj.mp hst
    rfl
  | unlock e => exact absurd rfl (he e)

/-- A step keeps all accesses awake exactly if it touches the chip only awake. -/
theorem Powered.AllAwake.step_iff (h : s.AllAwake) (hst : (powered K).step s e = some t) :
    t.AllAwake ↔ AwakeWhenTouched s e := by
  by_cases he : ∃ e', e = .unlock e'
  · obtain ⟨e', rfl⟩ := he
    obtain ⟨u, hu, rfl⟩ := Option.map_eq_some_iff.mp hst
    obtain ⟨htouch, hleave⟩ := (Took.of_step hu).touches
    by_cases hc : s.node.Touches e'
    · obtain ⟨a, l, hl, hmode⟩ := (htouch hc).accesses
      constructor
      · rintro hall e'' - -
        rw [← hmode a List.mem_cons_self]
        exact hall a (by rw [hl]; exact List.mem_append_left _ List.mem_cons_self)
      · intro hawake b hb
        have hawake : s.node.ah.powerMode = .awake := hawake e' rfl hc
        rw [hl] at hb
        rcases List.mem_append.mp hb with hb | hb
        · exact (hmode b hb).trans hawake
        · exact h b hb
    · refine iff_of_true (fun b hb ↦ h b ?_) ?_
      · rw [← hleave hc]
        exact hb
      · rintro e'' ⟨⟩ htouches
        exact absurd htouches hc
  · have hno : ∀ e', e ≠ .unlock e' := fun e' heq ↦ he ⟨e', heq⟩
    refine iff_of_true (fun b hb ↦ h b ?_) fun e' heq ↦ absurd heq (hno e')
    rw [← accesses_driver_step hst hno]
    exact hb

/-- **Accesses to a sleeping chip, exactly.** Let the chip be awake at the start. Along every run of
the driver's power-save operations and the handlers of the module, every register access of the
handlers finds the chip awake, if and only if whenever a handler gets to the registers, the last
change of the power mode before it, if any, was to wake the chip. -/
theorem allAwake_iff_of_run (hs : s.AllAwake) (hawake : s.node.ah.powerMode = .awake)
    (h : (powered K).run s es = some t) :
    (powered K).Throughout Powered.AllAwake s es ↔
      ∀ pre e, pre ++ [.unlock e] <+: es → ∀ u, (powered K).run s pre = some u →
        u.node.Touches e → LastWoken K s pre := by
  rw [Machine.throughout_iff_meets hs (fun _ _ _ _ _ hu huv ↦ hu.step_iff huv) h]
  constructor
  · intro hmeets pre e hp u hu htouches
    exact (powerMode_of_run hawake hu).mp (hmeets pre _ hp u hu e rfl htouches)
  · rintro hhistory pre - hp u hu e rfl htouches
    exact (powerMode_of_run hawake hu).mpr (hhistory pre e hp u hu htouches)

/-- A node with default parameters over a chip that nobody uses, with power save on or off. -/
def defaultPower (psEnabled : Bool) : Powered :=
  ⟨⟨0, false, psEnabled, 0, false⟩, defaultNode (some .empty)⟩

/-- A callback while the driver uses the chip. -/
theorem allAwake_iff_of_run_wakeup :
    (powered .linux).Throughout Powered.AllAwake (defaultPower true)
      [.wakeup, .unlock (.fire ⟨20000000, 20001000⟩ .restart)] := by
  have hrun : ((powered .linux).run (defaultPower true)
      [.wakeup, .unlock (.fire ⟨20000000, 20001000⟩ .restart)]).isSome = true := by decide +kernel
  obtain ⟨t, ht⟩ := Option.isSome_iff_exists.mp hrun
  have hwoken : ∀ pre ∈ [PowerEvent.wakeup, .unlock (.fire ⟨20000000, 20001000⟩ .restart)].inits,
      LastWoken .linux (defaultPower true) pre := by decide +kernel
  refine (allAwake_iff_of_run (by decide +kernel) rfl ht).mpr fun pre e hp u _ _ ↦ ?_
  exact hwoken pre ((List.mem_inits _ _).mpr ((List.prefix_append pre _).trans hp))

/-- A callback after the last user has left and the chip has gone into network sleep. -/
theorem exists_asleep_access :
    ∃ t, (powered .linux).run (defaultPower true)
        [.wakeup, .restore, .unlock (.fire ⟨20000000, 20001000⟩ .restart)] = some t ∧
      (defaultPower true).AllAwake ∧ ⟨.dlclIfs 0, .networkSleep⟩ ∈ t.node.ah.accesses ∧
      ¬t.AllAwake := by
  have heval : ((powered .linux).run (defaultPower true)
      [.wakeup, .restore, .unlock (.fire ⟨20000000, 20001000⟩ .restart)]).any (fun t ↦
        decide (⟨.dlclIfs 0, .networkSleep⟩ ∈ t.node.ah.accesses)) = true := by decide +kernel
  obtain ⟨t, ht, hcond⟩ := (Option.any_eq_true _ _).mp heval
  have hmem := of_decide_eq_true hcond
  exact ⟨t, ht, by decide +kernel, hmem, fun hall ↦ nomatch hall _ hmem⟩

end Runs

end UcsmaRateControl
