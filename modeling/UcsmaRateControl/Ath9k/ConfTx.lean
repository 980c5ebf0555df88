import Mathlib.Data.List.ReduceOption
import UcsmaRateControl.Ath9k.PowerSave
import UcsmaRateControl.Unlock.Sampling

/-!
# Configuring the transmit queues

`ath9k_conf_tx` hands the parameters of a queue to `ath_txq_update`, which programs the AIFS into
the upper bits of the register whose lower bits hold the contention window. The handlers of the
module write that register too, as a whole.

`ath_txq_update` is not part of the repository. Here it is a parameter that programs the AIFS on
success, and on failure leaves it; what it does to the lower bits is not used.
-/

namespace UcsmaRateControl

/-! ## The operation of the driver -/

/-- `struct ieee80211_tx_queue_params`, as far as it is read. -/
structure TxQueueParams where
  txop : UInt16
  cwMin : UInt16
  cwMax : UInt16
  aifs : UInt8

/-- `struct ath9k_tx_queue_info`, as far as it is filled. -/
structure TxQueueInfo where
  tqiAifs : UInt32
  tqiCwmin : UInt32
  tqiCwmax : UInt32
  tqiBurstTime : UInt32

/-- The `AIFS` field of `AR_DLCL_IFS(qnum)`, with the bits above it. -/
def AthHw.aifs (ah : AthHw) (qnum : ℕ) : UInt32 := ah.regs (.dlclIfs qnum) >>> 20

/-- What is relied on of `ath_txq_update`. -/
structure TxqUpdate where
  /-- The chip it leaves and the value it returns, from the chip, the hardware queue and the
  parameters. The first argument is whatever else it depends on. -/
  update : ℕ → AthHw → ℕ → TxQueueInfo → AthHw × Int32
  /-- On success the AIFS is programmed. -/
  aifs_of_success : ∀ env ah qnum qi, (update env ah qnum qi).2 = 0 → qi.tqiAifs < 256 →
    (update env ah qnum qi).1.aifs qnum = qi.tqiAifs
  /-- On failure it is not. -/
  aifs_of_failure : ∀ env ah qnum qi, (update env ah qnum qi).2 ≠ 0 →
    (update env ah qnum qi).1.aifs qnum = ah.aifs qnum
  /-- The other hardware queues keep theirs. -/
  aifs_of_ne : ∀ env ah qnum qi q, q ≠ qnum → (update env ah qnum qi).1.aifs q = ah.aifs q
  /-- The registers of the global timing are not touched. -/
  regs_gbl : ∀ env ah qnum qi, ∀ r ∈ [Reg.dGblIfsSlot, .dGblIfsSifs, .dGblIfsEifs],
    (update env ah qnum qi).1.regs r = ah.regs r

/-- The hardware queues behind the access categories, as `ath9k_init_queues` sets them up: one each,
below those of the beacon and its followers. -/
structure TxqMap where
  axqQnum : Fin 4 → ℕ
  injective : Function.Injective axqQnum
  axqQnum_lt : ∀ ac, axqQnum ac < 8

/-- The module over the driver, with what `ath9k_conf_tx` reads. -/
structure Configured extends Powered where
  /-- `txq_map`. -/
  txqMap : TxqMap
  /-- The flag of the chip. -/
  eifsEqualToAifs : Bool

namespace Configured

variable (s : Configured)

/-- Set the driver's power-save state and the chip. -/
def put (p : PowerSave × AthHw) : Configured := { s with toPowered := s.toPowered.put p }

/-- Set the chip. -/
def setAh (ah : AthHw) : Configured := s.put (s.sc, ah)

/-- The update of EIFS at the end of `ath9k_conf_tx`. -/
def updateEifs (aifs : UInt8) : Configured :=
  let (ah, sifsInClock) := s.node.ah.regRead .dGblIfsSifs
  let (ah, slottimeInClock) := ah.regRead .dGblIfsSlot
  let eifsInClock := sifsInClock + aifs.toUInt32 * slottimeInClock
  s.setAh (ah.regWrite .dGblIfsEifs eifsInClock)

/-- What `ath9k_conf_tx` makes of its parameters. -/
def queueInfo (params : TxQueueParams) : TxQueueInfo where
  tqiAifs := params.aifs.toUInt32
  tqiCwmin := params.cwMin.toUInt32
  tqiCwmax := params.cwMax.toUInt32
  tqiBurstTime := params.txop.toUInt32 * 32

/-- `ath9k_conf_tx`. -/
def ath9kConfTx (X : TxqUpdate) (queue : UInt16) (params : TxQueueParams) (env : ℕ) :
    Configured × Int32 :=
  if hqueue : queue.toNat < 4 then
    let qnum := s.txqMap.axqQnum ⟨queue.toNat, hqueue⟩
    let s := s.put (s.sc.ath9kPsWakeup s.node.ah)
    let (ah, ret) := X.update env s.node.ah qnum (queueInfo params)
    let s := s.setAh ah
    -- `IEEE80211_AC_BE` is queue 2
    let s := if queue = 2 ∧ s.eifsEqualToAifs then s.updateEifs params.aifs else s
    (s.put (s.sc.ath9kPsRestore s.node.ah), ret)
  else (s, 0)

/-- The AIFS in force on a queue. -/
def aifs (ac : Fin 4) : UInt32 := s.node.ah.aifs (s.txqMap.axqQnum ac)

end Configured

/-- What can happen to driver and module. -/
inductive ConfEvent
  /-- `mac80211` configures a queue. -/
  | confTx (queue : UInt16) (params : TxQueueParams) (env : ℕ)
  /-- The module takes an event. -/
  | unlock (e : Event)

/-- The machine of driver and module. -/
def configured (K : Kernel) (X : TxqUpdate) : Machine Configured ConfEvent where
  step s
    | .confTx queue params env => some (s.ath9kConfTx X queue params env).1
    | .unlock e => ((unlockNode K).step s.node e).map fun node ↦ { s with node }

/-! ## What the history says -/

/-- What an event does to the AIFS of a queue: a successful configuration sets it, and `none` stands
for a handler that gets to the registers. -/
def aifsChange (X : TxqUpdate) (ac : Fin 4) (s : Configured) : ConfEvent → List (Option UInt32)
  | .confTx queue params env =>
    if queue.toNat = ac ∧ (s.ath9kConfTx X queue params env).2 = 0 then
      [some params.aifs.toUInt32] else []
  | .unlock e => if s.node.Touches e then [none] else []

/-- What a run does to the AIFS of a queue. -/
def aifsChanges (K : Kernel) (X : TxqUpdate) (ac : Fin 4) (s : Configured) (es : List ConfEvent) :
    List (Option UInt32) := (configured K X).trace (aifsChange X ac) s es

/-- The AIFS last configured for a queue, and the one in force at the start if there is none. -/
def lastConfigured (K : Kernel) (X : TxqUpdate) (ac : Fin 4) (s : Configured)
    (es : List ConfEvent) : UInt32 :=
  (aifsChanges K X ac s es).reduceOption.getLast?.getD (s.aifs ac)

/-! ## One call -/

namespace AthHw

/-- Nothing has changed but the windows of the first eight DCUs. -/
def OnlyWindows (ah ah' : AthHw) : Prop :=
  (∀ q < 8, ah'.aifs q = ah.aifs q) ∧
    ∀ r, r ∉ (List.range 8).map Reg.dlclIfs → ah'.regs r = ah.regs r

theorem aifs_editContentionWindow (ah : AthHw) {c : UInt32} (hc : c < 1024) {q : ℕ} (hq : q < 8) :
    (ah.editContentionWindow c).aifs q = 0 := by
  rw [aifs, regs_editContentionWindow_dlclIfs ah hc hq, copies_shiftRight hc]

/-- `edit_contentionWindow` clears the AIFS, so it keeps only what is zero. -/
theorem onlyWindows_editContentionWindow_iff (ah : AthHw) {c : UInt32} (hc : c < 1024) :
    ah.OnlyWindows (ah.editContentionWindow c) ↔ ∀ q < 8, ah.aifs q = 0 := by
  constructor
  · intro h q hq
    rw [← h.1 q hq, aifs_editContentionWindow ah hc hq]
  · refine fun h ↦ ⟨fun q hq ↦ ?_, fun r hr ↦ ?_⟩
    · rw [h q hq, aifs_editContentionWindow ah hc hq]
    · rw [regs_editContentionWindow ah hc, if_neg hr]

theorem aifs_forceQuiet (ah : AthHw) (restored q : ℕ) :
    (ah.forceQuiet restored).aifs q = ah.aifs q := rfl

end AthHw

/-! ## One step -/

section Steps

variable {K : Kernel} {X : TxqUpdate}

theorem aifs_ath9kPsWakeup (sc : PowerSave) (ah : AthHw) (q : ℕ) :
    (sc.ath9kPsWakeup ah).2.aifs q = ah.aifs q := by
  rw [PowerSave.snd_ath9kPsWakeup]
  split <;> rfl

namespace Configured

variable (X) in
/-- What the call of `ath_txq_update` in `ath9k_conf_tx` comes to. -/
def updated (s : Configured) (ac : Fin 4) (params : TxQueueParams) (env : ℕ) : AthHw × Int32 :=
  X.update env (s.sc.ath9kPsWakeup s.node.ah).2 (s.txqMap.axqQnum ac) (queueInfo params)

variable (s : Configured) {queue : UInt16} (params : TxQueueParams) (env : ℕ)

theorem aifs_restore (ac : Fin 4) :
    (s.put (s.sc.ath9kPsRestore s.node.ah)).aifs ac = s.aifs ac := by
  have hah : (s.put (s.sc.ath9kPsRestore s.node.ah)).node.ah =
      (s.sc.ath9kPsRestore s.node.ah).2 := rfl
  rw [aifs, hah, PowerSave.snd_ath9kPsRestore]
  split <;> rfl

theorem ath9kConfTx_of_ge (h : ¬queue.toNat < 4) : s.ath9kConfTx X queue params env = (s, 0) :=
  dif_neg h

theorem snd_ath9kConfTx (h : queue.toNat < 4) :
    (s.ath9kConfTx X queue params env).2 = (s.updated X ⟨_, h⟩ params env).2 := by
  rw [ath9kConfTx, dif_pos h]
  rfl

/-- Nothing that follows the update in `ath9k_conf_tx` touches the AIFS of a queue. -/
theorem aifs_ath9kConfTx_of_lt (h : queue.toNat < 4) (ac : Fin 4) :
    (s.ath9kConfTx X queue params env).1.aifs ac =
      (s.updated X ⟨_, h⟩ params env).1.aifs (s.txqMap.axqQnum ac) := by
  have heifs : ∀ (s' : Configured) (b : Prop) [Decidable b],
      (if b then s'.updateEifs params.aifs else s').aifs ac = s'.aifs ac := by
    intro s' b _
    split <;> rfl
  rw [ath9kConfTx, dif_pos h]
  exact (aifs_restore _ ac).trans (heifs _ _)

theorem aifs_updated (ac ac' : Fin 4) :
    (s.updated X ac params env).1.aifs (s.txqMap.axqQnum ac') =
      if ac = ac' ∧ (s.updated X ac params env).2 = 0 then params.aifs.toUInt32
      else s.aifs ac' := by
  by_cases hac : ac = ac'
  · subst hac
    by_cases hret : (s.updated X ac params env).2 = 0
    · rw [if_pos ⟨rfl, hret⟩]
      exact X.aifs_of_success _ _ _ _ hret (UInt32.lt_iff_toNat_lt.mpr params.aifs.toNat_lt)
    · rw [if_neg fun h ↦ hret h.2, updated, X.aifs_of_failure _ _ _ _ hret, aifs_ath9kPsWakeup]
      rfl
  · have hne : s.txqMap.axqQnum ac' ≠ s.txqMap.axqQnum ac := fun heq ↦
      hac (s.txqMap.injective heq).symm
    rw [if_neg fun h ↦ hac h.1, updated, X.aifs_of_ne _ _ _ _ _ hne, aifs_ath9kPsWakeup]
    rfl

/-- **A call of `ath9k_conf_tx`** sets the AIFS of its queue if it succeeds, and of no other. -/
theorem aifs_ath9kConfTx (queue : UInt16) (ac : Fin 4) :
    (s.ath9kConfTx X queue params env).1.aifs ac =
      if queue.toNat = ac ∧ (s.ath9kConfTx X queue params env).2 = 0 then params.aifs.toUInt32
      else s.aifs ac := by
  by_cases hqueue : queue.toNat < 4
  · rw [aifs_ath9kConfTx_of_lt s params env hqueue, snd_ath9kConfTx s params env hqueue,
      aifs_updated]
    simp only [Fin.ext_iff]
  · have hne : queue.toNat ≠ ac := fun h ↦ hqueue (h ▸ ac.isLt)
    rw [ath9kConfTx_of_ge s params env hqueue, if_neg fun h ↦ hne h.1]

end Configured

/-- A handler that gets to the registers leaves no AIFS in the first eight of them. -/
theorem Took.aifs {s t : Node} {e : Event} (h : Took K s e t) {q : ℕ} (hq : q < 8)
    (htouches : s.Touches e) : t.ah.aifs q = 0 := by
  have hsample : ∀ txbuf, (s.sample txbuf).ah.aifs q = 0 := by
    intro txbuf
    rw [ah_sample]
    exact AthHw.aifs_editContentionWindow _ (cwFor_lt _) hq
  rcases h.samples_or_keeps with ⟨-, txbuf, hs⟩ | ⟨hno, -, -⟩
  · rcases hs.ah with hah | ⟨restored, hah⟩
    · rw [hah, hsample txbuf]
    · rw [hah, AthHw.aifs_forceQuiet, hsample txbuf]
  · exact absurd htouches hno

theorem aifs_step {s t : Configured} {e : ConfEvent} (hst : (configured K X).step s e = some t)
    (ac : Fin 4) :
    t.aifs ac = (aifsChange X ac s e).getLast?.elim (s.aifs ac) fun change ↦ change.getD 0 := by
  cases e with
  | confTx queue params env =>
    obtain rfl := Option.some_inj.mp hst
    rw [Configured.aifs_ath9kConfTx, aifsChange]
    split <;> rfl
  | unlock e =>
    obtain ⟨u, hu, rfl⟩ := Option.map_eq_some_iff.mp hst
    rw [aifsChange]
    by_cases htouches : s.node.Touches e
    · rw [if_pos htouches]
      exact (Took.of_step hu).aifs (s.txqMap.axqQnum_lt ac) htouches
    · rw [if_neg htouches]
      exact congrArg (AthHw.aifs · (s.txqMap.axqQnum ac)) ((Took.of_step hu).touches.2 htouches)

end Steps

/-! ## Runs -/

section Runs

variable {K : Kernel} {X : TxqUpdate} {s t : Configured} {es : List ConfEvent}

/-- The AIFS in force is the one last configured, unless a handler has been at the registers since
then. -/
theorem aifs_of_run (h : (configured K X).run s es = some t) (ac : Fin 4) :
    t.aifs ac =
      if (aifsChanges K X ac s es).getLast? = some none then 0 else lastConfigured K X ac s es := by
  have hlast := Machine.observe_of_run (fun u : Configured ↦ u.aifs ac) _
    (fun _ _ _ _ _ hst ↦ aifs_step hst ac) h
  rw [hlast, lastConfigured, aifsChanges]
  rcases List.eq_nil_or_concat ((configured K X).trace (aifsChange X ac) s es) with
    hnil | ⟨l, change, hconcat⟩
  · rw [hnil]
    rfl
  · rw [hconcat]
    cases change with
    | none =>
      rw [List.concat_eq_append, List.getLast?_concat]
      rfl
    | some v =>
      rw [List.reduceOption_concat_of_some, List.concat_eq_append, List.concat_eq_append,
        List.getLast?_concat, List.getLast?_concat]
      rfl

/-- **What becomes of the AIFS, exactly.** A call of `edit_contentionWindow` leaves everything but
the contention windows alone if and only if the first eight DCUs have no AIFS. After a sequence of
configurations and events of the module, the AIFS in force on each queue is the one last configured
for it, if and only if for each queue that is zero or no handler has been at the registers since. -/
theorem inForce_iff_of_run (h : (configured K X).run s es = some t) :
    (∀ (ah : AthHw) (c : UInt32), c < 1024 →
        (ah.OnlyWindows (ah.editContentionWindow c) ↔ ∀ q < 8, ah.aifs q = 0)) ∧
      ((∀ ac, t.aifs ac = lastConfigured K X ac s es) ↔
        ∀ ac, lastConfigured K X ac s es = 0 ∨
          (aifsChanges K X ac s es).getLast? ≠ some none) := by
  refine ⟨fun ah c hc ↦ ah.onlyWindows_editContentionWindow_iff hc,
    forall_congr' fun ac ↦ ?_⟩
  rw [aifs_of_run h ac]
  split <;> rename_i hlast
  · rw [hlast, eq_comm]
    exact (or_iff_left fun hne ↦ hne rfl).symm
  · exact iff_of_true rfl (.inr hlast)

/-- The fields of `AR_DLCL_IFS`. -/
def dlclIfsFields (qi : TxQueueInfo) : UInt32 :=
  (qi.tqiCwmin ||| qi.tqiCwmax <<< 10) &&& (0x000fffff : UInt32) ||| (qi.tqiAifs &&& 0xff) <<< 20

theorem shiftRight_dlclIfsFields {qi : TxQueueInfo} (h : qi.tqiAifs < 256) :
    dlclIfsFields qi >>> 20 = qi.tqiAifs := by
  have haifs : qi.tqiAifs.toNat < 2 ^ 8 := UInt32.lt_iff_toNat_lt.mp h
  have hmask : (qi.tqiAifs &&& 0xff).toNat = qi.tqiAifs.toNat :=
    (UInt32.toNat_and _ _).trans (Nat.and_two_pow_sub_one_of_lt_two_pow haifs)
  have htwenty : (20 : UInt32).toNat % 32 = 20 := by decide
  have hlow : ((qi.tqiCwmin ||| qi.tqiCwmax <<< 10) &&& (0x000fffff : UInt32)).toNat < 2 ^ 20 := by
    rw [UInt32.toNat_and]
    have hmask : (0x000fffff : UInt32).toNat < 2 ^ 20 := by decide
    exact Nat.and_le_right.trans_lt hmask
  have hhigh : ((qi.tqiAifs &&& 0xff) <<< 20).toNat = qi.tqiAifs.toNat <<< 20 := by
    have hlt : qi.tqiAifs.toNat * 2 ^ 20 < 2 ^ 32 := by omega
    rw [UInt32.toNat_shiftLeft, hmask, htwenty, Nat.shiftLeft_eq, Nat.mod_eq_of_lt hlt]
  apply UInt32.toNat_inj.mp
  rw [UInt32.toNat_shiftRight, dlclIfsFields, UInt32.toNat_or, hhigh, Nat.or_comm,
    ← Nat.shiftLeft_add_eq_or_of_lt hlow, htwenty, Nat.shiftLeft_eq, Nat.shiftRight_eq_div_pow]
  omega

/-- An update that writes the fields of the queue, or finds the queue inactive. -/
def TxqUpdate.ath9k : TxqUpdate where
  update env ah qnum qi :=
    if env = 0 then (ah.regWrite (.dlclIfs qnum) (dlclIfsFields qi), 0) else (ah, -5)
  aifs_of_success env ah qnum qi hret haifs := by
    by_cases henv : env = 0
    · rw [if_pos henv, AthHw.aifs, AthHw.regWrite]
      dsimp only
      rw [if_pos rfl, shiftRight_dlclIfsFields haifs]
    · rw [if_neg henv] at hret
      exact absurd hret (by decide : (-5 : Int32) ≠ 0)
  aifs_of_failure env ah qnum qi hret := by
    by_cases henv : env = 0
    · rw [if_pos henv] at hret
      exact absurd rfl hret
    · rw [if_neg henv]
  aifs_of_ne env ah qnum qi q hq := by
    have hne : Reg.dlclIfs q ≠ .dlclIfs qnum := fun h ↦ hq (Reg.dlclIfs.inj h)
    split
    · rw [AthHw.aifs, AthHw.regWrite]
      dsimp only
      rw [if_neg hne, AthHw.aifs]
    · rfl
  regs_gbl env ah qnum qi r hr := by
    have hne : r ≠ .dlclIfs qnum := by
      rintro rfl
      simp at hr
    split
    · exact if_neg hne
    · rfl

/-- A chip that is awake, under a driver with default parameters. -/
def defaultConfigured : Configured where
  toPowered := defaultPower false
  txqMap := ⟨fun ac ↦ ac.val, fun _ _ ↦ Fin.ext, fun ac ↦ ac.isLt.trans (by decide)⟩
  eifsEqualToAifs := true

/-- A configuration after a callback. -/
theorem inForce_iff_of_run_confTx :
    ∃ t, (configured .linux .ath9k).run defaultConfigured
        [.unlock (.fire ⟨20000000, 20001000⟩ .restart), .confTx 2 ⟨0, 15, 1023, 3⟩ 0] = some t ∧
      ∀ ac, t.aifs ac = lastConfigured .linux .ath9k ac defaultConfigured
        [.unlock (.fire ⟨20000000, 20001000⟩ .restart), .confTx 2 ⟨0, 15, 1023, 3⟩ 0] := by
  have hrun : ((configured .linux .ath9k).run defaultConfigured
      [.unlock (.fire ⟨20000000, 20001000⟩ .restart),
        .confTx 2 ⟨0, 15, 1023, 3⟩ 0]).isSome = true := by decide +kernel
  obtain ⟨t, ht⟩ := Option.isSome_iff_exists.mp hrun
  exact ⟨t, ht, (inForce_iff_of_run ht).2.mpr (by decide +kernel)⟩

/-- A callback clears the AIFS of the best-effort queue, and with it everything above the window. -/
theorem exists_lost_aifs :
    ∃ t, (configured .linux .ath9k).run defaultConfigured
        [.confTx 2 ⟨0, 15, 1023, 3⟩ 0, .unlock (.fire ⟨20000000, 20001000⟩ .restart)] = some t ∧
      lastConfigured .linux .ath9k 2 defaultConfigured
        [.confTx 2 ⟨0, 15, 1023, 3⟩ 0, .unlock (.fire ⟨20000000, 20001000⟩ .restart)] = 3 ∧
      t.aifs 2 = 0 ∧
      ∃ ah : AthHw, ah.aifs 2 = 3 ∧ (ah.editContentionWindow 1).aifs 2 = 0 ∧
        ¬ah.OnlyWindows (ah.editContentionWindow 1) := by
  have heval : ((configured .linux .ath9k).run defaultConfigured
      [.confTx 2 ⟨0, 15, 1023, 3⟩ 0, .unlock (.fire ⟨20000000, 20001000⟩ .restart)]).any
        (fun t ↦ decide (t.aifs 2 = 0)) = true := by decide +kernel
  obtain ⟨t, ht, hcond⟩ := (Option.any_eq_true _ _).mp heval
  have hbefore : ((defaultGlobals none).ah.regWrite (.dlclIfs 2) 0x0030fc0f).aifs 2 = 3 := by
    decide +kernel
  have hafter : (((defaultGlobals none).ah.regWrite (.dlclIfs 2)
      0x0030fc0f).editContentionWindow 1).aifs 2 = 0 := by decide +kernel
  refine ⟨t, ht, by decide +kernel, of_decide_eq_true hcond, _, hbefore, hafter, fun honly ↦ ?_⟩
  have hkept := honly.1 2 (by decide)
  rw [hbefore, hafter] at hkept
  exact absurd hkept (by decide)

end Runs

end UcsmaRateControl
