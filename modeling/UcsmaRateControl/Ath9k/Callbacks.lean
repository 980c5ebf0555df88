import UcsmaRateControl.Ath9k.PowerSave
import UcsmaRateControl.Machine.Threads

/-!
# The callbacks of the driver and the power save

The callbacks of `main.c` as programs over the state that power save shares: the counter of the
users, the flags, the timer and the power mode of the chip. What a callback does to anything else is
left to the functions it calls. These are programs as well, which may take references of their own;
all that is known of them is that they give back what they take.

A test of anything but the shared state is an input of the callback. Where the source holds
`sc_pm_lock` over several operations they are separate here, which allows more interleavings than
there are.
-/

namespace UcsmaRateControl

/-! ## The shared state -/

/-- The driver's power-save state, the chip, and the handler of `sleep_timer`. -/
structure PsState where
  sc : PowerSave
  ah : AthHw
  /-- Whether `ath_ps_full_sleep` is running. -/
  fullSleeping : Bool

/-- The operations on the shared state. -/
inductive PsOp
  | wakeup
  | restore
  /-- Read the state. -/
  | read
  /-- Set the power mode to awake. -/
  | setpowerAwake
  | setPsIdle (b : Bool)
  | setPsEnabled (b : Bool)
  /-- Change `ps_flags`, looking at `ps_enabled`. -/
  | setPsFlags (f : Bool → UInt16 → UInt16)

/-- Set the driver's state and the chip. -/
def PsState.put (s : PsState) (p : PowerSave × AthHw) : PsState := { s with sc := p.1, ah := p.2 }

/-- What an operation does. The first user stops the timer, and for that waits for its handler. -/
def PsOp.exec : PsOp → PsState → Option PsState
  | .wakeup, s =>
    if s.sc.psUsecount + 1 = 1 ∧ s.fullSleeping = true then none
    else some (s.put (s.sc.ath9kPsWakeup s.ah))
  | .restore, s => some (s.put (s.sc.ath9kPsRestore s.ah))
  | .read, s => some s
  | .setpowerAwake, s => some { s with ah := s.ah.setPower .awake }
  | .setPsIdle b, s => some { s with sc := { s.sc with psIdle := b } }
  | .setPsEnabled b, s => some { s with sc := { s.sc with psEnabled := b } }
  | .setPsFlags f, s => some { s with sc := { s.sc with psFlags := f s.sc.psEnabled s.sc.psFlags } }

/-- How many references a thread can hold. Its stack has no room for as many calls. -/
def psCap : ℕ := 2 ^ 9

/-- How many references a thread can hold when it calls a function outside of `main.c`. -/
def psRoom : ℕ := 2 ^ 8

/-- What an operation does to the references of its thread. -/
def PsOp.ledger : PsOp → ℕ → Option ℕ
  | .wakeup, i => if i < psCap then some (i + 1) else none
  | .restore, i => if 0 < i then some (i - 1) else none
  | _, i => some i

/-- A program over the shared state. -/
abbrev PsProg := Prog PsOp PsState

/-- A program that gives back what it takes, and nests up to `d` references of its own around the
calls of functions outside. -/
abbrev PsBalanced {α : Type} (d : ℕ) (p : PsProg α) : Prop := p.Balanced PsOp.ledger psRoom d

/-- Calls of functions outside of `main.c`. -/
structure Callee where
  call : PsProg Unit
  balanced : PsBalanced 0 call

/-- `ath9k_ps_wakeup`. -/
def ath9kPsWakeup : PsProg Unit := .act .wakeup

/-- `ath9k_ps_restore`. -/
def ath9kPsRestore : PsProg Unit := .act .restore

/-- What stands between a wakeup and a restore. -/
def held {α : Type} (p : PsProg α) : PsProg α := do
  ath9kPsWakeup
  let a ← p
  ath9kPsRestore
  return a

/-- The flag `BIT(n)` of `ps_flags`. -/
def psBit (n : UInt16) : UInt16 := 1 <<< n

/-- `PS_WAIT_FOR_BEACON`. -/
def psWaitForBeacon : UInt16 := psBit 0

/-- `PS_WAIT_FOR_CAB`. -/
def psWaitForCab : UInt16 := psBit 1

/-- `PS_WAIT_FOR_PSPOLL_DATA`. -/
def psWaitForPspollData : UInt16 := psBit 2

/-- `PS_WAIT_FOR_TX_ACK`. -/
def psWaitForTxAck : UInt16 := psBit 3

/-- `PS_BEACON_SYNC`. -/
def psBeaconSync : UInt16 := psBit 4

/-- `sc->ps_flags |= m`. -/
def orPsFlags (m : UInt16) : PsProg Unit := .act (.setPsFlags fun _ flags ↦ flags ||| m)

/-! ## Resetting the chip -/

/-- What `ath_complete_reset` finds. -/
structure CompleteResetInput where
  startrecv : Callee
  /-- What `ath_startrecv` returns. -/
  startrecvRet : Int32
  interrupts : Callee
  /-- `IEEE80211_CONF_OFFCHANNEL`. -/
  offchannel : Bool
  /-- `ATH_OP_BEACONS`. -/
  beacons : Bool
  /-- Whether `opmode` is a station's. -/
  station : Bool
  /-- `ATH_OP_PRIM_STA_VIF`. -/
  primStaVif : Bool
  setBeacon : Callee
  restartWork : Callee
  wakeQueues : Callee

/-- `ath_complete_reset`. -/
def athCompleteReset (start : Bool) (i : CompleteResetInput) : PsProg Bool := do
  i.startrecv.call
  if i.startrecvRet ≠ 0 then return false
  else do
    i.interrupts.call
    Prog.when (!i.offchannel && start) do
      Prog.when i.beacons
        (if i.station && i.primStaVif then orPsFlags (psBeaconSync ||| psWaitForBeacon)
          else i.setBeacon.call)
      i.restartWork.call
    i.wakeQueues.call
    return true

/-- What `ath_reset_internal` finds. -/
structure ResetInternalInput where
  /-- All up to `ath9k_hw_reset`. -/
  prepare : Callee
  /-- What `ath9k_hw_reset` returns. -/
  hwReset : Int32
  queueReset : Callee
  mci : Callee
  complete : CompleteResetInput

/-- `ath_reset_internal`. -/
def athResetInternal (i : ResetInternalInput) : PsProg Int32 := do
  i.prepare.call
  if i.hwReset ≠ 0 then do
    i.queueReset.call
    return i.hwReset
  else do
    i.mci.call
    let completed ← athCompleteReset true i.complete
    return if completed then 0 else -5

/-- `ath_reset`. -/
def athReset (i : ResetInternalInput) : PsProg Int32 := held (athResetInternal i)

/-- `ath_reset_work`. -/
def athResetWork (i : ResetInternalInput) : PsProg Unit := (athReset i).void

/-! ## Changing the channel -/

/-- `enum spectral_mode`. -/
inductive SpectralMode
  | disabled
  | background
  | manual
  | chanscan
  /-- Any other number. -/
  | other
deriving DecidableEq

/-- What the functions of the spectral scan find. -/
structure SpectralInput where
  /-- `CPTCFG_ATH9K_TX99`. -/
  tx99 : Bool
  /-- Whether the hardware has the operation `spectral_scan_trigger`. -/
  hasTrigger : Bool
  rxfilter : Callee
  config : Callee
  trigger : Callee

/-- `ath9k_spectral_scan_config`. -/
def ath9kSpectralScanConfig (mode : SpectralMode) (i : SpectralInput) : PsProg Int32 :=
  if !i.hasTrigger then return -1
  else if mode = .other then return -1
  else do
    held i.config.call
    return 0

/-- `ath9k_spectral_scan_trigger`. -/
def ath9kSpectralScanTrigger (mode : SpectralMode) (i : SpectralInput) : PsProg Unit :=
  if i.tx99 then return
  else if !i.hasTrigger then return
  else held do
    i.rxfilter.call
    (ath9kSpectralScanConfig mode i).void
    i.trigger.call

/-- What `ath_set_channel` finds. -/
structure SetChannelInput where
  /-- `ATH_OP_INVALID`. -/
  invalid : Bool
  survey : Callee
  reset : ResetInternalInput
  surveyNf : Callee
  radarEnabled : Bool
  radar : Callee
  /-- `ATH_OP_SCANNING`. -/
  scanning : Bool
  spectralMode : SpectralMode
  spectral : SpectralInput

/-- `ath_set_channel`. -/
def athSetChannel (i : SetChannelInput) : PsProg Int32 :=
  if i.invalid then return -5
  else do
    i.survey.call
    let r ← athResetInternal i.reset
    if r ≠ 0 then return r
    else do
      i.surveyNf.call
      (if i.radarEnabled then i.radar.call
        else
          Prog.when (i.scanning && i.spectralMode = .chanscan)
            (ath9kSpectralScanTrigger i.spectralMode i.spectral))
      return 0

/-! ## Interrupts -/

/-- What `ath9k_tasklet` finds. -/
structure TaskletInput where
  /-- `ATH9K_INT_FATAL`. -/
  fatal : Bool
  /-- `ATH9K_INT_BB_WATCHDOG`, on hardware with `HW_BB_WATCHDOG`. -/
  bbWatchdog : Bool
  watchdogDbgInfo : Callee
  /-- What `ar9003_hw_bb_watchdog_check` returns. -/
  bbWatchdogCheck : Bool
  /-- `ATH9K_INT_GTT`. -/
  gtt : Bool
  /-- `gtt_cnt`. -/
  gttCnt : UInt8
  /-- What `ath9k_hw_check_alive` returns. -/
  checkAlive : Bool
  /-- `ATH9K_INT_TSFOOR`. -/
  tsfoor : Bool
  queueReset : Callee
  /-- All after the test for `ATH9K_INT_TSFOOR`. -/
  handle : Callee

/-- `ath9k_tasklet`. -/
def ath9kTasklet (i : TaskletInput) : PsProg Unit :=
  held (if i.fatal then i.queueReset.call
    else do
      Prog.when i.bbWatchdog i.watchdogDbgInfo.call
      if i.bbWatchdog && i.bbWatchdogCheck then i.queueReset.call
      else if i.gtt && 5 ≤ i.gttCnt + 1 && !i.checkAlive then i.queueReset.call
      else do
        Prog.when i.tsfoor (.act (.setPsFlags fun psEnabled flags ↦
          if psEnabled then flags ||| (psWaitForBeacon ||| psBeaconSync) else flags))
        i.handle.call)

/-- What `ath_isr` finds. -/
structure IsrInput where
  /-- `ATH_OP_INVALID`. -/
  invalid : Bool
  /-- What `ath9k_hw_intrpend` returns. -/
  intrpend : Bool
  /-- `ATH_OP_HW_RESET`. -/
  hwReset : Bool
  killInterrupts : Callee
  getisr : Callee
  /-- Whether there is a bit in the status. -/
  status : Bool
  /-- `ATH9K_INT_FATAL`. -/
  fatal : Bool
  /-- `ATH9K_INT_BB_WATCHDOG`, on hardware with `HW_BB_WATCHDOG`. -/
  bbWatchdog : Bool
  handle : Callee
  /-- `ATH9K_HW_CAP_AUTOSLEEP`. -/
  autosleep : Bool
  /-- `ATH9K_INT_TIM_TIMER`. -/
  timTimer : Bool
  setrxabort : Callee
  /-- All from the label `chip_reset` on. -/
  chipReset : Callee

/-- `ath_isr`. -/
def athIsr (i : IsrInput) : PsProg Unit :=
  if i.invalid || !i.intrpend then return
  else if i.hwReset then i.killInterrupts.call
  else do
    i.getisr.call
    if !i.status then return
    else if i.fatal || i.bbWatchdog then i.chipReset.call
    else do
      i.handle.call
      if !i.autosleep && i.timTimer then do
        let s ← Prog.look .read
        if s.sc.psIdle then i.chipReset.call
        else do
          Prog.act .setpowerAwake
          i.setrxabort.call
          orPsFlags psWaitForBeacon
          i.chipReset.call
      else i.chipReset.call

/-! ## Starting, stopping and sending -/

/-- What `ath9k_start` finds. -/
structure StartInput where
  reset : Callee
  complete : CompleteResetInput
  init : Callee

/-- `ath9k_start`. -/
def ath9kStart (i : StartInput) : PsProg Int32 :=
  held do
    i.reset.call
    (athCompleteReset false i.complete).void
    i.init.call
    return 0

/-- What `ath9k_tx` finds. -/
structure TxInput where
  setrxabort : Callee
  /-- Whether the frame is a PS-Poll. -/
  pspoll : Bool
  freeTxskb : Callee
  txStart : Callee
  /-- What `ath_tx_start` returns. -/
  txStartRet : Int32

/-- `ath9k_tx`. The user who wakes the chip up leaves before the frame is sent. -/
def ath9kTx (i : TxInput) : PsProg Unit := do
  let s ← Prog.look .read
  Prog.when (s.ah.powerMode = .networkSleep) (held do
    i.setrxabort.call
    orPsFlags (if i.pspoll then psWaitForPspollData else psWaitForTxAck))
  let s ← Prog.look .read
  if s.ah.powerMode = .fullSleep then i.freeTxskb.call
  else do
    i.txStart.call
    Prog.when (i.txStartRet ≠ 0) i.freeTxskb.call

/-- What `ath9k_stop` finds. -/
structure StopInput where
  cancelWork : Callee
  /-- `ATH_OP_INVALID`. -/
  invalid : Bool
  disableInterrupts : Callee
  reset : Callee

/-- `ath9k_stop`. -/
def ath9kStop (i : StopInput) : PsProg Unit := do
  i.cancelWork.call
  if i.invalid then return
  else do
    ath9kPsWakeup
    i.disableInterrupts.call
    let s ← Prog.look .read
    Prog.act (.setPsIdle true)
    i.reset.call
    ath9kPsRestore
    Prog.act (.setPsIdle s.sc.psIdle)

/-! ## Interfaces -/

/-- An interface of mac80211, as far as the association looks at it. -/
structure VifInput where
  /-- `bss_conf->assoc`. -/
  assoc : Bool
  /-- Whether the interface is a station's. -/
  ofStation : Bool
  /-- `primary_sta_vif`. -/
  primaryStaVif : Bool
  /-- Whether `opmode` is a station's. -/
  station : Bool
  writeAssocid : Callee
  mci : Callee

/-- `ath9k_set_assoc_state`. -/
def ath9kSetAssocState (v : VifInput) : PsProg Unit :=
  if !v.station then return
  else do
    v.writeAssocid.call
    orPsFlags (psBeaconSync ||| psWaitForBeacon)
    v.mci.call

/-- `ath9k_sta_vif_iter`. -/
def ath9kStaVifIter (v : VifInput) : PsProg Unit :=
  if !v.ofStation then return
  else Prog.when v.primaryStaVif (ath9kSetAssocState v)

/-- `ath9k_bss_assoc_iter`, with the bit `ATH_OP_PRIM_STA_VIF`. -/
def ath9kBssAssocIter (primStaVif : Bool) (v : VifInput) : PsProg Bool :=
  if primStaVif then return true
  else if v.assoc then do
    ath9kSetAssocState v
    return true
  else return false

/-- What `ath9k_calculate_summary_state` finds. -/
structure SummaryInput where
  setopmode : Callee
  /-- Whether `opmode` is a station's now. -/
  station : Bool
  /-- Whether `opmode` was an access point's. -/
  oldAp : Bool
  /-- `ATH_OP_PRIM_STA_VIF`. -/
  primStaVif : Bool
  /-- The active interfaces. -/
  vifs : List VifInput

/-- `ath9k_calculate_summary_state`. -/
def ath9kCalculateSummaryState (i : SummaryInput) : PsProg Unit := do
  i.setopmode.call
  Prog.when (i.station && i.oldAp && i.primStaVif)
    (i.vifs.foldlM (fun _ v ↦ ath9kStaVifIter v) ())

/-- What the callbacks find that add, change and remove interfaces. -/
structure InterfaceInput where
  /-- `CPTCFG_ATH9K_TX99`. -/
  tx99 : Bool
  nvifs : Int16
  before : Callee
  summary : SummaryInput
  after : Callee

/-- `ath9k_add_interface`. -/
def ath9kAddInterface (i : InterfaceInput) : PsProg Int32 :=
  if i.tx99 && 1 ≤ i.nvifs then return -95
  else do
    held (ath9kCalculateSummaryState i.summary)
    i.after.call
    return 0

/-- `ath9k_change_interface`. -/
def ath9kChangeInterface (i : InterfaceInput) : PsProg Int32 :=
  if i.tx99 then return -95
  else do
    i.before.call
    held (ath9kCalculateSummaryState i.summary)
    i.after.call
    return 0

/-- `ath9k_remove_interface`. -/
def ath9kRemoveInterface (i : InterfaceInput) : PsProg Unit := do
  i.before.call
  held (ath9kCalculateSummaryState i.summary)
  i.after.call

/-! ## Configuration -/

/-- What `ath9k_config` finds. -/
structure ConfigInput where
  /-- `CPTCFG_ATH9K_TX99`. -/
  tx99 : Bool
  /-- `IEEE80211_CONF_CHANGE_IDLE`. -/
  changeIdle : Bool
  /-- `IEEE80211_CONF_IDLE`. -/
  idle : Bool
  /-- Stopping or starting the coexistence, and `ath_cancel_work`. -/
  btcoex : Callee
  chipFullsleep : Bool
  /-- `IEEE80211_CONF_CHANGE_PS`. -/
  changePs : Bool
  /-- `IEEE80211_CONF_PS`. -/
  ps : Bool
  /-- `ATH9K_HW_CAP_AUTOSLEEP`. -/
  autosleep : Bool
  setInterrupts : Callee
  setrxabort : Callee
  /-- `IEEE80211_CONF_CHANGE_CHANNEL`. -/
  changeChannel : Bool
  channel : SetChannelInput
  /-- `IEEE80211_CONF_CHANGE_POWER`. -/
  changePower : Bool
  updateTxpow : Callee

/-- `ath9k_enable_ps`. -/
def ath9kEnablePs (i : ConfigInput) : PsProg Unit :=
  if i.tx99 then return
  else do
    Prog.act (.setPsEnabled true)
    Prog.when (!i.autosleep) do
      i.setInterrupts.call
      i.setrxabort.call

/-- `ath9k_disable_ps`. -/
def ath9kDisablePs (i : ConfigInput) : PsProg Unit :=
  if i.tx99 then return
  else do
    Prog.act (.setPsEnabled false)
    Prog.act .setpowerAwake
    Prog.when (!i.autosleep) do
      i.setrxabort.call
      Prog.act (.setPsFlags fun _ flags ↦
        flags &&& ~~~(psWaitForBeacon ||| psWaitForCab ||| psWaitForPspollData ||| psWaitForTxAck))
      i.setInterrupts.call

/-- `ath9k_config` on a change of the idle state. It returns `reset_channel`. -/
def ath9kConfigIdle (i : ConfigInput) : PsProg Bool :=
  if i.changeIdle then do
    Prog.act (.setPsIdle i.idle)
    let s ← Prog.look .read
    i.btcoex.call
    return !s.sc.psIdle && i.chipFullsleep
  else return false

/-- `ath9k_config`, once the channel is set. -/
def ath9kConfigPower (i : ConfigInput) : PsProg Int32 := do
  Prog.when i.changePower i.updateTxpow.call
  ath9kPsRestore
  return 0

/-- `ath9k_config`. -/
def ath9kConfig (i : ConfigInput) : PsProg Int32 := do
  ath9kPsWakeup
  let resetChannel ← ath9kConfigIdle i
  Prog.when i.changePs (if i.ps then ath9kEnablePs i else ath9kDisablePs i)
  if i.changeChannel || resetChannel then do
    let r ← athSetChannel i.channel
    if r < 0 then do
      ath9kPsRestore
      return -22
    else ath9kConfigPower i
  else ath9kConfigPower i

/-- `ath9k_configure_filter`. -/
def ath9kConfigureFilter (setrxfilter : Callee) : PsProg Unit := held setrxfilter.call

/-- `ath9k_conf_tx`, with what `ath_txq_update` returns. -/
def ath9kConfTx (queue : UInt16) (update : Callee) (ret : Int32) : PsProg Int32 :=
  if 4 ≤ queue then return 0
  else held do
    update.call
    return ret

/-- `enum set_key_cmd`. -/
inductive SetKeyCmd
  | setKey
  | disableKey
  /-- Any other number. -/
  | other

/-- What `ath9k_set_key` finds. -/
structure SetKeyInput where
  /-- `ath9k_modparam_nohwcrypt`. -/
  nohwcrypt : Bool
  /-- Whether the interface is an ad hoc or a mesh one. -/
  ibss : Bool
  /-- Whether the cipher is TKIP or CCMP. -/
  tkipOrCcmp : Bool
  /-- `IEEE80211_KEY_FLAG_PAIRWISE`. -/
  pairwise : Bool
  cmd : SetKeyCmd
  keyConfig : Callee
  /-- What `ath_key_config` returns. -/
  keyConfigRet : Int32
  keyDelete : Callee

/-- `ath9k_set_key`. -/
def ath9kSetKey (i : SetKeyInput) : PsProg Int32 :=
  if i.nohwcrypt then return -28
  else if i.ibss && i.tkipOrCcmp && !i.pairwise then return -95
  else held (match i.cmd with
    | .setKey => do
      i.keyConfig.call
      return if i.keyConfigRet ≥ 0 then 0 else i.keyConfigRet
    | .disableKey => do
      i.keyDelete.call
      return 0
    | .other => return -22)

/-- What `ath9k_bss_info_changed` finds. -/
structure BssInfoInput where
  /-- `BSS_CHANGED_ASSOC`. -/
  changedAssoc : Bool
  /-- `bss_conf->assoc`. -/
  assoc : Bool
  /-- `primary_sta_vif` of the interface. -/
  primaryStaVif : Bool
  /-- `ATH_OP_PRIM_STA_VIF`. -/
  primStaVif : Bool
  /-- The active interfaces. -/
  vifs : List VifInput
  /-- Whether `opmode` is a station's. -/
  station : Bool
  mci : Callee
  /-- Between the association and the power save of P2P. -/
  beacons : Callee
  /-- `BSS_CHANGED_P2P_PS`. -/
  changedP2pPs : Bool
  updateP2pPs : Callee
  checkAni : Callee

/-- The association in `ath9k_bss_info_changed`. -/
def bssAssocChanged (i : BssInfoInput) : PsProg Unit := do
  let primStaVif := i.primStaVif && !(i.primaryStaVif && !i.assoc)
  let primStaVif ← i.vifs.foldlM ath9kBssAssocIter primStaVif
  Prog.when (!primStaVif && i.station) i.mci.call

/-- `ath9k_bss_info_changed`. -/
def ath9kBssInfoChanged (i : BssInfoInput) : PsProg Unit :=
  held do
    Prog.when i.changedAssoc (bssAssocChanged i)
    i.beacons.call
    Prog.when i.changedP2pPs do
      let s ← Prog.look .read
      Prog.when (s.sc.psFlags &&& psBeaconSync = 0) i.updateP2pPs.call
    i.checkAni.call

/-- `ath9k_get_tsf`. -/
def ath9kGetTsf (gettsf : Callee) : PsProg Unit := held gettsf.call

/-- `ath9k_set_tsf`. -/
def ath9kSetTsf (settsf : Callee) : PsProg Unit := held settsf.call

/-- `ath9k_reset_tsf`. -/
def ath9kResetTsf (resetTsf : Callee) : PsProg Unit := held resetTsf.call

/-- `enum ieee80211_ampdu_mlme_action`. -/
inductive AmpduAction
  | rxStart
  | rxStop
  | txStart
  | txStopCont
  | txStopFlush
  | txStopFlushCont
  | txOperational
  /-- Any other number. -/
  | other

/-- What `ath9k_ampdu_action` finds. -/
structure AmpduInput where
  action : AmpduAction
  aggrStart : Callee
  /-- What `ath_tx_aggr_start` returns. -/
  aggrStartRet : Int32
  startTxBaCb : Callee
  aggrStop : Callee
  stopTxBaCb : Callee
  aggrResume : Callee

/-- `ath9k_ampdu_action` on stopping. -/
def ampduStop (flush : Bool) (i : AmpduInput) : PsProg Int32 :=
  held do
    i.aggrStop.call
    Prog.when (!flush) i.stopTxBaCb.call
    return 0

/-- `ath9k_ampdu_action`. -/
def ath9kAmpduAction (i : AmpduInput) : PsProg Int32 :=
  match i.action with
  | .rxStart => return 0
  | .rxStop => return 0
  | .txStart => held do
    i.aggrStart.call
    Prog.when (i.aggrStartRet = 0) i.startTxBaCb.call
    return i.aggrStartRet
  | .txStopFlush => ampduStop true i
  | .txStopFlushCont => ampduStop true i
  | .txStopCont => ampduStop false i
  | .txOperational => held do
    i.aggrResume.call
    return 0
  | .other => return 0

/-- `ath9k_set_coverage_class`. -/
def ath9kSetCoverageClass (tx99 : Bool) (initGlobalSettings : Callee) : PsProg Unit :=
  if tx99 then return else held initGlobalSettings.call

/-- What `ath9k_flush` finds. -/
structure FlushInput where
  cancelWork : Callee
  /-- `AH_UNPLUGGED`. -/
  unplugged : Bool
  /-- `ATH_OP_INVALID`. -/
  invalid : Bool
  /-- Whether the queues are empty before the wait times out. -/
  emptied : Bool
  drop : Bool
  drain : Callee
  /-- What `ath_drain_all_txq` returns. -/
  drainTxq : Bool
  reset : ResetInternalInput
  wakeQueues : Callee
  queueWork : Callee

/-- `ath9k_flush`. -/
def ath9kFlush (i : FlushInput) : PsProg Unit := do
  i.cancelWork.call
  if i.unplugged || i.invalid then return
  else do
    Prog.when (i.drop && !i.emptied) do
      held do
        i.drain.call
        Prog.when (!i.drainTxq) (athReset i.reset).void
      i.wakeQueues.call
    i.queueWork.call

/-! ## Functions of `init.c` -/

/-- `ath9k_reg_notifier`. -/
def ath9kRegNotifier (apply : Callee) (curchan : Bool) (setTxpowerlimit : Callee) :
    PsProg Unit := do
  apply.call
  Prog.when curchan (held setTxpowerlimit.call)

/-- `ath9k_deinit_device`. -/
def ath9kDeinitDevice (deinitLeds cleanup : Callee) : PsProg Unit := do
  held deinitLeds.call
  cleanup.call

/-! ## Every callback is balanced -/

open Prog

variable {d : ℕ}

theorem PsOp.ledger_wakeup {i : ℕ} (h : i < psRoom) : PsOp.ledger .wakeup i = some (i + 1) :=
  if_pos (h.trans (by decide))

theorem PsOp.ledger_restore (i : ℕ) : PsOp.ledger .restore (i + 1) = some i := by
  simp [PsOp.ledger]

/-- **Between a wakeup and its restore** a program holds one reference more. -/
theorem balanced_wakeup {α : Type} {f : Unit → PsProg α}
    (hf : ∀ a, (f a).Releases PsOp.ledger psRoom d) : PsBalanced (d + 1) (ath9kPsWakeup >>= f) :=
  balanced_take (fun _ hi ↦ PsOp.ledger_wakeup hi) hf

theorem releases_restore {α : Type} {f : Unit → PsProg α} (hf : ∀ a, PsBalanced (d + 1) (f a)) :
    (ath9kPsRestore >>= f).Releases PsOp.ledger psRoom d := releases_give PsOp.ledger_restore hf

theorem balanced_held {α : Type} {p : PsProg α} (hp : PsBalanced d p) :
    PsBalanced (d + 1) (held p) :=
  balanced_wakeup fun _ ↦ .bind hp fun a ↦ releases_restore fun _ ↦ balanced_pure a

theorem balanced_read : PsBalanced d (Prog.look .read) := balanced_look fun _ ↦ rfl

theorem Callee.balanced_call (c : Callee) : PsBalanced d c.call := c.balanced.mono d.zero_le

theorem balanced_orPsFlags (m : UInt16) : PsBalanced d (orPsFlags m) := balanced_act fun _ ↦ rfl

theorem balanced_athCompleteReset (start : Bool) (i : CompleteResetInput) :
    PsBalanced d (athCompleteReset start i) := by
  refine i.startrecv.balanced_call.bind fun _ ↦ balanced_ite (balanced_pure _) ?_
  refine i.interrupts.balanced_call.bind fun _ ↦ .bind ?_ fun _ ↦ ?_
  · refine balanced_when (.bind (balanced_when ?_) fun _ ↦ i.restartWork.balanced_call)
    exact balanced_ite (balanced_orPsFlags _) i.setBeacon.balanced_call
  · exact i.wakeQueues.balanced_call.bind fun _ ↦ balanced_pure _

theorem balanced_athResetInternal (i : ResetInternalInput) : PsBalanced d (athResetInternal i) := by
  refine i.prepare.balanced_call.bind fun _ ↦ balanced_ite ?_ ?_
  · exact i.queueReset.balanced_call.bind fun _ ↦ balanced_pure _
  · refine i.mci.balanced_call.bind fun _ ↦ ?_
    exact (balanced_athCompleteReset true i.complete).bind fun _ ↦ balanced_pure _

theorem balanced_athReset (i : ResetInternalInput) : PsBalanced (d + 1) (athReset i) :=
  balanced_held (balanced_athResetInternal i)

theorem balanced_ath9kSpectralScanConfig (mode : SpectralMode) (i : SpectralInput) :
    PsBalanced (d + 1) (ath9kSpectralScanConfig mode i) := by
  refine balanced_ite (balanced_pure _) (balanced_ite (balanced_pure _) ?_)
  exact (balanced_held i.config.balanced_call).bind fun _ ↦ balanced_pure _

theorem balanced_ath9kSpectralScanTrigger (mode : SpectralMode) (i : SpectralInput) :
    PsBalanced (d + 2) (ath9kSpectralScanTrigger mode i) := by
  refine balanced_ite (balanced_pure _) (balanced_ite (balanced_pure _) (balanced_held ?_))
  refine i.rxfilter.balanced_call.bind fun _ ↦ ?_
  exact (balanced_ath9kSpectralScanConfig mode i).void.bind fun _ ↦ i.trigger.balanced_call

theorem balanced_athSetChannel (i : SetChannelInput) : PsBalanced (d + 2) (athSetChannel i) := by
  refine balanced_ite (balanced_pure _) (i.survey.balanced_call.bind fun _ ↦ ?_)
  refine (balanced_athResetInternal i.reset).bind fun _ ↦ balanced_ite (balanced_pure _) ?_
  refine i.surveyNf.balanced_call.bind fun _ ↦ .bind ?_ fun _ ↦ balanced_pure _
  refine balanced_ite i.radar.balanced_call (balanced_when ?_)
  exact balanced_ath9kSpectralScanTrigger i.spectralMode i.spectral

theorem balanced_ath9kTasklet (i : TaskletInput) : PsBalanced (d + 1) (ath9kTasklet i) := by
  refine balanced_held (balanced_ite i.queueReset.balanced_call ?_)
  refine (balanced_when i.watchdogDbgInfo.balanced_call).bind fun _ ↦ ?_
  refine balanced_ite i.queueReset.balanced_call (balanced_ite i.queueReset.balanced_call ?_)
  exact (balanced_when (balanced_act fun _ ↦ rfl)).bind fun _ ↦ i.handle.balanced_call

theorem balanced_athIsr (i : IsrInput) : PsBalanced d (athIsr i) := by
  refine balanced_ite (balanced_pure _) (balanced_ite i.killInterrupts.balanced_call ?_)
  refine i.getisr.balanced_call.bind fun _ ↦ balanced_ite (balanced_pure _) ?_
  refine balanced_ite i.chipReset.balanced_call (i.handle.balanced_call.bind fun _ ↦ ?_)
  refine balanced_ite ?_ i.chipReset.balanced_call
  refine balanced_read.bind fun _ ↦ balanced_ite i.chipReset.balanced_call ?_
  refine .bind (balanced_act fun _ ↦ rfl) fun _ ↦ i.setrxabort.balanced_call.bind fun _ ↦ ?_
  exact (balanced_orPsFlags _).bind fun _ ↦ i.chipReset.balanced_call

theorem balanced_ath9kStart (i : StartInput) : PsBalanced (d + 1) (ath9kStart i) := by
  refine balanced_held (i.reset.balanced_call.bind fun _ ↦ ?_)
  refine (balanced_athCompleteReset false i.complete).void.bind fun _ ↦ ?_
  exact i.init.balanced_call.bind fun _ ↦ balanced_pure _

theorem balanced_ath9kTx (i : TxInput) : PsBalanced (d + 1) (ath9kTx i) := by
  refine balanced_read.bind fun _ ↦ .bind (balanced_when (balanced_held ?_)) fun _ ↦ ?_
  · exact i.setrxabort.balanced_call.bind fun _ ↦ balanced_orPsFlags _
  · refine balanced_read.bind fun _ ↦ balanced_ite i.freeTxskb.balanced_call ?_
    exact i.txStart.balanced_call.bind fun _ ↦ balanced_when i.freeTxskb.balanced_call

theorem balanced_ath9kStop (i : StopInput) : PsBalanced (d + 1) (ath9kStop i) := by
  refine i.cancelWork.balanced_call.bind fun _ ↦ balanced_ite (balanced_pure _) ?_
  refine balanced_wakeup fun _ ↦ .bind i.disableInterrupts.balanced_call fun _ ↦ ?_
  refine .bind balanced_read fun _ ↦ .bind (balanced_act fun _ ↦ rfl) fun _ ↦ ?_
  refine .bind i.reset.balanced_call fun _ ↦ releases_restore fun _ ↦ ?_
  exact balanced_act fun _ ↦ rfl

theorem balanced_ath9kSetAssocState (v : VifInput) : PsBalanced d (ath9kSetAssocState v) := by
  refine balanced_ite (balanced_pure _) (v.writeAssocid.balanced_call.bind fun _ ↦ ?_)
  exact (balanced_orPsFlags _).bind fun _ ↦ v.mci.balanced_call

theorem balanced_ath9kCalculateSummaryState (i : SummaryInput) :
    PsBalanced d (ath9kCalculateSummaryState i) := by
  refine i.setopmode.balanced_call.bind fun _ ↦ balanced_when (balanced_foldlM (fun _ v ↦ ?_) () _)
  exact balanced_ite (balanced_pure _) (balanced_when (balanced_ath9kSetAssocState v))

theorem balanced_ath9kAddInterface (i : InterfaceInput) :
    PsBalanced (d + 1) (ath9kAddInterface i) := by
  refine balanced_ite (balanced_pure _) ?_
  refine (balanced_held (balanced_ath9kCalculateSummaryState i.summary)).bind fun _ ↦ ?_
  exact i.after.balanced_call.bind fun _ ↦ balanced_pure _

theorem balanced_ath9kChangeInterface (i : InterfaceInput) :
    PsBalanced (d + 1) (ath9kChangeInterface i) := by
  refine balanced_ite (balanced_pure _) (i.before.balanced_call.bind fun _ ↦ ?_)
  refine (balanced_held (balanced_ath9kCalculateSummaryState i.summary)).bind fun _ ↦ ?_
  exact i.after.balanced_call.bind fun _ ↦ balanced_pure _

theorem balanced_ath9kRemoveInterface (i : InterfaceInput) :
    PsBalanced (d + 1) (ath9kRemoveInterface i) := by
  refine i.before.balanced_call.bind fun _ ↦ ?_
  refine (balanced_held (balanced_ath9kCalculateSummaryState i.summary)).bind fun _ ↦ ?_
  exact i.after.balanced_call

theorem balanced_ath9kEnablePs (i : ConfigInput) : PsBalanced d (ath9kEnablePs i) := by
  refine balanced_ite (balanced_pure _) (.bind (balanced_act fun _ ↦ rfl) fun _ ↦ ?_)
  exact balanced_when (i.setInterrupts.balanced_call.bind fun _ ↦ i.setrxabort.balanced_call)

theorem balanced_ath9kDisablePs (i : ConfigInput) : PsBalanced d (ath9kDisablePs i) := by
  refine balanced_ite (balanced_pure _) (.bind (balanced_act fun _ ↦ rfl) fun _ ↦ ?_)
  refine .bind (balanced_act fun _ ↦ rfl) fun _ ↦ balanced_when ?_
  refine i.setrxabort.balanced_call.bind fun _ ↦ .bind (balanced_act fun _ ↦ rfl) fun _ ↦ ?_
  exact i.setInterrupts.balanced_call

theorem balanced_ath9kConfigIdle (i : ConfigInput) : PsBalanced d (ath9kConfigIdle i) := by
  refine balanced_ite (.bind (balanced_act fun _ ↦ rfl) fun _ ↦ ?_) (balanced_pure _)
  exact balanced_read.bind fun _ ↦ i.btcoex.balanced_call.bind fun _ ↦ balanced_pure _

/-- Once the channel is set, one reference is left to give back. -/
theorem releases_ath9kConfigPower (i : ConfigInput) :
    (ath9kConfigPower i).Releases PsOp.ledger psRoom d :=
  .bind (balanced_when i.updateTxpow.balanced_call) fun _ ↦
    releases_restore fun _ ↦ balanced_pure _

theorem balanced_ath9kConfig (i : ConfigInput) : PsBalanced (d + 3) (ath9kConfig i) := by
  refine balanced_wakeup fun _ ↦ .bind (balanced_ath9kConfigIdle i) fun _ ↦ ?_
  refine .bind (balanced_when ?_) fun _ ↦ ?_
  · exact balanced_ite (balanced_ath9kEnablePs i) (balanced_ath9kDisablePs i)
  refine releases_ite ?_ (releases_ath9kConfigPower i)
  refine .bind (balanced_athSetChannel i.channel) fun _ ↦ releases_ite ?_ ?_
  · exact releases_restore fun _ ↦ balanced_pure _
  · exact releases_ath9kConfigPower i

theorem balanced_ath9kConfTx (queue : UInt16) (update : Callee) (ret : Int32) :
    PsBalanced (d + 1) (ath9kConfTx queue update ret) :=
  balanced_ite (balanced_pure _)
    (balanced_held (update.balanced_call.bind fun _ ↦ balanced_pure _))

theorem balanced_ath9kSetKey (i : SetKeyInput) : PsBalanced (d + 1) (ath9kSetKey i) := by
  refine balanced_ite (balanced_pure _) (balanced_ite (balanced_pure _) (balanced_held ?_))
  cases i.cmd with
  | setKey => exact i.keyConfig.balanced_call.bind fun _ ↦ balanced_pure _
  | disableKey => exact i.keyDelete.balanced_call.bind fun _ ↦ balanced_pure _
  | other => exact balanced_pure _

theorem balanced_ath9kBssAssocIter (primStaVif : Bool) (v : VifInput) :
    PsBalanced d (ath9kBssAssocIter primStaVif v) := by
  refine balanced_ite (balanced_pure _) (balanced_ite ?_ (balanced_pure _))
  exact (balanced_ath9kSetAssocState v).bind fun _ ↦ balanced_pure _

theorem balanced_ath9kBssInfoChanged (i : BssInfoInput) :
    PsBalanced (d + 1) (ath9kBssInfoChanged i) := by
  refine balanced_held (.bind (balanced_when ?_) fun _ ↦ i.beacons.balanced_call.bind fun _ ↦ ?_)
  · refine (balanced_foldlM balanced_ath9kBssAssocIter _ _).bind fun _ ↦ ?_
    exact balanced_when i.mci.balanced_call
  · refine .bind (balanced_when ?_) fun _ ↦ i.checkAni.balanced_call
    exact balanced_read.bind fun _ ↦ balanced_when i.updateP2pPs.balanced_call

theorem balanced_ampduStop (flush : Bool) (i : AmpduInput) :
    PsBalanced (d + 1) (ampduStop flush i) := by
  refine balanced_held (i.aggrStop.balanced_call.bind fun _ ↦ ?_)
  exact (balanced_when i.stopTxBaCb.balanced_call).bind fun _ ↦ balanced_pure _

theorem balanced_ath9kAmpduAction (i : AmpduInput) : PsBalanced (d + 1) (ath9kAmpduAction i) := by
  rw [ath9kAmpduAction]
  cases i.action with
  | rxStart | rxStop | other => exact balanced_pure _
  | txStart =>
    refine balanced_held (i.aggrStart.balanced_call.bind fun _ ↦ ?_)
    exact (balanced_when i.startTxBaCb.balanced_call).bind fun _ ↦ balanced_pure _
  | txStopFlush | txStopFlushCont => exact balanced_ampduStop true i
  | txStopCont => exact balanced_ampduStop false i
  | txOperational => exact balanced_held (i.aggrResume.balanced_call.bind fun _ ↦ balanced_pure _)

theorem balanced_ath9kSetCoverageClass (tx99 : Bool) (initGlobalSettings : Callee) :
    PsBalanced (d + 1) (ath9kSetCoverageClass tx99 initGlobalSettings) :=
  balanced_ite (balanced_pure _) (balanced_held initGlobalSettings.balanced_call)

theorem balanced_ath9kFlush (i : FlushInput) : PsBalanced (d + 2) (ath9kFlush i) := by
  refine i.cancelWork.balanced_call.bind fun _ ↦ balanced_ite (balanced_pure _) ?_
  refine .bind (balanced_when ?_) fun _ ↦ i.queueWork.balanced_call
  refine .bind (balanced_held ?_) fun _ ↦ i.wakeQueues.balanced_call
  exact i.drain.balanced_call.bind fun _ ↦ balanced_when (balanced_athReset i.reset).void

theorem balanced_ath9kRegNotifier (apply : Callee) (curchan : Bool) (setTxpowerlimit : Callee) :
    PsBalanced (d + 1) (ath9kRegNotifier apply curchan setTxpowerlimit) :=
  apply.balanced_call.bind fun _ ↦ balanced_when (balanced_held setTxpowerlimit.balanced_call)

theorem balanced_ath9kDeinitDevice (deinitLeds cleanup : Callee) :
    PsBalanced (d + 1) (ath9kDeinitDevice deinitLeds cleanup) :=
  (balanced_held deinitLeds.balanced_call).bind fun _ ↦ cleanup.balanced_call

end UcsmaRateControl
