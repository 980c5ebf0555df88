import UcsmaRateControl.Ath9k.Hw
import UcsmaRateControl.Kernel.Usage

/-!
# Bringing up the driver

`ath9k_init_softc` allocates `ath9k_ah`, sets the flags that this fork added, and acquires what the
driver needs step by step; a step that fails jumps into a ladder of labels that release what was
acquired before it. The step that requests the pin of the transmit status was put between two
others, with a label of its own at the bottom of the ladder.

The functions it calls outside the repository are represented by the codes they return, and by
whether they have acquired anything. The fields that it sets and nothing here reads are left out.
-/

namespace UcsmaRateControl

/-- What `ath9k_init_softc` acquires, and `ath9k_deinit_softc` releases. -/
inductive SoftcResource
  | dfsDetector
  /-- The firmware image with the EEPROM contents. -/
  | eepromBlob
  /-- The pin `ATH9K_GPIO_OUT`. -/
  | txStatusOut
  /-- What `ath9k_hw_init` sets up. -/
  | hw
  | txQueues
  | btcoex
  | p2pPsTimer
deriving DecidableEq

/-- `struct ath9k_platform_data`, as far as it decides what is acquired. -/
structure PlatformData where
  /-- Whether there is an `eeprom_name`. -/
  eepromName : Bool

/-- What `ath9k_init_softc` is given, and what its calls return. -/
structure SoftcInput where
  /-- Whether `devm_kzalloc` succeeds. -/
  athHw : Bool
  /-- Whether `dfs_pattern_detector_init` returns a detector. -/
  dfsDetector : Bool
  pdata : Option PlatformData
  requestFirmwareNowait : Int32
  /-- Whether the callback is given an image. -/
  firmware : Bool
  gpioRequestOne : Int32
  hwInit : Int32
  initBtcoex : Int32
  /-- Whether `ath9k_init_btcoex`, if it succeeds, has acquired anything. -/
  btcoex : Bool
  initChannelsRates : Int32
  /-- Whether `ath_gen_timer_alloc` returns a timer. -/
  p2pPsTimer : Bool

/-- `struct ath_softc`, as far as it is set up here. -/
structure SoftcSetup where
  /-- What `ath9k_ah` points to. -/
  ah : AthHw
  /-- The flag of `ath9k_ah`. -/
  eifsEqualToAifs : Bool
  dfsDetector : Bool
  eepromBlob : Bool
  btcoex : Bool
  p2pPsTimer : Bool
  usage : Usage SoftcResource

/-- The flags of `ath9k_ah` that are set after it is allocated, all zero, for the chip. -/
def AthHw.initFlags (chip : AthHw) : AthHw :=
  { chip with
    powerMode := .awake
    lastForceQuietRestore := 0
    forceQuietBitRestore := true
    maxTimingCount := 0
    unlockingLogging := false
    unlocked := false }

namespace SoftcSetup

variable (s : SoftcSetup)

/-- Acquire a resource, if there is anything to acquire. -/
def acquire (r : SoftcResource) (b : Bool) : SoftcSetup := { s with usage := s.usage.acquireIf r b }

/-- Release a resource, if there is anything to release. -/
def release (r : SoftcResource) (b : Bool) : SoftcSetup := { s with usage := s.usage.releaseIf r b }

/-- `ath9k_eeprom_request`, with the callback. -/
def ath9kEepromRequest (i : SoftcInput) : SoftcSetup × Int32 :=
  let err := i.requestFirmwareNowait
  if err < 0 then (s, err)
  else
    let s := { s.acquire .eepromBlob i.firmware with eepromBlob := s.eepromBlob || i.firmware }
    if !s.eepromBlob then (s, -22) else (s, 0)

/-- `ath9k_eeprom_release`. -/
def ath9kEepromRelease : SoftcSetup := s.release .eepromBlob s.eepromBlob

/-- `ath9k_init_soc_platform`. -/
def ath9kInitSocPlatform (i : SoftcInput) : SoftcSetup × Int32 :=
  match i.pdata with
  | none => (s, 0)
  | some pdata => if pdata.eepromName then s.ath9kEepromRequest i else (s, 0)

/-- `ath9k_init_queues`, which always succeeds. -/
def ath9kInitQueues : SoftcSetup × Int32 := (s.acquire .txQueues true, 0)

/-- From the label `err_hw` on. -/
def errHw : SoftcSetup := s.ath9kEepromRelease.release .txStatusOut true

/-- From the label `err_queues` on. -/
def errQueues : SoftcSetup := (s.release .hw true).errHw

/-- From the label `err_btcoex` on. -/
def errBtcoex : SoftcSetup := (s.release .txQueues true).errQueues

end SoftcSetup

/-- `ath9k_init_softc`, for the chip. -/
def ath9kInitSoftc (chip : AthHw) (i : SoftcInput) : SoftcSetup × Int32 :=
  let s : SoftcSetup := ⟨chip, false, false, false, false, false, .unused⟩
  if !i.athHw then (s, -12)
  else
    let s := { s with ah := s.ah.initFlags, eifsEqualToAifs := true }
    let s := { s.acquire .dfsDetector i.dfsDetector with dfsDetector := i.dfsDetector }
    let (s, ret) := s.ath9kInitSocPlatform i
    if ret ≠ 0 then (s, ret)
    else if i.gpioRequestOne ≠ 0 then (s, i.gpioRequestOne)
    else
      let s := s.acquire .txStatusOut true
      if i.hwInit ≠ 0 then (s.errHw, i.hwInit)
      else
        let s := s.acquire .hw true
        let (s, ret) := s.ath9kInitQueues
        if ret ≠ 0 then (s.errQueues, ret)
        else if i.initBtcoex ≠ 0 then (s.errBtcoex, i.initBtcoex)
        else
          let s := { s.acquire .btcoex i.btcoex with btcoex := i.btcoex }
          if i.initChannelsRates ≠ 0 then (s.errBtcoex, i.initChannelsRates)
          else
            ({ s.acquire .p2pPsTimer i.p2pPsTimer with p2pPsTimer := i.p2pPsTimer }, 0)

/-- `ath9k_deinit_softc`. -/
def ath9kDeinitSoftc (s : SoftcSetup) : SoftcSetup :=
  let s := s.release .p2pPsTimer s.p2pPsTimer
  let s := s.release .btcoex s.btcoex
  let s := s.release .txQueues true
  let s := s.release .hw true
  let s := s.release .dfsDetector s.dfsDetector
  let s := s.ath9kEepromRelease
  s.release .txStatusOut true

/-! ## What an error leaves behind -/

namespace SoftcInput

variable (i : SoftcInput)

/-- An EEPROM image is asked for, and comes. -/
def LoadsImage : Bool :=
  i.pdata.any PlatformData.eepromName && !decide (i.requestFirmwareNowait < 0) && i.firmware

/-- What `ath9k_init_soc_platform` returns. -/
def socPlatform : Int32 :=
  if i.pdata.any PlatformData.eepromName then
    if i.requestFirmwareNowait < 0 then i.requestFirmwareNowait
    else if i.firmware then 0 else -22
  else 0

/-- The step that fails is the last one that can. -/
def FailsLast : Prop :=
  i.socPlatform = 0 ∧ i.gpioRequestOne = 0 ∧ i.hwInit = 0 ∧ i.initBtcoex = 0 ∧
    i.initChannelsRates ≠ 0

/-- Some step fails, after `ath9k_ah` has been allocated. -/
def Fails : Prop :=
  i.socPlatform ≠ 0 ∨ i.gpioRequestOne ≠ 0 ∨ i.hwInit ≠ 0 ∨ i.initBtcoex ≠ 0 ∨
    i.initChannelsRates ≠ 0

end SoftcInput

/-- What the ladder is there for: the image, the pin and the hardware. -/
def laddered : List SoftcResource := [.eepromBlob, .txStatusOut, .hw]

/-- All that `ath9k_deinit_softc` would release. -/
def allSoftcResources : List SoftcResource :=
  [.dfsDetector, .eepromBlob, .txStatusOut, .hw, .txQueues, .btcoex, .p2pPsTimer]

/-- After an error neither the image nor the pin is held, `ath9k_hw_deinit` has been called exactly
if `ath9k_hw_init` has succeeded, and of the resources in a list everything that was acquired has
been released once. -/
structure SoftcSetup.Unwound (s : SoftcSetup) (rs : List SoftcResource) : Prop where
  eepromBlob : ¬s.usage.Holds .eepromBlob
  txStatusOut : ¬s.usage.Holds .txStatusOut
  hw : s.usage.Settled .hw
  settled : ∀ r ∈ rs, s.usage.Settled r

section

variable {s : SoftcSetup} {i : SoftcInput}

theorem SoftcSetup.unwound_iff {rs : List SoftcResource} (h : laddered ⊆ rs) :
    s.Unwound rs ↔ ∀ r ∈ rs, s.usage.Settled r :=
  ⟨Unwound.settled, fun hall ↦ ⟨(hall _ (h (by decide))).not_holds,
    (hall _ (h (by decide))).not_holds, hall _ (h (by decide)), hall⟩⟩

/-- `ath9k_init_soc_platform` acquires the image or nothing, and an error means nothing. -/
theorem SoftcSetup.ath9kInitSocPlatform_eq (h : s.eepromBlob = false) :
    s.ath9kInitSocPlatform i =
      ({ s.acquire .eepromBlob i.LoadsImage with eepromBlob := i.LoadsImage }, i.socPlatform) := by
  obtain ⟨ah, eifs, dfs, blob, btcoex, timer, usage⟩ := s
  obtain rfl := h
  rw [ath9kInitSocPlatform, SoftcInput.LoadsImage, SoftcInput.socPlatform]
  cases i.pdata with
  | none => rfl
  | some pdata =>
    obtain ⟨eepromName⟩ := pdata
    cases eepromName with
    | false => rfl
    | true =>
      simp only [Option.any_some, if_true, ath9kEepromRequest, Bool.true_and]
      by_cases herr : i.requestFirmwareNowait < 0
      · simp only [herr, if_true, decide_true]
        rfl
      · simp only [herr, if_false, decide_false]
        cases i.firmware <;> rfl

theorem SoftcInput.socPlatform_of_loadsImage (h : i.LoadsImage = true) : i.socPlatform = 0 := by
  rw [LoadsImage, Bool.and_eq_true, Bool.and_eq_true] at h
  obtain ⟨⟨hname, herr⟩, hfirmware⟩ := h
  have hno : ¬i.requestFirmwareNowait < 0 := by simpa using herr
  rw [socPlatform, if_pos hname, if_neg hno, if_pos hfirmware]

end

section Unwinding

variable (i : SoftcInput)

/-- The usage when the pin is requested. -/
def SoftcInput.platformUsage : Usage SoftcResource :=
  (Usage.unused.acquireIf .dfsDetector i.dfsDetector).acquireIf .eepromBlob i.LoadsImage

/-- The usage when the hardware is initialised. -/
def SoftcInput.pinUsage : Usage SoftcResource := i.platformUsage.acquire .txStatusOut

/-- The usage when the queues are set up. -/
def SoftcInput.queueUsage : Usage SoftcResource :=
  (i.pinUsage.acquire .hw).acquire .txQueues

/-- The usage after the label `err_hw`. -/
def SoftcInput.errHwUsage (u : Usage SoftcResource) : Usage SoftcResource :=
  (u.releaseIf .eepromBlob i.LoadsImage).release .txStatusOut

/-- The usage after the label `err_btcoex`. -/
def SoftcInput.errBtcoexUsage (u : Usage SoftcResource) : Usage SoftcResource :=
  i.errHwUsage ((u.release .txQueues).release .hw)

/-- What has been set up where no step fails. -/
def SoftcInput.upSetup (chip : AthHw) : SoftcSetup where
  ah := chip.initFlags
  eifsEqualToAifs := true
  dfsDetector := i.dfsDetector
  eepromBlob := i.LoadsImage
  btcoex := i.btcoex
  p2pPsTimer := i.p2pPsTimer
  usage := (i.queueUsage.acquireIf .btcoex i.btcoex).acquireIf .p2pPsTimer i.p2pPsTimer

/-- The exits of `ath9k_init_softc`, from the allocation of `ath9k_ah` on, and what is on record at
each. -/
inductive SoftcInput.Exit : Usage SoftcResource → Int32 → Prop
  | platform (hret : i.socPlatform ≠ 0) : Exit i.platformUsage i.socPlatform
  | gpio (hsoc : i.socPlatform = 0) (hret : i.gpioRequestOne ≠ 0) :
      Exit i.platformUsage i.gpioRequestOne
  | hw (hsoc : i.socPlatform = 0) (hgpio : i.gpioRequestOne = 0) (hret : i.hwInit ≠ 0) :
      Exit (i.errHwUsage i.pinUsage) i.hwInit
  | btcoex (hsoc : i.socPlatform = 0) (hgpio : i.gpioRequestOne = 0) (hhw : i.hwInit = 0)
      (hret : i.initBtcoex ≠ 0) : Exit (i.errBtcoexUsage i.queueUsage) i.initBtcoex
  | channels (hlast : i.FailsLast) :
      Exit (i.errBtcoexUsage (i.queueUsage.acquireIf .btcoex i.btcoex)) i.initChannelsRates
  | success (u : Usage SoftcResource) : Exit u 0

variable {i}

theorem exit_ath9kInitSoftc (chip : AthHw) (h : i.athHw = true) :
    i.Exit (ath9kInitSoftc chip i).1.usage (ath9kInitSoftc chip i).2 := by
  have hathHw : ¬(!i.athHw) = true := by rw [h]; decide
  simp only [ath9kInitSoftc, if_neg hathHw, SoftcSetup.ath9kInitSocPlatform_eq, SoftcSetup.acquire,
    SoftcSetup.ath9kInitQueues]
  split_ifs with hsoc hgpio hhw hqueues hbtcoex hchannels
  · exact .platform hsoc
  · exact .gpio (not_not.mp hsoc) hgpio
  · exact .hw (not_not.mp hsoc) (not_not.mp hgpio) hhw
  · exact absurd rfl hqueues
  · exact .btcoex (not_not.mp hsoc) (not_not.mp hgpio) (not_not.mp hhw) hbtcoex
  · exact .channels
      ⟨not_not.mp hsoc, not_not.mp hgpio, not_not.mp hhw, not_not.mp hbtcoex, hchannels⟩
  · exact .success _

/-- What the exits leave behind is decided by three bits: whether the image was loaded, and whether
the detector and the coexistence have acquired anything. -/
theorem SoftcInput.Exit.settled_iff {u : Usage SoftcResource} {ret : Int32} (hexit : i.Exit u ret)
    (hret : ret ≠ 0) :
    ((∀ r ∈ laddered, u.Settled r) ↔ ¬(i.LoadsImage = true ∧ i.gpioRequestOne ≠ 0)) ∧
      ((∀ r ∈ allSoftcResources, u.Settled r) ↔
        ¬(i.LoadsImage = true ∧ i.gpioRequestOne ≠ 0) ∧ i.dfsDetector = false ∧
          ¬(i.btcoex = true ∧ i.FailsLast)) := by
  cases hexit with
  | platform hsoc =>
    have himage : i.LoadsImage = false :=
      Bool.eq_false_iff.mpr fun himage ↦ hsoc (socPlatform_of_loadsImage himage)
    have hlast : ¬i.FailsLast := fun hlast ↦ hsoc hlast.1
    simp only [platformUsage, himage, hlast, Bool.false_eq_true, false_and, and_false]
    cases i.dfsDetector <;> decide
  | gpio hsoc hgpio =>
    have hlast : ¬i.FailsLast := fun hlast ↦ hgpio hlast.2.1
    simp only [platformUsage, hlast, ne_eq, hgpio, and_false]
    cases i.dfsDetector <;> cases i.LoadsImage <;> decide
  | hw hsoc hgpio hhw =>
    have hlast : ¬i.FailsLast := fun hlast ↦ hhw hlast.2.2.1
    simp only [errHwUsage, pinUsage, platformUsage, hlast, ne_eq, hgpio, and_false]
    cases i.dfsDetector <;> cases i.LoadsImage <;> decide
  | btcoex hsoc hgpio hhw hbtcoex =>
    have hlast : ¬i.FailsLast := fun hlast ↦ hbtcoex hlast.2.2.2.1
    simp only [errBtcoexUsage, errHwUsage, queueUsage, pinUsage, platformUsage, hlast, ne_eq, hgpio,
      and_false]
    cases i.dfsDetector <;> cases i.LoadsImage <;> decide
  | channels hlast =>
    simp only [errBtcoexUsage, errHwUsage, queueUsage, pinUsage, platformUsage, hlast, ne_eq,
      hlast.2.1]
    cases i.dfsDetector <;> cases i.LoadsImage <;> cases i.btcoex <;> decide
  | success => exact absurd rfl hret

/-- **The ladder undoes what it is there for, exactly** if the pin is not refused after the image
was loaded: the label for that jump is below the release of the image. **Everything is undone,
exactly** if moreover there is no detector, which no label releases, and the last step does not fail
after the coexistence was set up. -/
theorem unwound_iff_of_error (chip : AthHw) (h : i.athHw = true)
    (hret : (ath9kInitSoftc chip i).2 ≠ 0) :
    ((ath9kInitSoftc chip i).1.Unwound laddered ↔
        ¬(i.LoadsImage = true ∧ i.gpioRequestOne ≠ 0)) ∧
      ((ath9kInitSoftc chip i).1.Unwound allSoftcResources ↔
        ¬(i.LoadsImage = true ∧ i.gpioRequestOne ≠ 0) ∧ i.dfsDetector = false ∧
          ¬(i.btcoex = true ∧ i.FailsLast)) := by
  rw [SoftcSetup.unwound_iff (List.Subset.refl _), SoftcSetup.unwound_iff (by decide)]
  exact (exit_ath9kInitSoftc chip h).settled_iff hret

/-- A chip as it is allocated, with all registers zero. -/
def zeroedChip : AthHw := ⟨.awake, fun _ ↦ 0, 0x00040000, false, false, 0, false, 0, []⟩

/-- The image is loaded, there is no detector, and the last step fails. -/
def lastInput : SoftcInput where
  athHw := true
  dfsDetector := false
  pdata := some ⟨true⟩
  requestFirmwareNowait := 0
  firmware := true
  gpioRequestOne := 0
  hwInit := 0
  initBtcoex := 0
  btcoex := false
  initChannelsRates := -12
  p2pPsTimer := true

theorem unwound_iff_of_error_last :
    (ath9kInitSoftc zeroedChip lastInput).1.Unwound laddered ∧
      (ath9kInitSoftc zeroedChip lastInput).1.Unwound allSoftcResources := by
  obtain ⟨hladder, hall⟩ := unwound_iff_of_error (i := lastInput) zeroedChip rfl (by decide)
  exact ⟨hladder.mpr (by decide), hall.mpr ⟨by decide, rfl, fun h ↦ absurd h.1 (by decide)⟩⟩

/-- The image is loaded, and the pin belongs to somebody else. -/
def busyPinInput : SoftcInput := { lastInput with gpioRequestOne := -16 }

/-- The image stays: the label for a pin that was refused releases nothing. -/
theorem holds_eepromBlob_busyPinInput :
    (ath9kInitSoftc zeroedChip busyPinInput).2 = -16 ∧
      (ath9kInitSoftc zeroedChip busyPinInput).1.usage.Holds .eepromBlob ∧
      ¬(ath9kInitSoftc zeroedChip busyPinInput).1.Unwound laddered := by
  have hheld : (ath9kInitSoftc zeroedChip busyPinInput).1.usage.Holds .eepromBlob := by decide
  exact ⟨by decide, hheld, fun h ↦ h.eepromBlob hheld⟩

theorem ath9kInitSoftc_of_not_athHw {chip : AthHw} (h : i.athHw = false) :
    ath9kInitSoftc chip i = (⟨chip, false, false, false, false, false, .unused⟩, -12) := by
  rw [ath9kInitSoftc, h]
  rfl

/-- Where `ath9k_init_softc` succeeds, no step of it has failed. -/
theorem ath9kInitSoftc_of_success {chip : AthHw} (hret : (ath9kInitSoftc chip i).2 = 0) :
    i.athHw = true ∧ ¬i.Fails ∧ (ath9kInitSoftc chip i).1 = i.upSetup chip := by
  have hathHw : i.athHw = true := by
    by_contra hne
    have herror : (-12 : Int32) = 0 := by
      rwa [ath9kInitSoftc_of_not_athHw (Bool.eq_false_iff.mpr hne)] at hret
    exact absurd herror (by decide)
  refine ⟨hathHw, ?_⟩
  have halloc : ¬(!i.athHw) = true := by rw [hathHw]; decide
  revert hret
  simp only [ath9kInitSoftc, if_neg halloc, SoftcSetup.ath9kInitSocPlatform_eq, SoftcSetup.acquire,
    SoftcSetup.ath9kInitQueues, SoftcInput.Fails]
  split_ifs with hsoc hgpio hhw hqueues hbtcoex hchannels
  · exact fun hret ↦ absurd hret hsoc
  · exact fun hret ↦ absurd hret hgpio
  · exact fun hret ↦ absurd hret hhw
  · exact absurd rfl hqueues
  · exact fun hret ↦ absurd hret hbtcoex
  · exact fun hret ↦ absurd hret hchannels
  · exact fun _ ↦ ⟨by simp only [hsoc, hgpio, hhw, hbtcoex, hchannels, or_self, not_false_eq_true],
      rfl⟩

/-- Removing the driver after it came up releases everything, each once. -/
theorem settled_ath9kDeinitSoftc {chip : AthHw} (hret : (ath9kInitSoftc chip i).2 = 0) :
    ∀ r ∈ allSoftcResources, (ath9kDeinitSoftc (ath9kInitSoftc chip i).1).usage.Settled r := by
  rw [(ath9kInitSoftc_of_success hret).2.2]
  dsimp only [ath9kDeinitSoftc, SoftcSetup.ath9kEepromRelease, SoftcSetup.release,
    SoftcInput.upSetup, SoftcInput.queueUsage, SoftcInput.pinUsage, SoftcInput.platformUsage]
  cases i.dfsDetector <;> cases i.LoadsImage <;> cases i.btcoex <;> cases i.p2pPsTimer <;> decide

end Unwinding

end UcsmaRateControl
