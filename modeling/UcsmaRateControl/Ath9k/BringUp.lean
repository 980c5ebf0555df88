import UcsmaRateControl.Ath9k.InitSoftc
import UcsmaRateControl.Machine.Run
import Mathlib.Algebra.BigOperators.Group.List.Basic

/-!
# Devices that come and go

`ath9k_init_device` sets the driver up with `ath9k_init_softc`, and registers it step by step; a
step that fails jumps into a ladder of its own. `ath9k_deinit_device` takes a device down again.
Every device needs the pin of the transmit status, and there is only one: it is requested from the
kernel by its number.
-/

namespace UcsmaRateControl

/-- What `ath9k_init_device` acquires beyond what `ath9k_init_softc` does. -/
inductive HostResource
  /-- The buffers of `ath_rx_init`. -/
  | rx
  /-- `ieee80211_register_hw`. -/
  | registration
  | debugfs
  | leds
deriving DecidableEq

/-- All that a device may hold. -/
abbrev DeviceResource := SoftcResource ⊕ HostResource

/-- What `ath9k_init_device` is given, and what its calls return. -/
structure DeviceInput extends SoftcInput where
  regdInit : Int32
  txInit : Int32
  rxInit : Int32
  registerHw : Int32
  initDebug : Int32
  /-- `ath_is_world_regd`. -/
  worldRegd : Bool
  regulatoryHint : Int32
  /-- Whether `ath_init_leds` registers a LED. -/
  leds : Bool

/-- A device, as far as it is set up here. -/
structure DeviceSetup where
  softc : SoftcSetup
  ledRegistered : Bool
  usage : Usage HostResource

namespace DeviceSetup

variable (s : DeviceSetup)

/-- Acquire a resource, if there is anything to acquire. -/
def acquire (r : HostResource) (b : Bool) : DeviceSetup := { s with usage := s.usage.acquireIf r b }

/-- Release a resource, if there is anything to release. -/
def release (r : HostResource) (b : Bool) : DeviceSetup := { s with usage := s.usage.releaseIf r b }

/-- How many acquisitions of a resource are outstanding. -/
def balance : DeviceResource → ℤ := Sum.elim s.softc.usage.balance s.usage.balance

/-- From the label `deinit` on. -/
def deinit : DeviceSetup := { s with softc := ath9kDeinitSoftc s.softc }

/-- From the label `rx_cleanup` on. -/
def rxCleanup : DeviceSetup := (s.release .rx true).deinit

/-- From the label `unregister` on. -/
def unregister : DeviceSetup := (s.release .registration true).rxCleanup

/-- From the label `debug_cleanup` on. -/
def debugCleanup : DeviceSetup := (s.release .debugfs true).unregister

/-- `ath9k_deinit_device`. -/
def ath9kDeinitDevice : DeviceSetup :=
  let s := s.release .leds s.ledRegistered
  let s := s.release .debugfs true
  let s := s.release .registration true
  let s := s.release .rx true
  { s with softc := ath9kDeinitSoftc s.softc }

end DeviceSetup

/-- `ath9k_init_device`, for the chip. -/
def ath9kInitDevice (chip : AthHw) (i : DeviceInput) : DeviceSetup × Int32 :=
  let (softc, error) := ath9kInitSoftc chip i.toSoftcInput
  let s : DeviceSetup := ⟨softc, false, .unused⟩
  if error ≠ 0 then (s, error)
  else if i.regdInit ≠ 0 then (s.deinit, i.regdInit)
  else if i.txInit ≠ 0 then (s.deinit, i.txInit)
  else if i.rxInit ≠ 0 then (s.deinit, i.rxInit)
  else
    let s := s.acquire .rx true
    if i.registerHw ≠ 0 then (s.rxCleanup, i.registerHw)
    else
      let s := s.acquire .registration true
      if i.initDebug ≠ 0 then (s.unregister, i.initDebug)
      else
        let s := s.acquire .debugfs true
        if !i.worldRegd ∧ i.regulatoryHint ≠ 0 then (s.debugCleanup, i.regulatoryHint)
        else ({ s.acquire .leds i.leds with ledRegistered := i.leds }, 0)

/-- The driver: the devices that are bound, and what the others have left. -/
structure Driver (δ : Type*) where
  bound : List (δ × DeviceSetup)
  left : List DeviceSetup

namespace Driver

variable {δ : Type*} (s : Driver δ)

/-- Nothing has been probed. -/
def empty : Driver δ := ⟨[], []⟩

/-- How many acquisitions are outstanding, of the devices that are not bound. -/
def leaked (r : DeviceResource) : ℤ := (s.left.map fun d ↦ d.balance r).sum

/-- How many acquisitions are outstanding. -/
def outstanding (r : DeviceResource) : ℤ := (s.bound.map fun d ↦ d.2.balance r).sum + s.leaked r

end Driver

/-- What happens to the devices. -/
inductive DeviceEvent (δ : Type*)
  | probe (d : δ) (chip : AthHw) (i : DeviceInput)
  | remove (d : δ)

/-- The pin of the transmit status. -/
def txStatusOut : DeviceResource := .inl .txStatusOut

/-- `ath9k_init_softc` gets as far as requesting the pin. -/
def SoftcInput.RequestsPin (i : SoftcInput) : Prop := i.athHw = true ∧ i.socPlatform = 0

instance (i : SoftcInput) : Decidable i.RequestsPin := inferInstanceAs (Decidable (_ ∧ _))

section Machine

variable {δ : Type*} [DecidableEq δ]

/-- The machine of the driver. A device is probed while it is not bound, and removed while it is.
The kernel grants the pin of the transmit status only while nobody holds it. -/
def driver : Machine (Driver δ) (DeviceEvent δ) where
  step s
    | .probe d chip i =>
      if (s.bound.lookup d).isNone ∧
          (i.RequestsPin → i.gpioRequestOne = 0 → s.outstanding txStatusOut = 0) then
        let (setup, error) := ath9kInitDevice chip i
        if error ≠ 0 then some { s with left := setup :: s.left }
        else some { s with bound := (d, setup) :: s.bound }
      else none
    | .remove d =>
      match s.bound.lookup d with
      | none => none
      | some setup =>
        some
          { bound := s.bound.eraseP fun b ↦ b.1 = d
            left := setup.ath9kDeinitDevice :: s.left }

end Machine

/-! ## What a probe leaves -/

namespace SoftcInput

variable (i : SoftcInput)

instance : Decidable i.FailsLast := inferInstanceAs (Decidable (_ ∧ _))

instance : Decidable i.Fails := inferInstanceAs (Decidable (_ ∨ _))

/-- What no label of `ath9k_init_softc` releases: the detector, the image if the pin is refused, and
the coexistence if the last step fails. -/
def leaks : SoftcResource → Bool
  | .dfsDetector => i.dfsDetector
  | .eepromBlob => i.LoadsImage && decide (i.gpioRequestOne ≠ 0)
  | .btcoex => i.btcoex && decide i.FailsLast
  | _ => false

/-- What `ath9k_init_softc` holds where it succeeds. -/
def holds : SoftcResource → Bool
  | .dfsDetector => i.dfsDetector
  | .eepromBlob => i.LoadsImage
  | .btcoex => i.btcoex
  | .p2pPsTimer => i.p2pPsTimer
  | _ => true

end SoftcInput

/-- What a probe leaves outstanding where it fails. -/
def DeviceInput.leaves (i : DeviceInput) : DeviceResource → Bool
  | .inl r => i.athHw && decide i.Fails && i.leaks r
  | .inr _ => false

/-- What a device holds that is bound: the pin, and nothing more than once. Taking it down releases
everything. -/
structure DeviceSetup.Bound (s : DeviceSetup) : Prop where
  pin : s.balance txStatusOut = 1
  once : ∀ r, 0 ≤ s.balance r ∧ s.balance r ≤ 1
  deinit : ∀ r, s.ath9kDeinitDevice.balance r = 0

section Softc

variable {i : SoftcInput} {chip : AthHw}

/-- **An error leaves behind** what no label releases, once each. -/
theorem SoftcInput.Exit.balance_eq {u : Usage SoftcResource} {ret : Int32} (hexit : i.Exit u ret)
    (hret : ret ≠ 0) (r : SoftcResource) : u.balance r = (i.leaks r).toNat := by
  cases hexit with
  | platform hsoc =>
    have himage : i.LoadsImage = false :=
      Bool.eq_false_iff.mpr fun himage ↦ hsoc (socPlatform_of_loadsImage himage)
    have hlast : ¬i.FailsLast := fun hlast ↦ hsoc hlast.1
    cases r <;> simp [platformUsage, leaks, himage, hlast]
  | gpio hsoc hgpio =>
    have hlast : ¬i.FailsLast := fun hlast ↦ hgpio hlast.2.1
    cases r <;> simp [platformUsage, leaks, hgpio, hlast]
  | hw hsoc hgpio hhw =>
    have hlast : ¬i.FailsLast := fun hlast ↦ hhw hlast.2.2.1
    cases r <;> simp [errHwUsage, pinUsage, platformUsage, leaks, hgpio, hlast]
  | btcoex hsoc hgpio hhw hbtcoex =>
    have hlast : ¬i.FailsLast := fun hlast ↦ hbtcoex hlast.2.2.2.1
    cases r <;>
      simp [errBtcoexUsage, errHwUsage, queueUsage, pinUsage, platformUsage, leaks, hgpio, hlast]
  | channels hlast =>
    cases r <;>
      simp [errBtcoexUsage, errHwUsage, queueUsage, pinUsage, platformUsage, leaks, hlast,
        hlast.2.1]
  | success => exact absurd rfl hret

theorem SoftcInput.Exit.fails {u : Usage SoftcResource} {ret : Int32} (hexit : i.Exit u ret)
    (hret : ret ≠ 0) : i.Fails := by
  cases hexit with
  | platform hsoc => exact .inl hsoc
  | gpio _ hgpio => exact .inr (.inl hgpio)
  | hw _ _ hhw => exact .inr (.inr (.inl hhw))
  | btcoex _ _ _ hbtcoex => exact .inr (.inr (.inr (.inl hbtcoex)))
  | channels hlast => exact .inr (.inr (.inr (.inr hlast.2.2.2.2)))
  | success => exact absurd rfl hret

/-- A failure of `ath9k_init_softc` leaves behind what the labels leak, if it gets past the
allocation. -/
theorem balance_ath9kInitSoftc_of_error (h : (ath9kInitSoftc chip i).2 ≠ 0) (r : SoftcResource) :
    (ath9kInitSoftc chip i).1.usage.balance r =
      (i.athHw && decide i.Fails && i.leaks r).toNat := by
  cases hathHw : i.athHw with
  | false =>
    rw [ath9kInitSoftc_of_not_athHw hathHw]
    rfl
  | true =>
    have hexit := exit_ath9kInitSoftc chip hathHw
    rw [hexit.balance_eq h r, decide_eq_true (hexit.fails h)]
    rfl

/-- Where it succeeds, it has been granted the pin. -/
theorem granted_of_ath9kInitSoftc (h : (ath9kInitSoftc chip i).2 = 0) :
    i.RequestsPin ∧ i.gpioRequestOne = 0 := by
  obtain ⟨hathHw, hok, -⟩ := ath9kInitSoftc_of_success h
  simp only [SoftcInput.Fails, not_or, not_not] at hok
  exact ⟨⟨hathHw, hok.1⟩, hok.2.1⟩

theorem balance_ath9kInitSoftc (h : (ath9kInitSoftc chip i).2 = 0) (r : SoftcResource) :
    (ath9kInitSoftc chip i).1.usage.balance r = (i.holds r).toNat := by
  rw [(ath9kInitSoftc_of_success h).2.2]
  cases r <;> simp [SoftcInput.upSetup, SoftcInput.queueUsage, SoftcInput.pinUsage,
    SoftcInput.platformUsage, SoftcInput.holds]

/-- `ath9k_deinit_softc` after it releases everything. -/
theorem balance_ath9kDeinitSoftc (h : (ath9kInitSoftc chip i).2 = 0) (r : SoftcResource) :
    (ath9kDeinitSoftc (ath9kInitSoftc chip i).1).usage.balance r = 0 := by
  refine (settled_ath9kDeinitSoftc h r ?_).balance
  cases r <;> decide

end Softc

section Device

variable (chip : AthHw) (i : DeviceInput)

/-- A device that has come up. -/
def DeviceInput.boundSetup : DeviceSetup :=
  let s : DeviceSetup := ⟨(ath9kInitSoftc chip i.toSoftcInput).1, false, .unused⟩
  let s := (((s.acquire .rx true).acquire .registration true).acquire .debugfs true).acquire .leds
    i.leds
  { s with ledRegistered := i.leds }

/-- The exits of `ath9k_init_device`, and how the device stands at each. The labels lead to
`deinit`, and what was acquired after `ath9k_init_softc` has been released by then. -/
inductive DeviceInput.Exit : DeviceSetup → Int32 → Prop
  | softc (hret : (ath9kInitSoftc chip i.toSoftcInput).2 ≠ 0) :
      Exit ⟨(ath9kInitSoftc chip i.toSoftcInput).1, false, .unused⟩
        (ath9kInitSoftc chip i.toSoftcInput).2
  | labels (hsoftc : (ath9kInitSoftc chip i.toSoftcInput).2 = 0) {ret : Int32} (hret : ret ≠ 0)
      {s : DeviceSetup} (hs : s.softc = (ath9kInitSoftc chip i.toSoftcInput).1)
      (hr : ∀ r, s.usage.balance r = 0) : Exit s.deinit ret
  | success (hsoftc : (ath9kInitSoftc chip i.toSoftcInput).2 = 0) : Exit (i.boundSetup chip) 0

theorem exit_ath9kInitDevice :
    i.Exit chip (ath9kInitDevice chip i).1 (ath9kInitDevice chip i).2 := by
  by_cases hsoftc : (ath9kInitSoftc chip i.toSoftcInput).2 = 0
  · simp only [ath9kInitDevice, if_neg (not_not.mpr hsoftc)]
    -- the first three steps jump to `deinit`, and the last three to the labels above it in turn
    split_ifs with hregd htx hrx hregister hdebug hhint
    · exact .labels hsoftc hregd rfl fun _ ↦ rfl
    · exact .labels hsoftc htx rfl fun _ ↦ rfl
    · exact .labels hsoftc hrx rfl fun _ ↦ rfl
    · exact .labels hsoftc hregister rfl fun r ↦ by cases r <;> rfl
    · exact .labels hsoftc hdebug rfl fun r ↦ by cases r <;> rfl
    · exact .labels hsoftc hhint.2 rfl fun r ↦ by cases r <;> rfl
    · exact .success hsoftc
  · simp only [ath9kInitDevice, if_pos hsoftc]
    exact .softc hsoftc

variable {chip i}

/-- From the label `deinit` on, all that `ath9k_init_softc` has acquired is released. -/
theorem DeviceSetup.balance_deinit {s : DeviceSetup}
    (hsoftc : (ath9kInitSoftc chip i.toSoftcInput).2 = 0)
    (hs : s.softc = (ath9kInitSoftc chip i.toSoftcInput).1) (hr : ∀ r, s.usage.balance r = 0)
    (r : DeviceResource) : s.deinit.balance r = 0 := by
  cases r with
  | inl r =>
    change (ath9kDeinitSoftc s.softc).usage.balance r = 0
    rw [hs]
    exact balance_ath9kDeinitSoftc hsoftc r
  | inr r => exact hr r

theorem DeviceInput.leaves_of_success (hsoftc : (ath9kInitSoftc chip i.toSoftcInput).2 = 0)
    (r : DeviceResource) : i.leaves r = false := by
  cases r with
  | inl r =>
    rw [leaves, decide_eq_false (ath9kInitSoftc_of_success hsoftc).2.1, Bool.and_false,
      Bool.false_and]
  | inr r => rfl

/-- **A probe that fails** leaves outstanding what `ath9k_init_softc` leaks, if that is what has
failed, and nothing if it was a later step. -/
theorem balance_ath9kInitDevice_of_error (h : (ath9kInitDevice chip i).2 ≠ 0)
    (r : DeviceResource) : (ath9kInitDevice chip i).1.balance r = (i.leaves r).toNat := by
  have hexit := exit_ath9kInitDevice chip i
  revert h
  generalize (ath9kInitDevice chip i).1 = s, (ath9kInitDevice chip i).2 = ret at hexit ⊢
  intro h
  cases hexit with
  | softc hret =>
    cases r with
    | inl r => exact balance_ath9kInitSoftc_of_error hret r
    | inr r => rfl
  | labels hsoftc hret hs hr =>
    rw [DeviceSetup.balance_deinit hsoftc hs hr, DeviceInput.leaves_of_success hsoftc]
    rfl
  | success hsoftc => exact absurd rfl h

theorem DeviceInput.bound_boundSetup (hsoftc : (ath9kInitSoftc chip i.toSoftcInput).2 = 0) :
    (i.boundSetup chip).Bound where
  pin := balance_ath9kInitSoftc hsoftc .txStatusOut
  once r := by
    cases r with
    | inl r =>
      change 0 ≤ (ath9kInitSoftc chip i.toSoftcInput).1.usage.balance r ∧
        (ath9kInitSoftc chip i.toSoftcInput).1.usage.balance r ≤ 1
      rw [balance_ath9kInitSoftc hsoftc r]
      cases i.toSoftcInput.holds r <;> decide
    | inr r =>
      change 0 ≤ (i.boundSetup chip).usage.balance r ∧ (i.boundSetup chip).usage.balance r ≤ 1
      simp only [boundSetup, DeviceSetup.acquire]
      cases i.leds <;> cases r <;> decide
  deinit r := by
    refine DeviceSetup.balance_deinit hsoftc rfl (fun r ↦ ?_) r
    simp only [boundSetup, DeviceSetup.acquire, DeviceSetup.release]
    cases i.leds <;> cases r <;> rfl

/-- **A probe that succeeds** has been granted the pin, and binds the device. -/
theorem bound_ath9kInitDevice (h : (ath9kInitDevice chip i).2 = 0) :
    (i.RequestsPin ∧ i.gpioRequestOne = 0) ∧ (ath9kInitDevice chip i).1.Bound ∧
      ∀ r, i.leaves r = false := by
  have hexit := exit_ath9kInitDevice chip i
  revert h
  generalize (ath9kInitDevice chip i).1 = s, (ath9kInitDevice chip i).2 = ret at hexit ⊢
  intro h
  cases hexit with
  | softc hret => exact absurd h hret
  | labels hsoftc hret => exact absurd h hret
  | success hsoftc =>
    exact ⟨granted_of_ath9kInitSoftc hsoftc, DeviceInput.bound_boundSetup hsoftc,
      DeviceInput.leaves_of_success hsoftc⟩

end Device

/-! ## What a run leaves -/

section Run

variable {δ : Type*} [DecidableEq δ] {s t : Driver δ} {e : DeviceEvent δ}
  {es : List (DeviceEvent δ)}

namespace Driver

/-- What an event does to the driver. -/
inductive Took : Driver δ → DeviceEvent δ → Driver δ → Prop
  | failed {s : Driver δ} {d : δ} {chip : AthHw} {i : DeviceInput}
      (hret : (ath9kInitDevice chip i).2 ≠ 0) :
      Took s (.probe d chip i) { s with left := (ath9kInitDevice chip i).1 :: s.left }
  | bound {s : Driver δ} {d : δ} {chip : AthHw} {i : DeviceInput}
      (hpin : i.RequestsPin → i.gpioRequestOne = 0 → s.outstanding txStatusOut = 0)
      (hret : (ath9kInitDevice chip i).2 = 0) :
      Took s (.probe d chip i) { s with bound := (d, (ath9kInitDevice chip i).1) :: s.bound }
  | removed {s : Driver δ} {d : δ} {setup : DeviceSetup} (hmem : (d, setup) ∈ s.bound) :
      Took s (.remove d)
        { bound := s.bound.eraseP fun b ↦ b.1 = d
          left := setup.ath9kDeinitDevice :: s.left }

theorem Took.of_step (h : driver.step s e = some t) : Took s e t := by
  cases e with
  | probe d chip i =>
    simp only [driver] at h
    split_ifs at h with hguard hret
    · obtain rfl := Option.some_inj.mp h
      exact .failed hret
    · obtain rfl := Option.some_inj.mp h
      exact .bound hguard.2 (not_not.mp hret)
  | remove d =>
    simp only [driver] at h
    split at h
    · exact absurd h (Option.some_ne_none t).symm
    · rename_i setup hlookup
      obtain rfl := Option.some_inj.mp h
      obtain ⟨pre, post, hbound, -⟩ := List.lookup_eq_some_iff.mp hlookup
      exact .removed (hbound ▸ List.mem_append_right pre List.mem_cons_self)

end Driver

/-- What an event leaves outstanding for good. -/
def DeviceEvent.leaves : DeviceEvent δ → DeviceResource → Bool
  | .probe _ _ i, r => i.leaves r
  | .remove _, _ => false

/-- The books of the driver after the events `es`: at most one device is bound, and what is left of
the others is what the probes among the events have left. -/
structure Driver.Accounted (s : Driver δ) (es : List (DeviceEvent δ)) : Prop where
  bound : ∀ b ∈ s.bound, b.2.Bound
  single : s.bound.length ≤ 1
  leaked : ∀ r, s.leaked r = es.countP (·.leaves r)

namespace Driver

omit [DecidableEq δ] in
theorem leaked_of_left {setup : DeviceSetup} (h : t.left = setup :: s.left) (r : DeviceResource) :
    t.leaked r = setup.balance r + s.leaked r := by
  rw [leaked, h, List.map_cons, List.sum_cons, ← leaked]

omit [DecidableEq δ] in
/-- The pin is held by the devices that are bound, and by nobody else. -/
theorem Accounted.outstanding_txStatusOut (h : s.Accounted es) :
    s.outstanding txStatusOut = s.bound.length := by
  have hleaves : ∀ e : DeviceEvent δ, e.leaves txStatusOut = false := by
    intro e
    cases e with
    | probe d chip i => exact Bool.and_false _
    | remove d => rfl
  have hleaked : s.leaked txStatusOut = 0 := by
    rw [h.leaked, List.countP_eq_zero.mpr fun e _ ↦ Bool.eq_false_iff.mp (hleaves e)]
    rfl
  have hpin : s.bound.map (fun d ↦ d.2.balance txStatusOut) = s.bound.map fun _ ↦ (1 : ℤ) :=
    List.map_congr_left fun d hd ↦ (h.bound d hd).pin
  -- each device that is bound holds the pin once, and nobody else ever keeps it
  rw [outstanding, hleaked, hpin, List.map_const', List.sum_replicate, add_zero, nsmul_one]

/-- One event keeps the books. -/
theorem Accounted.took (h : s.Accounted es) (ht : Took s e t) : t.Accounted (es ++ [e]) := by
  have hpin := h.outstanding_txStatusOut
  obtain ⟨hbound, hsingle, hleaked⟩ := h
  have hcount : ∀ r, ((es ++ [e]).countP (·.leaves r) : ℤ) =
      (e.leaves r).toNat + s.leaked r := by
    intro r
    rw [hleaked, List.countP_append, List.countP_singleton]
    cases e.leaves r <;> simp [add_comm]
  cases ht with
  | failed hret =>
    refine ⟨hbound, hsingle, fun r ↦ ?_⟩
    rw [hcount, leaked_of_left rfl, balance_ath9kInitDevice_of_error hret]
    rfl
  | bound hguard hret =>
    obtain ⟨⟨hrequests, hgpio⟩, hnew, hleaves⟩ := bound_ath9kInitDevice hret
    -- the pin was granted, so nobody held it: no other device is bound
    have hnone : s.bound.length = 0 := by
      have hfree := hguard hrequests hgpio
      omega
    refine ⟨List.forall_mem_cons.mpr ⟨hnew, hbound⟩, ?_, fun r ↦ ?_⟩
    · rw [List.length_cons, hnone]
    · rw [hcount, DeviceEvent.leaves, hleaves]
      exact (zero_add _).symm
  | removed hmem =>
    refine ⟨fun b hb ↦ hbound b (List.mem_of_mem_eraseP hb),
      (List.length_eraseP_le).trans hsingle, fun r ↦ ?_⟩
    rw [hcount, leaked_of_left rfl, (hbound _ hmem).deinit]
    rfl

end Driver

theorem Driver.accounted_of_run (h : driver.run Driver.empty es = some t) : t.Accounted es := by
  refine Machine.run_induction (P := fun es t ↦ t.Accounted es) ?_ ?_ h
  · exact ⟨fun b hb ↦ absurd hb List.not_mem_nil, Nat.zero_le 1, fun r ↦ rfl⟩
  · exact fun es u e v _ hu huv ↦ hu.took (.of_step huv)

/-- **One device, and what stays behind.** After any sequence of probes and removals at most one
device is bound, the pin of the transmit status is held exactly if one is, and of every other
resource there is outstanding, beyond what that device holds once, one for each probe that has
failed in `ath9k_init_softc` and for which no label releases it. -/
theorem outstanding_of_run (h : driver.run Driver.empty es = some t) :
    t.bound.length ≤ 1 ∧ t.outstanding txStatusOut = t.bound.length ∧
      ∀ r, t.leaked r = es.countP (·.leaves r) ∧
        ∀ b ∈ t.bound, 0 ≤ b.2.balance r ∧ b.2.balance r ≤ 1 := by
  have hbooks := Driver.accounted_of_run h
  exact ⟨hbooks.single, hbooks.outstanding_txStatusOut, fun r ↦
    ⟨hbooks.leaked r, fun b hb ↦ (hbooks.bound b hb).once r⟩⟩

end Run

/-- Everything succeeds. -/
def plainDevice : DeviceInput where
  toSoftcInput := { lastInput with initChannelsRates := 0 }
  regdInit := 0
  txInit := 0
  rxInit := 0
  registerHw := 0
  initDebug := 0
  worldRegd := true
  regulatoryHint := 0
  leds := true

/-- A second device loads its image and is refused the pin; then the first one is removed. -/
def refusedRun : List (DeviceEvent Bool) :=
  [.probe false zeroedChip plainDevice,
    .probe true zeroedChip { plainDevice with gpioRequestOne := -16 }, .remove false]

/-- The image is all that is left. -/
theorem outstanding_of_run_refused :
    ∃ t, driver.run Driver.empty refusedRun = some t ∧ t.bound.length = 0 ∧
      t.outstanding txStatusOut = 0 ∧ ∀ r, t.leaked r = if r = .inl .eepromBlob then 1 else 0 := by
  have hrun : driver.run Driver.empty refusedRun = some _ := rfl
  obtain ⟨-, hpin, hleaked⟩ := outstanding_of_run hrun
  refine ⟨_, hrun, rfl, hpin, fun r ↦ ?_⟩
  rw [(hleaked r).1]
  rcases r with r | r <;> cases r <;> decide

end UcsmaRateControl
