import UcsmaRateControl.Unlock.Node

/-!
# Devices coming and going

The driver exports two pointers to the unlocking modules. `ath9k_ah` is set by every probe, to the
chip of the device being probed. `txbuf_fff` is set by the first transmission after the driver is
loaded, to the buffer list of the device that transmits, and never again: neither a probe nor a
removal touches it. The handlers walk the list behind one pointer and write the registers behind the
other, so they need both to belong to one bound device.

Memory that a removal frees can be handed out again, so devices are identified by the addresses of
their `ath_softc` and `ath_hw`, chosen by the allocator among those not in use.
-/

namespace UcsmaRateControl

/-! ## The driver's side -/

/-- `struct ath_softc`, as far as the exported pointers lead into it. -/
structure Softc where
  /-- Its own address. -/
  addr : ℕ
  /-- The address of its chip, `sc_ah`. -/
  scAh : ℕ
  /-- The list of free transmit buffers, `tx.txbuf`. -/
  txbuf : ListHead

/-- The bound devices and the exported pointers. -/
structure Ath9k where
  devices : List Softc
  /-- `ath9k_ah`. -/
  ath9kAh : Option ℕ
  /-- `txbuf_fff`, by the address of the `ath_softc` it points into. -/
  txbufFff : Option ℕ

/-- What a probe is given, and what the calls it makes return. -/
structure ProbeInput where
  /-- The address of the `ath_softc`. -/
  sc : ℕ
  /-- The address that `devm_kzalloc` returns for the chip. -/
  ah : Option ℕ
  /-- The chip as the probe sets it up. -/
  hw : AthHw
  /-- The buffers that `ath_tx_init` links. -/
  txbuf : ListHead
  /-- The return value of the calls of `ath9k_init_softc` after the allocation. -/
  initSoftc : Int32
  /-- The return value of the calls of `ath9k_init_device` after `ath9k_init_softc`. -/
  initDevice : Int32

namespace Ath9k

variable (d : Ath9k)

/-- The driver as it is loaded. -/
def loaded : Ath9k := ⟨[], none, none⟩

/-- `ath9k_init_softc`: the result of the allocation is stored in the exported pointer. -/
def ath9kInitSoftc (p : ProbeInput) : Ath9k × Int32 :=
  let d := { d with ath9kAh := p.ah }
  if d.ath9kAh = none then (d, -12) else (d, p.initSoftc)

/-- `ath9k_init_device`. The device is bound if it returns zero. -/
def ath9kInitDevice (p : ProbeInput) : Ath9k × Int32 :=
  let (d, error) := d.ath9kInitSoftc p
  if error ≠ 0 then (d, error)
  else if p.initDevice ≠ 0 then (d, p.initDevice)
  else ({ d with devices := (d.ath9kAh.map fun ah ↦ ⟨p.sc, ah, p.txbuf⟩).toList ++ d.devices }, 0)

/-- The first lines of `ath9k_tx`. -/
def ath9kTx (sc : ℕ) : Ath9k := if d.txbufFff = none then { d with txbufFff := some sc } else d

/-- `ath9k_deinit_device`. -/
def ath9kDeinitDevice (sc : ℕ) : Ath9k :=
  { d with devices := d.devices.filter fun dev ↦ dev.addr ≠ sc }

/-- The transmission path takes free buffers of a device and returns them. -/
def relink (sc : ℕ) (txbuf : ListHead) : Ath9k :=
  { d with devices := d.devices.map fun dev ↦ if dev.addr = sc then { dev with txbuf } else dev }

/-- The device at an address is bound. -/
def Bound (sc : ℕ) : Prop := ∃ dev ∈ d.devices, dev.addr = sc

instance (sc : ℕ) : Decidable (d.Bound sc) :=
  inferInstanceAs (Decidable (∃ dev ∈ d.devices, dev.addr = sc))

/-- The device at an address is bound, and its chip is behind `ath9k_ah`. -/
def Current (sc : ℕ) : Prop := ∃ dev ∈ d.devices, dev.addr = sc ∧ d.ath9kAh = some dev.scAh

/-- The list behind `txbuf_fff` belongs to a bound device, the one whose chip is behind
`ath9k_ah`. -/
def Agrees : Prop := ∃ sc, d.txbufFff = some sc ∧ d.Current sc

/-- What a probe is given is not in use. -/
def Fresh (p : ProbeInput) : Prop :=
  ∀ dev ∈ d.devices, dev.addr ≠ p.sc ∧ p.ah ≠ some dev.scAh

instance (p : ProbeInput) : Decidable (d.Fresh p) :=
  inferInstanceAs (Decidable (∀ dev ∈ d.devices, dev.addr ≠ p.sc ∧ p.ah ≠ some dev.scAh))

end Ath9k

/-- All calls that a probe makes succeed. -/
structure ProbeInput.Succeeds (p : ProbeInput) : Prop where
  ah : p.ah ≠ none
  initSoftc : p.initSoftc = 0
  initDevice : p.initDevice = 0

instance (p : ProbeInput) : Decidable p.Succeeds :=
  decidable_of_iff (p.ah ≠ none ∧ p.initSoftc = 0 ∧ p.initDevice = 0)
    ⟨fun ⟨h1, h2, h3⟩ ↦ ⟨h1, h2, h3⟩, fun ⟨h1, h2, h3⟩ ↦ ⟨h1, h2, h3⟩⟩

/-- A probe sets `ath9k_ah` in any case, and binds the device if it succeeds. -/
theorem Ath9k.ath9kInitDevice_eq (d : Ath9k) (p : ProbeInput) :
    (d.ath9kInitDevice p).1 =
      if p.Succeeds then
        { d with
          ath9kAh := p.ah
          devices := (p.ah.map fun ah ↦ ⟨p.sc, ah, p.txbuf⟩).toList ++ d.devices }
      else { d with ath9kAh := p.ah } := by
  by_cases hah : p.ah = none
  · have hno : ¬p.Succeeds := fun hp ↦ hp.ah hah
    have herror : (-12 : Int32) ≠ 0 := by decide
    simp only [ath9kInitDevice, ath9kInitSoftc, if_pos hah, if_pos herror, if_neg hno]
  · by_cases hsoftc : p.initSoftc = 0
    · by_cases hdevice : p.initDevice = 0
      · have hyes : p.Succeeds := ⟨hah, hsoftc, hdevice⟩
        simp only [ath9kInitDevice, ath9kInitSoftc, if_neg hah, hsoftc, hdevice, ne_eq,
          not_true_eq_false, if_false, if_pos hyes]
      · have hno : ¬p.Succeeds := fun hp ↦ hdevice hp.initDevice
        simp only [ath9kInitDevice, ath9kInitSoftc, if_neg hah, hsoftc, hdevice, ne_eq,
          not_true_eq_false, not_false_eq_true, if_false, if_true, if_neg hno]
    · have hno : ¬p.Succeeds := fun hp ↦ hsoftc hp.initSoftc
      simp only [ath9kInitDevice, ath9kInitSoftc, if_neg hah, hsoftc, ne_eq, not_false_eq_true,
        if_true, if_neg hno]

/-! ## The driver under the module -/

/-- The driver, and the module that reads its exported pointers. -/
structure Stack where
  driver : Ath9k
  node : Node

/-- What can happen to the driver and the module. -/
inductive StackEvent
  /-- A device is probed. -/
  | probe (p : ProbeInput)
  /-- A frame is transmitted on a device. -/
  | tx (sc : ℕ)
  /-- The free buffers of a device are relinked. -/
  | buffers (sc : ℕ) (txbuf : ListHead)
  /-- A device is removed. -/
  | remove (sc : ℕ)
  /-- The module takes an event; `freed` is what is left in memory that has been freed. What the
  module knows of the pointer is read afresh, so its own `txbuf` event changes nothing here. -/
  | unlock (e : Event) (freed : ListHead)

namespace Stack

variable (s : Stack)

/-- What a handler finds behind `txbuf_fff`. -/
def deref (freed : ListHead) : Option ListHead :=
  s.driver.txbufFff.map fun sc ↦
    (s.driver.devices.find? fun dev ↦ dev.addr = sc).elim freed Softc.txbuf

/-- The handler that the event runs, if any, walks the list behind `txbuf_fff`. -/
def Walks : Event → Prop
  | .fire _ _ => s.driver.txbufFff.isSome = true
  | .pulse _ => s.node.driverLock = false ∧ s.driver.txbufFff.isSome = true
  | _ => False

end Stack

/-- The machine of driver and module. The module reads `txbuf_fff` afresh at each of its events. -/
def stack (K : Kernel) : Machine Stack StackEvent where
  step s
    | .probe p =>
      if s.driver.Fresh p then
        some ⟨(s.driver.ath9kInitDevice p).1,
          if p.ah = none then s.node else { s.node with ah := p.hw }⟩
      else none
    | .tx sc => if s.driver.Bound sc then some ⟨s.driver.ath9kTx sc, s.node⟩ else none
    | .buffers sc txbuf =>
      if s.driver.Bound sc then some ⟨s.driver.relink sc txbuf, s.node⟩ else none
    | .remove sc =>
      if s.driver.Bound sc then some ⟨s.driver.ath9kDeinitDevice sc, s.node⟩ else none
    | .unlock e freed =>
      ((unlockNode K).step { s.node with txbufFff := s.deref freed } e).map fun node ↦
        ⟨s.driver, node⟩

/-- A walk happens only while the two exported pointers agree. -/
def WalksBound (s : Stack) (e : StackEvent) : Prop :=
  ∀ e' freed, e = .unlock e' freed → s.Walks e' → s.driver.Agrees

/-! ## What the history says -/

/-- The device that was the first to transmit. -/
def firstTx (es : List StackEvent) : Option ℕ :=
  es.findSome? fun
    | .tx sc => some sc
    | _ => none

/-- The device of the last probe, after one more event. -/
def reprobed (cur : Option ℕ) : StackEvent → Option ℕ
  | .probe p => if p.Succeeds then some p.sc else none
  | .remove sc => if cur = some sc then none else cur
  | _ => cur

/-- The device of the last probe, if the probe succeeded and the device has not been removed. -/
def lastProbed (es : List StackEvent) : Option ℕ := es.foldl reprobed none

section Runs

variable {K : Kernel} {s t : Stack} {e : StackEvent} {es : List StackEvent} {node : Node}

theorem firstTx_concat (es : List StackEvent) (e : StackEvent) :
    firstTx (es ++ [e]) = (firstTx es).or (firstTx [e]) := List.findSome?_append

theorem lastProbed_concat (es : List StackEvent) (e : StackEvent) :
    lastProbed (es ++ [e]) = reprobed (lastProbed es) e := by
  rw [lastProbed, List.foldl_append]
  rfl

/-- What the exported pointers remember. -/
structure Stack.Remembers (s : Stack) (es : List StackEvent) : Prop where
  txbufFff : s.driver.txbufFff = firstTx es
  current_iff : ∀ sc, s.driver.Current sc ↔ lastProbed es = some sc

theorem Stack.remembers_loaded (node : Node) : (⟨.loaded, node⟩ : Stack).Remembers [] := by
  refine ⟨rfl, fun sc ↦ iff_of_false ?_ nofun⟩
  rintro ⟨dev, hdev, -⟩
  exact absurd hdev List.not_mem_nil

/-- After a probe the chip behind `ath9k_ah` is that of the new device, if there is one, and of no
device otherwise. -/
theorem Ath9k.current_ath9kInitDevice {d : Ath9k} {p : ProbeInput} (hfresh : d.Fresh p) (sc : ℕ) :
    (d.ath9kInitDevice p).1.Current sc ↔ p.Succeeds ∧ p.sc = sc := by
  rw [ath9kInitDevice_eq]
  by_cases hp : p.Succeeds
  · obtain ⟨ah, hah⟩ := Option.ne_none_iff_exists'.mp hp.ah
    rw [if_pos hp, and_iff_right hp]
    constructor
    · rintro ⟨dev, hdev, rfl, hcur⟩
      rw [hah] at hdev
      rcases List.mem_cons.mp hdev with rfl | hold
      · rfl
      · exact absurd hcur (hfresh dev hold).2
    · rintro rfl
      refine ⟨⟨p.sc, ah, p.txbuf⟩, ?_, rfl, hah⟩
      rw [hah]
      exact List.mem_cons_self
  · rw [if_neg hp]
    refine iff_of_false ?_ fun hno ↦ hp hno.1
    rintro ⟨dev, hdev, -, hcur⟩
    exact (hfresh dev hdev).2 hcur

theorem Ath9k.current_ath9kTx (d : Ath9k) (sc sc' : ℕ) :
    (d.ath9kTx sc).Current sc' ↔ d.Current sc' := by
  rw [ath9kTx]
  split <;> rfl

theorem Ath9k.current_ath9kDeinitDevice (d : Ath9k) (sc sc' : ℕ) :
    (d.ath9kDeinitDevice sc).Current sc' ↔ sc' ≠ sc ∧ d.Current sc' := by
  constructor
  · rintro ⟨dev, hdev, rfl, hcur⟩
    obtain ⟨hdev, hne⟩ := List.mem_filter.mp hdev
    exact ⟨of_decide_eq_true hne, dev, hdev, rfl, hcur⟩
  · rintro ⟨hne, dev, hdev, rfl, hcur⟩
    exact ⟨dev, List.mem_filter.mpr ⟨hdev, decide_eq_true hne⟩, rfl, hcur⟩

theorem Ath9k.current_relink (d : Ath9k) (sc : ℕ) (txbuf : ListHead) (sc' : ℕ) :
    (d.relink sc txbuf).Current sc' ↔ d.Current sc' := by
  constructor
  · rintro ⟨dev', hdev', rfl, hcur⟩
    obtain ⟨dev, hdev, rfl⟩ := List.mem_map.mp hdev'
    refine ⟨dev, hdev, ?_⟩
    split at hcur <;> split <;> exact ⟨rfl, hcur⟩
  · rintro ⟨dev, hdev, rfl, hcur⟩
    refine ⟨_, List.mem_map_of_mem hdev, ?_⟩
    split <;> exact ⟨rfl, hcur⟩

theorem Stack.Remembers.step (h : s.Remembers es) (hst : (stack K).step s e = some t) :
    t.Remembers (es ++ [e]) := by
  have hor : (firstTx es).or none = firstTx es := Option.or_none
  cases e with
  | probe p =>
    obtain ⟨hfresh, ⟨⟩⟩ := Option.ite_none_right_eq_some.mp hst
    refine ⟨?_, fun sc ↦ ?_⟩
    · rw [firstTx_concat, Ath9k.ath9kInitDevice_eq]
      split <;> exact h.txbufFff.trans hor.symm
    · rw [Ath9k.current_ath9kInitDevice hfresh, lastProbed_concat, reprobed,
        Option.ite_none_right_eq_some, Option.some_inj]
  | tx sc =>
    obtain ⟨-, ⟨⟩⟩ := Option.ite_none_right_eq_some.mp hst
    refine ⟨?_, fun sc' ↦ ?_⟩
    · rw [firstTx_concat, ← h.txbufFff, Ath9k.ath9kTx]
      split <;> rename_i hnull
      · rw [hnull]
        rfl
      · obtain ⟨sc', hsc'⟩ := Option.ne_none_iff_exists'.mp hnull
        rw [hsc']
        rfl
    · rw [Ath9k.current_ath9kTx, lastProbed_concat]
      exact h.current_iff sc'
  | buffers sc txbuf =>
    obtain ⟨-, ⟨⟩⟩ := Option.ite_none_right_eq_some.mp hst
    refine ⟨?_, fun sc' ↦ ?_⟩
    · rw [firstTx_concat]
      exact h.txbufFff.trans hor.symm
    · rw [Ath9k.current_relink, lastProbed_concat]
      exact h.current_iff sc'
  | remove sc =>
    obtain ⟨-, ⟨⟩⟩ := Option.ite_none_right_eq_some.mp hst
    refine ⟨?_, fun sc' ↦ ?_⟩
    · rw [firstTx_concat]
      exact h.txbufFff.trans hor.symm
    · rw [Ath9k.current_ath9kDeinitDevice, h.current_iff, lastProbed_concat, reprobed]
      by_cases hcur : lastProbed es = some sc
      · rw [if_pos hcur, hcur, Option.some_inj]
        exact iff_of_false (fun hne ↦ hne.1 hne.2.symm) nofun
      · rw [if_neg hcur]
        exact ⟨fun hne ↦ hne.2, fun heq ↦ ⟨fun hsc ↦ hcur (hsc ▸ heq), heq⟩⟩
  | unlock e freed =>
    obtain ⟨u, -, rfl⟩ := Option.map_eq_some_iff.mp hst
    refine ⟨?_, fun sc' ↦ ?_⟩
    · rw [firstTx_concat]
      exact h.txbufFff.trans hor.symm
    · rw [lastProbed_concat]
      exact h.current_iff sc'

theorem Stack.Remembers.agrees_iff (h : s.Remembers es) :
    s.driver.Agrees ↔ ∃ sc, firstTx es = some sc ∧ lastProbed es = some sc := by
  simp only [Ath9k.Agrees, h.txbufFff, h.current_iff]

/-- **The two pointers, exactly.** From the loading of the driver on, every walk along `txbuf_fff`
is along the list of a bound device, and of the one behind `ath9k_ah`, if and only if at every walk
the device that transmitted first is also the device that was probed last, by a probe that
succeeded, and has not been removed. -/
theorem walksBound_iff (K : Kernel) (node : Node) (es : List StackEvent) :
    (stack K).Meets WalksBound ⟨.loaded, node⟩ es ↔
      ∀ pre e freed, pre ++ [.unlock e freed] <+: es → ∀ u,
        (stack K).run ⟨.loaded, node⟩ pre = some u → u.Walks e →
        ∃ sc, firstTx pre = some sc ∧ lastProbed pre = some sc := by
  have hremembers : ∀ pre u, (stack K).run ⟨.loaded, node⟩ pre = some u → u.Remembers pre :=
    fun pre u hu ↦ Machine.run_induction (P := fun es u ↦ Stack.Remembers u es)
      (Stack.remembers_loaded node) (fun _ _ _ _ _ hes huv ↦ hes.step huv) hu
  constructor
  · intro hbound pre e freed hp u hu hwalks
    exact (hremembers pre u hu).agrees_iff.mp (hbound pre _ hp u hu e freed rfl hwalks)
  · rintro hhistory pre - hp u hu e freed rfl hwalks
    exact (hremembers pre u hu).agrees_iff.mpr (hhistory pre e freed hp u hu hwalks)

/-- A probe in which everything succeeds. -/
def plainProbe (sc ah : ℕ) : ProbeInput := ⟨sc, some ah, (defaultGlobals none).ah, .empty, 0, 0⟩

/-- After a removal and a new probe the timer callback walks the list of the removed device. -/
theorem exists_dangling_walk :
    ∃ t u, (stack .linux).run ⟨.loaded, defaultNode none⟩
        [.probe (plainProbe 1 10), .tx 1, .remove 1, .probe (plainProbe 2 20)] = some t ∧
      t.Walks (.fire ⟨20000000, 20001000⟩ .restart) ∧
      (stack .linux).step t (.unlock (.fire ⟨20000000, 20001000⟩ .restart) .empty) = some u ∧
      t.driver.txbufFff = some 1 ∧ ¬t.driver.Bound 1 ∧ ¬t.driver.Agrees := by
  have heval : ((stack .linux).run ⟨.loaded, defaultNode none⟩
      [.probe (plainProbe 1 10), .tx 1, .remove 1, .probe (plainProbe 2 20)]).any (fun t ↦
        decide (t.driver.txbufFff = some 1 ∧ ¬t.driver.Bound 1 ∧ ((stack .linux).step t
          (.unlock (.fire ⟨20000000, 20001000⟩ .restart) .empty)).isSome = true)) = true := by
    decide +kernel
  obtain ⟨t, ht, hcond⟩ := (Option.any_eq_true _ _).mp heval
  obtain ⟨hnull, hbound, hstep⟩ := of_decide_eq_true hcond
  obtain ⟨u, hu⟩ := Option.isSome_iff_exists.mp hstep
  refine ⟨t, u, ht, Option.isSome_iff_exists.mpr ⟨1, hnull⟩, hu, hnull, hbound, ?_⟩
  rintro ⟨sc, hsc, dev, hdev, hdevsc, -⟩
  exact hbound ⟨dev, hdev, hdevsc.trans (Option.some_inj.mp (hsc.symm.trans hnull))⟩

end Runs

end UcsmaRateControl
