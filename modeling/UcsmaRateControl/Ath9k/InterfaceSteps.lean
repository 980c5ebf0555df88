import UcsmaRateControl.Ath9k.Interfaces

/-!
# The steps of the interfaces

What a step of the machine of the interfaces can do, and what it leaves alone. The association and
the P2P power save touch none of the rest, so the part of the state they have no share in, its
`core`, is a plain function of itself in each callback.
-/

namespace UcsmaRateControl

/-! ## What the driver leaves alone -/

namespace Ifaces

variable {ι : Type*} [DecidableEq ι] {s t : Ifaces ι} {i : ι}

@[simp] theorem setVif_vif (s : Ifaces ι) (i : ι) (v : Vif) :
    (s.setVif i v).vif = Function.update s.vif i v := rfl

@[simp] theorem setVif_interfaces (s : Ifaces ι) (i : ι) (v : Vif) :
    (s.setVif i v).interfaces = s.interfaces := rfl

@[simp] theorem setVif_rtnl (s : Ifaces ι) (i : ι) (v : Vif) : (s.setVif i v).rtnl = s.rtnl := rfl

/-- What neither the association nor the P2P power save has a part in. -/
def core (s : Ifaces ι) : Ifaces ι :=
  { s with
    avp := fun _ ↦ .new
    primStaVif := false
    curbssid := fun _ ↦ 0
    curaid := 0
    associd := (fun _ ↦ 0, 0)
    slottime := 0
    beaconSync := false
    beaconSlottime := none
    p2pPsVif := none
    p2pPsTimer := none }

omit [DecidableEq ι] in
theorem vif_of_core (h : t.core = s.core) : t.vif = s.vif := by
  have hvif : t.core.vif = s.core.vif := by rw [h]
  exact hvif

omit [DecidableEq ι] in
theorem opmode_of_core (h : t.core = s.core) : t.opmode = s.opmode := by
  have hopmode : t.core.opmode = s.core.opmode := by rw [h]
  exact hopmode

omit [DecidableEq ι] in
theorem active_of_core (h : t.core = s.core) : t.active = s.active := by
  have hactive : t.core.active = s.core.active := by rw [h]
  exact hactive

omit [DecidableEq ι] in
theorem core_ite {c : Prop} [Decidable c] {u : Ifaces ι} (ht : t.core = s.core)
    (hu : u.core = s.core) : (if c then t else u).core = s.core := by
  split
  · exact ht
  · exact hu

omit [DecidableEq ι] in
theorem core_foldl {f : Ifaces ι → ι → Ifaces ι} (hf : ∀ s i, (f s i).core = s.core)
    (l : List ι) (s : Ifaces ι) : (l.foldl f s).core = s.core := by
  induction l generalizing s with
  | nil => rfl
  | cons i l ih => rw [List.foldl_cons, ih, hf]

theorem core_ath9kSetAssocState (s : Ifaces ι) (i : ι) :
    (s.ath9kSetAssocState i).core = s.core := core_ite rfl rfl

theorem core_ath9kStaVifIter (s : Ifaces ι) (i : ι) : (s.ath9kStaVifIter i).core = s.core :=
  core_ite rfl (core_ite (core_ath9kSetAssocState s i) rfl)

theorem core_ath9kBssAssocIter (s : Ifaces ι) (i : ι) :
    (s.ath9kBssAssocIter i).core = s.core :=
  core_ite rfl (core_ite (core_ath9kSetAssocState s i) rfl)

/-- What `ath9k_calculate_iter_data` finds. -/
def iterData (s : Ifaces ι) (vif : Option ι) : VifIterData :=
  ath9kCalculateIterData (vif.map s.vif) (s.active.map s.vif)

theorem core_ath9kCalculateSummaryState (s : Ifaces ι) (vif : Option ι) :
    (s.ath9kCalculateSummaryState vif).core = s.core.summarise (s.iterData vif) :=
  core_ite (core_foldl core_ath9kStaVifIter _ _) rfl

theorem core_dropP2p (s : Ifaces ι) (i : ι) : (s.dropP2p i).core = s.core := core_ite rfl rfl

omit [DecidableEq ι] in
theorem core_ath9kUpdateP2pPsTimer (s : Ifaces ι) (avp : Option ι) (tsf : UInt32) :
    (s.ath9kUpdateP2pPsTimer avp tsf).core = s.core := by
  cases avp with
  | none => rfl
  | some i =>
    simp only [ath9kUpdateP2pPsTimer]
    split <;> rfl

theorem core_ath9kUpdateP2pPs (s : Ifaces ι) (C : IfaceConfig) (i : ι) (noa : NoaData)
    (tsf : UInt32) : (s.ath9kUpdateP2pPs C i noa tsf).core = s.core :=
  core_ite rfl (core_ite rfl (core_ath9kUpdateP2pPsTimer _ _ _))

theorem core_ath9kP2pPsTimer (s : Ifaces ι) (p : P2pTimerInput) :
    (s.ath9kP2pPsTimer p).core = s.core := by
  rw [ath9kP2pPsTimer]
  split
  · rfl
  · exact (core_ath9kUpdateP2pPsTimer _ _ _).trans (core_ite rfl rfl)

theorem core_letGo (s : Ifaces ι) (i : ι) : (s.letGo i).core = s.core := core_ite rfl rfl

theorem core_elect (s : Ifaces ι) (i : ι) : (s.elect i).core = s.core :=
  (core_foldl core_ath9kBssAssocIter _ _).trans (core_letGo s i)

theorem core_bssChangedAssoc (s : Ifaces ι) (i : ι) : (s.bssChangedAssoc i).core = s.core :=
  core_ite (core_elect s i) (core_elect s i)

theorem core_ath9kBssInfoChanged (s : Ifaces ι) (C : IfaceConfig) (i : ι) (changed : BssChanged)
    (noa : NoaData) (tsf : UInt32) :
    (s.ath9kBssInfoChanged C i changed noa tsf).core = s.core := by
  have hassoc : (if changed.assoc then s.bssChangedAssoc i else s).core = s.core :=
    core_ite (core_bssChangedAssoc s i) rfl
  have hibss : ∀ u : Ifaces ι, (if changed.ibss then u.bssChangedIbss i else u).core = u.core :=
    fun u ↦ core_ite rfl rfl
  have herp : ∀ u : Ifaces ι,
      (if changed.erpSlot then u.bssChangedErpSlot i else u).core = u.core :=
    fun u ↦ core_ite (core_ite rfl rfl) rfl
  have hbefore := (herp _).trans ((hibss _).trans hassoc)
  exact core_ite ((core_ath9kUpdateP2pPs _ C i noa tsf).trans hbefore) hbefore

/-- Whether `ath9k_add_interface` refuses. -/
def Full (s : Ifaces ι) (C : IfaceConfig) : Prop := C.tx99 = true ∧ s.nvifs ≥ 1

theorem ath9kAddInterface_of_full {C : IfaceConfig} {B : BeaconOps ι} (h : s.Full C) :
    s.ath9kAddInterface C B i = (s, -95) := if_pos h

theorem snd_ath9kAddInterface {C : IfaceConfig} {B : BeaconOps ι} (h : ¬s.Full C) :
    (s.ath9kAddInterface C B i).2 = 0 := congrArg Prod.snd (if_neg h)

omit [DecidableEq ι] in
/-- What is found depends on the interfaces alone. -/
theorem iterData_congr {vif : Option ι} (hi : t.interfaces = s.interfaces) (hv : t.vif = s.vif) :
    t.iterData vif = s.iterData vif := by
  rw [iterData, iterData, active, active, hi, hv]

theorem core_ath9kAddInterface {C : IfaceConfig} {B : BeaconOps ι} (h : ¬s.Full C) :
    (s.ath9kAddInterface C B i).1.core =
      ((s.core.countIn C i).summarise (s.iterData (some i))).assignSlot B i := by
  have hadd : s.ath9kAddInterface C B i =
      (((s.countIn C i).ath9kCalculateSummaryState (some i)).assignSlot B i, 0) := if_neg h
  rw [hadd]
  exact congrArg (assignSlot · B i) (core_ath9kCalculateSummaryState (s.countIn C i) (some i))

theorem core_ath9kChangeInterface {C : IfaceConfig} {B : BeaconOps ι} (h : C.tx99 = false)
    (type : Iftype) (p2p : Bool) :
    (s.ath9kChangeInterface C B i type p2p).1.core =
      (((s.core.removeSlot B i).setVif i { s.vif i with type, p2p }).summarise
        ((s.setVif i { s.vif i with type, p2p }).iterData (some i))).assignSlot B i := by
  have hchange : s.ath9kChangeInterface C B i type p2p =
      ((((s.removeSlot B i).setVif i
        { s.vif i with type, p2p }).ath9kCalculateSummaryState (some i)).assignSlot B i, 0) :=
    if_neg (Bool.eq_false_iff.mp h)
  rw [hchange]
  exact congrArg (assignSlot · B i) (core_ath9kCalculateSummaryState _ (some i))

theorem core_ath9kRemoveInterface (B : BeaconOps ι) (s : Ifaces ι) (i : ι) :
    (s.ath9kRemoveInterface B i).core =
      (s.core.countOut.removeSlot B i).summarise (s.iterData none) := by
  have hdrop : ∀ u : Ifaces ι, u.core = s.core →
      (u.countOut.removeSlot B i).core = s.core.countOut.removeSlot B i :=
    fun u hu ↦ congrArg (fun u : Ifaces ι ↦ u.countOut.removeSlot B i) hu
  have hifaces : (s.dropP2p i).core.interfaces = s.core.interfaces := by rw [core_dropP2p]
  have hvif : (s.dropP2p i).core.vif = s.core.vif := by rw [core_dropP2p]
  have hdata : ((s.dropP2p i).countOut.removeSlot B i).iterData none = s.iterData none :=
    iterData_congr hifaces hvif
  rw [ath9kRemoveInterface, core_ath9kCalculateSummaryState, hdrop _ (core_dropP2p s i), hdata]

/-! ### The interfaces themselves

What the callbacks do to the interfaces, to their list and to the RTNL. -/

omit [DecidableEq ι] in
theorem frame_of_core {u : Ifaces ι} (h : t.core = u) :
    t.vif = u.vif ∧ t.interfaces = u.interfaces ∧ t.rtnl = u.rtnl := by
  subst h
  exact ⟨rfl, rfl, rfl⟩

theorem frame_ath9kAddInterface (s : Ifaces ι) (C : IfaceConfig) (B : BeaconOps ι) (i : ι) :
    (s.ath9kAddInterface C B i).1.vif = s.vif ∧
      (s.ath9kAddInterface C B i).1.interfaces = s.interfaces ∧
      (s.ath9kAddInterface C B i).1.rtnl = s.rtnl := by
  by_cases h : s.Full C
  · rw [ath9kAddInterface_of_full h]
    exact ⟨rfl, rfl, rfl⟩
  · have hframe := frame_of_core (core_ath9kAddInterface (B := B) (i := i) h)
    exact hframe

theorem frame_ath9kChangeInterface {C : IfaceConfig} (B : BeaconOps ι) (h : C.tx99 = false)
    (s : Ifaces ι) (i : ι) (type : Iftype) (p2p : Bool) :
    (s.ath9kChangeInterface C B i type p2p).1.vif =
        Function.update s.vif i { s.vif i with type, p2p } ∧
      (s.ath9kChangeInterface C B i type p2p).1.interfaces = s.interfaces ∧
      (s.ath9kChangeInterface C B i type p2p).1.rtnl = s.rtnl :=
  frame_of_core (core_ath9kChangeInterface h type p2p)

theorem frame_ath9kRemoveInterface (B : BeaconOps ι) (s : Ifaces ι) (i : ι) :
    (s.ath9kRemoveInterface B i).vif = s.vif ∧
      (s.ath9kRemoveInterface B i).interfaces = s.interfaces ∧
      (s.ath9kRemoveInterface B i).rtnl = s.rtnl := by
  have hframe := frame_of_core (core_ath9kRemoveInterface B s i)
  exact hframe

theorem frame_ath9kBssInfoChanged (s : Ifaces ι) (C : IfaceConfig) (i : ι) (changed : BssChanged)
    (noa : NoaData) (tsf : UInt32) :
    (s.ath9kBssInfoChanged C i changed noa tsf).vif = s.vif ∧
      (s.ath9kBssInfoChanged C i changed noa tsf).interfaces = s.interfaces ∧
      (s.ath9kBssInfoChanged C i changed noa tsf).rtnl = s.rtnl := by
  have hframe := frame_of_core (core_ath9kBssInfoChanged s C i changed noa tsf)
  exact hframe

theorem frame_ath9kP2pPsTimer (s : Ifaces ι) (p : P2pTimerInput) :
    (s.ath9kP2pPsTimer p).vif = s.vif ∧ (s.ath9kP2pPsTimer p).interfaces = s.interfaces ∧
      (s.ath9kP2pPsTimer p).rtnl = s.rtnl := by
  have hframe := frame_of_core (core_ath9kP2pPsTimer s p)
  exact hframe

end Ifaces

/-! ## What one step can do -/

/-- The paths a step can take, with what holds before it and the state after it. -/
inductive Ifaces.Moved {ι : Type*} [DecidableEq ι] (C : IfaceConfig) (B : BeaconOps ι)
    (s : Ifaces ι) : IfaceEvent ι → Ifaces ι → Prop
  | create (i : ι) (addr : MacAddr) (type : Iftype) (p2p : Bool) (new : i ∉ s.interfaces) :
      Moved C B s (.create i addr type p2p)
        { (s.setVif i (.new addr type p2p)).setAvp i .new with interfaces := s.interfaces ++ [i] }
  | destroy (i : ι) (out : (s.vif i).inDriver = false) :
      Moved C B s (.destroy i) { s with interfaces := s.interfaces.erase i }
  | setup (i : ι) (addr : MacAddr) (type : Iftype) (p2p : Bool)
      (out : (s.vif i).inDriver = false) :
      Moved C B s (.setup i addr type p2p) (s.setVif i { s.vif i with addr, type, p2p })
  | refuse (i : ι) (full : s.Full C) : Moved C B s (.add i) s
  | add (i : ι) (free : s.rtnl = none) (listed : i ∈ s.interfaces)
      (out : (s.vif i).inDriver = false) (room : ¬s.Full C) :
      Moved C B s (.add i)
        { (s.ath9kAddInterface C B i).1.setVif i { s.vif i with inDriver := true } with
          rtnl := some i }
  | up (i : ι) (held : s.rtnl = some i) :
      Moved C B s (.up i) { s.setVif i { s.vif i with running := true } with rtnl := none }
  | stop (i : ι) (free : s.rtnl = none) (running : (s.vif i).running = true)
      (idle : (s.vif i).conn = .idle) :
      Moved C B s (.stop i) { s.setVif i { s.vif i with running := false } with rtnl := some i }
  | remove (i : ι) (held : s.rtnl = some i) :
      Moved C B s (.remove i)
        { (s.ath9kRemoveInterface B i).setVif i { s.vif i with inDriver := false } with
          rtnl := none }
  | keep (i : ι) (type : Iftype) (p2p : Bool) (tx99 : C.tx99 = true) :
      Moved C B s (.change i type p2p) s
  | change (i : ι) (type : Iftype) (p2p : Bool) (held : s.rtnl = some i) (tx99 : C.tx99 = false) :
      Moved C B s (.change i type p2p) (s.ath9kChangeInterface C B i type p2p).1
  | associate (i : ι) (bssid : MacAddr) (aid : UInt16) (running : (s.vif i).running = true)
      (station : (s.vif i).type = .station) (idle : (s.vif i).conn = .idle) :
      Moved C B s (.associate i bssid aid)
        (s.setVif i { s.vif i with
          conn := .joined
          bssConf := { (s.vif i).bssConf with bssid, aid, assoc := true } })
  | disassociate (i : ι) (joined : (s.vif i).conn = .joined) :
      Moved C B s (.disassociate i)
        (s.setVif i { s.vif i with
          conn := .leaving
          bssConf := { (s.vif i).bssConf with assoc := false } })
  | configure (i : ι) (bssid : MacAddr) (aid : UInt16) (idle : (s.vif i).conn = .idle) :
      Moved C B s (.configure i bssid aid)
        (s.setVif i { s.vif i with bssConf := { (s.vif i).bssConf with bssid, aid } })
  | shortSlot (i : ι) (useShortSlot : Bool) :
      Moved C B s (.shortSlot i useShortSlot)
        (s.setVif i { s.vif i with bssConf := { (s.vif i).bssConf with useShortSlot } })
  | part (i : ι) (changed : Ifaces.BssChanged) (noa : NoaData) (tsf : UInt32)
      (known : (s.vif i).inDriver = true)
      (ibss : changed.ibss = true → (s.vif i).type = .adhoc) (assoc : changed.assoc = true)
      (leaving : (s.vif i).conn = .leaving) :
      Moved C B s (.bssInfoChanged i changed noa tsf)
        ((s.ath9kBssInfoChanged C i changed noa tsf).setVif i { s.vif i with conn := .idle })
  | inform (i : ι) (changed : Ifaces.BssChanged) (noa : NoaData) (tsf : UInt32)
      (known : (s.vif i).inDriver = true)
      (ibss : changed.ibss = true → (s.vif i).type = .adhoc)
      (stays : ¬(changed.assoc = true ∧ (s.vif i).conn = .leaving)) :
      Moved C B s (.bssInfoChanged i changed noa tsf) (s.ath9kBssInfoChanged C i changed noa tsf)
  | p2pPsTimer (p : Ifaces.P2pTimerInput) : Moved C B s (.p2pPsTimer p) (s.ath9kP2pPsTimer p)
  | beacon : Moved C B s .beacon { s with beaconSync := false }

section Steps

variable {ι : Type*} [DecidableEq ι] {C : IfaceConfig} {B : BeaconOps ι} {s t : Ifaces ι}
  {e : IfaceEvent ι}

/-- **The inversion of a step.** -/
theorem Ifaces.Moved.of_step (h : (ifaces C B).step s e = some t) : s.Moved C B e t := by
  cases e with
  | create i addr type p2p =>
    obtain ⟨hc, ⟨⟩⟩ := Option.ite_none_left_eq_some.mp h
    exact .create i addr type p2p hc
  | destroy i =>
    obtain ⟨hc, ⟨⟩⟩ := Option.ite_none_right_eq_some.mp h
    exact .destroy i hc.2
  | setup i addr type p2p =>
    obtain ⟨hc, ⟨⟩⟩ := Option.ite_none_right_eq_some.mp h
    exact .setup i addr type p2p hc
  | add i =>
    obtain ⟨⟨hfree, hlisted, hout⟩, heq⟩ := Option.ite_none_right_eq_some.mp h
    rw [← Option.some_inj.mp heq]
    by_cases hfull : s.Full C
    · rw [Ifaces.ath9kAddInterface_of_full hfull]
      exact .refuse i hfull
    · rw [if_pos (Ifaces.snd_ath9kAddInterface hfull), (Ifaces.frame_ath9kAddInterface s C B i).1]
      exact .add i hfree hlisted hout hfull
  | up i =>
    obtain ⟨hc, ⟨⟩⟩ := Option.ite_none_right_eq_some.mp h
    exact .up i hc
  | stop i =>
    obtain ⟨⟨hfree, hrun, hidle⟩, ⟨⟩⟩ := Option.ite_none_right_eq_some.mp h
    exact .stop i hfree hrun hidle
  | remove i =>
    obtain ⟨hc, heq⟩ := Option.ite_none_right_eq_some.mp h
    rw [← Option.some_inj.mp heq, (Ifaces.frame_ath9kRemoveInterface B s i).1]
    exact .remove i hc
  | change i type p2p =>
    obtain ⟨hc, heq⟩ := Option.ite_none_right_eq_some.mp h
    rw [← Option.some_inj.mp heq]
    cases htx : C.tx99 with
    | true =>
      rw [Ifaces.ath9kChangeInterface, if_pos htx]
      exact .keep i type p2p htx
    | false => exact .change i type p2p hc htx
  | associate i bssid aid =>
    obtain ⟨⟨hrun, hsta, hidle⟩, ⟨⟩⟩ := Option.ite_none_right_eq_some.mp h
    exact .associate i bssid aid hrun hsta hidle
  | disassociate i =>
    obtain ⟨hc, ⟨⟩⟩ := Option.ite_none_right_eq_some.mp h
    exact .disassociate i hc
  | configure i bssid aid =>
    obtain ⟨hc, ⟨⟩⟩ := Option.ite_none_right_eq_some.mp h
    exact .configure i bssid aid hc
  | shortSlot i useShortSlot =>
    obtain ⟨⟩ := h
    exact .shortSlot i useShortSlot
  | bssInfoChanged i changed noa tsf =>
    obtain ⟨⟨hknown, hibss⟩, heq⟩ := Option.ite_none_right_eq_some.mp h
    rw [← Option.some_inj.mp heq]
    by_cases hleave : changed.assoc = true ∧ (s.vif i).conn = .leaving
    · rw [if_pos hleave, (Ifaces.frame_ath9kBssInfoChanged s C i changed noa tsf).1]
      exact .part i changed noa tsf hknown hibss hleave.1 hleave.2
    · rw [if_neg hleave]
      exact .inform i changed noa tsf hknown hibss hleave
  | p2pPsTimer p =>
    obtain ⟨⟩ := h
    exact .p2pPsTimer p
  | beacon =>
    obtain ⟨⟩ := h
    exact .beacon

/-! ## The rules of `mac80211` -/

/-- What holds of an interface, given whether it is listed and whether it is being opened, stopped
or changed. -/
structure Vif.Ok (v : Vif) (isListed isHeld : Prop) : Prop where
  listed : v.inDriver = true → isListed
  known : v.running = true → v.inDriver = true
  held : isHeld → v.inDriver = true ∧ v.running = false
  settled : v.inDriver = true → ¬isHeld → v.running = true
  conn : v.conn ≠ .idle → v.running = true ∧ v.type = .station
  assoc : v.bssConf.assoc = true ↔ v.conn = .joined

/-- What holds of the interfaces at any time. -/
def Ifaces.Managed (s : Ifaces ι) : Prop :=
  ∀ i, (s.vif i).Ok (i ∈ s.interfaces) (s.rtnl = some i)

/-- A step that concerns one interface. -/
theorem Ifaces.Managed.update (h : s.Managed) {i : ι} {v : Vif}
    (hvif : t.vif = Function.update s.vif i v)
    (hlisted : ∀ j, j ≠ i → (j ∈ t.interfaces ↔ j ∈ s.interfaces))
    (hheld : ∀ j, j ≠ i → (t.rtnl = some j ↔ s.rtnl = some j))
    (hv : v.Ok (i ∈ t.interfaces) (t.rtnl = some i)) : t.Managed := by
  intro j
  rw [hvif]
  by_cases hj : j = i
  · subst hj
    rwa [Function.update_self]
  · rw [Function.update_of_ne hj, hlisted j hj, hheld j hj]
    exact h j

omit [DecidableEq ι] in
/-- A step that leaves the interfaces as they are. -/
theorem Ifaces.Managed.frame (h : s.Managed)
    (hframe : t.vif = s.vif ∧ t.interfaces = s.interfaces ∧ t.rtnl = s.rtnl) : t.Managed := by
  obtain ⟨hvif, hifaces, hrtnl⟩ := hframe
  intro i
  rw [hvif, hifaces, hrtnl]
  exact h i

theorem Ifaces.Managed.step (h : s.Managed) (hst : s.Moved C B e t) : t.Managed := by
  cases hst with
  | create i addr type p2p new =>
    obtain ⟨hlisted, hknown, hheld, hsettled, hconn, hassoc⟩ := h i
    have hout : s.rtnl ≠ some i := fun hi ↦ new (hlisted (hheld hi).1)
    refine h.update rfl (by simp_all) (fun _ _ ↦ Iff.rfl) ?_
    exact ⟨nofun, nofun, fun hi ↦ absurd hi hout, nofun, fun hc ↦ absurd rfl hc, by simp [Vif.new]⟩
  | destroy i out =>
    intro j
    obtain ⟨hlisted, hknown, hheld, hsettled, hconn, hassoc⟩ := h j
    refine ⟨fun hin ↦ ?_, hknown, hheld, hsettled, hconn, hassoc⟩
    have hji : j ≠ i := fun hji ↦ Bool.eq_false_iff.mp (hji ▸ out) hin
    exact (List.mem_erase_of_ne hji).mpr (hlisted hin)
  | setup i addr type p2p out =>
    obtain ⟨hlisted, hknown, hheld, hsettled, hconn, hassoc⟩ := h i
    refine h.update rfl (fun _ _ ↦ Iff.rfl) (fun _ _ ↦ Iff.rfl)
      ⟨hlisted, hknown, hheld, hsettled, fun hc ↦ ?_, hassoc⟩
    exact absurd (hknown (hconn hc).1) (Bool.eq_false_iff.mp out)
  | refuse | keep | beacon => exact h
  | add i free listed out room =>
    obtain ⟨hlisted, hknown, hheld, hsettled, hconn, hassoc⟩ := h i
    obtain ⟨hvif, hifaces, -⟩ := Ifaces.frame_ath9kAddInterface s C B i
    have hrun : (s.vif i).running = false := by
      rw [Bool.eq_false_iff]
      exact fun hrun ↦ Bool.eq_false_iff.mp out (hknown hrun)
    exact h.update (congrArg (Function.update · i _) hvif) (by simp [hifaces])
      (fun j hj ↦ by simp [free, hj.symm])
      ⟨fun _ ↦ by simpa [hifaces] using listed, fun _ ↦ rfl, fun _ ↦ ⟨rfl, hrun⟩,
        fun _ hno ↦ absurd rfl hno, hconn, hassoc⟩
  | up i held =>
    obtain ⟨hlisted, hknown, hheld, hsettled, hconn, hassoc⟩ := h i
    exact h.update rfl (fun _ _ ↦ Iff.rfl) (fun j hj ↦ by simp [held, hj.symm])
      ⟨hlisted, fun _ ↦ (hheld held).1, nofun, fun _ _ ↦ rfl, fun hc ↦ ⟨rfl, (hconn hc).2⟩, hassoc⟩
  | stop i free running idle =>
    obtain ⟨hlisted, hknown, hheld, hsettled, hconn, hassoc⟩ := h i
    exact h.update rfl (fun _ _ ↦ Iff.rfl) (fun j hj ↦ by simp [free, hj.symm])
      ⟨hlisted, nofun, fun _ ↦ ⟨hknown running, rfl⟩, fun _ hno ↦ absurd rfl hno,
        fun hc ↦ absurd idle hc, hassoc⟩
  | remove i held =>
    obtain ⟨hlisted, hknown, hheld, hsettled, hconn, hassoc⟩ := h i
    obtain ⟨hvif, hifaces, -⟩ := Ifaces.frame_ath9kRemoveInterface B s i
    refine h.update (congrArg (Function.update · i _) hvif) (by simp [hifaces])
      (fun j hj ↦ by simp [held, hj.symm]) ⟨nofun, fun hrun ↦ ?_, nofun, nofun, hconn, hassoc⟩
    exact absurd hrun (Bool.eq_false_iff.mp (hheld held).2)
  | change i type p2p held tx99 =>
    obtain ⟨hlisted, hknown, hheld, hsettled, hconn, hassoc⟩ := h i
    obtain ⟨hvif, hifaces, hrtnl⟩ := Ifaces.frame_ath9kChangeInterface B tx99 s i type p2p
    refine h.update hvif (by simp [hifaces]) (by simp [hrtnl]) ?_
    rw [hifaces, hrtnl]
    refine ⟨hlisted, hknown, hheld, hsettled, fun hc ↦ ?_, hassoc⟩
    exact absurd (hconn hc).1 (Bool.eq_false_iff.mp (hheld held).2)
  | associate i bssid aid running station idle =>
    obtain ⟨hlisted, hknown, hheld, hsettled, hconn, hassoc⟩ := h i
    exact h.update rfl (fun _ _ ↦ Iff.rfl) (fun _ _ ↦ Iff.rfl)
      ⟨hlisted, hknown, hheld, hsettled, fun _ ↦ ⟨running, station⟩, iff_of_true rfl rfl⟩
  | disassociate i joined =>
    obtain ⟨hlisted, hknown, hheld, hsettled, hconn, hassoc⟩ := h i
    have hne : (s.vif i).conn ≠ .idle := by rw [joined]; exact nofun
    exact h.update rfl (fun _ _ ↦ Iff.rfl) (fun _ _ ↦ Iff.rfl)
      ⟨hlisted, hknown, hheld, hsettled, fun _ ↦ hconn hne, iff_of_false nofun nofun⟩
  | configure i bssid aid idle =>
    obtain ⟨hlisted, hknown, hheld, hsettled, hconn, hassoc⟩ := h i
    exact h.update rfl (fun _ _ ↦ Iff.rfl) (fun _ _ ↦ Iff.rfl)
      ⟨hlisted, hknown, hheld, hsettled, hconn, hassoc⟩
  | shortSlot i useShortSlot =>
    obtain ⟨hlisted, hknown, hheld, hsettled, hconn, hassoc⟩ := h i
    exact h.update rfl (fun _ _ ↦ Iff.rfl) (fun _ _ ↦ Iff.rfl)
      ⟨hlisted, hknown, hheld, hsettled, hconn, hassoc⟩
  | part i changed noa tsf known ibss assoc leaving =>
    obtain ⟨hlisted, hknown, hheld, hsettled, hconn, hassoc⟩ := h i
    obtain ⟨hvif, hifaces, hrtnl⟩ := Ifaces.frame_ath9kBssInfoChanged s C i changed noa tsf
    have hno : (s.vif i).bssConf.assoc ≠ true := fun ha ↦ nomatch (hassoc.mp ha).symm.trans leaving
    refine h.update (congrArg (Function.update · i _) hvif) (by simp [hifaces]) (by simp [hrtnl]) ?_
    rw [Ifaces.setVif_interfaces, Ifaces.setVif_rtnl, hifaces, hrtnl]
    exact ⟨hlisted, hknown, hheld, hsettled, fun hc ↦ absurd rfl hc, iff_of_false hno nofun⟩
  | inform i changed noa tsf => exact h.frame (Ifaces.frame_ath9kBssInfoChanged _ _ _ _ _ _)
  | p2pPsTimer p => exact h.frame (Ifaces.frame_ath9kP2pPsTimer _ _)

/-- Nothing has been added to the driver yet. -/
structure Ifaces.Fresh (s : Ifaces ι) : Prop where
  rtnl : s.rtnl = none
  vif : ∀ i, (s.vif i).inDriver = false ∧ (s.vif i).running = false ∧ (s.vif i).conn = .idle ∧
    (s.vif i).bssConf.assoc = false
  avp : ∀ i, (s.avp i).primaryStaVif = false
  primStaVif : s.primStaVif = false
  nvifs : s.nvifs = 0
  tx99Vif : s.tx99Vif = none
  bslot : ∀ k, s.beacons.bslot k = none
  p2pPsVif : s.p2pPsVif = none
  p2pPsTimer : s.p2pPsTimer = none

omit [DecidableEq ι] in
theorem Ifaces.Fresh.managed (h : s.Fresh) : s.Managed := by
  intro i
  obtain ⟨hin, hrun, hidle, hassoc⟩ := h.vif i
  constructor <;> simp [hin, hrun, hidle, hassoc, h.rtnl]

theorem Ifaces.Fresh.managed_of_run (hs : s.Fresh) {es : List (IfaceEvent ι)}
    (h : (ifaces C B).run s es = some t) : t.Managed :=
  Machine.invariant (P := Ifaces.Managed) (fun _ _ _ hu huv ↦ hu.step (.of_step huv)) hs.managed h

end Steps

end UcsmaRateControl
