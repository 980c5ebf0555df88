import Mathlib.Logic.Function.Basic
import UcsmaRateControl.Machine.Run

/-!
# Virtual interfaces

The driver serves several interfaces of `mac80211` with one chip. Whenever one of them comes, goes
or changes its type it goes over all active ones and works out from them what the chip has to be:
its address and the mask of the addresses it answers to, its mode, and the interrupt it needs. One
of the stations among them is the primary one, whose access point the chip follows.

An interface that sends beacons gets one of the beacon slots, of which there are eight. The
functions that assign and remove them are not part of the repository: they are a parameter, with
what is relied on of them.

`mac80211` opens, stops and changes interfaces one at a time, under the RTNL: an interface is added
to the driver before it is marked as running, and stops running before it is removed or changed. In
between the other callbacks may come. It tells the driver of an association before it stops the
interface, and leaves the parameters of an association alone until then. These rules are the guards
of the machine; the driver itself checks none of them.
-/

namespace UcsmaRateControl

/-! ## The data -/

/-- `u8 addr[ETH_ALEN]`. -/
abbrev MacAddr := Fin 6 → UInt8

/-- `enum nl80211_iftype`, as far as the driver tells its values apart. -/
inductive Iftype
  | adhoc
  | station
  | ap
  | wds
  | meshPoint
  | other
deriving DecidableEq

/-- `struct ieee80211_bss_conf`, as far as it is read. -/
structure BssConf where
  bssid : MacAddr
  aid : UInt16
  assoc : Bool
  useShortSlot : Bool

/-- `struct ieee80211_noa_data`, as far as the driver reads it. -/
structure NoaData where
  nextTsf : UInt32
  hasNextTsf : Bool
  absent : Bool

/-- How far `mac80211` has got with the association of an interface. -/
inductive Conn
  | idle
  | joined
  /-- The association has ended, and the driver has not been told yet. -/
  | leaving
deriving DecidableEq

/-- `struct ieee80211_vif`, with what `mac80211` knows about the interface. -/
structure Vif where
  addr : MacAddr
  type : Iftype
  p2p : Bool
  bssConf : BssConf
  /-- Whether the interface has been added to the driver. -/
  inDriver : Bool
  /-- Whether it is active. -/
  running : Bool
  conn : Conn

/-- `struct ath_vif`, the driver's part of an interface. -/
structure AthVif where
  primaryStaVif : Bool
  noa : NoaData

/-- When the timer of the P2P power save was set, and for which time. -/
structure P2pArm where
  tsf : UInt32
  target : UInt32

/-! ### The beacon slots -/

/-- `ATH_BCBUF`. -/
abbrev athBcbuf : ℕ := 8

/-- The table of the beacon slots, and what the interfaces remember of it. -/
structure BeaconSlots (ι : Type*) where
  bslot : Fin athBcbuf → Option ι
  /-- `av_bslot` of the interfaces. -/
  avBslot : ι → Fin athBcbuf

/-- What is relied on of the functions that manage the beacon slots. Nothing is said of an interface
for which no slot is free. -/
structure BeaconOps (ι : Type*) [DecidableEq ι] where
  /-- `ath9k_beacon_assign_slot`. -/
  assign : BeaconSlots ι → ι → BeaconSlots ι
  /-- `ath9k_beacon_remove_slot`. -/
  remove : BeaconSlots ι → ι → BeaconSlots ι
  /-- Where a slot is free, the interface gets a free one and remembers it. -/
  assign_of_free : ∀ b i, (∃ k, b.bslot k = none) → ∃ k, b.bslot k = none ∧
    assign b i = ⟨Function.update b.bslot k (some i), Function.update b.avBslot i k⟩
  /-- An interface that has the slot it remembers gives it up. -/
  remove_of_has : ∀ b i, b.bslot (b.avBslot i) = some i →
    remove b i = ⟨Function.update b.bslot (b.avBslot i) none, b.avBslot⟩

/-- The interfaces, and the driver as far as it serves them. -/
structure Ifaces (ι : Type*) where
  /-- The interfaces there are, in the order in which they are visited. -/
  interfaces : List ι
  vif : ι → Vif
  /-- `drv_priv` of the interfaces. -/
  avp : ι → AthVif
  /-- The interface that is being opened, stopped or changed. -/
  rtnl : Option ι
  macaddr : MacAddr
  bssidmask : MacAddr
  curbssid : MacAddr
  curaid : UInt16
  /-- `ATH_OP_PRIM_STA_VIF`. -/
  primStaVif : Bool
  opmode : Iftype
  /-- `ath9k_hw_set_tsfadjust`. -/
  tsfadjust : Bool
  /-- `ATH9K_INT_TSFOOR` in `imask`. -/
  tsfoor : Bool
  slottime : ℕ
  /-- What `ath9k_hw_write_associd` has written. -/
  associd : MacAddr × UInt16
  nvifs : Int16
  tx99Vif : Option ι
  /-- `PS_BEACON_SYNC`. -/
  beaconSync : Bool
  /-- `beacon.slottime`, where `beacon.updateslot` says that it is to be taken over. -/
  beaconSlottime : Option ℕ
  beacons : BeaconSlots ι
  p2pPsVif : Option ι
  /-- `p2p_ps_timer`, as it is set. -/
  p2pPsTimer : Option P2pArm

/-- What is fixed when the driver is built and probed. -/
structure IfaceConfig where
  /-- `CPTCFG_ATH9K_TX99`. -/
  tx99 : Bool
  /-- Whether `p2p_ps_timer` has been allocated. -/
  p2pPsTimer : Bool

/-- `struct ath9k_vif_iter_data`. -/
structure VifIterData where
  hwMacaddr : MacAddr
  mask : MacAddr
  hasHwMacaddr : Bool
  naps : ℕ
  nmeshes : ℕ
  nstations : ℕ
  nwds : ℕ
  nadhocs : ℕ

/-! ## Going over the interfaces -/

/-- `ath9k_uses_beacons`. -/
def ath9kUsesBeacons : Iftype → Bool
  | .ap | .adhoc | .meshPoint => true
  | _ => false

/-- The addresses in `ath9k_vif_iter`: the first one is taken over, the others narrow the mask. -/
def VifIterData.visitAddr (d : VifIterData) (mac : MacAddr) : VifIterData :=
  if d.hasHwMacaddr then
    { d with mask := fun i ↦ d.mask i &&& ~~~(d.hwMacaddr i ^^^ mac i) }
  else { d with hwMacaddr := mac, hasHwMacaddr := true }

/-- The types in `ath9k_vif_iter`. -/
def VifIterData.visitType (d : VifIterData) : Iftype → VifIterData
  | .ap => { d with naps := d.naps + 1 }
  | .station => { d with nstations := d.nstations + 1 }
  | .adhoc => { d with nadhocs := d.nadhocs + 1 }
  | .meshPoint => { d with nmeshes := d.nmeshes + 1 }
  | .wds => { d with nwds := d.nwds + 1 }
  | .other => d

/-- `ath9k_vif_iter`. -/
def ath9kVifIter (d : VifIterData) (vif : Vif) : VifIterData :=
  (d.visitAddr vif.addr).visitType vif.type

/-- What `ath9k_calculate_iter_data` starts from. -/
def VifIterData.init : VifIterData where
  hwMacaddr := fun _ ↦ 0
  mask := fun _ ↦ 0xff
  hasHwMacaddr := false
  naps := 0
  nmeshes := 0
  nstations := 0
  nwds := 0
  nadhocs := 0

/-- What `ath9k_calculate_iter_data` finds: it visits the interface it is given, if any, and then
the active ones. -/
def ath9kCalculateIterData (vif : Option Vif) (active : List Vif) : VifIterData :=
  let d := match vif with
    | some v => ath9kVifIter .init v
    | none => .init
  active.foldl ath9kVifIter d

/-- The mode that `ath9k_calculate_summary_state` chooses. -/
def VifIterData.opmode (d : VifIterData) : Iftype :=
  if d.naps > 0 then .ap
  else if d.nmeshes > 0 then .meshPoint
  else if d.nwds > 0 then .ap
  else if d.nadhocs > 0 then .adhoc
  else .station

namespace Ifaces

variable {ι : Type*} [DecidableEq ι] (s : Ifaces ι)

/-- The interfaces that `ieee80211_iterate_active_interfaces_atomic` visits. -/
def active : List ι := s.interfaces.filter fun i ↦ (s.vif i).running

/-- Change one interface. -/
def setVif (i : ι) (v : Vif) : Ifaces ι := { s with vif := Function.update s.vif i v }

/-- Change the driver's part of one interface. -/
def setAvp (i : ι) (v : AthVif) : Ifaces ι := { s with avp := Function.update s.avp i v }

/-- `ath9k_hw_write_associd`. -/
def ath9kHwWriteAssocid : Ifaces ι := { s with associd := (s.curbssid, s.curaid) }

/-- `ath9k_set_assoc_state`. -/
def ath9kSetAssocState (i : ι) : Ifaces ι :=
  let s := { s with primStaVif := true }
  let s := s.setAvp i { s.avp i with primaryStaVif := true }
  if s.opmode ≠ .station then s
  else
    let s := { s with
      curbssid := (s.vif i).bssConf.bssid
      curaid := (s.vif i).bssConf.aid }
    let s := s.ath9kHwWriteAssocid
    { s with beaconSync := true }

/-- `ath9k_sta_vif_iter`. -/
def ath9kStaVifIter (i : ι) : Ifaces ι :=
  if (s.vif i).type ≠ .station then s
  else if (s.avp i).primaryStaVif then s.ath9kSetAssocState i
  else s

/-- `ath9k_bss_assoc_iter`. -/
def ath9kBssAssocIter (i : ι) : Ifaces ι :=
  if s.primStaVif then s
  else if (s.vif i).bssConf.assoc then s.ath9kSetAssocState i
  else s

/-- What `ath9k_calculate_summary_state` makes of the interfaces it has found. -/
def summarise (d : VifIterData) : Ifaces ι :=
  { s with
    macaddr := d.hwMacaddr
    bssidmask := d.mask
    tsfadjust := decide (d.naps > 0)
    opmode := d.opmode
    tsfoor := decide (d.nstations + d.nadhocs + d.nmeshes > 0) }

/-- `ath9k_calculate_summary_state`. -/
def ath9kCalculateSummaryState (vif : Option ι) : Ifaces ι :=
  let oldOpmode := s.opmode
  let s := s.summarise (ath9kCalculateIterData (vif.map s.vif) (s.active.map s.vif))
  if s.opmode = .station ∧ oldOpmode = .ap ∧ s.primStaVif = true then
    s.active.foldl ath9kStaVifIter s
  else s

/-! ## The P2P power save -/

/-- `ath9k_update_p2p_ps_timer`. The clock of the chip and the target are compared as signed
numbers, which wrap around. -/
def ath9kUpdateP2pPsTimer (avp : Option ι) (tsf : UInt32) : Ifaces ι :=
  match avp with
  | none => s
  | some i =>
    let noa := (s.avp i).noa
    if !noa.hasNextTsf then s
    else
      let target := noa.nextTsf.toInt32
      let target := if noa.absent then target else target - 1000
      let target := if target - tsf.toInt32 < 1000 then tsf.toInt32 + 1000 else target
      { s with p2pPsTimer := some ⟨tsf, target.toUInt32⟩ }

/-- `ath9k_update_p2p_ps`, with what `ieee80211_parse_p2p_noa` finds and the clock when the timer is
set. -/
def ath9kUpdateP2pPs (C : IfaceConfig) (i : ι) (noa : NoaData) (tsf : UInt32) : Ifaces ι :=
  if !C.p2pPsTimer then s
  else if (s.vif i).type ≠ .station ∨ (s.vif i).p2p = false then s
  else
    let s := { s with p2pPsVif := some i }
    let s := s.setAvp i { s.avp i with noa }
    s.ath9kUpdateP2pPsTimer (some i) tsf

/-- What `ath9k_p2p_ps_timer` reads from the clock of the chip, and what
`ieee80211_update_p2p_noa` leaves. -/
structure P2pTimerInput where
  tsf : UInt32
  noa : NoaData
  armed : UInt32

/-- `ath9k_p2p_ps_timer`, up to the queues of the access point. -/
def ath9kP2pPsTimer (p : P2pTimerInput) : Ifaces ι :=
  match s.p2pPsVif with
  | none => s
  | some i =>
    let noa := (s.avp i).noa
    let tsf := if noa.absent then p.tsf else p.tsf + 1000
    let s :=
      if noa.hasNextTsf = false ∨ noa.nextTsf - tsf > 0x80000000 then
        s.setAvp i { s.avp i with noa := p.noa }
      else s
    s.ath9kUpdateP2pPsTimer (some i) p.armed

/-! ## The callbacks -/

/-- An interface that uses beacons is given a slot. -/
def assignSlot (B : BeaconOps ι) (i : ι) : Ifaces ι :=
  { s with
    beacons := if ath9kUsesBeacons (s.vif i).type then B.assign s.beacons i else s.beacons }

/-- An interface that uses beacons gives up its slot. -/
def removeSlot (B : BeaconOps ι) (i : ι) : Ifaces ι :=
  { s with
    beacons := if ath9kUsesBeacons (s.vif i).type then B.remove s.beacons i else s.beacons }

/-- The interface is counted, and is the one that transmits in TX99 mode. -/
def countIn (C : IfaceConfig) (i : ι) : Ifaces ι :=
  { s with tx99Vif := if C.tx99 then some i else s.tx99Vif, nvifs := s.nvifs + 1 }

/-- The interface is no longer counted. -/
def countOut : Ifaces ι := { s with nvifs := s.nvifs - 1, tx99Vif := none }

/-- The P2P power save lets go of an interface that is being removed. -/
def dropP2p (i : ι) : Ifaces ι :=
  if s.p2pPsVif = some i then { s with p2pPsVif := none }.ath9kUpdateP2pPsTimer none 0 else s

/-- `ath9k_add_interface`. -/
def ath9kAddInterface (C : IfaceConfig) (B : BeaconOps ι) (i : ι) : Ifaces ι × Int32 :=
  if C.tx99 = true ∧ s.nvifs ≥ 1 then (s, -95)
  else
    let s := s.countIn C i
    let s := s.ath9kCalculateSummaryState (some i)
    (s.assignSlot B i, 0)

/-- `ath9k_change_interface`. -/
def ath9kChangeInterface (C : IfaceConfig) (B : BeaconOps ι) (i : ι) (newType : Iftype)
    (p2p : Bool) : Ifaces ι × Int32 :=
  if C.tx99 then (s, -95)
  else
    let s := s.removeSlot B i
    let s := s.setVif i { s.vif i with type := newType, p2p }
    let s := s.ath9kCalculateSummaryState (some i)
    (s.assignSlot B i, 0)

/-- `ath9k_remove_interface`. -/
def ath9kRemoveInterface (B : BeaconOps ι) (i : ι) : Ifaces ι :=
  let s := s.dropP2p i
  let s := s.countOut
  let s := s.removeSlot B i
  s.ath9kCalculateSummaryState none

/-- The bits of `changed` that `ath9k_bss_info_changed` looks at, without those of the beacons. -/
structure BssChanged where
  assoc : Bool
  ibss : Bool
  erpSlot : Bool
  p2pPs : Bool

/-- `BSS_CHANGED_ASSOC` lets go of a primary station whose association has ended. -/
def letGo (i : ι) : Ifaces ι :=
  if (s.avp i).primaryStaVif = true ∧ (s.vif i).bssConf.assoc = false then
    { s with primStaVif := false }.setAvp i { s.avp i with primaryStaVif := false }
  else s

/-- Then it looks for another one. -/
def elect (i : ι) : Ifaces ι :=
  let s := s.letGo i
  s.active.foldl ath9kBssAssocIter s

/-- `BSS_CHANGED_ASSOC` in `ath9k_bss_info_changed`. -/
def bssChangedAssoc (i : ι) : Ifaces ι :=
  let s := s.elect i
  if s.primStaVif = false ∧ s.opmode = .station then
    { s with curbssid := fun _ ↦ 0, curaid := 0 }.ath9kHwWriteAssocid
  else s

/-- `BSS_CHANGED_IBSS` in `ath9k_bss_info_changed`. -/
def bssChangedIbss (i : ι) : Ifaces ι :=
  { s with
    curbssid := (s.vif i).bssConf.bssid
    curaid := (s.vif i).bssConf.aid }.ath9kHwWriteAssocid

/-- `BSS_CHANGED_ERP_SLOT` in `ath9k_bss_info_changed`. -/
def bssChangedErpSlot (i : ι) : Ifaces ι :=
  let slottime := if (s.vif i).bssConf.useShortSlot then 9 else 20
  if (s.vif i).type = .ap then { s with beaconSlottime := some slottime }
  else { s with slottime }

/-- `ath9k_bss_info_changed`, with what a change of the P2P power save finds. -/
def ath9kBssInfoChanged (C : IfaceConfig) (i : ι) (changed : BssChanged) (noa : NoaData)
    (tsf : UInt32) : Ifaces ι :=
  let s := if changed.assoc then s.bssChangedAssoc i else s
  let s := if changed.ibss then s.bssChangedIbss i else s
  let s := if changed.erpSlot then s.bssChangedErpSlot i else s
  if changed.p2pPs = true ∧ s.beaconSync = false then s.ath9kUpdateP2pPs C i noa tsf else s

end Ifaces

/-! ## The machine -/

/-- What can happen to the interfaces. -/
inductive IfaceEvent (ι : Type*)
  /-- An interface is created. -/
  | create (i : ι) (addr : MacAddr) (type : Iftype) (p2p : Bool)
  | destroy (i : ι)
  /-- The address or the type of an interface is set that the driver does not know. -/
  | setup (i : ι) (addr : MacAddr) (type : Iftype) (p2p : Bool)
  /-- An interface is opened: the driver is asked. -/
  | add (i : ι)
  /-- The interface that was opened or changed is active from now on. -/
  | up (i : ι)
  /-- An interface is no longer active, and is going to be removed or changed. -/
  | stop (i : ι)
  | remove (i : ι)
  | change (i : ι) (type : Iftype) (p2p : Bool)
  /-- A station has associated; the driver has not been told yet. -/
  | associate (i : ι) (bssid : MacAddr) (aid : UInt16)
  /-- The association has ended; the driver has not been told yet. -/
  | disassociate (i : ι)
  /-- The parameters change of an interface that has no association. -/
  | configure (i : ι) (bssid : MacAddr) (aid : UInt16)
  | shortSlot (i : ι) (useShortSlot : Bool)
  /-- The driver is told what has changed. -/
  | bssInfoChanged (i : ι) (changed : Ifaces.BssChanged) (noa : NoaData) (tsf : UInt32)
  | p2pPsTimer (p : Ifaces.P2pTimerInput)
  /-- The beacon that the driver waits for has come. -/
  | beacon

/-- An interface as `mac80211` creates it. -/
def Vif.new (addr : MacAddr) (type : Iftype) (p2p : Bool) : Vif where
  addr := addr
  type := type
  p2p := p2p
  bssConf := ⟨fun _ ↦ 0, 0, false, false⟩
  inDriver := false
  running := false
  conn := .idle

/-- The driver's part of an interface that has just been created. -/
def AthVif.new : AthVif := ⟨false, ⟨0, false, false⟩⟩

/-- The machine of the interfaces. -/
def ifaces {ι : Type*} [DecidableEq ι] (C : IfaceConfig) (B : BeaconOps ι) :
    Machine (Ifaces ι) (IfaceEvent ι) where
  step s
    | .create i addr type p2p =>
      if i ∈ s.interfaces then none
      else
        let s := (s.setVif i (.new addr type p2p)).setAvp i .new
        some { s with interfaces := s.interfaces ++ [i] }
    | .destroy i =>
      if i ∈ s.interfaces ∧ (s.vif i).inDriver = false then
        some { s with interfaces := s.interfaces.erase i }
      else none
    | .setup i addr type p2p =>
      if (s.vif i).inDriver = false then some (s.setVif i { s.vif i with addr, type, p2p })
      else none
    | .add i =>
      if s.rtnl = none ∧ i ∈ s.interfaces ∧ (s.vif i).inDriver = false then
        let r := s.ath9kAddInterface C B i
        some (if r.2 = 0 then
          { r.1.setVif i { r.1.vif i with inDriver := true } with rtnl := some i } else r.1)
      else none
    | .up i =>
      if s.rtnl = some i then
        some { s.setVif i { s.vif i with running := true } with rtnl := none }
      else none
    | .stop i =>
      if s.rtnl = none ∧ (s.vif i).running = true ∧ (s.vif i).conn = .idle then
        some { s.setVif i { s.vif i with running := false } with rtnl := some i }
      else none
    | .remove i =>
      if s.rtnl = some i then
        let t := s.ath9kRemoveInterface B i
        some { t.setVif i { t.vif i with inDriver := false } with rtnl := none }
      else none
    | .change i type p2p =>
      if s.rtnl = some i then some (s.ath9kChangeInterface C B i type p2p).1 else none
    | .associate i bssid aid =>
      if (s.vif i).running = true ∧ (s.vif i).type = .station ∧ (s.vif i).conn = .idle then
        let bssConf := { (s.vif i).bssConf with bssid, aid, assoc := true }
        some (s.setVif i { s.vif i with conn := .joined, bssConf })
      else none
    | .disassociate i =>
      if (s.vif i).conn = .joined then
        let bssConf := { (s.vif i).bssConf with assoc := false }
        some (s.setVif i { s.vif i with conn := .leaving, bssConf })
      else none
    | .configure i bssid aid =>
      if (s.vif i).conn = .idle then
        let bssConf := { (s.vif i).bssConf with bssid, aid }
        some (s.setVif i { s.vif i with bssConf })
      else none
    | .shortSlot i useShortSlot =>
      let bssConf := { (s.vif i).bssConf with useShortSlot }
      some (s.setVif i { s.vif i with bssConf })
    | .bssInfoChanged i changed noa tsf =>
      if (s.vif i).inDriver = true ∧ (changed.ibss = true → (s.vif i).type = .adhoc) then
        let t := s.ath9kBssInfoChanged C i changed noa tsf
        some (if changed.assoc = true ∧ (s.vif i).conn = .leaving then
          t.setVif i { t.vif i with conn := .idle } else t)
      else none
    | .p2pPsTimer p => some (s.ath9kP2pPsTimer p)
    | .beacon => some { s with beaconSync := false }

end UcsmaRateControl
