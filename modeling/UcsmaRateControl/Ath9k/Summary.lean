import Mathlib.Data.Fin.Basic
import Mathlib.Order.BooleanAlgebra.Defs
import Mathlib.Tactic.SplitIfs
import UcsmaRateControl.Ath9k.InterfaceSteps
import UcsmaRateControl.Machine.AddressFilter

/-!
# One chip for several interfaces

What the chip has been set to is worked out from the interfaces in the driver alone, whatever the
run has been so far and whatever the order in which they are visited: the addresses it answers to,
by the tightest filter that lets all of theirs through, the mode, and whether it has an interrupt
when it is out of step with a network.
-/

namespace UcsmaRateControl

/-! ## The bits of an address -/

/-- The bits of an address. -/
def MacAddr.bits (mac : MacAddr) : Fin 6 → Fin 8 → Bool := fun i j ↦ (mac i).toBitVec.getLsbD j

/-- The filter of the chip: the bits of an address under the mask are those of the base. -/
def MacAddr.Matches (base mask mac : MacAddr) : Prop := ∀ i, mac i &&& mask i = base i &&& mask i

theorem MacAddr.bits_injective : Function.Injective MacAddr.bits := by
  intro a b h
  funext i
  have hbits : (a i).toBitVec = (b i).toBitVec := by
    refine BitVec.eq_of_getLsbD_eq fun j hj ↦ ?_
    exact congrFun (congrFun h i) ⟨j, hj⟩
  exact UInt8.toBitVec_inj.mp hbits

/-- The filter of the chip is the filter of the bits. -/
theorem MacAddr.matches_iff {base mask mac : MacAddr} :
    MacAddr.Matches base mask mac ↔ AddressFilter.Accepts base.bits mask.bits mac.bits := by
  have hand : ∀ a b : MacAddr, MacAddr.bits (fun i ↦ a i &&& b i) = a.bits ⊓ b.bits := by
    intro a b
    funext i j
    simp [MacAddr.bits]
  rw [AddressFilter.Accepts, ← hand, ← hand, MacAddr.bits_injective.eq_iff, funext_iff]
  rfl

/-- The mask is narrowed as the filter of the bits is. -/
theorem MacAddr.bits_narrow (base mask mac : MacAddr) :
    MacAddr.bits (fun i ↦ mask i &&& ~~~(base i ^^^ mac i)) =
      AddressFilter.narrow base.bits mask.bits mac.bits := by
  funext i j
  simp only [MacAddr.bits, AddressFilter.narrow, symmDiff, Pi.inf_apply, Pi.compl_apply,
    Pi.sup_apply, Pi.sdiff_apply, UInt8.toBitVec_and, UInt8.toBitVec_not, UInt8.toBitVec_xor,
    BitVec.getLsbD_and, BitVec.getLsbD_not, BitVec.getLsbD_xor, j.isLt]
  cases (mask i).toBitVec.getLsbD j <;> cases (base i).toBitVec.getLsbD j <;>
    cases (mac i).toBitVec.getLsbD j <;> rfl

/-- The mask of `memset(mask, 0xff)`. -/
theorem MacAddr.bits_full : MacAddr.bits (fun _ ↦ 0xff) = ⊤ := by
  have hbyte : ∀ j : Fin 8, (0xff : UInt8).toBitVec.getLsbD j = true := by decide
  funext i j
  exact hbyte j

/-! ## What the driver finds -/

namespace VifIterData

variable {d : VifIterData}

/-- The number of interfaces of a type. -/
def count (d : VifIterData) : Iftype → ℕ
  | .ap => d.naps
  | .station => d.nstations
  | .adhoc => d.nadhocs
  | .meshPoint => d.nmeshes
  | .wds => d.nwds
  | .other => 0

theorem count_visitType (d : VifIterData) (type u : Iftype) (hu : u ≠ .other) :
    (d.visitType type).count u = d.count u + if type = u then 1 else 0 := by
  cases u with
  | other => exact absurd rfl hu
  | _ => cases type <;> rfl

theorem count_visitAddr (d : VifIterData) (mac : MacAddr) (u : Iftype) :
    (d.visitAddr mac).count u = d.count u := by
  rw [visitAddr]
  split <;> cases u <;> rfl

theorem addr_visitType (d : VifIterData) (type : Iftype) :
    (d.visitType type).hwMacaddr = d.hwMacaddr ∧ (d.visitType type).mask = d.mask ∧
      (d.visitType type).hasHwMacaddr = d.hasHwMacaddr := by
  cases type <;> exact ⟨rfl, rfl, rfl⟩

/-- The interfaces are counted by their types. -/
theorem count_foldl (d : VifIterData) (vifs : List Vif) {u : Iftype} (hu : u ≠ .other) :
    (vifs.foldl ath9kVifIter d).count u = d.count u + vifs.countP fun v ↦ v.type = u := by
  induction vifs generalizing d with
  | nil => rfl
  | cons v vifs ih =>
    rw [List.foldl_cons, ih, ath9kVifIter, count_visitType _ _ _ hu, count_visitAddr,
      List.countP_cons]
    simp only [decide_eq_true_eq]
    omega

/-- Once there is an address, it stays and the others narrow the mask. -/
theorem addr_foldl (d : VifIterData) (h : d.hasHwMacaddr = true) (vifs : List Vif) :
    (vifs.foldl ath9kVifIter d).hwMacaddr = d.hwMacaddr ∧
      (vifs.foldl ath9kVifIter d).mask.bits =
        AddressFilter.narrowAll d.hwMacaddr.bits d.mask.bits (vifs.map fun v ↦ v.addr.bits) := by
  induction vifs generalizing d with
  | nil => exact ⟨rfl, rfl⟩
  | cons v vifs ih =>
    have hvisit : d.visitAddr v.addr =
        { d with mask := fun i ↦ d.mask i &&& ~~~(d.hwMacaddr i ^^^ v.addr i) } := if_pos h
    obtain ⟨hhw, hmask, hhas⟩ := addr_visitType (d.visitAddr v.addr) v.type
    rw [hvisit] at hhw hmask hhas
    have hstep := ih (ath9kVifIter d v) (by rw [ath9kVifIter, hvisit, hhas]; exact h)
    rw [ath9kVifIter, hvisit, hhw, hmask, MacAddr.bits_narrow] at hstep
    rw [List.foldl_cons, ath9kVifIter, hvisit]
    exact hstep

end VifIterData

/-- The interfaces are visited one after the other. -/
theorem ath9kCalculateIterData_eq (vif : Option Vif) (active : List Vif) :
    ath9kCalculateIterData vif active = (vif.toList ++ active).foldl ath9kVifIter .init := by
  cases vif <;> rfl

/-- The address is that of the first interface. -/
theorem addr_foldl_init (v : Vif) (vifs : List Vif) :
    ((v :: vifs).foldl ath9kVifIter .init).hwMacaddr = v.addr ∧
      ((v :: vifs).foldl ath9kVifIter .init).mask.bits =
        AddressFilter.narrowAll v.addr.bits ⊤ (vifs.map fun v ↦ v.addr.bits) := by
  obtain ⟨hhw, hmask, hhas⟩ :=
    VifIterData.addr_visitType (VifIterData.init.visitAddr v.addr) v.type
  have hfold := VifIterData.addr_foldl (ath9kVifIter .init v) hhas vifs
  rw [ath9kVifIter, hhw, hmask] at hfold
  rw [List.foldl_cons, ath9kVifIter, ← MacAddr.bits_full]
  exact hfold

/-- **The tightest filter.** The chip is set to let the addresses of all the interfaces visited
through, and whatever it lets through, every filter does that lets all of them through. -/
theorem tightest_of_visited {vifs : List Vif} (hne : vifs ≠ []) :
    (∀ v ∈ vifs, MacAddr.Matches (vifs.foldl ath9kVifIter .init).hwMacaddr
        (vifs.foldl ath9kVifIter .init).mask v.addr) ∧
      ∀ base mask, (∀ v ∈ vifs, MacAddr.Matches base mask v.addr) → ∀ mac,
        MacAddr.Matches (vifs.foldl ath9kVifIter .init).hwMacaddr
          (vifs.foldl ath9kVifIter .init).mask mac → MacAddr.Matches base mask mac := by
  obtain ⟨v, vs, rfl⟩ := List.exists_cons_of_ne_nil hne
  obtain ⟨hhw, hmask⟩ := addr_foldl_init v vs
  simp only [MacAddr.matches_iff, hhw, hmask, List.forall_mem_cons]
  refine ⟨⟨AddressFilter.accepts_self, fun u hu ↦ ?_⟩, fun base mask ⟨hv, hvs⟩ mac hmac ↦ ?_⟩
  · exact AddressFilter.accepts_of_mem_narrowAll (List.mem_map_of_mem hu)
  · refine hmac.of_narrowAll hv fun a ha ↦ ?_
    obtain ⟨u, hu, rfl⟩ := List.mem_map.mp ha
    exact hvs u hu

/-! ## The mode -/

/-- The mode of a chip that serves interfaces of the types in `has`. -/
inductive ModeOf (has : Iftype → Prop) : Iftype → Prop
  | ap (ap : has .ap) : ModeOf has .ap
  | mesh (ap : ¬has .ap) (mesh : has .meshPoint) : ModeOf has .meshPoint
  | wds (ap : ¬has .ap) (mesh : ¬has .meshPoint) (wds : has .wds) : ModeOf has .ap
  | adhoc (ap : ¬has .ap) (mesh : ¬has .meshPoint) (wds : ¬has .wds) (adhoc : has .adhoc) :
      ModeOf has .adhoc
  | station (ap : ¬has .ap) (mesh : ¬has .meshPoint) (wds : ¬has .wds) (adhoc : ¬has .adhoc) :
      ModeOf has .station

/-- The mode depends on the types that the driver tells apart. -/
theorem ModeOf.congr {has has' : Iftype → Prop} {m : Iftype} (h : ModeOf has m)
    (hhas : ∀ u, u ≠ .other → (has u ↔ has' u)) : ModeOf has' m := by
  cases h with
  | ap hap => exact .ap ((hhas .ap nofun).mp hap)
  | mesh hap hmesh =>
    exact .mesh (mt (hhas .ap nofun).mpr hap) ((hhas .meshPoint nofun).mp hmesh)
  | wds hap hmesh hwds =>
    exact .wds (mt (hhas .ap nofun).mpr hap) (mt (hhas .meshPoint nofun).mpr hmesh)
      ((hhas .wds nofun).mp hwds)
  | adhoc hap hmesh hwds hadhoc =>
    exact .adhoc (mt (hhas .ap nofun).mpr hap) (mt (hhas .meshPoint nofun).mpr hmesh)
      (mt (hhas .wds nofun).mpr hwds) ((hhas .adhoc nofun).mp hadhoc)
  | station hap hmesh hwds hadhoc =>
    exact .station (mt (hhas .ap nofun).mpr hap) (mt (hhas .meshPoint nofun).mpr hmesh)
      (mt (hhas .wds nofun).mpr hwds) (mt (hhas .adhoc nofun).mpr hadhoc)

theorem VifIterData.modeOf (d : VifIterData) : ModeOf (fun u ↦ 0 < d.count u) d.opmode := by
  rw [opmode]
  split_ifs with hap hmesh hwds hadhoc
  · exact .ap hap
  · exact .mesh hap hmesh
  · exact .wds hap hmesh hwds
  · exact .adhoc hap hmesh hwds hadhoc
  · exact .station hap hmesh hwds hadhoc

/-! ## What the chip is set to -/

/-- What the chip is set to for the interfaces that have been found. -/
def VifIterData.chip (d : VifIterData) : MacAddr × MacAddr × Iftype × Bool × Bool :=
  (d.hwMacaddr, d.mask, d.opmode, decide (d.naps > 0),
    decide (d.nstations + d.nadhocs + d.nmeshes > 0))

namespace Ifaces

variable {ι : Type*} [DecidableEq ι] {C : IfaceConfig} {B : BeaconOps ι} {s t : Ifaces ι}
  {e : IfaceEvent ι}

/-- What `ath9k_calculate_summary_state` sets. -/
def chip (s : Ifaces ι) : MacAddr × MacAddr × Iftype × Bool × Bool :=
  (s.macaddr, s.bssidmask, s.opmode, s.tsfadjust, s.tsfoor)

/-- The filter of the chip is the tightest that lets the addresses through of all the interfaces in
the driver. -/
structure Answers (s : Ifaces ι) : Prop where
  passes : ∀ i, (s.vif i).inDriver = true →
    MacAddr.Matches s.macaddr s.bssidmask (s.vif i).addr
  tightest : ∀ base mask,
    (∀ i, (s.vif i).inDriver = true → MacAddr.Matches base mask (s.vif i).addr) →
    ∀ mac, MacAddr.Matches s.macaddr s.bssidmask mac → MacAddr.Matches base mask mac

/-- An interface of the type is in the driver. -/
def Has (s : Ifaces ι) (u : Iftype) : Prop := ∃ i, (s.vif i).inDriver = true ∧ (s.vif i).type = u

/-- The chip is in the mode of the interfaces in the driver. -/
structure Suits (s : Ifaces ι) : Prop where
  mode : ModeOf s.Has s.opmode
  tsfadjust : s.tsfadjust = true ↔ s.Has .ap
  tsfoor : s.tsfoor = true ↔ s.Has .station ∨ s.Has .adhoc ∨ s.Has .meshPoint

/-- If there are interfaces in the driver, the chip is set to them. -/
def Summarised (s : Ifaces ι) : Prop := (∃ i, (s.vif i).inDriver = true) → s.Answers ∧ s.Suits

omit [DecidableEq ι] in
theorem chip_of_core {u : Ifaces ι} (h : t.core = u) : t.chip = u.chip := by
  subst h
  rfl

omit [DecidableEq ι] in
/-- The chip has been set to the interfaces that have been visited. -/
theorem summarised_of_visited {l : List ι} {w : ι → Vif}
    (hchip : t.chip = ((l.map w).foldl ath9kVifIter .init).chip)
    (hl : ∀ i, i ∈ l ↔ (t.vif i).inDriver = true)
    (hw : ∀ i, (w i).addr = (t.vif i).addr ∧ (w i).type = (t.vif i).type) : t.Summarised := by
  intro ⟨i, hi⟩
  simp only [chip, VifIterData.chip, Prod.mk.injEq] at hchip
  obtain ⟨hmac, hmask, hmode, hadjust, htsfoor⟩ := hchip
  have hcount : ∀ u, u ≠ .other →
      (0 < ((l.map w).foldl ath9kVifIter .init).count u ↔ t.Has u) := by
    intro u hu
    have hzero : VifIterData.init.count u = 0 := by cases u <;> rfl
    rw [VifIterData.count_foldl _ _ hu, hzero, Nat.zero_add, List.countP_pos_iff]
    simp only [List.mem_map, decide_eq_true_eq, exists_exists_and_eq_and, Has, hl, (hw _).2]
  have hne : l.map w ≠ [] := fun hnil ↦ by
    rw [List.map_eq_nil_iff.mp hnil] at hl
    exact absurd ((hl i).mpr hi) List.not_mem_nil
  obtain ⟨hpasses, htight⟩ := tightest_of_visited hne
  rw [← hmac, ← hmask] at hpasses htight
  simp only [List.forall_mem_map, hl, (hw _).1] at hpasses htight
  refine ⟨⟨hpasses, htight⟩, ⟨?_, ?_, ?_⟩⟩
  · rw [hmode]
    exact (VifIterData.modeOf _).congr hcount
  · rw [hadjust, decide_eq_true_eq]
    exact hcount .ap nofun
  · rw [htsfoor, decide_eq_true_eq, ← hcount .station nofun, ← hcount .adhoc nofun,
      ← hcount .meshPoint nofun]
    simp only [VifIterData.count]
    omega

omit [DecidableEq ι] in
/-- A step that leaves the chip alone, and the interfaces in the driver as far as the chip goes. -/
theorem Summarised.frame (h : s.Summarised) (hchip : t.chip = s.chip)
    (hin : ∀ i, (t.vif i).inDriver = (s.vif i).inDriver)
    (hw : ∀ i, (s.vif i).inDriver = true →
      (t.vif i).addr = (s.vif i).addr ∧ (t.vif i).type = (s.vif i).type) : t.Summarised := by
  intro ⟨i, hi⟩
  simp only [chip, Prod.mk.injEq] at hchip
  obtain ⟨hmac, hmask, hmode, hadjust, htsfoor⟩ := hchip
  obtain ⟨⟨hpasses, htight⟩, ⟨hm, ha, ht⟩⟩ := h ⟨i, hin i ▸ hi⟩
  have hhas : ∀ u, t.Has u ↔ s.Has u := by
    intro u
    refine exists_congr fun j ↦ ?_
    rw [hin j]
    exact and_congr_right fun hj ↦ by rw [(hw j hj).2]
  refine ⟨⟨fun j hj ↦ ?_, fun base mask hall mac hmac' ↦ ?_⟩, ⟨?_, ?_, ?_⟩⟩
  · rw [hin j] at hj
    rw [hmac, hmask, (hw j hj).1]
    exact hpasses j hj
  · rw [hmac, hmask] at hmac'
    refine htight base mask (fun j hj ↦ ?_) mac hmac'
    rw [← (hw j hj).1]
    exact hall j ((hin j).trans hj)
  · rw [hmode]
    exact hm.congr fun u _ ↦ (hhas u).symm
  · rw [hadjust, hhas]
    exact ha
  · rw [htsfoor, hhas, hhas, hhas]
    exact ht

omit [DecidableEq ι] in
theorem Managed.mem_active (h : s.Managed) {i : ι} :
    i ∈ s.active ↔ (s.vif i).running = true := by
  rw [active, List.mem_filter]
  exact ⟨fun hi ↦ hi.2, fun hi ↦ ⟨(h i).listed ((h i).known hi), hi⟩⟩

omit [DecidableEq ι] in
/-- The interfaces in the driver are the active ones, and the one that is being opened, stopped or
changed. -/
theorem Managed.inDriver_iff (h : s.Managed) {i : ι} :
    (s.vif i).inDriver = true ↔ s.rtnl = some i ∨ (s.vif i).running = true := by
  constructor
  · intro hin
    by_cases hheld : s.rtnl = some i
    · exact .inl hheld
    · exact .inr ((h i).settled hin hheld)
  · rintro (hheld | hrun)
    · exact ((h i).held hheld).1
    · exact (h i).known hrun

/-- A step that leaves the chip alone, and of one interface what the chip depends on. -/
theorem Summarised.update (h : s.Summarised) {i : ι} {v : Vif}
    (hvif : t.vif = Function.update s.vif i v) (hchip : t.chip = s.chip)
    (hin : v.inDriver = (s.vif i).inDriver)
    (hv : (s.vif i).inDriver = true → v.addr = (s.vif i).addr ∧ v.type = (s.vif i).type) :
    t.Summarised := by
  refine h.frame hchip (fun j ↦ ?_) fun j hj ↦ ?_
  · rw [hvif]
    rcases eq_or_ne j i with rfl | hji
    · rw [Function.update_self, hin]
    · rw [Function.update_of_ne hji]
  · rw [hvif]
    rcases eq_or_ne j i with rfl | hji
    · rw [Function.update_self]
      exact hv hj
    · rw [Function.update_of_ne hji]
      exact ⟨rfl, rfl⟩

/-- Who is active depends on nothing but the marks. -/
theorem active_setVif {i : ι} {v : Vif} (h : v.running = (s.vif i).running) :
    (s.setVif i v).active = s.active := by
  refine List.filter_congr fun j _ ↦ ?_
  rw [setVif_vif]
  rcases eq_or_ne j i with rfl | hji
  · rw [Function.update_self, h]
  · rw [Function.update_of_ne hji]

theorem Summarised.step (hs : s.Summarised) (h : s.Managed) (hst : s.Moved C B e t) :
    t.Summarised := by
  cases hst with
  | create i addr type p2p new =>
    have hout : (s.vif i).inDriver = false := by
      rw [Bool.eq_false_iff]
      exact fun hin ↦ new ((h i).listed hin)
    exact hs.update rfl rfl hout.symm fun hin ↦ absurd hin (Bool.eq_false_iff.mp hout)
  | destroy i out => exact hs.frame rfl (fun _ ↦ rfl) fun _ _ ↦ ⟨rfl, rfl⟩
  | setup i addr type p2p out =>
    exact hs.update rfl rfl rfl fun hin ↦ absurd hin (Bool.eq_false_iff.mp out)
  | refuse | keep => exact hs
  | beacon => exact hs.frame rfl (fun _ ↦ rfl) fun _ _ ↦ ⟨rfl, rfl⟩
  | add i free listed out room =>
    have hchip := chip_of_core (core_ath9kAddInterface (B := B) (i := i) room)
    rw [iterData, ath9kCalculateIterData_eq] at hchip
    have hvif := (frame_ath9kAddInterface s C B i).1
    refine summarised_of_visited (l := i :: s.active) (w := s.vif) hchip (fun j ↦ ?_) fun j ↦ ?_
    · rw [List.mem_cons, h.mem_active, setVif, hvif]
      rcases eq_or_ne j i with rfl | hji
      · simp
      · simp [hji, h.inDriver_iff, free]
    · rw [setVif, hvif]
      rcases eq_or_ne j i with rfl | hji
      · simp
      · simp [hji]
  | up i | stop i => exact hs.update rfl rfl rfl fun _ ↦ ⟨rfl, rfl⟩
  | remove i held =>
    have hchip := chip_of_core (core_ath9kRemoveInterface B s i)
    rw [iterData, ath9kCalculateIterData_eq] at hchip
    have hvif := (frame_ath9kRemoveInterface B s i).1
    refine summarised_of_visited (l := s.active) (w := s.vif) hchip (fun j ↦ ?_) fun j ↦ ?_
    · rw [h.mem_active, setVif, hvif]
      rcases eq_or_ne j i with rfl | hji
      · simp [((h j).held held).2]
      · simp [hji, h.inDriver_iff, held, hji.symm]
    · rw [setVif, hvif]
      rcases eq_or_ne j i with rfl | hji
      · simp
      · simp [hji]
  | change i type p2p held tx99 =>
    have hchip := chip_of_core (core_ath9kChangeInterface (B := B) (s := s) (i := i) tx99 type p2p)
    rw [iterData, ath9kCalculateIterData_eq,
      active_setVif (v := { s.vif i with type, p2p }) rfl] at hchip
    have hvif := (frame_ath9kChangeInterface B tx99 s i type p2p).1
    refine summarised_of_visited (l := i :: s.active)
      (w := (s.setVif i { s.vif i with type, p2p }).vif) hchip (fun j ↦ ?_) fun j ↦ ?_
    · rw [List.mem_cons, h.mem_active, hvif]
      rcases eq_or_ne j i with rfl | hji
      · simp [((h j).held held).1]
      · simp [hji, h.inDriver_iff, held, hji.symm]
    · rw [setVif_vif, hvif]
      exact ⟨rfl, rfl⟩
  | associate i | disassociate i | configure i | shortSlot i =>
    exact hs.update rfl rfl rfl fun _ ↦ ⟨rfl, rfl⟩
  | part i changed noa tsf =>
    have hvif := (frame_ath9kBssInfoChanged s C i changed noa tsf).1
    have hchip := chip_of_core (core_ath9kBssInfoChanged s C i changed noa tsf)
    exact hs.update (congrArg (Function.update · i _) hvif) hchip rfl fun _ ↦ ⟨rfl, rfl⟩
  | inform i changed noa tsf =>
    have hvif := (frame_ath9kBssInfoChanged s C i changed noa tsf).1
    have hchip := chip_of_core (core_ath9kBssInfoChanged s C i changed noa tsf)
    exact hs.frame hchip (fun j ↦ by rw [hvif]) fun j _ ↦ by rw [hvif]; exact ⟨rfl, rfl⟩
  | p2pPsTimer p =>
    have hvif := (frame_ath9kP2pPsTimer s p).1
    have hchip := chip_of_core (core_ath9kP2pPsTimer s p)
    exact hs.frame hchip (fun j ↦ by rw [hvif]) fun j _ ↦ by rw [hvif]; exact ⟨rfl, rfl⟩

theorem Fresh.summarised_of_run (hs : s.Fresh) {es : List (IfaceEvent ι)}
    (h : (ifaces C B).run s es = some t) : t.Summarised := by
  refine (Machine.invariant (P := fun u : Ifaces ι ↦ u.Managed ∧ u.Summarised) ?_ ?_ h).2
  · rintro u e v ⟨hu, hsum⟩ huv
    exact ⟨hu.step (.of_step huv), hsum.step hu (.of_step huv)⟩
  · exact ⟨hs.managed, fun ⟨i, hi⟩ ↦ absurd hi (Bool.eq_false_iff.mp (hs.vif i).1)⟩

end Ifaces

section Results

variable {ι : Type*} [DecidableEq ι] {C : IfaceConfig} {B : BeaconOps ι} {s t : Ifaces ι}
  {es : List (IfaceEvent ι)}

/-- **The chip answers to its interfaces.** Along every run, while there are interfaces in the
driver, the address and the mask of the chip let the addresses of all of them through, and no filter
that does so lets less through. -/
theorem answers_of_run (hs : s.Fresh) (h : (ifaces C B).run s es = some t)
    (hin : ∃ i, (t.vif i).inDriver = true) : t.Answers := (hs.summarised_of_run h hin).1

/-- **The chip is in the mode of its interfaces.** Along every run, while there are interfaces in
the driver, the mode, the adjustment of the clock and the interrupt for a lost network are those of
the types of these interfaces: access points come first, then mesh points, bridges, ad hoc networks
and at last stations. -/
theorem suits_of_run (hs : s.Fresh) (h : (ifaces C B).run s es = some t)
    (hin : ∃ i, (t.vif i).inDriver = true) : t.Suits := (hs.summarised_of_run h hin).2

/-- No interface has been added yet. -/
def noIfaces (interfaces : List ℕ) : Ifaces ℕ where
  interfaces := interfaces
  vif := fun i ↦ .new (fun _ ↦ UInt8.ofNat i) .station false
  avp := fun _ ↦ .new
  rtnl := none
  macaddr := fun _ ↦ 0
  bssidmask := fun _ ↦ 0xff
  curbssid := fun _ ↦ 0
  curaid := 0
  primStaVif := false
  opmode := .station
  tsfadjust := false
  tsfoor := false
  slottime := 9
  associd := (fun _ ↦ 0, 0)
  nvifs := 0
  tx99Vif := none
  beaconSync := false
  beaconSlottime := none
  beacons := ⟨fun _ ↦ none, fun _ ↦ 0⟩
  p2pPsVif := none
  p2pPsTimer := none

theorem fresh_noIfaces (interfaces : List ℕ) : (noIfaces interfaces).Fresh :=
  ⟨rfl, fun _ ↦ ⟨rfl, rfl, rfl, rfl⟩, fun _ ↦ rfl, rfl, rfl, rfl, fun _ ↦ rfl, rfl, rfl⟩

/-- Functions that take the first free slot, or else the remembered one, and clear the slot that is
remembered. -/
def BeaconOps.ath9k {ι : Type*} [DecidableEq ι] : BeaconOps ι where
  assign b i :=
    let k := ((List.finRange athBcbuf).find? fun k ↦ (b.bslot k).isNone).getD (b.avBslot i)
    ⟨Function.update b.bslot k (some i), Function.update b.avBslot i k⟩
  remove b i := ⟨Function.update b.bslot (b.avBslot i) none, b.avBslot⟩
  assign_of_free b i hfree := by
    obtain ⟨k, hk⟩ := hfree
    have hsome : ((List.finRange athBcbuf).find? fun k ↦ (b.bslot k).isNone).isSome = true := by
      rw [List.find?_isSome]
      exact ⟨k, List.mem_finRange k, Option.isNone_iff_eq_none.mpr hk⟩
    obtain ⟨m, hm⟩ := Option.isSome_iff_exists.mp hsome
    have hnone := List.find?_some (p := fun k ↦ (b.bslot k).isNone) hm
    refine ⟨m, Option.isNone_iff_eq_none.mp hnone, ?_⟩
    rw [hm]
    rfl
  remove_of_has _ _ _ := rfl

/-- A station and then an access point: the chip answers to both. -/
theorem answers_of_run_two :
    ∃ t, (ifaces ⟨false, false⟩ .ath9k).run (noIfaces [1, 2])
        [.add 1, .up 1, .setup 2 (fun _ ↦ 2) .ap false, .add 2, .up 2] = some t ∧
      MacAddr.Matches t.macaddr t.bssidmask (t.vif 1).addr := by
  have hrun : ((ifaces ⟨false, false⟩ .ath9k).run (noIfaces [1, 2])
      [.add 1, .up 1, .setup 2 (fun _ ↦ 2) .ap false, .add 2, .up 2]).any
      (fun t ↦ (t.vif 1).inDriver) = true := by decide
  obtain ⟨t, ht, hin⟩ := (Option.any_eq_true _ _).mp hrun
  exact ⟨t, ht, (answers_of_run (fresh_noIfaces _) ht ⟨1, hin⟩).passes 1 hin⟩

/-- They put the chip into the mode of an access point. -/
theorem suits_of_run_two :
    ∃ t, (ifaces ⟨false, false⟩ .ath9k).run (noIfaces [1, 2])
        [.add 1, .up 1, .setup 2 (fun _ ↦ 2) .ap false, .add 2, .up 2] = some t ∧
      ModeOf t.Has t.opmode := by
  have hrun : ((ifaces ⟨false, false⟩ .ath9k).run (noIfaces [1, 2])
      [.add 1, .up 1, .setup 2 (fun _ ↦ 2) .ap false, .add 2, .up 2]).any
      (fun t ↦ (t.vif 1).inDriver) = true := by decide
  obtain ⟨t, ht, hin⟩ := (Option.any_eq_true _ _).mp hrun
  exact ⟨t, ht, (suits_of_run (fresh_noIfaces _) ht ⟨1, hin⟩).mode⟩

end Results

end UcsmaRateControl
