import UcsmaRateControl.Ath9k.Summary
import UcsmaRateControl.Machine.Slots

/-!
# The books of the driver

What the driver keeps of its interfaces besides the chip: how many there are, which of them have a
beacon slot, which one transmits in TX99 mode, and whose P2P power save it follows.
-/

namespace UcsmaRateControl

/-- The timer is at least a millisecond ahead of the clock, which wraps around. -/
def P2pArm.Ahead (a : P2pArm) : Prop := 1000 ≤ a.target.toInt32 - a.tsf.toInt32

namespace Ifaces

variable {ι : Type*} [DecidableEq ι] {C : IfaceConfig} {B : BeaconOps ι} {s t : Ifaces ι}
  {e : IfaceEvent ι} {i : ι}

/-! ## Counts -/

/-- The books agree with the interfaces in the driver. -/
structure Booked (C : IfaceConfig) (s : Ifaces ι) : Prop where
  listed : s.interfaces.Nodup
  nvifs : s.nvifs = Int16.ofNat (s.interfaces.countP fun i ↦ (s.vif i).inDriver)
  /-- In TX99 mode there is one interface at most. -/
  tx99 : C.tx99 = true → ∀ i, s.tx99Vif = some i ↔ (s.vif i).inDriver = true

omit [DecidableEq ι] in
theorem books_of_core {u : Ifaces ι} (h : t.core = u) :
    t.nvifs = u.nvifs ∧ t.tx99Vif = u.tx99Vif ∧ t.beacons = u.beacons := by
  subst h
  exact ⟨rfl, rfl, rfl⟩

omit [DecidableEq ι] in
/-- A step that leaves the books alone, and what they are about. -/
theorem Booked.frame (h : s.Booked C) (hbooks : t.nvifs = s.nvifs ∧ t.tx99Vif = s.tx99Vif)
    (hifaces : t.interfaces = s.interfaces)
    (hvif : ∀ i, (t.vif i).inDriver = (s.vif i).inDriver) : t.Booked C := by
  obtain ⟨hnvifs, htx99⟩ := hbooks
  refine ⟨hifaces ▸ h.listed, ?_, fun htx i ↦ ?_⟩
  · rw [hnvifs, h.nvifs, hifaces]
    exact congrArg Int16.ofNat (List.countP_congr fun i _ ↦ by rw [hvif i])
  · rw [htx99, h.tx99 htx i, hvif i]

/-- The same for one interface. -/
theorem Booked.update {v : Vif} (h : s.Booked C)
    (hbooks : t.nvifs = s.nvifs ∧ t.tx99Vif = s.tx99Vif)
    (hifaces : t.interfaces = s.interfaces) (hvif : t.vif = Function.update s.vif i v)
    (hin : v.inDriver = (s.vif i).inDriver) : t.Booked C := by
  refine h.frame hbooks hifaces fun j ↦ ?_
  rw [hvif]
  rcases eq_or_ne j i with rfl | hji
  · rw [Function.update_self]
    exact hin
  · rw [Function.update_of_ne hji]

/-- One more satisfies the second predicate than the first. -/
theorem countP_of_update {l : List ι} {p q : ι → Bool} (hl : l.Nodup) (hi : i ∈ l)
    (hp : p i = false) (hq : q i = true) (hpq : ∀ j, j ≠ i → q j = p j) :
    l.countP q = l.countP p + 1 := by
  have hperm := List.perm_cons_erase hi
  have hrest : (l.erase i).countP q = (l.erase i).countP p :=
    List.countP_congr fun j hj ↦ by rw [hpq j ((hl.mem_erase_iff.mp hj).1)]
  rw [hperm.countP_eq q, hperm.countP_eq p, List.countP_cons_of_pos hq,
    List.countP_cons_of_neg (by rw [hp]; exact Bool.false_ne_true), hrest]

omit [DecidableEq ι] in
/-- If the driver takes another interface in TX99 mode, there is none yet. -/
theorem Booked.alone (h : s.Booked C) (hs : s.Managed) (hroom : ¬s.Full C) (htx : C.tx99 = true)
    (j : ι) : (s.vif j).inDriver = false := by
  classical
  rw [Bool.eq_false_iff]
  intro hj
  have hother : ∀ k, (s.vif k).inDriver = true ↔ k = j := fun k ↦ by
    rw [← h.tx99 htx k, (h.tx99 htx j).mpr hj, Option.some_inj, eq_comm]
  have hcount : s.interfaces.countP (fun i ↦ (s.vif i).inDriver) = 1 := by
    rw [← List.count_eq_one_of_mem h.listed ((hs j).listed hj), List.count]
    exact List.countP_congr fun k _ ↦ by rw [hother, beq_iff_eq]
  have hnvifs := h.nvifs
  rw [hcount] at hnvifs
  exact hroom ⟨htx, hnvifs ▸ Int16.le_refl 1⟩

/-- An interface is entered into the books. -/
theorem Booked.add (h : s.Booked C) (hs : s.Managed) (hroom : ¬s.Full C)
    (hlisted : i ∈ s.interfaces) (hout : (s.vif i).inDriver = false)
    (hifaces : t.interfaces = s.interfaces)
    (hvif : t.vif = Function.update s.vif i { s.vif i with inDriver := true })
    (hbooks : t.nvifs = s.nvifs + 1 ∧ t.tx99Vif = (s.countIn C i).tx99Vif) : t.Booked C := by
  obtain ⟨hnvifs, htx99⟩ := hbooks
  have hother : ∀ j, j ≠ i → t.vif j = s.vif j := fun j hj ↦ by
    rw [hvif, Function.update_of_ne hj]
  have hself : t.vif i = { s.vif i with inDriver := true } := by rw [hvif, Function.update_self]
  refine ⟨hifaces ▸ h.listed, ?_, fun htx j ↦ ?_⟩
  · have hcount := countP_of_update (p := fun j ↦ (s.vif j).inDriver)
      (q := fun j ↦ (t.vif j).inDriver) h.listed hlisted hout (by rw [hself])
      fun j hj ↦ by rw [hother j hj]
    rw [hnvifs, h.nvifs, hifaces, hcount, Int16.ofNat_add]
    rfl
  · have hset : t.tx99Vif = some i := htx99.trans (if_pos htx)
    rw [hset]
    rcases eq_or_ne j i with rfl | hji
    · simp [hself]
    · simp [hother j hji, h.alone hs hroom htx j, hji.symm]

/-- An interface is struck off the books. -/
theorem Booked.remove (h : s.Booked C) (hs : s.Managed) (hin : (s.vif i).inDriver = true)
    (hifaces : t.interfaces = s.interfaces)
    (hvif : t.vif = Function.update s.vif i { s.vif i with inDriver := false })
    (hbooks : t.nvifs = s.nvifs - 1 ∧ t.tx99Vif = none) : t.Booked C := by
  obtain ⟨hnvifs, htx99⟩ := hbooks
  have hother : ∀ j, j ≠ i → t.vif j = s.vif j := fun j hj ↦ by
    rw [hvif, Function.update_of_ne hj]
  have hself : t.vif i = { s.vif i with inDriver := false } := by rw [hvif, Function.update_self]
  refine ⟨hifaces ▸ h.listed, ?_, fun htx j ↦ ?_⟩
  · have hcount := countP_of_update (p := fun j ↦ (t.vif j).inDriver)
      (q := fun j ↦ (s.vif j).inDriver) h.listed ((hs i).listed hin) (by rw [hself]) hin
      fun j hj ↦ by rw [hother j hj]
    rw [hnvifs, h.nvifs, hifaces, hcount, Int16.ofNat_add]
    exact Int16.add_sub_cancel _ _
  · rw [htx99]
    refine iff_of_false nofun fun hj ↦ ?_
    rcases eq_or_ne j i with rfl | hji
    · rw [hself] at hj
      exact nomatch hj
    · rw [hother j hji, ← h.tx99 htx, (h.tx99 htx i).mpr hin, Option.some_inj] at hj
      exact hji hj.symm

/-- **What one step does to the books.** -/
theorem Booked.step (h : s.Booked C) (hs : s.Managed) (hst : s.Moved C B e t) : t.Booked C := by
  cases hst with
  | create i addr type p2p new =>
    have hout : (s.vif i).inDriver = false := by
      rw [Bool.eq_false_iff]
      exact fun hin ↦ new ((hs i).listed hin)
    have hb : { s with vif := Function.update s.vif i (.new addr type p2p) }.Booked C :=
      h.update ⟨rfl, rfl⟩ rfl rfl hout.symm
    refine ⟨?_, ?_, hb.tx99⟩
    · exact List.nodup_append.mpr ⟨h.listed, List.nodup_singleton i, fun a ha b hb' hab ↦
        new (List.mem_singleton.mp hb' ▸ hab ▸ ha)⟩
    · refine hb.nvifs.trans (congrArg Int16.ofNat ?_)
      rw [setAvp, setVif, List.countP_append]
      simp [Vif.new]
  | destroy i out =>
    refine ⟨h.listed.erase i, ?_, h.tx99⟩
    refine h.nvifs.trans (congrArg Int16.ofNat ?_)
    by_cases hi : i ∈ s.interfaces
    · rw [(List.perm_cons_erase hi).countP_eq,
        List.countP_cons_of_neg (by rw [out]; exact Bool.false_ne_true)]
    · rw [List.erase_of_not_mem hi]
  | setup i addr type p2p out => exact h.update ⟨rfl, rfl⟩ rfl rfl rfl
  | refuse | keep => exact h
  | beacon => exact h.frame ⟨rfl, rfl⟩ rfl fun _ ↦ rfl
  | add i free listed out room =>
    obtain ⟨hnvifs, htx99, -⟩ := books_of_core (core_ath9kAddInterface (B := B) (i := i) room)
    obtain ⟨hvif, hifaces, -⟩ := frame_ath9kAddInterface s C B i
    generalize (s.ath9kAddInterface C B i).1 = u at hnvifs htx99 hvif hifaces ⊢
    exact h.add hs room listed out hifaces (congrArg (Function.update · i _) hvif)
      ⟨hnvifs, htx99⟩
  | up i | stop i | associate i | disassociate i | configure i | shortSlot i =>
    exact h.update ⟨rfl, rfl⟩ rfl rfl rfl
  | remove i held =>
    obtain ⟨hnvifs, htx99, -⟩ := books_of_core (core_ath9kRemoveInterface B s i)
    obtain ⟨hvif, hifaces, -⟩ := frame_ath9kRemoveInterface B s i
    generalize s.ath9kRemoveInterface B i = u at hnvifs htx99 hvif hifaces ⊢
    exact h.remove hs ((hs i).held held).1 hifaces (congrArg (Function.update · i _) hvif)
      ⟨hnvifs, htx99⟩
  | change i type p2p held tx99 =>
    obtain ⟨hnvifs, htx99, -⟩ :=
      books_of_core (core_ath9kChangeInterface (B := B) (i := i) tx99 type p2p)
    obtain ⟨hvif, hifaces, -⟩ := frame_ath9kChangeInterface B tx99 s i type p2p
    generalize (s.ath9kChangeInterface C B i type p2p).1 = u at hnvifs htx99 hvif hifaces ⊢
    exact h.update ⟨hnvifs, htx99⟩ hifaces hvif rfl
  | part i changed noa tsf =>
    obtain ⟨hnvifs, htx99, -⟩ := books_of_core (core_ath9kBssInfoChanged s C i changed noa tsf)
    obtain ⟨hvif, hifaces, -⟩ := frame_ath9kBssInfoChanged s C i changed noa tsf
    exact h.update ⟨hnvifs, htx99⟩ hifaces (congrArg (Function.update · i _) hvif) rfl
  | inform i changed noa tsf =>
    obtain ⟨hnvifs, htx99, -⟩ := books_of_core (core_ath9kBssInfoChanged s C i changed noa tsf)
    obtain ⟨hvif, hifaces, -⟩ := frame_ath9kBssInfoChanged s C i changed noa tsf
    exact h.frame ⟨hnvifs, htx99⟩ hifaces fun j ↦ by rw [hvif]
  | p2pPsTimer p =>
    obtain ⟨hnvifs, htx99, -⟩ := books_of_core (core_ath9kP2pPsTimer s p)
    obtain ⟨hvif, hifaces, -⟩ := frame_ath9kP2pPsTimer s p
    exact h.frame ⟨hnvifs, htx99⟩ hifaces fun j ↦ by rw [hvif]

/-! ## The beacon slots -/

/-- The interface is in the driver and sends beacons. -/
def Beacons (s : Ifaces ι) (i : ι) : Prop :=
  (s.vif i).inDriver = true ∧ ath9kUsesBeacons (s.vif i).type = true

instance (s : Ifaces ι) : DecidablePred s.Beacons := fun _ ↦ inferInstanceAs (Decidable (_ ∧ _))

/-- The interfaces in the driver that send beacons have a slot each, and nobody else has one. -/
def BeaconsSlotted (s : Ifaces ι) : Prop := Slotted s.beacons.bslot s.beacons.avBslot s.Beacons

/-- There are slots enough for the interfaces in the driver that send beacons. -/
def BeaconsFit (s : Ifaces ι) : Prop :=
  s.interfaces.countP (fun i ↦ decide (s.Beacons i)) ≤ athBcbuf

instance (s : Ifaces ι) : Decidable s.BeaconsFit := inferInstanceAs (Decidable (_ ≤ _))

omit [DecidableEq ι] in
theorem BeaconsSlotted.fit (h : s.BeaconsSlotted) (hlisted : s.interfaces.Nodup) : s.BeaconsFit :=
  h.countP_le hlisted

/-- An interface that sends beacons is given a slot, where there are enough. -/
theorem slotted_assign {b : BeaconSlots ι} {holds holds' : ι → Prop} [DecidablePred holds]
    [DecidablePred holds'] {uses : Bool} {l : List ι} (h : Slotted b.bslot b.avBslot holds)
    (hnew : ¬holds i) (hholds : ∀ j, holds' j ↔ (j = i ∧ uses = true) ∨ holds j) (hl : l.Nodup)
    (hi : i ∈ l) (hlisted : ∀ j, holds j → j ∈ l)
    (hfit : l.countP (fun j ↦ decide (holds' j)) ≤ athBcbuf) :
    Slotted (if uses then B.assign b i else b).bslot (if uses then B.assign b i else b).avBslot
      holds' := by
  cases uses with
  | false => exact h.congr fun j ↦ (hholds j).trans (or_iff_right fun hj ↦ nomatch hj.2)
  | true =>
    have hholds' : ∀ j, holds' j ↔ j = i ∨ holds j := fun j ↦
      (hholds j).trans (or_congr_left (and_iff_left rfl))
    have hcount : l.countP (fun j ↦ decide (holds' j)) =
        l.countP (fun j ↦ decide (holds j)) + 1 := by
      refine countP_of_update hl hi (decide_eq_false hnew) ?_ fun j hj ↦ ?_
      · exact decide_eq_true ((hholds' i).mpr (.inl rfl))
      · exact decide_eq_decide.mpr ((hholds' j).trans (or_iff_right hj))
    obtain ⟨k, hk, heq⟩ := B.assign_of_free b i (h.exists_free hlisted (by omega))
    rw [if_pos rfl, heq]
    exact h.take hk hnew hholds'

/-- An interface that sends beacons gives up its slot. -/
theorem BeaconsSlotted.removeSlot (h : s.BeaconsSlotted) (hin : (s.vif i).inDriver = true) :
    Slotted (s.removeSlot B i).beacons.bslot (s.removeSlot B i).beacons.avBslot
      fun j ↦ j ≠ i ∧ s.Beacons j := by
  rw [Ifaces.removeSlot]
  by_cases huses : ath9kUsesBeacons (s.vif i).type = true
  · have hhas : s.beacons.bslot (s.beacons.avBslot i) = some i := (h _ i).mpr ⟨⟨hin, huses⟩, rfl⟩
    dsimp only
    rw [if_pos huses, B.remove_of_has _ _ hhas]
    exact h.give ⟨hin, huses⟩ fun _ ↦ Iff.rfl
  · dsimp only
    rw [if_neg huses]
    refine h.congr fun j ↦ and_iff_right_of_imp ?_
    rintro hj rfl
    exact huses hj.2

omit [DecidableEq ι] in
/-- A step that leaves the slots alone, and who sends beacons. -/
theorem BeaconsSlotted.frame (h : s.BeaconsSlotted) (hbeacons : t.beacons = s.beacons)
    (hsame : ∀ i, t.Beacons i ↔ s.Beacons i) : t.BeaconsSlotted := by
  rw [BeaconsSlotted, hbeacons]
  exact h.congr hsame

/-- The same where one interface changes. -/
theorem BeaconsSlotted.update {v : Vif} (h : s.BeaconsSlotted) (hbeacons : t.beacons = s.beacons)
    (hvif : t.vif = Function.update s.vif i v) (hin : v.inDriver = (s.vif i).inDriver)
    (htype : (s.vif i).inDriver = true → v.type = (s.vif i).type) : t.BeaconsSlotted := by
  refine h.frame hbeacons fun j ↦ ?_
  rw [Beacons, hvif]
  rcases eq_or_ne j i with rfl | hji
  · rw [Function.update_self, hin]
    exact and_congr_right fun hj ↦ by rw [htype hj]
  · rw [Function.update_of_ne hji, Beacons]

/-- An interface comes to the driver. -/
theorem BeaconsSlotted.add (h : s.BeaconsSlotted) (hs : s.Managed) (hlisted : s.interfaces.Nodup)
    (hi : i ∈ s.interfaces) (hout : (s.vif i).inDriver = false)
    (hifaces : t.interfaces = s.interfaces)
    (hvif : t.vif = Function.update s.vif i { s.vif i with inDriver := true })
    (hbeacons : t.beacons = (s.assignSlot B i).beacons) (hfit : t.BeaconsFit) :
    t.BeaconsSlotted := by
  rw [BeaconsFit, hifaces] at hfit
  rw [BeaconsSlotted, hbeacons]
  refine slotted_assign (show Slotted _ _ s.Beacons from h) ?_ (fun j ↦ ?_) hlisted hi ?_ hfit
  · exact fun hi ↦ Bool.eq_false_iff.mp hout hi.1
  · rw [Beacons, hvif]
    rcases eq_or_ne j i with rfl | hji
    · simp [Beacons, hout]
    · simp [Beacons, hji]
  · exact fun j hj ↦ (hs j).listed hj.1

/-- An interface changes its type. -/
theorem BeaconsSlotted.change {type : Iftype} {p2p : Bool} (h : s.BeaconsSlotted) (hs : s.Managed)
    (hlisted : s.interfaces.Nodup) (hin : (s.vif i).inDriver = true)
    (hifaces : t.interfaces = s.interfaces)
    (hvif : t.vif = Function.update s.vif i { s.vif i with type, p2p })
    (hbeacons : t.beacons = if ath9kUsesBeacons type then B.assign (s.removeSlot B i).beacons i
      else (s.removeSlot B i).beacons) (hfit : t.BeaconsFit) : t.BeaconsSlotted := by
  rw [BeaconsFit, hifaces] at hfit
  rw [BeaconsSlotted, hbeacons]
  refine slotted_assign (h.removeSlot hin) ?_ (fun j ↦ ?_) hlisted ((hs i).listed hin) ?_ hfit
  · exact fun hi ↦ hi.1 rfl
  · rw [Beacons, hvif]
    rcases eq_or_ne j i with rfl | hji
    · simp [hin]
    · simp [Beacons, hji]
  · exact fun j hj ↦ (hs j).listed hj.2.1

/-- **What one step does to the slots.** Each interface that sends beacons has one after it, if
there are enough. -/
theorem BeaconsSlotted.step (h : s.BeaconsSlotted) (hs : s.Managed) (hlisted : s.interfaces.Nodup)
    (hst : s.Moved C B e t) (hfit : t.BeaconsFit) : t.BeaconsSlotted := by
  cases hst with
  | create i addr type p2p new =>
    have hout : (s.vif i).inDriver = false := by
      rw [Bool.eq_false_iff]
      exact fun hin ↦ new ((hs i).listed hin)
    exact h.update rfl rfl hout.symm fun hin ↦ nomatch hout.symm.trans hin
  | destroy i out => exact h.frame rfl fun _ ↦ Iff.rfl
  | setup i addr type p2p out =>
    exact h.update rfl rfl rfl fun hin ↦ nomatch out.symm.trans hin
  | refuse | keep => exact h
  | beacon => exact h.frame rfl fun _ ↦ Iff.rfl
  | add i free listed out room =>
    obtain ⟨-, -, hbeacons⟩ := books_of_core (core_ath9kAddInterface (B := B) (i := i) room)
    obtain ⟨hvif, hifaces, -⟩ := frame_ath9kAddInterface s C B i
    generalize (s.ath9kAddInterface C B i).1 = u at hbeacons hvif hifaces hfit ⊢
    exact h.add hs hlisted listed out hifaces (congrArg (Function.update · i _) hvif) hbeacons hfit
  | up i | stop i | associate i | disassociate i | configure i | shortSlot i =>
    exact h.update rfl rfl rfl fun _ ↦ rfl
  | remove i held =>
    obtain ⟨-, -, hbeacons⟩ := books_of_core (core_ath9kRemoveInterface B s i)
    obtain ⟨hvif, -, -⟩ := frame_ath9kRemoveInterface B s i
    generalize s.ath9kRemoveInterface B i = u at hbeacons hvif ⊢
    have hremoved := h.removeSlot (B := B) ((hs i).held held).1
    rw [BeaconsSlotted, setVif, hbeacons]
    refine hremoved.congr fun j ↦ ?_
    rw [Beacons, hvif]
    rcases eq_or_ne j i with rfl | hji
    · simp
    · simp [Beacons, hji]
  | change i type p2p held tx99 =>
    obtain ⟨-, -, hbeacons⟩ :=
      books_of_core (core_ath9kChangeInterface (B := B) (i := i) tx99 type p2p)
    obtain ⟨hvif, hifaces, -⟩ := frame_ath9kChangeInterface B tx99 s i type p2p
    generalize (s.ath9kChangeInterface C B i type p2p).1 = u at hbeacons hvif hifaces hfit ⊢
    refine h.change (B := B) hs hlisted ((hs i).held held).1 hifaces hvif (hbeacons.trans ?_) hfit
    rw [assignSlot, summarise, setVif_vif, Function.update_self]
    rfl
  | part i changed noa tsf =>
    obtain ⟨-, -, hbeacons⟩ := books_of_core (core_ath9kBssInfoChanged s C i changed noa tsf)
    obtain ⟨hvif, -, -⟩ := frame_ath9kBssInfoChanged s C i changed noa tsf
    exact h.update hbeacons (congrArg (Function.update · i _) hvif) rfl fun _ ↦ rfl
  | inform i changed noa tsf =>
    obtain ⟨-, -, hbeacons⟩ := books_of_core (core_ath9kBssInfoChanged s C i changed noa tsf)
    obtain ⟨hvif, -, -⟩ := frame_ath9kBssInfoChanged s C i changed noa tsf
    exact h.frame hbeacons fun j ↦ by rw [Beacons, hvif, Beacons]
  | p2pPsTimer p =>
    obtain ⟨-, -, hbeacons⟩ := books_of_core (core_ath9kP2pPsTimer s p)
    obtain ⟨hvif, -, -⟩ := frame_ath9kP2pPsTimer s p
    exact h.frame hbeacons fun j ↦ by rw [Beacons, hvif, Beacons]

/-! ## The P2P power save -/

/-- The power save that the driver follows is that of an interface it serves, and its timer is set
in time. -/
structure P2pOk (C : IfaceConfig) (s : Ifaces ι) : Prop where
  known : ∀ i, s.p2pPsVif = some i → (s.vif i).inDriver = true
  ahead : ∀ a, s.p2pPsTimer = some a → a.Ahead
  allocated : C.p2pPsTimer = false → s.p2pPsVif = none ∧ s.p2pPsTimer = none

omit [DecidableEq ι] in
/-- A step that leaves the power save alone, and the interface it is that of. -/
theorem P2pOk.frame (h : s.P2pOk C) (hvif : t.p2pPsVif = s.p2pPsVif)
    (htimer : t.p2pPsTimer = s.p2pPsTimer)
    (hin : ∀ i, s.p2pPsVif = some i → (s.vif i).inDriver = true → (t.vif i).inDriver = true) :
    t.P2pOk C := by
  refine ⟨fun i hi ↦ ?_, htimer ▸ h.ahead, ?_⟩
  · rw [hvif] at hi
    exact hin i hi (h.known i hi)
  · rw [hvif, htimer]
    exact h.allocated

/-- The same where one interface changes and stays in the driver. -/
theorem P2pOk.update {v : Vif} (h : s.P2pOk C) (hvif : t.p2pPsVif = s.p2pPsVif)
    (htimer : t.p2pPsTimer = s.p2pPsTimer) (hupdate : t.vif = Function.update s.vif i v)
    (hin : (s.vif i).inDriver = true → v.inDriver = true) : t.P2pOk C := by
  refine h.frame hvif htimer fun j _ hj ↦ ?_
  rw [hupdate]
  rcases eq_or_ne j i with rfl | hji
  · rw [Function.update_self]
    exact hin hj
  · rwa [Function.update_of_ne hji]

omit [DecidableEq ι] in
/-- **The timer is set in time.** If the target is too near or has passed, the timer is set for a
millisecond from now. -/
theorem ahead_ath9kUpdateP2pPsTimer {avp : Option ι} {tsf : UInt32} {a : P2pArm}
    (h : ∀ b, s.p2pPsTimer = some b → b.Ahead)
    (ha : (s.ath9kUpdateP2pPsTimer avp tsf).p2pPsTimer = some a) : a.Ahead := by
  cases avp with
  | none => exact h a ha
  | some i =>
    simp only [ath9kUpdateP2pPsTimer] at ha
    split at ha
    · exact h a ha
    · obtain rfl := Option.some_inj.mp ha
      generalize (if (s.avp i).noa.absent = true then (s.avp i).noa.nextTsf.toInt32
        else (s.avp i).noa.nextTsf.toInt32 - 1000) = target
      rw [P2pArm.Ahead, Int32.toInt32_toUInt32]
      split
      · rw [Int32.add_comm, Int32.add_sub_cancel]
        exact Int32.le_rfl
      · rename_i hfar
        exact Int32.not_lt.mp hfar

omit [DecidableEq ι] in
theorem p2pPsVif_ath9kUpdateP2pPsTimer (s : Ifaces ι) (avp : Option ι) (tsf : UInt32) :
    (s.ath9kUpdateP2pPsTimer avp tsf).p2pPsVif = s.p2pPsVif := by
  cases avp with
  | none => rfl
  | some i =>
    simp only [ath9kUpdateP2pPsTimer]
    split <;> rfl

theorem P2pOk.ath9kUpdateP2pPs {noa : NoaData} {tsf : UInt32} (h : s.P2pOk C)
    (hin : (s.vif i).inDriver = true) : (s.ath9kUpdateP2pPs C i noa tsf).P2pOk C := by
  have hvif := vif_of_core (core_ath9kUpdateP2pPs s C i noa tsf)
  rw [Ifaces.ath9kUpdateP2pPs] at hvif ⊢
  split_ifs at hvif ⊢ with halloc htype
  · exact h
  · exact h
  · refine ⟨fun j hj ↦ ?_, fun a ha ↦ ?_, fun hno ↦ ?_⟩
    · rw [p2pPsVif_ath9kUpdateP2pPsTimer] at hj
      obtain rfl := Option.some_inj.mp hj
      rw [hvif]
      exact hin
    · dsimp only at ha
      refine ahead_ath9kUpdateP2pPsTimer ?_ ha
      exact h.ahead
    · exact absurd hno (by simpa using halloc)

theorem P2pOk.ath9kP2pPsTimer {q : P2pTimerInput} (h : s.P2pOk C) :
    (s.ath9kP2pPsTimer q).P2pOk C := by
  have hvif := vif_of_core (core_ath9kP2pPsTimer s q)
  cases hi : s.p2pPsVif with
  | none =>
    rw [Ifaces.ath9kP2pPsTimer, hi]
    exact h
  | some i =>
    simp only [Ifaces.ath9kP2pPsTimer, hi] at hvif ⊢
    have hsame : ∀ {c : Prop} [Decidable c] {v : AthVif},
        (if c then s.setAvp i v else s).p2pPsVif = s.p2pPsVif ∧
          (if c then s.setAvp i v else s).p2pPsTimer = s.p2pPsTimer := by
      intro c _ v
      split <;> exact ⟨rfl, rfl⟩
    refine ⟨fun j hj ↦ ?_, fun a ↦ ahead_ath9kUpdateP2pPsTimer fun b hb ↦ ?_, fun hno ↦ ?_⟩
    · rw [p2pPsVif_ath9kUpdateP2pPsTimer, hsame.1] at hj
      rw [hvif]
      exact h.known j hj
    · rw [hsame.2] at hb
      exact h.ahead b hb
    · simp [(h.allocated hno).1] at hi

/-- The timer has to do with no interface but the one that is followed. -/
theorem avp_ath9kP2pPsTimer {q : P2pTimerInput} (h : s.p2pPsVif ≠ some i) :
    (s.ath9kP2pPsTimer q).avp i = s.avp i := by
  have htimer : ∀ (u : Ifaces ι) (avp : Option ι) tsf,
      (u.ath9kUpdateP2pPsTimer avp tsf).avp = u.avp := by
    intro u avp tsf
    cases avp with
    | none => rfl
    | some j =>
      simp only [ath9kUpdateP2pPsTimer]
      split <;> rfl
  rw [Ifaces.ath9kP2pPsTimer]
  split
  · rfl
  · rename_i j hj
    have hij : i ≠ j := by
      rintro rfl
      exact h hj
    rw [htimer]
    have hsame : ∀ {c : Prop} [Decidable c] {v : AthVif},
        (if c then s.setAvp j v else s).avp i = s.avp i := by
      intro c _ v
      split
      · exact Function.update_of_ne hij _ _
      · rfl
    exact hsame

/-- The part of the state that the P2P power save has to itself. -/
def p2p (s : Ifaces ι) : Option ι × Option P2pArm := (s.p2pPsVif, s.p2pPsTimer)

omit [DecidableEq ι] in
theorem p2p_ite {c : Prop} [Decidable c] {u : Ifaces ι} (ht : t.p2p = s.p2p)
    (hu : u.p2p = s.p2p) : (if c then t else u).p2p = s.p2p := by
  split
  · exact ht
  · exact hu

omit [DecidableEq ι] in
theorem p2p_foldl {f : Ifaces ι → ι → Ifaces ι} (hf : ∀ s i, (f s i).p2p = s.p2p)
    (l : List ι) (s : Ifaces ι) : (l.foldl f s).p2p = s.p2p := by
  induction l generalizing s with
  | nil => rfl
  | cons i l ih => rw [List.foldl_cons, ih, hf]

theorem p2p_ath9kSetAssocState (s : Ifaces ι) (i : ι) : (s.ath9kSetAssocState i).p2p = s.p2p :=
  p2p_ite rfl rfl

theorem p2p_ath9kCalculateSummaryState (s : Ifaces ι) (vif : Option ι) :
    (s.ath9kCalculateSummaryState vif).p2p = s.p2p := by
  have hiter : ∀ (s : Ifaces ι) i, (s.ath9kStaVifIter i).p2p = s.p2p :=
    fun s i ↦ p2p_ite rfl (p2p_ite (p2p_ath9kSetAssocState s i) rfl)
  exact p2p_ite (p2p_foldl hiter _ _) rfl

theorem p2p_bssChangedAssoc (s : Ifaces ι) (i : ι) : (s.bssChangedAssoc i).p2p = s.p2p := by
  have hiter : ∀ (s : Ifaces ι) i, (s.ath9kBssAssocIter i).p2p = s.p2p :=
    fun s i ↦ p2p_ite rfl (p2p_ite (p2p_ath9kSetAssocState s i) rfl)
  have helect : (s.elect i).p2p = s.p2p := (p2p_foldl hiter _ _).trans (p2p_ite rfl rfl)
  exact p2p_ite helect helect

omit [DecidableEq ι] in
/-- A step that leaves that part alone. -/
theorem P2pOk.of_p2p (h : s.P2pOk C) (hp2p : t.p2p = s.p2p)
    (hin : ∀ i, s.p2pPsVif = some i → (s.vif i).inDriver = true → (t.vif i).inDriver = true) :
    t.P2pOk C := h.frame (congrArg Prod.fst hp2p) (congrArg Prod.snd hp2p) hin

theorem P2pOk.ath9kBssInfoChanged {changed : BssChanged} {noa : NoaData} {tsf : UInt32}
    (h : s.P2pOk C) (hin : (s.vif i).inDriver = true) :
    (s.ath9kBssInfoChanged C i changed noa tsf).P2pOk C := by
  have hkeep : ∀ {u v : Ifaces ι}, u.P2pOk C ∧ (u.vif i).inDriver = true → v.p2p = u.p2p →
      v.core = u.core → v.P2pOk C ∧ (v.vif i).inDriver = true := by
    intro u v hu hp2p hcore
    have hvif := vif_of_core hcore
    exact ⟨hu.1.of_p2p hp2p fun j _ hj ↦ hvif ▸ hj, hvif ▸ hu.2⟩
  have hassoc := hkeep (v := if changed.assoc then s.bssChangedAssoc i else s) ⟨h, hin⟩
    (p2p_ite (p2p_bssChangedAssoc s i) rfl) (core_ite (core_bssChangedAssoc s i) rfl)
  simp only [Ifaces.ath9kBssInfoChanged]
  generalize (if changed.assoc then s.bssChangedAssoc i else s) = u at hassoc
  have hibss := hkeep (v := if changed.ibss then u.bssChangedIbss i else u) hassoc
    (p2p_ite rfl rfl) (core_ite rfl rfl)
  generalize (if changed.ibss then u.bssChangedIbss i else u) = v at hibss
  have herp := hkeep (v := if changed.erpSlot then v.bssChangedErpSlot i else v) hibss
    (p2p_ite (p2p_ite rfl rfl) rfl) (core_ite (core_ite rfl rfl) rfl)
  generalize (if changed.erpSlot then v.bssChangedErpSlot i else v) = w at herp
  split
  · exact herp.1.ath9kUpdateP2pPs herp.2
  · exact herp.1

/-- **What one step does to the P2P power save.** -/
theorem P2pOk.step (h : s.P2pOk C) (hs : s.Managed) (hst : s.Moved C B e t) : t.P2pOk C := by
  have hassign : ∀ (u : Ifaces ι) i, (u.assignSlot B i).p2p = u.p2p := fun _ _ ↦ rfl
  cases hst with
  | create i addr type p2p new =>
    exact h.update rfl rfl rfl fun hin ↦ absurd ((hs i).listed hin) new
  | destroy i out => exact h.frame rfl rfl fun _ _ hin ↦ hin
  | refuse | keep => exact h
  | beacon => exact h.frame rfl rfl fun _ _ hin ↦ hin
  | setup i | up i | stop i | associate i | disassociate i | configure i | shortSlot i =>
    exact h.update rfl rfl rfl id
  | add i free listed out room =>
    have hadd : s.ath9kAddInterface C B i =
        (((s.countIn C i).ath9kCalculateSummaryState (some i)).assignSlot B i, 0) := if_neg room
    have hvif := (frame_ath9kAddInterface s C B i).1
    have hp2p : (s.ath9kAddInterface C B i).1.p2p = s.p2p := by
      rw [hadd, hassign, p2p_ath9kCalculateSummaryState]
      rfl
    generalize (s.ath9kAddInterface C B i).1 = u at hp2p hvif ⊢
    exact h.update (congrArg Prod.fst hp2p) (congrArg Prod.snd hp2p)
      (congrArg (Function.update · i _) hvif) fun _ ↦ rfl
  | remove i held =>
    have hvif := (frame_ath9kRemoveInterface B s i).1
    have hp2p : (s.ath9kRemoveInterface B i).p2p = (s.dropP2p i).p2p :=
      p2p_ath9kCalculateSummaryState _ none
    have hdrop : (s.dropP2p i).P2pOk C ∧ (s.dropP2p i).p2pPsVif ≠ some i := by
      rw [dropP2p]
      split_ifs with hi
      · exact ⟨⟨nofun, h.ahead, fun hno ↦ ⟨rfl, (h.allocated hno).2⟩⟩, nofun⟩
      · exact ⟨h, hi⟩
    generalize s.ath9kRemoveInterface B i = u at hp2p hvif ⊢
    refine hdrop.1.of_p2p hp2p fun j hj hin ↦ ?_
    have hji : j ≠ i := by
      rintro rfl
      exact hdrop.2 hj
    rw [vif_of_core (core_dropP2p s i)] at hin
    have hvif' : Function.update u.vif i
        { s.vif i with inDriver := false } j = s.vif j := by rw [hvif, Function.update_of_ne hji]
    exact (congrArg Vif.inDriver hvif').trans hin
  | change i type p2p held tx99 =>
    have hchange : s.ath9kChangeInterface C B i type p2p =
        ((((s.removeSlot B i).setVif i
          { s.vif i with type, p2p }).ath9kCalculateSummaryState (some i)).assignSlot B i, 0) :=
      if_neg (Bool.eq_false_iff.mp tx99)
    have hvif := (frame_ath9kChangeInterface B tx99 s i type p2p).1
    have hp2p : (s.ath9kChangeInterface C B i type p2p).1.p2p = s.p2p := by
      rw [hchange, hassign, p2p_ath9kCalculateSummaryState]
      rfl
    generalize (s.ath9kChangeInterface C B i type p2p).1 = u at hp2p hvif ⊢
    exact h.update (congrArg Prod.fst hp2p) (congrArg Prod.snd hp2p) hvif id
  | part i changed noa tsf known =>
    have hvif := (frame_ath9kBssInfoChanged s C i changed noa tsf).1
    have hpart : (s.ath9kBssInfoChanged C i changed noa tsf).P2pOk C := h.ath9kBssInfoChanged known
    generalize s.ath9kBssInfoChanged C i changed noa tsf = u at hvif hpart ⊢
    refine hpart.update rfl rfl rfl fun hin ↦ ?_
    rwa [hvif] at hin
  | inform i changed noa tsf known => exact h.ath9kBssInfoChanged known
  | p2pPsTimer q => exact h.ath9kP2pPsTimer

end Ifaces

section Results

variable {ι : Type*} [DecidableEq ι] {C : IfaceConfig} {B : BeaconOps ι} {s t : Ifaces ι}
  {es : List (IfaceEvent ι)}

omit [DecidableEq ι] in
theorem Ifaces.Fresh.booked (hs : s.Fresh) (hlisted : s.interfaces.Nodup) : s.Booked C := by
  have hout : ∀ i, ¬(s.vif i).inDriver = true := fun i ↦ Bool.eq_false_iff.mp (hs.vif i).1
  refine ⟨hlisted, ?_, fun _ i ↦ ?_⟩
  · rw [hs.nvifs, List.countP_eq_zero.mpr fun i _ ↦ hout i]
    rfl
  · rw [hs.tx99Vif]
    exact iff_of_false nofun (hout i)

omit [DecidableEq ι] in
theorem Ifaces.Fresh.beaconsSlotted (hs : s.Fresh) : s.BeaconsSlotted :=
  Slotted.empty hs.bslot fun i hi ↦ Bool.eq_false_iff.mp (hs.vif i).1 hi.1

theorem Ifaces.Fresh.booked_along (hs : s.Fresh) (hlisted : s.interfaces.Nodup)
    (h : (ifaces C B).run s es = some t) : t.Booked C := by
  refine (Machine.invariant (P := fun u : Ifaces ι ↦ u.Managed ∧ u.Booked C) ?_
    ⟨hs.managed, hs.booked hlisted⟩ h).2
  rintro u e v ⟨hu, hbook⟩ huv
  have hst := Ifaces.Moved.of_step huv
  exact ⟨hu.step hst, hbook.step hu hst⟩

/-- **The books agree with the interfaces.** Along every run the count is that of the interfaces in
the driver, and in TX99 mode there is no more than one, the one that transmits. Those of them that
send beacons have a slot each throughout, and nobody else has one, if and only if there are never
more of them than slots. -/
theorem booked_of_run (hs : s.Fresh) (hlisted : s.interfaces.Nodup)
    (h : (ifaces C B).run s es = some t) :
    t.Booked C ∧ ((ifaces C B).Throughout Ifaces.BeaconsSlotted s es ↔
      (ifaces C B).Throughout Ifaces.BeaconsFit s es) := by
  refine ⟨hs.booked_along hlisted h, Machine.throughout_iff_throughout hs.beaconsSlotted
    (fun pre u hu hslots ↦ ?_) fun pre u e v hu hslots huv hfit ↦ ?_⟩
  · exact hslots.fit (hs.booked_along (C := C) hlisted hu).listed
  · exact hslots.step (hs.managed_of_run hu) (hs.booked_along (C := C) hlisted hu).listed
      (Ifaces.Moved.of_step huv) hfit

/-- **The P2P power save.** Along every run the interface whose power save is followed is in the
driver, and whenever its timer is set, that is for a time at least a millisecond after the reading
of the clock; without a timer nothing is followed. When the timer fires, it changes the power save
of no interface but one in the driver. -/
theorem p2p_of_run (hs : s.Fresh) (h : (ifaces C B).run s es = some t) :
    t.P2pOk C ∧ ∀ q i, (t.ath9kP2pPsTimer q).avp i ≠ t.avp i → (t.vif i).inDriver = true := by
  have hok : t.P2pOk C := by
    refine (Machine.invariant (P := fun u : Ifaces ι ↦ u.Managed ∧ u.P2pOk C) ?_ ?_ h).2
    · rintro u e v ⟨hu, hp2p⟩ huv
      have hst := Ifaces.Moved.of_step huv
      exact ⟨hu.step hst, hp2p.step hu hst⟩
    · refine ⟨hs.managed, fun i hi ↦ ?_, fun a ha ↦ ?_, fun _ ↦ ⟨hs.p2pPsVif, hs.p2pPsTimer⟩⟩
      · exact nomatch hs.p2pPsVif.symm.trans hi
      · exact nomatch hs.p2pPsTimer.symm.trans ha
  refine ⟨hok, fun q i hi ↦ hok.known i ?_⟩
  by_contra hno
  exact hi (Ifaces.avp_ath9kP2pPsTimer hno)

/-- Access points are opened. -/
def accessPoints (n : ℕ) : List (IfaceEvent ℕ) :=
  (List.range n).flatMap fun i ↦ [.setup i (fun _ ↦ UInt8.ofNat i) .ap false, .add i, .up i]

/-- The ninth access point finds no slot. -/
theorem booked_of_run_ninth :
    (ifaces ⟨false, false⟩ .ath9k).Throughout Ifaces.BeaconsSlotted (noIfaces (List.range 9))
        (accessPoints 8) ∧
      ¬(ifaces ⟨false, false⟩ .ath9k).Throughout Ifaces.BeaconsSlotted (noIfaces (List.range 9))
        (accessPoints 9) := by
  have hrun : ∀ n ∈ [8, 9], ((ifaces ⟨false, false⟩ .ath9k).run (noIfaces (List.range 9))
      (accessPoints n)).isSome = true := by decide +kernel
  obtain ⟨t, ht⟩ := Option.isSome_iff_exists.mp (hrun 8 (by decide))
  obtain ⟨u, hu⟩ := Option.isSome_iff_exists.mp (hrun 9 (by decide))
  have hlisted : (noIfaces (List.range 9)).interfaces.Nodup := List.nodup_range
  exact ⟨(booked_of_run (fresh_noIfaces _) hlisted ht).2.mpr (by decide +kernel),
    (booked_of_run (fresh_noIfaces _) hlisted hu).2.not.mpr (by decide +kernel)⟩

/-- In TX99 mode a second interface is refused. -/
example : ((ifaces ⟨true, false⟩ .ath9k).run (noIfaces [1, 2]) [.add 1, .up 1, .add 2]).any
    (fun t ↦ t.tx99Vif = some 1) = true := by decide

/-- The timer of a P2P station, set for a time that has passed already. -/
theorem p2p_of_run_passed :
    ∃ t, (ifaces ⟨false, true⟩ .ath9k).run (noIfaces [1])
        [.setup 1 (fun _ ↦ 1) .station true, .add 1, .up 1,
          .bssInfoChanged 1 ⟨false, false, false, true⟩ ⟨5, true, false⟩ 9] = some t ∧
      ∃ a, t.p2pPsTimer = some a ∧ a.Ahead := by
  have hrun : ((ifaces ⟨false, true⟩ .ath9k).run (noIfaces [1])
      [.setup 1 (fun _ ↦ 1) .station true, .add 1, .up 1,
        .bssInfoChanged 1 ⟨false, false, false, true⟩ ⟨5, true, false⟩ 9]).any
      (fun t ↦ t.p2pPsTimer.isSome) = true := by decide
  obtain ⟨t, ht, hset⟩ := (Option.any_eq_true _ _).mp hrun
  obtain ⟨a, ha⟩ := Option.isSome_iff_exists.mp hset
  exact ⟨t, ht, a, ha, (p2p_of_run (fresh_noIfaces _) ht).1.ahead a ha⟩

end Results

end UcsmaRateControl
