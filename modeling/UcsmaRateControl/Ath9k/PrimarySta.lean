import UcsmaRateControl.Ath9k.Summary

/-!
# The primary station

Of the stations that are associated one is the primary one. The chip follows its access point,
provided that it is in the mode of a station; in any other mode the primary station is noted and
nothing else. When the mode becomes that of a station, the address and the identifier have to be
made up for, and the driver does so if the mode was that of an access point before. It does not if
it was that of an ad hoc network or of a mesh point.
-/

namespace UcsmaRateControl

namespace Ifaces

variable {ι : Type*} [DecidableEq ι] {C : IfaceConfig} {B : BeaconOps ι} {s t : Ifaces ι}
  {e : IfaceEvent ι}
  {i j p : ι}

/-- The interface is the primary station. -/
def IsPrimary (s : Ifaces ι) (i : ι) : Prop := (s.avp i).primaryStaVif = true

/-- The flag says whether there is a primary station, there is one at most, and it has an
association that the driver has not been told the end of. -/
structure Elected (s : Ifaces ι) : Prop where
  prim : s.primStaVif = true ↔ ∃ i, s.IsPrimary i
  unique : ∀ i j, s.IsPrimary i → s.IsPrimary j → i = j
  conn : ∀ i, s.IsPrimary i → (s.vif i).conn ≠ .idle

/-- The chip follows the access point of the interface. -/
structure Follows (s : Ifaces ι) (i : ι) : Prop where
  curbssid : s.curbssid = (s.vif i).bssConf.bssid
  curaid : s.curaid = (s.vif i).bssConf.aid
  associd : s.associd = (s.curbssid, s.curaid)

/-- In the mode of a station the chip follows the access point of the primary one. -/
def Synced (s : Ifaces ι) : Prop := s.opmode = .station → ∀ i, s.IsPrimary i → s.Follows i

/-- One state has the association of another. -/
structure Keeps (s t : Ifaces ι) : Prop where
  avp : ∀ i, t.IsPrimary i ↔ s.IsPrimary i
  primStaVif : t.primStaVif = s.primStaVif
  curbssid : t.curbssid = s.curbssid
  curaid : t.curaid = s.curaid
  associd : t.associd = s.associd

omit [DecidableEq ι] in
theorem Elected.frame (h : s.Elected) (havp : ∀ i, t.IsPrimary i ↔ s.IsPrimary i)
    (hprim : t.primStaVif = s.primStaVif)
    (hconn : ∀ i, s.IsPrimary i → (t.vif i).conn ≠ .idle) : t.Elected where
  prim := by rw [hprim, h.prim, exists_congr havp]
  unique i j hi hj := h.unique i j ((havp i).mp hi) ((havp j).mp hj)
  conn i hi := hconn i ((havp i).mp hi)

omit [DecidableEq ι] in
theorem Keeps.follows_iff (h : Keeps s t)
    (hbss : (t.vif i).bssConf.bssid = (s.vif i).bssConf.bssid ∧
      (t.vif i).bssConf.aid = (s.vif i).bssConf.aid) : t.Follows i ↔ s.Follows i := by
  constructor
  · rintro ⟨hb, ha, hw⟩
    exact ⟨by rw [← h.curbssid, hb, hbss.1], by rw [← h.curaid, ha, hbss.2],
      by rw [← h.associd, hw, h.curbssid, h.curaid]⟩
  · rintro ⟨hb, ha, hw⟩
    exact ⟨by rw [h.curbssid, hb, hbss.1], by rw [h.curaid, ha, hbss.2],
      by rw [h.associd, hw, h.curbssid, h.curaid]⟩

omit [DecidableEq ι] in
theorem Synced.frame (h : s.Synced) (hk : Keeps s t) (hmode : t.opmode = s.opmode)
    (hbss : ∀ i, s.IsPrimary i → (t.vif i).bssConf.bssid = (s.vif i).bssConf.bssid ∧
      (t.vif i).bssConf.aid = (s.vif i).bssConf.aid) : t.Synced := by
  intro hsta i hi
  have hi' := (hk.avp i).mp hi
  exact (hk.follows_iff (hbss i hi')).mpr (h (hmode ▸ hsta) i hi')

/-! ## Electing a primary station -/

theorem isPrimary_ath9kSetAssocState :
    (s.ath9kSetAssocState i).IsPrimary j ↔ j = i ∨ s.IsPrimary j := by
  have havp : (s.ath9kSetAssocState i).avp =
      Function.update s.avp i { s.avp i with primaryStaVif := true } := by
    rw [ath9kSetAssocState]
    split <;> rfl
  rw [IsPrimary, havp]
  rcases eq_or_ne j i with rfl | hji
  · simp
  · simp [hji, IsPrimary]

theorem primStaVif_ath9kSetAssocState : (s.ath9kSetAssocState i).primStaVif = true := by
  rw [ath9kSetAssocState]
  split <;> rfl

theorem follows_ath9kSetAssocState (h : s.opmode = .station) :
    (s.ath9kSetAssocState i).Follows i := by
  have hset : s.ath9kSetAssocState i = _ := if_neg (not_not.mpr h)
  rw [hset]
  exact ⟨rfl, rfl, rfl⟩

/-- An associated station becomes the primary one, if there is none or it is already. -/
theorem Elected.setAssoc (hi : (s.vif i).conn ≠ .idle) (halone : ∀ j, s.IsPrimary j → j = i) :
    (s.ath9kSetAssocState i).Elected ∧ (s.ath9kSetAssocState i).Synced := by
  have hvif := vif_of_core (core_ath9kSetAssocState s i)
  have hmode := opmode_of_core (core_ath9kSetAssocState s i)
  have honly : ∀ j, (s.ath9kSetAssocState i).IsPrimary j → j = i := fun j hj ↦
    (isPrimary_ath9kSetAssocState.mp hj).elim id (halone j)
  refine ⟨⟨?_, fun j k hj hk ↦ (honly j hj).trans (honly k hk).symm, fun j hj ↦ ?_⟩, ?_⟩
  · exact iff_of_true primStaVif_ath9kSetAssocState ⟨i, isPrimary_ath9kSetAssocState.mpr (.inl rfl)⟩
  · obtain rfl := honly j hj
    rwa [hvif]
  · intro hsta j hj
    obtain rfl := honly j hj
    exact follows_ath9kSetAssocState (hmode ▸ hsta)

/-- What is known while the associated interfaces are visited. -/
structure Electing (s t : Ifaces ι) : Prop where
  core : t.core = s.core
  elected : t.Elected
  synced : s.Synced → t.Synced

theorem Electing.iter (h : Electing s t) (hs : s.Managed) :
    Electing s (t.ath9kBssAssocIter i) := by
  obtain ⟨hcore, hel, hsync⟩ := h
  have hboth : (t.ath9kBssAssocIter i).Elected ∧
      (s.Synced → (t.ath9kBssAssocIter i).Synced) := by
    rw [ath9kBssAssocIter]
    split_ifs with hprim hassoc
    · exact ⟨hel, hsync⟩
    · rw [vif_of_core hcore] at hassoc
      have hconn : (t.vif i).conn ≠ .idle := by
        rw [vif_of_core hcore, (hs i).assoc.mp hassoc]
        exact nofun
      have hset := Elected.setAssoc hconn fun j hj ↦ absurd (hel.prim.mpr ⟨j, hj⟩) hprim
      exact ⟨hset.1, fun _ ↦ hset.2⟩
    · exact ⟨hel, hsync⟩
  exact ⟨(core_ath9kBssAssocIter t i).trans hcore, hboth.1, hboth.2⟩

theorem Electing.foldl (h : Electing s t) (hs : s.Managed) (l : List ι) :
    Electing s (l.foldl ath9kBssAssocIter t) := by
  induction l generalizing t with
  | nil => exact h
  | cons i l ih => exact ih (h.iter hs)

theorem primStaVif_foldl_of_true (h : t.primStaVif = true) (l : List ι) :
    (l.foldl ath9kBssAssocIter t).primStaVif = true := by
  induction l generalizing t with
  | nil => exact h
  | cons i l ih =>
    rw [List.foldl_cons, ath9kBssAssocIter, if_pos h]
    exact ih h

/-- If an interface that is visited is associated, there is a primary station afterwards. -/
theorem primStaVif_foldl {l : List ι} (hi : i ∈ l) (hassoc : (t.vif i).bssConf.assoc = true) :
    (l.foldl ath9kBssAssocIter t).primStaVif = true := by
  induction l generalizing t with
  | nil => exact absurd hi List.not_mem_nil
  | cons j l ih =>
    rw [List.foldl_cons]
    rcases List.mem_cons.mp hi with rfl | hi
    · refine primStaVif_foldl_of_true ?_ l
      rw [ath9kBssAssocIter]
      split_ifs with hprim
      · exact hprim
      · exact primStaVif_ath9kSetAssocState
    · refine ih hi ?_
      rwa [vif_of_core (core_ath9kBssAssocIter t j)]

theorem isPrimary_letGo :
    (s.letGo i).IsPrimary j ↔ s.IsPrimary j ∧ (j = i → (s.vif i).bssConf.assoc = true) := by
  rw [letGo]
  split_ifs with h
  · rcases eq_or_ne j i with rfl | hji
    · simp [IsPrimary, setAvp, h.2]
    · simp [IsPrimary, setAvp, hji]
  · refine ⟨fun hj ↦ ⟨hj, fun hji ↦ ?_⟩, And.left⟩
    subst hji
    exact Bool.eq_false_iff.not_left.mp fun hno ↦ h ⟨hj, hno⟩

theorem Electing.letGo (hel : s.Elected) : Electing s (s.letGo i) := by
  rw [Ifaces.letGo]
  split_ifs with h
  · have hnone : ∀ j, ¬({ s with primStaVif := false }.setAvp i
        { s.avp i with primaryStaVif := false }).IsPrimary j := by
      intro j hj
      rcases eq_or_ne j i with rfl | hji
      · simp [IsPrimary, setAvp] at hj
      · refine hji (hel.unique j i ?_ h.1)
        simpa [IsPrimary, setAvp, hji] using hj
    refine ⟨rfl, ⟨?_, fun j _ hj ↦ absurd hj (hnone j), fun j hj ↦ absurd hj (hnone j)⟩,
      fun _ _ j hj ↦ absurd hj (hnone j)⟩
    exact iff_of_false Bool.false_ne_true fun ⟨j, hj⟩ ↦ hnone j hj
  · exact ⟨rfl, hel, id⟩

/-- **What a change of the association does.** -/
theorem electing_bssChangedAssoc (hs : s.Managed) (hel : s.Elected) :
    Electing s (s.bssChangedAssoc i) := by
  have hfold : Electing s (s.elect i) := (Electing.letGo hel).foldl hs _
  rw [bssChangedAssoc]
  split_ifs with h
  · have hnone : ∀ j, ¬(s.elect i).IsPrimary j := fun j hj ↦
      absurd (hfold.elected.prim.mpr ⟨j, hj⟩) (Bool.eq_false_iff.mp h.1)
    exact ⟨hfold.core, ⟨hfold.elected.prim, hfold.elected.unique, hfold.elected.conn⟩,
      fun _ _ j hj ↦ absurd hj (hnone j)⟩
  · exact hfold

/-- Only an associated station is elected. -/
theorem isPrimary_foldl {l : List ι} (h : (l.foldl ath9kBssAssocIter t).IsPrimary j) :
    t.IsPrimary j ∨ (t.vif j).bssConf.assoc = true := by
  induction l generalizing t with
  | nil => exact .inl h
  | cons i l ih =>
    rw [List.foldl_cons] at h
    have hafter := ih h
    rw [vif_of_core (core_ath9kBssAssocIter t i), ath9kBssAssocIter] at hafter
    split_ifs at hafter with hprim hassoc
    · exact hafter
    · refine hafter.elim (fun hj ↦ ?_) .inr
      rcases isPrimary_ath9kSetAssocState.mp hj with rfl | hj
      · exact .inr hassoc
      · exact .inl hj
    · exact hafter

/-- An interface whose association has ended is not the primary station once the driver knows. -/
theorem not_isPrimary_bssChangedAssoc (h : (s.vif i).bssConf.assoc = false) :
    ¬(s.bssChangedAssoc i).IsPrimary i := by
  intro hi
  have hfold : (s.elect i).IsPrimary i := by
    rw [bssChangedAssoc] at hi
    split_ifs at hi <;> exact hi
  have hvif : (s.letGo i).vif = s.vif := vif_of_core (core_letGo s i)
  have hno : (s.vif i).bssConf.assoc ≠ true := Bool.eq_false_iff.mp h
  rcases isPrimary_foldl hfold with hprim | hassoc
  · exact hno ((isPrimary_letGo.mp hprim).2 rfl)
  · exact hno (hvif ▸ hassoc)

/-! ## Making up for the mode -/

/-- `ath9k_sta_vif_iter` elects nobody. -/
theorem avp_ath9kStaVifIter (s : Ifaces ι) (i : ι) : (s.ath9kStaVifIter i).avp = s.avp := by
  rw [ath9kStaVifIter]
  split_ifs with htype hprim
  · rfl
  · have hsame : Function.update s.avp i { s.avp i with primaryStaVif := true } = s.avp := by
      rw [Function.update_eq_self_iff, ← hprim]
    rw [ath9kSetAssocState]
    split <;> exact hsame
  · rfl

theorem primStaVif_ath9kStaVifIter (h : s.primStaVif = true) :
    (s.ath9kStaVifIter i).primStaVif = true := by
  rw [ath9kStaVifIter]
  split_ifs
  · exact h
  · exact primStaVif_ath9kSetAssocState
  · exact h

/-- Visiting one station while the chip is to follow the primary one. -/
theorem follows_ath9kStaVifIter (hmode : s.opmode = .station)
    (honly : ∀ j, s.IsPrimary j → j = p) (hp : s.IsPrimary p) (htype : (s.vif p).type = .station)
    (h : i = p ∨ s.Follows p) : (s.ath9kStaVifIter i).Follows p := by
  rw [ath9kStaVifIter]
  split_ifs with hsta hprim
  · exact h.resolve_left fun hip ↦ hsta (hip ▸ htype)
  · obtain rfl := honly i hprim
    exact follows_ath9kSetAssocState hmode
  · exact h.resolve_left fun hip ↦ hprim (hip ▸ hp)

/-- Visiting all of them. -/
theorem follows_foldl {l : List ι} (hmode : s.opmode = .station)
    (honly : ∀ j, s.IsPrimary j → j = p) (hp : s.IsPrimary p) (htype : (s.vif p).type = .station)
    (h : p ∈ l ∨ s.Follows p) : (l.foldl ath9kStaVifIter s).Follows p := by
  induction l generalizing s with
  | nil => exact h.resolve_left List.not_mem_nil
  | cons i l ih =>
    have hvif := vif_of_core (core_ath9kStaVifIter s i)
    have havp : ∀ j, (s.ath9kStaVifIter i).IsPrimary j ↔ s.IsPrimary j := fun j ↦ by
      rw [IsPrimary, IsPrimary, avp_ath9kStaVifIter]
    refine ih ((opmode_of_core (core_ath9kStaVifIter s i)).trans hmode)
      (fun j hj ↦ honly j ((havp j).mp hj)) ((havp p).mpr hp) (by rw [hvif]; exact htype) ?_
    rcases h with h | h
    · rcases List.mem_cons.mp h with rfl | h
      · exact .inr (follows_ath9kStaVifIter hmode honly hp htype (.inl rfl))
      · exact .inl h
    · exact .inr (follows_ath9kStaVifIter hmode honly hp htype (.inr h))

theorem keeps_foldl (hprim : s.primStaVif = true) (l : List ι) :
    (l.foldl ath9kStaVifIter s).avp = s.avp ∧
      (l.foldl ath9kStaVifIter s).primStaVif = true := by
  induction l generalizing s with
  | nil => exact ⟨rfl, hprim⟩
  | cons i l ih =>
    have hstep := ih (primStaVif_ath9kStaVifIter (i := i) hprim)
    rw [avp_ath9kStaVifIter] at hstep
    exact hstep

/-- The summary elects nobody. -/
theorem keeps_ath9kCalculateSummaryState (s : Ifaces ι) (vif : Option ι) :
    (s.ath9kCalculateSummaryState vif).avp = s.avp ∧
      (s.ath9kCalculateSummaryState vif).primStaVif = s.primStaVif := by
  simp only [ath9kCalculateSummaryState]
  split_ifs with h
  · have hkeeps := keeps_foldl h.2.2 s.active
    exact ⟨hkeeps.1, hkeeps.2.trans h.2.2.symm⟩
  · exact ⟨rfl, rfl⟩

/-- **Whom the chip follows after a change of the mode.** In the mode of a station it follows the
primary one if it did so before, or if the mode was that of an access point. -/
theorem follows_ath9kCalculateSummaryState {vif : Option ι} (hel : s.Elected) (hp : s.IsPrimary p)
    (hactive : p ∈ s.active) (htype : (s.vif p).type = .station)
    (hmode : (s.ath9kCalculateSummaryState vif).opmode = .station) :
    (s.ath9kCalculateSummaryState vif).Follows p ↔ s.opmode = .ap ∨ s.Follows p := by
  have hcore := core_ath9kCalculateSummaryState s vif
  have hnew : (s.summarise (s.iterData vif)).opmode = .station := by
    have hopmode := congrArg opmode hcore
    exact hopmode.symm.trans hmode
  simp only [ath9kCalculateSummaryState]
  split_ifs with h
  · refine iff_of_true ?_ (.inl h.2.1)
    exact follows_foldl (s := s.summarise (s.iterData vif)) hnew
      (fun j hj ↦ hel.unique j p hj hp) hp htype (.inl hactive)
  · have hnot : s.opmode ≠ .ap := fun hap ↦ h ⟨hnew, hap, hel.prim.mpr ⟨p, hp⟩⟩
    rw [or_iff_right hnot]
    exact ⟨fun ⟨hb, ha, hw⟩ ↦ ⟨hb, ha, hw⟩, fun ⟨hb, ha, hw⟩ ↦ ⟨hb, ha, hw⟩⟩

/-! ## One step -/

omit [DecidableEq ι] in
theorem Keeps.refl (s : Ifaces ι) : Keeps s s := ⟨fun _ ↦ Iff.rfl, rfl, rfl, rfl, rfl⟩

omit [DecidableEq ι] in
theorem Keeps.trans {u : Ifaces ι} (h : Keeps s t) (h' : Keeps t u) : Keeps s u :=
  ⟨fun i ↦ (h'.avp i).trans (h.avp i), h'.primStaVif.trans h.primStaVif,
    h'.curbssid.trans h.curbssid, h'.curaid.trans h.curaid, h'.associd.trans h.associd⟩

omit [DecidableEq ι] in
theorem Keeps.ite {c : Prop} [Decidable c] {u : Ifaces ι} (ht : Keeps s t) (hu : Keeps s u) :
    Keeps s (if c then t else u) := by
  split
  · exact ht
  · exact hu

omit [DecidableEq ι] in
theorem keeps_ath9kUpdateP2pPsTimer (s : Ifaces ι) (avp : Option ι) (tsf : UInt32) :
    Keeps s (s.ath9kUpdateP2pPsTimer avp tsf) := by
  cases avp with
  | none => exact .refl s
  | some i => exact .ite (.refl s) ⟨fun _ ↦ Iff.rfl, rfl, rfl, rfl, rfl⟩

/-- The parameters of the P2P power save are not those of the association. -/
theorem keeps_setNoa (s : Ifaces ι) (i : ι) (noa : NoaData) :
    Keeps s (s.setAvp i { s.avp i with noa }) := by
  refine ⟨fun j ↦ ?_, rfl, rfl, rfl, rfl⟩
  rw [IsPrimary, setAvp]
  rcases eq_or_ne j i with rfl | hji
  · simp [IsPrimary]
  · simp [IsPrimary, hji]

theorem keeps_ath9kUpdateP2pPs (s : Ifaces ι) (i : ι) (noa : NoaData) (tsf : UInt32) :
    Keeps s (s.ath9kUpdateP2pPs C i noa tsf) := by
  have hset : Keeps s ({ s with p2pPsVif := some i }.setAvp i { s.avp i with noa }) :=
    (keeps_setNoa s i noa).trans ⟨fun _ ↦ Iff.rfl, rfl, rfl, rfl, rfl⟩
  exact .ite (.refl s) (.ite (.refl s) (hset.trans (keeps_ath9kUpdateP2pPsTimer _ _ _)))

theorem keeps_ath9kP2pPsTimer (s : Ifaces ι) (q : P2pTimerInput) :
    Keeps s (s.ath9kP2pPsTimer q) := by
  rw [ath9kP2pPsTimer]
  split
  · exact .refl s
  · exact (Keeps.ite (keeps_setNoa s _ _) (.refl s)).trans (keeps_ath9kUpdateP2pPsTimer _ _ _)

theorem keeps_dropP2p (s : Ifaces ι) (i : ι) : Keeps s (s.dropP2p i) :=
  .ite ⟨fun _ ↦ Iff.rfl, rfl, rfl, rfl, rfl⟩ (.refl s)

omit [DecidableEq ι] in
theorem keeps_bssChangedErpSlot (s : Ifaces ι) (i : ι) : Keeps s (s.bssChangedErpSlot i) :=
  .ite ⟨fun _ ↦ Iff.rfl, rfl, rfl, rfl, rfl⟩ ⟨fun _ ↦ Iff.rfl, rfl, rfl, rfl, rfl⟩

/-- **A summary in the middle of a step.** -/
theorem synced_iff_of_summary {u : Ifaces ι} {vif : Option ι} (hel : s.Elected) (hu : Keeps s u)
    (hmode : u.opmode = s.opmode)
    (hvif : ∀ p, s.IsPrimary p → p ∈ u.active ∧ (s.vif p).type = .station ∧
      u.vif p = s.vif p ∧ (t.vif p).bssConf = (s.vif p).bssConf ∧
      (t.vif p).conn = (s.vif p).conn)
    (ht : Keeps (u.ath9kCalculateSummaryState vif) t)
    (hmode' : t.opmode = (u.ath9kCalculateSummaryState vif).opmode) :
    t.Elected ∧ (t.Synced ↔
      (t.opmode = .station → ∀ p, s.IsPrimary p → s.opmode = .ap ∨ s.Follows p)) := by
  have helu : u.Elected := hel.frame hu.avp hu.primStaVif fun p hp ↦ by
    rw [(hvif p hp).2.2.1]
    exact hel.conn p hp
  obtain ⟨havp, hprim⟩ := keeps_ath9kCalculateSummaryState u vif
  have hsame : ∀ p, t.IsPrimary p ↔ s.IsPrimary p := fun p ↦ by
    rw [ht.avp p, ← hu.avp p, IsPrimary, IsPrimary, havp]
  refine ⟨hel.frame hsame (ht.primStaVif.trans (hprim.trans hu.primStaVif)) fun p hp ↦ ?_, ?_⟩
  · rw [(hvif p hp).2.2.2.2]
    exact hel.conn p hp
  · have hsum : (u.ath9kCalculateSummaryState vif).vif = u.vif := by
      have hcore := congrArg Ifaces.vif (core_ath9kCalculateSummaryState u vif)
      exact hcore
    refine forall_congr' fun hsta ↦ forall_congr' fun p ↦ ?_
    rw [hsame p]
    refine forall_congr' fun hp ↦ ?_
    obtain ⟨hactive, htype, huv, hbss, -⟩ := hvif p hp
    have hfol := follows_ath9kCalculateSummaryState helu ((hu.avp p).mpr hp) hactive
      (by rw [huv]; exact htype) (hmode' ▸ hsta)
    rw [ht.follows_iff (by rw [hsum, huv, hbss]; exact ⟨rfl, rfl⟩), hfol, hmode,
      hu.follows_iff (by rw [huv]; exact ⟨rfl, rfl⟩)]

/-- What a notification of the driver does to the association. -/
theorem electing_ath9kBssInfoChanged {changed : BssChanged} {noa : NoaData} {tsf : UInt32}
    (hs : s.Managed) (hel : s.Elected) (hibss : changed.ibss = true → s.opmode ≠ .station) :
    Electing s (s.ath9kBssInfoChanged C i changed noa tsf) := by
  have hkeep : ∀ {u v : Ifaces ι}, Electing s u → Keeps u v → v.core = u.core → Electing s v := by
    intro u v h hk hcore
    refine ⟨hcore.trans h.core, h.elected.frame hk.avp hk.primStaVif fun p hp ↦ ?_, fun hsync ↦ ?_⟩
    · rw [vif_of_core hcore]
      exact h.elected.conn p hp
    · refine (h.synced hsync).frame hk (opmode_of_core hcore) fun p _ ↦ ?_
      rw [vif_of_core hcore]
      exact ⟨rfl, rfl⟩
  have hassoc : Electing s (if changed.assoc then s.bssChangedAssoc i else s) := by
    split
    · exact electing_bssChangedAssoc hs hel
    · exact ⟨rfl, hel, id⟩
  simp only [ath9kBssInfoChanged]
  generalize (if changed.assoc then s.bssChangedAssoc i else s) = u at hassoc
  have hibss' : Electing s (if changed.ibss then u.bssChangedIbss i else u) := by
    split
    · -- in the mode of a station there is no ad hoc network
      rename_i h
      refine ⟨hassoc.core, ⟨hassoc.elected.prim, hassoc.elected.unique, hassoc.elected.conn⟩, ?_⟩
      exact fun _ hsta ↦ absurd ((opmode_of_core hassoc.core).symm.trans hsta) (hibss h)
    · exact hassoc
  generalize (if changed.ibss then u.bssChangedIbss i else u) = v at hibss'
  have herp : Electing s (if changed.erpSlot then v.bssChangedErpSlot i else v) :=
    hkeep hibss' (.ite (keeps_bssChangedErpSlot v i) (.refl v)) (core_ite (core_ite rfl rfl) rfl)
  generalize (if changed.erpSlot then v.bssChangedErpSlot i else v) = w at herp
  exact hkeep herp (.ite (keeps_ath9kUpdateP2pPs w i noa tsf) (.refl w))
    (core_ite (core_ath9kUpdateP2pPs w C i noa tsf) rfl)

/-- Of a notification only the news of an association concern the primary station. -/
theorem isPrimary_ath9kBssInfoChanged {changed : BssChanged} {noa : NoaData} {tsf : UInt32}
    (h : changed.assoc = true) :
    (s.ath9kBssInfoChanged C i changed noa tsf).IsPrimary j ↔
      (s.bssChangedAssoc i).IsPrimary j := by
  have hibss : ∀ u : Ifaces ι, (if changed.ibss then u.bssChangedIbss i else u).avp = u.avp := by
    intro u
    split <;> rfl
  have herp : ∀ u : Ifaces ι,
      Keeps u (if changed.erpSlot then u.bssChangedErpSlot i else u) :=
    fun u ↦ .ite (keeps_bssChangedErpSlot u i) (.refl u)
  have hp2p : ∀ u : Ifaces ι, Keeps u
      (if changed.p2pPs = true ∧ u.beaconSync = false then u.ath9kUpdateP2pPs C i noa tsf else u) :=
    fun u ↦ .ite (keeps_ath9kUpdateP2pPs u i noa tsf) (.refl u)
  simp only [ath9kBssInfoChanged, if_pos h]
  rw [(hp2p _).avp, (herp _).avp, IsPrimary, hibss, ← IsPrimary]

/-- A step that puts the chip into the mode of a station makes up for the association, or has not
to. -/
def Resyncs (C : IfaceConfig) (B : BeaconOps ι) (s : Ifaces ι) (e : IfaceEvent ι) : Prop :=
  ∀ t, (ifaces C B).step s e = some t → t.opmode = .station →
    ∀ p, s.IsPrimary p → s.opmode = .ap ∨ s.Follows p

/-- What one step makes of the association. -/
structure Resynced (s t : Ifaces ι) : Prop where
  elected : t.Elected
  synced : s.Synced →
    (t.Synced ↔ (t.opmode = .station → ∀ p, s.IsPrimary p → s.opmode = .ap ∨ s.Follows p))

omit [DecidableEq ι] in
/-- A step that leaves the mode alone. -/
theorem Resynced.of_mode (hmode : t.opmode = s.opmode) (hel : t.Elected)
    (hsync : s.Synced → t.Synced) : Resynced s t :=
  ⟨hel, fun hss ↦ iff_of_true (hsync hss) fun hsta p hp ↦ .inr (hss (hmode ▸ hsta) p hp)⟩

omit [DecidableEq ι] in
/-- A step that leaves the association alone as well. -/
theorem Resynced.of_keeps (hel : s.Elected) (hk : Keeps s t) (hmode : t.opmode = s.opmode)
    (hvif : ∀ p, s.IsPrimary p → (t.vif p).bssConf.bssid = (s.vif p).bssConf.bssid ∧
      (t.vif p).bssConf.aid = (s.vif p).bssConf.aid ∧ (t.vif p).conn ≠ .idle) : Resynced s t :=
  .of_mode hmode (hel.frame hk.avp hk.primStaVif fun p hp ↦ (hvif p hp).2.2)
    fun hss ↦ hss.frame hk hmode fun p hp ↦ ⟨(hvif p hp).1, (hvif p hp).2.1⟩

/-- A step that concerns an interface that is not the primary one. -/
theorem Resynced.of_setVif {v : Vif} (hel : s.Elected) (hk : Keeps s t)
    (hmode : t.opmode = s.opmode) (hvif : t.vif = Function.update s.vif i v)
    (hi : ¬s.IsPrimary i) : Resynced s t := by
  refine .of_keeps hel hk hmode fun p hp ↦ ?_
  have hpi : p ≠ i := by
    rintro rfl
    exact hi hp
  rw [hvif, Function.update_of_ne hpi]
  exact ⟨rfl, rfl, hel.conn p hp⟩

omit [DecidableEq ι] in
theorem Suits.opmode_ne_station (h : s.Suits) (hhas : s.Has .adhoc) : s.opmode ≠ .station := by
  intro hsta
  have hm := h.mode
  rw [hsta] at hm
  cases hm with
  | station _ _ _ hadhoc => exact hadhoc hhas

omit [DecidableEq ι] in
theorem Elected.running (hel : s.Elected) (hs : s.Managed) (hp : s.IsPrimary p) :
    (s.vif p).running = true ∧ (s.vif p).type = .station := (hs p).conn (hel.conn p hp)

/-- A summary in the middle of a step, when nothing is about to change for the primary station. -/
theorem Resynced.of_summary {u : Ifaces ι} {w : Option ι} {v : Vif} (hs : s.Managed)
    (hel : s.Elected) (hu : Keeps s u) (hmode : u.opmode = s.opmode) (hifaces : u.active = s.active)
    (hi : ¬s.IsPrimary i) (huv : ∀ p, p ≠ i → u.vif p = s.vif p)
    (ht : Keeps (u.ath9kCalculateSummaryState w) t)
    (hmode' : t.opmode = (u.ath9kCalculateSummaryState w).opmode)
    (hvif : t.vif = Function.update s.vif i v) : Resynced s t := by
  have hsum := synced_iff_of_summary hel hu hmode (fun p hp ↦ ?_) ht hmode'
  · exact ⟨hsum.1, fun _ ↦ hsum.2⟩
  · have hpi : p ≠ i := by
      rintro rfl
      exact hi hp
    obtain ⟨hrun, htype⟩ := hel.running hs hp
    rw [hvif, Function.update_of_ne hpi, hifaces]
    exact ⟨hs.mem_active.mpr hrun, htype, huv p hpi, rfl, rfl⟩

theorem Resynced.add (hs : s.Managed) (hel : s.Elected) (room : ¬s.Full C)
    (hi : ¬s.IsPrimary i) :
    Resynced s { (s.ath9kAddInterface C B i).1.setVif i { s.vif i with inDriver := true } with
      rtnl := some i } := by
  have hadd : s.ath9kAddInterface C B i =
      (((s.countIn C i).ath9kCalculateSummaryState (some i)).assignSlot B i, 0) := if_neg room
  have hvif := (frame_ath9kAddInterface s C B i).1
  have hafter : ∀ u : Ifaces ι,
      Keeps u { (u.assignSlot B i).setVif i { s.vif i with inDriver := true } with
        rtnl := some i } := fun _ ↦ ⟨fun _ ↦ Iff.rfl, rfl, rfl, rfl, rfl⟩
  rw [hadd] at hvif ⊢
  refine .of_summary (u := s.countIn C i) (w := some i) hs hel
    ⟨fun _ ↦ Iff.rfl, rfl, rfl, rfl, rfl⟩ rfl rfl hi (fun _ _ ↦ rfl) (hafter _) ?_
    (congrArg (Function.update · i _) hvif)
  generalize (s.countIn C i).ath9kCalculateSummaryState (some i) = u
  rfl

theorem Resynced.remove (hs : s.Managed) (hel : s.Elected) (hi : ¬s.IsPrimary i) :
    Resynced s { (s.ath9kRemoveInterface B i).setVif i { s.vif i with inDriver := false } with
      rtnl := none } := by
  have hmode := opmode_of_core (core_dropP2p s i)
  have hactive := active_of_core (core_dropP2p s i)
  have hvif := vif_of_core (core_dropP2p s i)
  have hvif' := (frame_ath9kRemoveInterface B s i).1
  have hafter : ∀ u : Ifaces ι,
      Keeps u { u.setVif i { s.vif i with inDriver := false } with rtnl := none } :=
    fun _ ↦ ⟨fun _ ↦ Iff.rfl, rfl, rfl, rfl, rfl⟩
  rw [ath9kRemoveInterface] at hvif' ⊢
  refine .of_summary (u := (s.dropP2p i).countOut.removeSlot B i) (w := none) hs hel
    ((keeps_dropP2p s i).trans ⟨fun _ ↦ Iff.rfl, rfl, rfl, rfl, rfl⟩) hmode hactive hi
    (fun p _ ↦ congrFun hvif p) (hafter _) ?_ (congrArg (Function.update · i _) hvif')
  generalize ((s.dropP2p i).countOut.removeSlot B i).ath9kCalculateSummaryState none = u
  rfl

theorem Resynced.change {type : Iftype} {p2p : Bool} (hs : s.Managed) (hel : s.Elected)
    (htx : C.tx99 = false) (hi : ¬s.IsPrimary i) :
    Resynced s (s.ath9kChangeInterface C B i type p2p).1 := by
  have hvif := (frame_ath9kChangeInterface B htx s i type p2p).1
  have hchange : s.ath9kChangeInterface C B i type p2p =
      ((((s.removeSlot B i).setVif i
        { s.vif i with type, p2p }).ath9kCalculateSummaryState (some i)).assignSlot B i, 0) :=
    if_neg (Bool.eq_false_iff.mp htx)
  have hactive : ((s.removeSlot B i).setVif i { s.vif i with type, p2p }).active = s.active :=
    active_setVif (s := s.removeSlot B i) rfl
  have hkeep : Keeps s ((s.removeSlot B i).setVif i { s.vif i with type, p2p }) :=
    ⟨fun _ ↦ Iff.rfl, rfl, rfl, rfl, rfl⟩
  have hafter : ∀ u : Ifaces ι, Keeps u (u.assignSlot B i) :=
    fun _ ↦ ⟨fun _ ↦ Iff.rfl, rfl, rfl, rfl, rfl⟩
  rw [hchange] at hvif ⊢
  refine .of_summary (w := some i) hs hel hkeep rfl hactive hi
    (fun p hp ↦ Function.update_of_ne hp _ _) (hafter _) ?_ hvif
  generalize ((s.removeSlot B i).setVif i _).ath9kCalculateSummaryState (some i) = u
  rfl

/-- The driver hears that an association has ended. -/
theorem Resynced.part {changed : BssChanged} {noa : NoaData} {tsf : UInt32} (hs : s.Managed)
    (hel : s.Elected) (hassoc : changed.assoc = true) (hno : (s.vif i).bssConf.assoc = false)
    (hibss : changed.ibss = true → s.opmode ≠ .station) :
    Resynced s
      ((s.ath9kBssInfoChanged C i changed noa tsf).setVif i { s.vif i with conn := .idle }) := by
  have hel' : Electing s (s.ath9kBssInfoChanged C i changed noa tsf) :=
    electing_ath9kBssInfoChanged hs hel hibss
  -- the station that has parted is not the primary one any more
  have hi : ∀ p, (s.ath9kBssInfoChanged C i changed noa tsf).IsPrimary p → p ≠ i := by
    rintro p hp rfl
    exact not_isPrimary_bssChangedAssoc hno ((isPrimary_ath9kBssInfoChanged hassoc).mp hp)
  have hkeep : Keeps (s.ath9kBssInfoChanged C i changed noa tsf)
      ((s.ath9kBssInfoChanged C i changed noa tsf).setVif i { s.vif i with conn := .idle }) :=
    ⟨fun _ ↦ Iff.rfl, rfl, rfl, rfl, rfl⟩
  have hmode := opmode_of_core hel'.core
  refine .of_mode hmode (hel'.elected.frame hkeep.avp rfl fun p hp ↦ ?_)
    fun hss ↦ (hel'.synced hss).frame hkeep rfl fun p hp ↦ ?_
  · rw [setVif_vif, Function.update_of_ne (hi p hp)]
    exact hel'.elected.conn p hp
  · rw [setVif_vif, Function.update_of_ne (hi p hp)]
    exact ⟨rfl, rfl⟩

/-- **What one step does to the association.** -/
theorem Moved.resynced (hs : s.Managed) (hsum : s.Summarised) (hel : s.Elected)
    (hst : s.Moved C B e t) : Resynced s t := by
  have hrefl : Keeps s s := .refl s
  cases hst with
  | create i addr type p2p new =>
    have hi : ¬s.IsPrimary i := fun hi ↦
      new ((hs i).listed ((hs i).known (hel.running hs hi).1))
    refine .of_setVif hel ⟨fun j ↦ ?_, rfl, rfl, rfl, rfl⟩ rfl rfl hi
    rcases eq_or_ne j i with rfl | hji
    · exact iff_of_false (by simp [IsPrimary, setAvp, setVif, AthVif.new]) hi
    · simp [IsPrimary, setAvp, setVif, hji]
  | destroy i | beacon =>
    exact .of_keeps hel ⟨fun _ ↦ Iff.rfl, rfl, rfl, rfl, rfl⟩ rfl
      fun p hp ↦ ⟨rfl, rfl, hel.conn p hp⟩
  | refuse | keep => exact .of_keeps hel hrefl rfl fun p hp ↦ ⟨rfl, rfl, hel.conn p hp⟩
  | setup i addr type p2p out =>
    refine .of_setVif hel ⟨fun _ ↦ Iff.rfl, rfl, rfl, rfl, rfl⟩ rfl rfl fun hi ↦ ?_
    exact Bool.eq_false_iff.mp out ((hs i).known (hel.running hs hi).1)
  | add i free listed out room =>
    exact .add hs hel room fun hi ↦
      Bool.eq_false_iff.mp out ((hs i).known (hel.running hs hi).1)
  | up i held =>
    refine .of_setVif hel ⟨fun _ ↦ Iff.rfl, rfl, rfl, rfl, rfl⟩ rfl rfl fun hi ↦ ?_
    exact Bool.eq_false_iff.mp ((hs i).held held).2 (hel.running hs hi).1
  | stop i free running idle =>
    exact .of_setVif hel ⟨fun _ ↦ Iff.rfl, rfl, rfl, rfl, rfl⟩ rfl rfl fun hi ↦ hel.conn i hi idle
  | remove i held =>
    exact .remove hs hel fun hi ↦
      Bool.eq_false_iff.mp ((hs i).held held).2 (hel.running hs hi).1
  | change i type p2p held tx99 =>
    exact .change hs hel tx99 fun hi ↦
      Bool.eq_false_iff.mp ((hs i).held held).2 (hel.running hs hi).1
  | associate i bssid aid running station idle =>
    exact .of_setVif hel ⟨fun _ ↦ Iff.rfl, rfl, rfl, rfl, rfl⟩ rfl rfl fun hi ↦ hel.conn i hi idle
  | disassociate i joined =>
    refine .of_keeps hel ⟨fun _ ↦ Iff.rfl, rfl, rfl, rfl, rfl⟩ rfl fun p hp ↦ ?_
    rcases eq_or_ne p i with rfl | hpi
    · simp
    · rw [setVif_vif, Function.update_of_ne hpi]
      exact ⟨rfl, rfl, hel.conn p hp⟩
  | configure i bssid aid idle =>
    exact .of_setVif hel ⟨fun _ ↦ Iff.rfl, rfl, rfl, rfl, rfl⟩ rfl rfl fun hi ↦ hel.conn i hi idle
  | shortSlot i useShortSlot =>
    refine .of_keeps hel ⟨fun _ ↦ Iff.rfl, rfl, rfl, rfl, rfl⟩ rfl fun p hp ↦ ?_
    rcases eq_or_ne p i with rfl | hpi
    · simp [hel.conn p hp]
    · rw [setVif_vif, Function.update_of_ne hpi]
      exact ⟨rfl, rfl, hel.conn p hp⟩
  | part i changed noa tsf known ibss assoc leaving =>
    have hno : (s.vif i).bssConf.assoc = false := by
      rw [Bool.eq_false_iff]
      intro ha
      simp [(hs i).assoc.mp ha] at leaving
    exact .part hs hel assoc hno fun h ↦
      (hsum ⟨i, known⟩).2.opmode_ne_station ⟨i, known, ibss h⟩
  | inform i changed noa tsf known ibss stays =>
    have hel' : Ifaces.Electing s (s.ath9kBssInfoChanged C i changed noa tsf) :=
      electing_ath9kBssInfoChanged hs hel fun h ↦
        (hsum ⟨i, known⟩).2.opmode_ne_station ⟨i, known, ibss h⟩
    exact .of_mode (opmode_of_core hel'.core) hel'.elected hel'.synced
  | p2pPsTimer q =>
    have hcore := core_ath9kP2pPsTimer s q
    refine .of_keeps hel (keeps_ath9kP2pPsTimer s q) (opmode_of_core hcore) fun p hp ↦ ?_
    rw [vif_of_core hcore]
    exact ⟨rfl, rfl, hel.conn p hp⟩

omit [DecidableEq ι] in
theorem Fresh.elected (hs : s.Fresh) : s.Elected := by
  have hnone : ∀ i, ¬s.IsPrimary i := fun i hi ↦ Bool.eq_false_iff.mp (hs.avp i) hi
  refine ⟨?_, fun i _ hi ↦ absurd hi (hnone i), fun i hi ↦ absurd hi (hnone i)⟩
  exact iff_of_false (Bool.eq_false_iff.mp hs.primStaVif) fun ⟨i, hi⟩ ↦ hnone i hi

theorem Fresh.elected_of_run (hs : s.Fresh) {es : List (IfaceEvent ι)}
    (h : (ifaces C B).run s es = some t) : t.Elected := by
  refine (Machine.invariant
    (P := fun u : Ifaces ι ↦ u.Managed ∧ u.Summarised ∧ u.Elected) ?_ ?_ h).2.2
  · rintro u e v ⟨hu, hsum, hel⟩ huv
    have hst := Moved.of_step huv
    exact ⟨hu.step hst, hsum.step hu hst, (hst.resynced hu hsum hel).elected⟩
  · exact ⟨hs.managed, fun ⟨i, hi⟩ ↦ absurd hi (Bool.eq_false_iff.mp (hs.vif i).1), hs.elected⟩

/-- When the driver is told of an association, it has a primary station afterwards. -/
theorem exists_isPrimary_bssChangedAssoc (hs : s.Managed) (hel : s.Elected)
    (hj : (s.vif j).running = true) (hassoc : (s.vif j).bssConf.assoc = true) :
    ∃ p, (s.bssChangedAssoc i).IsPrimary p := by
  have hcore := core_letGo s i
  have hmem : j ∈ (s.letGo i).active := active_of_core hcore ▸ hs.mem_active.mpr hj
  have helect : (s.elect i).primStaVif = true :=
    primStaVif_foldl hmem (by rw [vif_of_core hcore]; exact hassoc)
  rw [← (electing_bssChangedAssoc hs hel).elected.prim, bssChangedAssoc,
    if_neg fun hno ↦ absurd helect (Bool.eq_false_iff.mp hno.1)]
  exact helect

end Ifaces

section Results

variable {ι : Type*} [DecidableEq ι] {C : IfaceConfig} {B : BeaconOps ι} {s t : Ifaces ι}
  {es : List (IfaceEvent ι)}

/-- **The primary station.** Along every run the flag of the driver is set if and only if exactly
one interface is the primary one, and that is an active station whose association has not ended as
far as the driver knows. Whenever the driver is told of an association while an active interface has
one, there is a primary station afterwards. -/
theorem primary_of_run (hs : s.Fresh) (h : (ifaces C B).run s es = some t) :
    (t.primStaVif = true ↔ ∃! p, t.IsPrimary p) ∧
      (∀ p, t.IsPrimary p →
        (t.vif p).running = true ∧ (t.vif p).type = .station ∧ (t.vif p).conn ≠ .idle) ∧
      ∀ i changed noa tsf u, changed.assoc = true →
        (ifaces C B).step t (.bssInfoChanged i changed noa tsf) = some u →
        (∃ j, (t.vif j).running = true ∧ (t.vif j).bssConf.assoc = true) →
        ∃ p, u.IsPrimary p := by
  have hm := hs.managed_of_run h
  have hel := hs.elected_of_run h
  refine ⟨?_, fun p hp ↦ ?_, ?_⟩
  · rw [hel.prim]
    exact ⟨fun ⟨p, hp⟩ ↦ ⟨p, hp, fun q hq ↦ hel.unique q p hq hp⟩, ExistsUnique.exists⟩
  · exact ⟨(hel.running hm hp).1, (hel.running hm hp).2, hel.conn p hp⟩
  · rintro i changed noa tsf u hassoc hstep ⟨j, hj, hj'⟩
    obtain ⟨p, hp⟩ := Ifaces.exists_isPrimary_bssChangedAssoc (i := i) hm hel hj hj'
    have hp' : (t.ath9kBssInfoChanged C i changed noa tsf).IsPrimary p :=
      (Ifaces.isPrimary_ath9kBssInfoChanged hassoc).mpr hp
    cases Ifaces.Moved.of_step hstep with
    | part => exact ⟨p, hp'⟩
    | inform => exact ⟨p, hp'⟩

/-- **Whom the chip follows.** In the mode of a station the chip follows the access point of the
primary one throughout a run, if and only if no step of the run puts the chip into that mode from
that of an ad hoc network or of a mesh point, while there is a primary station and the chip follows
another network. -/
theorem synced_iff_of_run (hs : s.Fresh) (h : (ifaces C B).run s es = some t) :
    (ifaces C B).Throughout Ifaces.Synced s es ↔ (ifaces C B).Meets (Ifaces.Resyncs C B) s es := by
  refine Machine.throughout_iff_meets ?_ (fun pre u e v hu hPu huv ↦ ?_) h
  · exact fun _ i hi ↦ absurd hi (Bool.eq_false_iff.mp (hs.avp i))
  · have hst := (Ifaces.Moved.of_step huv).resynced (hs.managed_of_run hu)
      (hs.summarised_of_run hu) (hs.elected_of_run hu)
    rw [hst.synced hPu]
    refine ⟨fun hsync w hw ↦ ?_, fun hC ↦ hC v huv⟩
    obtain rfl := Option.some_inj.mp (huv.symm.trans hw)
    exact hsync

/-- What is to be done first, for a station to be the primary one. -/
def associated (i : ℕ) : List (IfaceEvent ℕ) :=
  [.add i, .up i, .associate i (fun _ ↦ 7) 5,
    .bssInfoChanged i ⟨true, false, false, false⟩ ⟨0, false, false⟩ 0]

/-- A station that has associated is the primary one. -/
theorem primary_of_run_associated :
    ∃ t, (ifaces ⟨false, false⟩ .ath9k).run (noIfaces [1, 2]) (associated 1) = some t ∧
      ∃! p, t.IsPrimary p := by
  have hrun : ((ifaces ⟨false, false⟩ .ath9k).run (noIfaces [1, 2]) (associated 1)).any
      (fun t ↦ t.primStaVif) = true := by decide
  obtain ⟨t, ht, hprim⟩ := (Option.any_eq_true _ _).mp hrun
  exact ⟨t, ht, (primary_of_run (fresh_noIfaces _) ht).1.mp hprim⟩

/-- Beside the station there is an ad hoc network for a while. Afterwards the chip does not go back
to the access point of the station. -/
theorem synced_iff_of_run_adhoc :
    ∃ es t, (ifaces ⟨false, false⟩ .ath9k).run (noIfaces [1, 2]) es = some t ∧
      ¬(ifaces ⟨false, false⟩ .ath9k).Throughout Ifaces.Synced (noIfaces [1, 2]) es := by
  let pre : List (IfaceEvent ℕ) := associated 1 ++ [.setup 2 (fun _ ↦ 2) .adhoc false, .add 2,
    .up 2, .configure 2 (fun _ ↦ 9) 0,
    .bssInfoChanged 2 ⟨false, true, false, false⟩ ⟨0, false, false⟩ 0, .stop 2]
  have hpre : ((ifaces ⟨false, false⟩ .ath9k).run (noIfaces [1, 2]) pre).any (fun u ↦
      decide ((u.avp 1).primaryStaVif = true ∧ u.opmode ≠ .ap ∧
        u.curbssid 0 ≠ (u.vif 1).bssConf.bssid 0) &&
      ((ifaces ⟨false, false⟩ .ath9k).step u (.remove 2)).any fun t ↦
        t.opmode = .station) = true := by decide
  obtain ⟨u, hu, hu'⟩ := (Option.any_eq_true _ _).mp hpre
  obtain ⟨hprim, hstep⟩ := Bool.and_eq_true_iff.mp hu'
  obtain ⟨hprim, hap, hother⟩ := of_decide_eq_true hprim
  obtain ⟨t, ht, hsta⟩ := (Option.any_eq_true _ _).mp hstep
  have hrun := Machine.run_concat_eq_some.mpr ⟨u, hu, ht⟩
  refine ⟨pre ++ [.remove 2], t, hrun, (synced_iff_of_run (fresh_noIfaces _) hrun).not.mpr ?_⟩
  intro hmeets
  have hresyncs := (Machine.meets_concat.mp hmeets).2 u hu t ht (of_decide_eq_true hsta) 1 hprim
  exact hother (congrFun (hresyncs.resolve_left hap).curbssid 0)

end Results

end UcsmaRateControl
