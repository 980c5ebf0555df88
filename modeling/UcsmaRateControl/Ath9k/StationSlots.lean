import UcsmaRateControl.Ath9k.StationKeys
import UcsmaRateControl.Machine.Pool

/-!
# What a station remembers of its keys

A station has room for four slots. A key that is put into a fifth one is in the table all the same,
but nothing remembers it, and its frames are not held back while the station sleeps.
-/

namespace UcsmaRateControl

namespace KeyTable

variable {σ κ μ : Type*} [DecidableEq σ] [DecidableEq κ] [Fintype κ] {C : KeyConfig σ κ}
  {K : KeyOps μ} {s t : KeyTable σ κ μ} {x : σ} {k : κ} {v : UInt8} {env : ℕ} {e : KeyEvent σ κ}

/-! ## The slots that a station remembers -/

/-- How many of the keys of the station are in the slot. -/
def keysIn (C : KeyConfig σ κ) (s : KeyTable σ κ μ) (x : σ) (v : UInt8) : ℕ :=
  ∑ k, if (C.info k).sta = some x ∧ (s.key k).hwKeyIdx = v then 1 else 0

/-- The station has the slot for its power save. -/
def KeyNode.psIn (n : KeyNode) (v : UInt8) : ℕ := if n.psKey.toUInt8 = v then 1 else 0

/-- The slots that a station remembers are those of its keys and of its power save. -/
def Recorded (C : KeyConfig σ κ) (s : KeyTable σ κ μ) : Prop :=
  ∀ x v, v ≠ 0 → (s.node x).keyIdx.count v = s.keysIn C x v + KeyNode.psIn (s.node x) v

/-- The station that a key is for has room for its slot. -/
def HasRoom (C : KeyConfig σ κ) (K : KeyOps μ) (s : KeyTable σ κ μ) : KeyEvent σ κ → Prop
  | .setKey k env =>
    refusal C k = none → ∀ v, (K.config env (s.makeRoom C K k).hw (C.info k).cipher).2 = .ok v →
      v ≠ 0 → ∀ x, (C.info k).sta = some x → (0 : UInt8) ∈ ((s.makeRoom C K k).node x).keyIdx
  | _ => True

/-- What a key that changes does to the count. -/
theorem keysIn_update {c : KeyConf} (hkey : t.key = Function.update s.key k c) (x : σ) (v : UInt8) :
    t.keysIn C x v + (if (C.info k).sta = some x ∧ (s.key k).hwKeyIdx = v then 1 else 0) =
      s.keysIn C x v + if (C.info k).sta = some x ∧ c.hwKeyIdx = v then 1 else 0 := by
  have hfun : (fun l ↦ if (C.info l).sta = some x ∧ (t.key l).hwKeyIdx = v then 1 else 0) =
      Function.update (fun l ↦ if (C.info l).sta = some x ∧ (s.key l).hwKeyIdx = v then 1 else 0)
        k (if (C.info k).sta = some x ∧ c.hwKeyIdx = v then 1 else 0) := by
    funext l
    rcases eq_or_ne l k with rfl | hlk
    · rw [hkey, Function.update_self, Function.update_self]
    · rw [hkey, Function.update_of_ne hlk, Function.update_of_ne hlk]
  rw [keysIn, hfun]
  exact Pool.sum_update _ k _

omit [DecidableEq κ] in
theorem keysIn_congr (hkey : ∀ k, (t.key k).hwKeyIdx = (s.key k).hwKeyIdx) (x : σ) (v : UInt8) :
    t.keysIn C x v = s.keysIn C x v := by
  simp only [keysIn, hkey]

omit [DecidableEq κ] in
/-- What changes neither the slots of the keys nor what is remembered of them. -/
theorem Recorded.frame (h : s.Recorded C) (hkey : ∀ k, (t.key k).hwKeyIdx = (s.key k).hwKeyIdx)
    (hnode : ∀ x, (t.node x).psKey = (s.node x).psKey ∧
      (t.node x).keyIdx = (s.node x).keyIdx) : t.Recorded C := by
  intro x v hv
  rw [keysIn_congr hkey, KeyNode.psIn, (hnode x).1, (hnode x).2]
  exact h x v hv

/-- What a single slot adds to the count. -/
theorem count_single {v w : UInt8} (hw : w ≠ 0) :
    (#v[v, 0, 0, 0] : Vector UInt8 4).count w = if v = w then 1 else 0 := by
  simp [Vector.count, hw.symm, List.count_cons]

omit [DecidableEq κ] in
/-- A station none of whose keys is in the table. -/
theorem Kept.keysIn_eq_zero (h : s.Kept C K) (hv : v ≠ 0)
    (hno : ∀ k, (C.info k).sta = some x → (s.key k).uploaded = false) : s.keysIn C x v = 0 := by
  refine Finset.sum_eq_zero fun k _ ↦ if_neg ?_
  rintro ⟨hk, hidx⟩
  exact hv (hidx.symm.trans (h.idle k (hno k hk)))

@[simp] theorem psIn_keyIdx (n : KeyNode) (l : Vector UInt8 4) (v : UInt8) :
    KeyNode.psIn { n with keyIdx := l } v = KeyNode.psIn n v := rfl

theorem psIn_noPsKey (n : KeyNode) (hv : v ≠ 0) : KeyNode.psIn (KeyNode.noPsKey n) v = 0 := by
  rw [KeyNode.psIn, psKey_noPsKey]
  exact if_neg hv.symm

omit [DecidableEq κ] in
theorem Recorded.ath9kDelPsKey (hs : s.Kept C K) (h : s.Recorded C) (x : σ) :
    (s.ath9kDelPsKey K x).Recorded C := by
  obtain ⟨hkey, -, hnode, -⟩ := ath9kDelPsKey_spec K s x
  generalize s.ath9kDelPsKey K x = t at hkey hnode ⊢
  intro y v hv
  rw [keysIn_congr (s := s) fun k ↦ by rw [hkey], hnode]
  rcases eq_or_ne y x with rfl | hyx
  · rw [Function.update_self, psIn_noPsKey _ hv]
    by_cases hps : (s.node y).psKey = 0
    · have hsame : KeyNode.noPsKey (s.node y) = s.node y := if_pos hps
      have hcount := h y v hv
      rw [hsame, hcount, ← hsame, psIn_noPsKey _ hv]
    · obtain ⟨-, hidx, hno⟩ := hs.alone y hps
      have hzero : (KeyNode.noPsKey (s.node y)).keyIdx = #v[0, 0, 0, 0] := by
        rw [KeyNode.noPsKey, if_neg hps, hidx]
        rfl
      rw [hzero, count_single hv, if_neg hv.symm, hs.keysIn_eq_zero hv hno]
  · rw [Function.update_of_ne hyx]
    exact h y v hv

omit [DecidableEq κ] in
theorem Recorded.makeRoom (hs : s.Kept C K) (h : s.Recorded C) (k : κ) :
    (s.makeRoom C K k).Recorded C := by
  rw [KeyTable.makeRoom]
  cases (C.info k).sta with
  | none => exact h
  | some x => exact h.ath9kDelPsKey hs x

/-- A key is remembered if and only if there is room for it. -/
theorem recorded_put {c : KeyConf} (hs : s.Kept C K) (h : s.Recorded C)
    (hk : (s.key k).uploaded = false) (hv : v ≠ 0) (hc : c.hwKeyIdx = v)
    (hkey : t.key = Function.update s.key k c) (hnode : t.node = (s.replaceIdx C k 0 v).node) :
    t.Recorded C ↔ ∀ x, (C.info k).sta = some x → (0 : UInt8) ∈ (s.node x).keyIdx := by
  have hidle := hs.idle k hk
  have hcount : ∀ x w, w ≠ 0 → t.keysIn C x w =
      s.keysIn C x w + if (C.info k).sta = some x ∧ v = w then 1 else 0 := by
    intro x w hw
    have hupdate := keysIn_update (C := C) hkey x w
    rw [hidle, hc, if_neg fun hno ↦ hw hno.2.symm] at hupdate
    exact hupdate
  constructor
  · intro ht x hx
    by_contra hno
    have hbefore := h x v hv
    have hafter := ht x v hv
    rw [hnode, node_replaceIdx, if_pos hx, hcount x v hv, if_pos ⟨hx, rfl⟩, psIn_keyIdx,
      Vector.replace_of_not_mem hno, hbefore] at hafter
    omega
  · intro hroom x w hw
    rw [hnode, node_replaceIdx, hcount x w hw]
    by_cases hx : (C.info k).sta = some x
    · have hmem : (s.node x).keyIdx.contains 0 = true := by simpa using hroom x hx
      have hcount' : ((s.node x).keyIdx.replace 0 v).count w =
          (s.node x).keyIdx.count w + if v = w then 1 else 0 := by
        rw [Vector.count_replace, if_pos hmem]
        simp [hw.symm]
      have hbefore := h x w hw
      rw [if_pos hx, hcount', hbefore, psIn_keyIdx]
      simp only [hx, true_and]
      exact Nat.add_right_comm _ _ _
    · rw [if_neg hx, if_neg fun hno ↦ hx hno.1]
      exact h x w hw

/-- A key that is remembered is forgotten. -/
theorem Recorded.drop {c : KeyConf} (h : s.Recorded C) (hc : c.hwKeyIdx = 0)
    (hkey : t.key = Function.update s.key k c)
    (hnode : t.node = (s.replaceIdx C k (s.key k).hwKeyIdx 0).node) : t.Recorded C := by
  intro x w hw
  have hnot : ¬((C.info k).sta = some x ∧ (0 : UInt8) = w) := fun hno ↦ hw hno.2.symm
  have hcount := keysIn_update (C := C) hkey x w
  rw [hc, if_neg hnot, Nat.add_zero] at hcount
  have hbefore := h x w hw
  rw [hnode, node_replaceIdx]
  by_cases hx : (C.info k).sta = some x
  · simp only [hx, true_and] at hcount
    rw [if_pos hx, psIn_keyIdx, Vector.count_replace]
    simp only [beq_iff_eq, hw.symm, if_false, Nat.add_zero]
    split
    · omega
    · rename_i hno
      have hidx : (s.key k).hwKeyIdx ≠ w := by
        rintro rfl
        rw [if_pos rfl] at hcount
        have hpos : 0 < (s.node x).keyIdx.count (s.key k).hwKeyIdx := by omega
        exact hno (Vector.contains_iff_mem.mpr (Vector.count_pos_iff.mp hpos))
      rw [if_neg hidx] at hcount
      omega
  · rw [if_neg hx]
    rw [if_neg fun hno ↦ hx hno.1] at hcount
    omega

omit [DecidableEq κ] in
/-- A station that is added remembers the slot of its power save. -/
theorem Recorded.add {n : KeyNode} (hs : s.Kept C K) (h : s.Recorded C) (hx : s.known x = false)
    (hn : n.psKey.toUInt8 = v ∧ n.keyIdx = #v[v, 0, 0, 0]) (hkey : t.key = s.key)
    (hnode : t.node = Function.update s.node x n) : t.Recorded C := by
  intro y w hw
  have hcount := keysIn_congr (C := C) (fun k ↦ by rw [hkey] :
    ∀ k, (t.key k).hwKeyIdx = (s.key k).hwKeyIdx) y w
  rw [hcount, hnode]
  rcases eq_or_ne y x with rfl | hyx
  · rw [Function.update_self, hn.2, count_single hw,
      hs.keysIn_eq_zero hw fun k ↦ hs.not_uploaded hx, KeyNode.psIn, hn.1]
    exact (Nat.zero_add _).symm
  · rw [Function.update_of_ne hyx]
    exact h y w hw

/-- **A step keeps the slots remembered if and only if there is room for them.** -/
theorem recorded_step (hs : s.Kept C K) (h : s.Recorded C)
    (hst : (stationKeys C K).step s e = some t) : t.Recorded C ↔ s.HasRoom C K e := by
  cases e with
  | staAdd x env =>
    obtain ⟨hx, ⟨⟩⟩ := Option.ite_none_right_eq_some.mp hst
    obtain ⟨v, hkey, hnode, -⟩ := staAdd_spec C K s x env
    refine iff_of_true (h.add hs (v := v) hx ⟨?_, rfl⟩ hkey hnode) trivial
    dsimp only
    split
    · rename_i hv
      rw [hs.psKey_eq_zero hx, hv]
      rfl
    · rfl
  | staRemove x =>
    obtain ⟨-, ⟨⟩⟩ := Option.ite_none_right_eq_some.mp hst
    exact iff_of_true (h.ath9kDelPsKey hs x) trivial
  | setKey k env =>
    obtain ⟨⟨hk, -⟩, ⟨⟩⟩ := Option.ite_none_right_eq_some.mp hst
    have hroom := h.makeRoom hs k
    have hkept := hs.makeRoom k
    obtain ⟨hkey, -, -⟩ := frame_makeRoom C K s k
    cases hacc : refusal C k with
    | some e =>
      have hsame : (uploadedIf k (s.ath9kSetKey C K k env)).Recorded C := by
        rw [ath9kSetKey, hacc, uploadedIf]
        refine h.frame (fun l ↦ ?_) fun _ ↦ ⟨rfl, rfl⟩
        rcases eq_or_ne l k with rfl | hlk
        · simp [setConf]
        · simp [setConf, hlk]
      exact iff_of_true hsame fun hno ↦ absurd (hacc.symm.trans hno) (Option.some_ne_none e)
    | none =>
      rw [← hkey] at hk
      cases hret : (K.config env (s.makeRoom C K k).hw (C.info k).cipher).2 with
      | error e =>
        obtain ⟨c, hidx, -, heq⟩ := setKey_error s hacc hret
        rw [heq]
        refine iff_of_true (hroom.frame (fun l ↦ ?_) fun _ ↦ ⟨rfl, rfl⟩)
          fun _ v hv ↦ by cases hret.symm.trans hv
        rcases eq_or_ne l k with rfl | hlk
        · simp [hidx, hkept.idle l hk]
        · simp [hlk, hkey]
      | ok v =>
        obtain ⟨c, hidx, -, heq⟩ := setKey_ok s hacc hret
        rw [heq]
        have hroom_iff : s.HasRoom C K (.setKey k env) ↔ (v ≠ 0 → ∀ x, (C.info k).sta = some x →
            (0 : UInt8) ∈ ((s.makeRoom C K k).node x).keyIdx) := by
          refine ⟨fun hall ↦ hall hacc v hret, fun hall _ w hw ↦ ?_⟩
          obtain rfl := Except.ok.inj (hret.symm.trans hw)
          exact hall
        rw [hroom_iff]
        rcases eq_or_ne v 0 with rfl | hv
        · refine iff_of_true (hroom.frame (fun l ↦ ?_) fun _ ↦ ⟨rfl, rfl⟩) fun hno ↦ absurd rfl hno
          rcases eq_or_ne l k with rfl | hlk
          · simp [hidx, hkept.idle l hk]
          · simp [hlk, hkey]
        · rw [recorded_put hkept hroom hk hv hidx (by rw [hkey]) (if_neg hv)]
          exact ⟨fun hall _ ↦ hall, fun hall ↦ hall hv⟩
  | disableKey k =>
    obtain ⟨hk, ⟨⟩⟩ := Option.ite_none_right_eq_some.mp hst
    obtain ⟨c, hidx, -, heq⟩ := disableKey_eq K s (hs.offloaded k hk)
    rw [heq]
    exact iff_of_true (h.drop hidx rfl rfl) trivial
  | notify x sleep =>
    obtain ⟨-, ⟨⟩⟩ := Option.ite_none_right_eq_some.mp hst
    exact iff_of_true (h.frame (fun _ ↦ rfl) fun y ↦ node_ath9kStaNotify K s x y sleep) trivial

/-! ## The frames that are held back -/

omit [DecidableEq κ] [Fintype κ] in
/-- The filter is set for the slots that the station remembers. -/
theorem txFilter_ath9kStaNotify (K : KeyOps μ) (s : KeyTable σ κ μ) (x : σ) (sleep : Bool)
    (w : UInt8) : K.txFilter (s.ath9kStaNotify K x sleep).hw w =
      if w ≠ 0 ∧ w ∈ (s.node x).keyIdx then sleep else K.txFilter s.hw w := by
  rw [ath9kStaNotify, ath9kStaSetTxFilter]
  dsimp only
  rw [(foldl_setTxFilter K _ _ sleep).2]
  simp [setNode]

/-- The slot is that of a key of the station, or of its power save. -/
def Uses (C : KeyConfig σ κ) (s : KeyTable σ κ μ) (x : σ) (v : UInt8) : Prop :=
  (∃ k, (C.info k).sta = some x ∧ (s.key k).uploaded = true ∧ (s.key k).hwKeyIdx = v) ∨
    (s.node x).psKey.toUInt8 = v

omit [DecidableEq κ] in
/-- The slots that a station uses are those that it remembers. -/
theorem Recorded.mem_keyIdx (hs : s.Kept C K) (h : s.Recorded C) (hv : v ≠ 0) :
    v ∈ (s.node x).keyIdx ↔ s.Uses C x v := by
  have hkeys : 0 < s.keysIn C x v ↔
      ∃ k, (C.info k).sta = some x ∧ (s.key k).uploaded = true ∧ (s.key k).hwKeyIdx = v := by
    rw [keysIn, Finset.sum_pos_iff]
    constructor
    · rintro ⟨k, -, hk⟩
      obtain ⟨hk, hidx⟩ : (C.info k).sta = some x ∧ (s.key k).hwKeyIdx = v := by
        by_contra hno
        rw [if_neg hno] at hk
        exact lt_irrefl 0 hk
      refine ⟨k, hk, ?_, hidx⟩
      by_contra hup
      exact hv (hidx.symm.trans (hs.idle k (Bool.eq_false_iff.mpr hup)))
    · rintro ⟨k, hk, -, hidx⟩
      exact ⟨k, Finset.mem_univ k, by rw [if_pos ⟨hk, hidx⟩]; exact Nat.one_pos⟩
  have hps : 0 < KeyNode.psIn (s.node x) v ↔ (s.node x).psKey.toUInt8 = v := by
    rw [KeyNode.psIn]
    split <;> simp_all
  rw [← Vector.count_pos_iff, h x v hv, Uses, ← hkeys, ← hps]
  omega

/-- Who has the slot, or takes it besides the slot it has. -/
def Holds (C : KeyConfig σ κ) (K : KeyOps μ) (s : KeyTable σ κ μ) (v : UInt8) : κ ⊕ σ → Prop
  | .inl k => (s.key k).uploaded = true ∧ v ∈ K.slots (C.info k).cipher (s.key k).hwKeyIdx
  | .inr x => s.known x = true ∧ v ∈ K.slots .other (s.node x).psKey.toUInt8

omit [DecidableEq σ] [DecidableEq κ] [Fintype κ] in
theorem Kept.holds_iff (h : s.Kept C K) (hv : K.shared v = false) (p : κ ⊕ σ) :
    s.Holds C K v p ↔ s.Takes C K p v := by
  -- the slot zero takes nothing, so who takes a slot is there
  cases p with
  | inl k =>
    rw [Holds, Takes, KeyOps.Reserves, and_comm, and_iff_left hv]
    refine and_iff_left_of_imp fun hmem ↦ ?_
    by_contra hup
    rw [h.idle k (Bool.eq_false_iff.mpr hup)] at hmem
    exact KeyOps.not_reserves_zero ⟨hmem, hv⟩
  | inr x =>
    rw [Holds, Takes, KeyOps.Reserves, and_comm, and_iff_left hv]
    refine and_iff_left_of_imp fun hmem ↦ (h.alone x fun hps ↦ ?_).1
    rw [hps] at hmem
    exact KeyOps.not_reserves_zero ⟨hmem, hv⟩

/-- Nothing is in the table, and no station is known. -/
structure Unused (K : KeyOps μ) (s : KeyTable σ κ μ) : Prop where
  keymap : ∀ v, K.shared v = false → K.keymap s.hw v = false
  key : ∀ k, (s.key k).hwKeyIdx = 0 ∧ (s.key k).uploaded = false
  known : ∀ x, s.known x = false
  node : ∀ x, (s.node x).psKey = 0 ∧ (s.node x).keyIdx = #v[0, 0, 0, 0]

omit [DecidableEq σ] [DecidableEq κ] [Fintype κ] in
theorem Unused.kept (h : s.Unused K) : s.Kept C K := by
  refine ⟨Leased.empty (fun v hv ↦ ?_) ?_, fun k _ ↦ (h.key k).1, fun k hk ↦ ?_,
    fun k x _ hk ↦ ?_, fun x hx ↦ absurd (h.node x).1 hx⟩
  · exact Bool.false_ne_true ((h.keymap v hv.1).symm.trans hv.2)
  · rintro (k | x) v
    · rw [Takes, (h.key k).1]
      exact KeyOps.not_reserves_zero
    · rw [Takes, (h.node x).1]
      exact KeyOps.not_reserves_zero
  · exact absurd ((h.key k).2.symm.trans hk) Bool.false_ne_true
  · exact absurd ((h.key k).2.symm.trans hk) Bool.false_ne_true

omit [DecidableEq κ] in
theorem Unused.recorded (h : s.Unused K) : s.Recorded C := by
  intro x v hv
  rw [(h.node x).2, count_single hv, h.kept.keysIn_eq_zero hv fun k _ ↦ (h.key k).2,
    KeyNode.psIn, (h.node x).1]
  exact (Nat.zero_add _).symm

theorem Unused.kept_of_run (hs : s.Unused K) {es : List (KeyEvent σ κ)}
    (h : (stationKeys C K).run s es = some t) : t.Kept C K :=
  Machine.invariant (fun _ _ _ hu hst ↦ Kept.step hu hst) hs.kept h

theorem Unused.recorded_of_run (hs : s.Unused K) {es : List (KeyEvent σ κ)}
    (hroom : (stationKeys C K).Meets (HasRoom C K) s es)
    (h : (stationKeys C K).run s es = some t) : t.Recorded C := by
  refine (Machine.invariant_of_meets (P := fun u : KeyTable σ κ μ ↦ u.Kept C K ∧ u.Recorded C)
    ?_ ⟨hs.kept, hs.recorded⟩ hroom h).2
  rintro u e v ⟨hk, hr⟩ hC huv
  exact ⟨hk.step huv, (recorded_step hk hr huv).mpr hC⟩

end KeyTable

section Results

variable {σ κ μ : Type*} [DecidableEq σ] [DecidableEq κ] [Fintype κ] {C : KeyConfig σ κ}
  {K : KeyOps μ} {s t u : KeyTable σ κ μ} {es : List (KeyEvent σ κ)}

/-- **No slot is lost and none is shared.** Along every run a slot that is not kept for default keys
is marked if and only if exactly one key in the table or one station in the driver has it or takes
it besides its own, and a station one of whose keys is in the table has no slot for its power
save. -/
theorem leased_of_run (hs : s.Unused K) (h : (stationKeys C K).run s es = some t) :
    (∀ v, K.shared v = false → (K.keymap t.hw v = true ↔ ∃! p, t.Holds C K v p)) ∧
      ∀ k x, (C.info k).sta = some x → (t.key k).uploaded = true → (t.node x).psKey = 0 := by
  have hkept : t.Kept C K := hs.kept_of_run h
  refine ⟨fun v hv ↦ ?_, fun k x hx hk ↦ ?_⟩
  · have hmarked : K.keymap t.hw v = true ↔ t.Marked K v := (and_iff_right hv).symm
    rw [hmarked, hkept.leased.used_iff_unique v]
    exact existsUnique_congr fun p ↦ (hkept.holds_iff hv p).symm
  · by_contra hps
    exact Bool.eq_false_iff.mp ((hkept.alone x hps).2.2 k hx) hk

/-- **What a station remembers.** Along a run each station remembers the slots of its keys and of
its power save, each as often as it is used, if and only if every key that is put into a slot of the
table for a station finds room there. -/
theorem recorded_iff_of_run (hs : s.Unused K) (h : (stationKeys C K).run s es = some t) :
    (stationKeys C K).Throughout (KeyTable.Recorded C) s es ↔
      (stationKeys C K).Meets (KeyTable.HasRoom C K) s es :=
  Machine.throughout_iff_meets hs.recorded
    (fun _ _ _ _ hu hPu huv ↦ KeyTable.recorded_step (hs.kept_of_run hu) hPu huv) h

/-- **Whose frames are held back.** When a station falls asleep or wakes up after such a run, the
chip begins or ceases to hold back the frames of the slots that the station uses, and of no other
slots; no other station uses any of these, unless it is kept for default keys. -/
theorem txFilter_of_notify (hs : s.Unused K)
    (hroom : (stationKeys C K).Meets (KeyTable.HasRoom C K) s es)
    (h : (stationKeys C K).run s es = some t) {x : σ} {sleep : Bool}
    (hst : (stationKeys C K).step t (.notify x sleep) = some u) {v : UInt8} (hv : v ≠ 0) :
    (t.Uses C x v → K.txFilter u.hw v = sleep) ∧
      (¬t.Uses C x v → K.txFilter u.hw v = K.txFilter t.hw v) ∧
      (K.shared v = false → t.Uses C x v → ∀ y, t.Uses C y v → y = x) := by
  have hkept : t.Kept C K := hs.kept_of_run h
  have hrec : t.Recorded C := hs.recorded_of_run hroom h
  obtain ⟨-, ⟨⟩⟩ := Option.ite_none_right_eq_some.mp hst
  have hmem := hrec.mem_keyIdx (x := x) hkept hv
  rw [KeyTable.txFilter_ath9kStaNotify]
  refine ⟨fun huse ↦ if_pos ⟨hv, hmem.mpr huse⟩, fun huse ↦ if_neg fun hin ↦ huse (hmem.mp hin.2),
    fun hown hx y hy ↦ ?_⟩
  have hholder : ∀ z, t.Uses C z v → ∃ p, t.Takes C K p v ∧
      (∀ k, p = .inl k → (C.info k).sta = some z) ∧ ∀ w, p = .inr w → w = z := by
    rintro z (⟨k, hk, -, hidx⟩ | hps)
    · refine ⟨.inl k, ?_, fun l hl ↦ Sum.inl.inj hl ▸ hk, fun _ hw ↦ absurd hw Sum.inl_ne_inr⟩
      rw [KeyTable.Takes, hidx]
      exact KeyOps.reserves_self hown
    · refine ⟨.inr z, ?_, fun _ hk ↦ absurd hk Sum.inr_ne_inl, fun w hw ↦
        (Sum.inr.inj hw).symm⟩
      rw [KeyTable.Takes, hps]
      exact KeyOps.reserves_self hown
  obtain ⟨p, hp, hpk, hps⟩ := hholder x hx
  obtain ⟨q, hq, hqk, hqs⟩ := hholder y hy
  obtain rfl := hkept.leased.unique hp hq
  cases p with
  | inl k => exact Option.some_inj.mp ((hqk k rfl).symm.trans (hpk k rfl))
  | inr w => exact (hqs w rfl).symm.trans (hps w rfl)

/-! ### A table of keys -/

/-- The marks and the filters of 128 slots. -/
structure KeyCache where
  keymap : UInt8 → Bool
  txFilter : UInt8 → Bool

namespace KeyCache

variable (m : KeyCache) (c : Cipher) (v : UInt8)

/-- A key of the cipher `WLAN_CIPHER_SUITE_TKIP` takes a second slot, for its `MIC`. -/
def slots : List UInt8 := if c = .tkip then [v, v + 64] else [v]

/-- The first four slots and those that go with them. -/
def shared : Bool := v.toNat % 64 < 4

/-- A key could be put into the slot. -/
def free : Bool := (slots c v).all fun w ↦ !shared w && !m.keymap w

/-- The slot for a key: one whose counterpart is marked already, if the key needs no second one, or
else the first free one. -/
def find : Option UInt8 :=
  if c = .tkip then ((List.range 64).map UInt8.ofNat).find? (m.free c)
  else
    (((List.range 64).flatMap fun i ↦ [UInt8.ofNat i, UInt8.ofNat (i + 64)]).find? fun v ↦
      m.free c v && m.keymap (v ^^^ 64)).or
        (((List.range 128).map UInt8.ofNat).find? (m.free c))

/-- Mark the slots that a key takes. -/
def mark : KeyCache := { m with keymap := fun w ↦ m.keymap w || decide (w ∈ slots c v) }

/-- Put a key into a default slot, or else into one that is free. -/
def config (env : ℕ) : KeyCache × KeyResult :=
  if env < 4 then (m.mark c (UInt8.ofNat env), .ok (UInt8.ofNat env))
  else (m.find c).elim (m, .error (-28)) fun v ↦ (m.mark c v, .ok v)

theorem free_of_find {v : UInt8} (h : m.find c = some v) : m.free c v = true := by
  rw [find] at h
  split at h
  · exact List.find?_some h
  · rcases Option.or_eq_some_iff.mp h with h | ⟨-, h⟩
    · have hfound := List.find?_some (p := fun v ↦ m.free c v && m.keymap (v ^^^ 64)) h
      exact (Bool.and_eq_true_iff.mp hfound).1
    · exact List.find?_some h

theorem shared_of_lt (hv : v < 4) : ∀ w ∈ slots c v, shared w = true := by
  have hlt : v.toNat < 4 := hv
  intro w hw
  rw [shared, decide_eq_true_iff]
  rw [slots] at hw
  split at hw
  · rcases List.mem_pair.mp hw with rfl | rfl
    · omega
    · rw [UInt8.toNat_add]
      exact (by omega : (v.toNat + 64) % 256 % 64 < 4)
  · rw [List.mem_singleton.mp hw]
    omega

/-- What a key is put into is not marked, and the slots it takes are marked then. -/
theorem config_ok {env : ℕ} {v : UInt8} (h : (m.config c env).2 = .ok v) :
    (m.config c env).1 = m.mark c v ∧
      ∀ w, shared w = false → w ∈ slots c v → m.keymap w = false := by
  rw [config] at h ⊢
  split at h
  · rename_i henv
    rw [if_pos henv]
    obtain rfl := Except.ok.inj h
    have hlt : UInt8.ofNat env < 4 := by
      refine UInt8.lt_iff_toNat_lt.mpr ?_
      rw [UInt8.toNat_ofNat', Nat.mod_eq_of_lt (henv.trans (by decide))]
      exact henv
    refine ⟨rfl, fun w hown hw ↦ ?_⟩
    exact absurd (shared_of_lt c _ hlt w hw) (Bool.eq_false_iff.mp hown)
  · rename_i henv
    rw [if_neg henv]
    cases hfind : m.find c with
    | none =>
      rw [hfind] at h
      exact nomatch h
    | some u =>
      rw [hfind] at h
      obtain rfl := Except.ok.inj h
      refine ⟨rfl, fun w _ hw ↦ ?_⟩
      have hfree := List.all_eq_true.mp (free_of_find m c hfind) w hw
      exact (Bool.not_eq_true' _).mp (Bool.and_eq_true_iff.mp hfree).2

theorem config_error {env : ℕ} {e : Int32} (h : (m.config c env).2 = .error e) :
    e = -28 ∧ (m.config c env).1 = m := by
  rw [config] at h ⊢
  split at h
  · exact nomatch h
  · rename_i henv
    rw [if_neg henv]
    cases hfind : m.find c with
    | none =>
      rw [hfind] at h
      exact ⟨(Except.error.inj h).symm, rfl⟩
    | some u =>
      rw [hfind] at h
      exact nomatch h

end KeyCache

/-- The functions over such a table. -/
def KeyOps.ath : KeyOps KeyCache where
  config env m c := m.config c env
  delete m c v :=
    if v < 4 then m
    else { m with keymap := fun w ↦ m.keymap w && !decide (w ∈ KeyCache.slots c v) }
  setTxFilter m v set := { m with txFilter := Function.update m.txFilter v set }
  keymap := KeyCache.keymap
  txFilter := KeyCache.txFilter
  slots := KeyCache.slots
  shared := KeyCache.shared
  mem_slots c v := by
    rw [KeyCache.slots]
    split <;> exact List.mem_cons_self
  shared_of_lt := KeyCache.shared_of_lt
  keymap_config_ok env m c v hret w hown := by
    obtain ⟨heq, hfree⟩ := m.config_ok c hret
    rw [heq, KeyCache.mark, Bool.or_eq_true, decide_eq_true_iff]
    exact ⟨hfree w hown, Iff.rfl⟩
  keymap_config_error env m c e hret := by
    obtain ⟨rfl, heq⟩ := m.config_error c hret
    exact ⟨by decide, fun w _ ↦ by rw [heq]⟩
  keymap_delete m c v w hown := by
    split
    · rename_i hv
      refine (and_iff_left fun hw ↦ ?_).symm
      exact Bool.eq_false_iff.mp hown (KeyCache.shared_of_lt c v hv w hw)
    · simp
  keymap_setTxFilter _ _ _ := rfl
  txFilter_setTxFilter _ _ _ := rfl

/-- One station of an access point, and five keys for it, the first of them for
`WLAN_CIPHER_SUITE_TKIP`. -/
def fiveKeys : KeyConfig Unit (Fin 5) where
  nohwcrypt := false
  swMgmtCrypto := false
  served _ := true
  info k := ⟨false, if k = 0 then .tkip else .ccmp, true, some ()⟩

/-- Before anything is put into the table. -/
def noKeys : KeyTable Unit (Fin 5) KeyCache where
  hw := ⟨fun _ ↦ false, fun _ ↦ false⟩
  node _ := ⟨.replicate 4 0, 0, false⟩
  known _ := false
  key _ := ⟨0, false, false, false, false⟩

theorem unused_noKeys : noKeys.Unused .ath :=
  ⟨fun _ _ ↦ rfl, fun _ ↦ ⟨rfl, rfl⟩, fun _ ↦ rfl, fun _ ↦ ⟨rfl, rfl⟩⟩

/-- The first key takes a slot for its `MIC`. -/
theorem leased_of_run_first :
    ∃ t, (stationKeys fiveKeys .ath).run noKeys [.staAdd () 4, .setKey 0 4] = some t ∧
      (t.key 0).hwKeyIdx = 4 ∧ ∃! p, t.Holds fiveKeys .ath 68 p := by
  have hrun : ((stationKeys fiveKeys .ath).run noKeys [.staAdd () 4, .setKey 0 4]).any
      (fun t ↦ decide ((t.key 0).hwKeyIdx = 4) && t.hw.keymap 68) = true := by decide +kernel
  obtain ⟨t, ht, ht'⟩ := (Option.any_eq_true _ _).mp hrun
  obtain ⟨hidx, hmap⟩ := Bool.and_eq_true_iff.mp ht'
  exact ⟨t, ht, of_decide_eq_true hidx,
    ((leased_of_run unused_noKeys ht).1 68 (by decide)).mp hmap⟩

/-- Four keys have been put into slots of the table. -/
def fourKeys : List (KeyEvent Unit (Fin 5)) :=
  [.staAdd () 4, .setKey 0 4, .setKey 1 4, .setKey 2 4, .setKey 3 4]

/-- The slot of the fifth key is not remembered. -/
theorem recorded_iff_of_run_fifth :
    ¬(stationKeys fiveKeys .ath).Throughout (KeyTable.Recorded fiveKeys) noKeys
      (fourKeys ++ [.setKey 4 4]) := by
  have hpre : ((stationKeys fiveKeys .ath).run noKeys fourKeys).any (fun u ↦
      !((u.makeRoom fiveKeys .ath 4).node ()).keyIdx.contains 0 &&
        (decide
            ((KeyOps.ath.config 4 (u.makeRoom fiveKeys .ath 4).hw .ccmp).2.toOption = some 70) &&
          ((stationKeys fiveKeys .ath).step u (.setKey 4 4)).isSome)) = true := by decide +kernel
  obtain ⟨u, hu, hu'⟩ := (Option.any_eq_true _ _).mp hpre
  obtain ⟨hfull, hrest⟩ := Bool.and_eq_true_iff.mp hu'
  obtain ⟨hret, hstep⟩ := Bool.and_eq_true_iff.mp hrest
  obtain ⟨t, ht⟩ := Option.isSome_iff_exists.mp hstep
  have hrun := Machine.run_concat_eq_some.mpr ⟨u, hu, ht⟩
  refine (recorded_iff_of_run unused_noKeys hrun).not.mpr fun hmeets ↦ ?_
  have hslot : (KeyOps.ath.config 4 (u.makeRoom fiveKeys .ath 4).hw .ccmp).2 = .ok 70 := by
    cases hret' : (KeyOps.ath.config 4 (u.makeRoom fiveKeys .ath 4).hw .ccmp).2 with
    | error e =>
      rw [hret'] at hret
      exact nomatch of_decide_eq_true hret
    | ok v =>
      rw [hret'] at hret
      exact congrArg Except.ok (Option.some_inj.mp (of_decide_eq_true hret))
  have hroom := (Machine.meets_concat.mp hmeets).2 u hu rfl 70 hslot (by decide) () rfl
  rw [Vector.contains_iff_mem.mpr hroom] at hfull
  exact nomatch hfull

/-- A station with one key falls asleep. -/
theorem txFilter_of_notify_asleep :
    ∃ t u, (stationKeys fiveKeys .ath).run noKeys [.staAdd () 4] = some t ∧
      (stationKeys fiveKeys .ath).step t (.notify () true) = some u ∧ u.hw.txFilter 4 = true := by
  have hrun : ((stationKeys fiveKeys .ath).run noKeys [.staAdd () 4]).any (fun t ↦
      decide ((t.node ()).psKey.toUInt8 = 4) &&
        ((stationKeys fiveKeys .ath).step t (.notify () true)).isSome) = true := by decide +kernel
  obtain ⟨t, ht, ht'⟩ := (Option.any_eq_true _ _).mp hrun
  obtain ⟨hps, hstep⟩ := Bool.and_eq_true_iff.mp ht'
  obtain ⟨u, hu⟩ := Option.isSome_iff_exists.mp hstep
  have hroom : (stationKeys fiveKeys .ath).Meets (KeyTable.HasRoom fiveKeys .ath) noKeys
      [.staAdd () 4] := Machine.meets_singleton.mpr trivial
  exact ⟨t, u, ht, hu, (txFilter_of_notify unused_noKeys hroom ht hu (by decide)).1
    (.inr (of_decide_eq_true hps))⟩

end Results

end UcsmaRateControl
