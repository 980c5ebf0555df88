import Mathlib.Data.Fintype.Defs
import UcsmaRateControl.Machine.Leases
import UcsmaRateControl.Machine.Run

/-!
# The keys of the stations

The chip has a table of keys. A key of `mac80211` is put into one of its slots; some slots are kept
for default keys, which can share them, the others are marked as long as a key is in them. For some
ciphers a key takes further slots besides its own. A station of an access point that has no key yet
gets a slot of its own for its power save, which it gives back when it gets a key. For each station
the driver remembers up to four slots, to have the frames for them held back while the station
sleeps.

The functions that put a key into the table and delete it, and the one that has the chip hold back
the frames of a slot, are not part of the repository. Here they are a parameter, with what is relied
on of them.
-/

namespace UcsmaRateControl

/-- `key->cipher`, as far as it is told apart. -/
inductive Cipher
  | tkip
  | ccmp
  | other
deriving DecidableEq

/-- What is fixed about a key. -/
structure KeyInfo (σ : Type*) where
  /-- Its interface is a `NL80211_IFTYPE_ADHOC` or a `NL80211_IFTYPE_MESH_POINT`. -/
  peerToPeer : Bool
  cipher : Cipher
  /-- `IEEE80211_KEY_FLAG_PAIRWISE`. -/
  pairwise : Bool
  sta : Option σ

/-- What is fixed about the driver, its stations and the keys. -/
structure KeyConfig (σ κ : Type*) where
  /-- `ath9k_modparam_nohwcrypt`. -/
  nohwcrypt : Bool
  swMgmtCrypto : Bool
  /-- The interface of the station is a `NL80211_IFTYPE_AP` or a `NL80211_IFTYPE_AP_VLAN`. -/
  served : σ → Bool
  info : κ → KeyInfo σ

/-- `struct ieee80211_key_conf`, as far as the driver changes it. -/
structure KeyConf where
  hwKeyIdx : UInt8
  generateIv : Bool
  generateMmic : Bool
  swMgmtTx : Bool
  /-- `mac80211` takes the key to be in the table. -/
  uploaded : Bool

/-- `struct ath_node`, as far as the keys are concerned. -/
structure KeyNode where
  keyIdx : Vector UInt8 4
  psKey : Int8
  sleeping : Bool

/-- What `ath_key_config` returns: an error, or a slot. -/
abbrev KeyResult := Except Int32 UInt8

/-- What is relied on of the functions that manage the table of keys, over what they keep. -/
structure KeyOps (μ : Type*) where
  /-- `ath_key_config`, for a key with a cipher. The first argument is whatever else it depends
  on. -/
  config : ℕ → μ → Cipher → μ × KeyResult
  /-- `ath_key_delete`, of a key with a cipher from a slot. -/
  delete : μ → Cipher → UInt8 → μ
  /-- `ath9k_hw_set_tx_filter`. -/
  setTxFilter : μ → UInt8 → Bool → μ
  /-- The slots that are marked. -/
  keymap : μ → UInt8 → Bool
  /-- The slots whose frames the chip holds back. -/
  txFilter : μ → UInt8 → Bool
  /-- The slots that a key takes: the one it is put into, and those that go with it. -/
  slots : Cipher → UInt8 → List UInt8
  /-- The slots that are kept for default keys. -/
  shared : UInt8 → Bool
  mem_slots : ∀ c v, v ∈ slots c v
  /-- The first four slots are kept for default keys, with all that go with them. -/
  shared_of_lt : ∀ c v, v < 4 → ∀ w ∈ slots c v, shared w = true
  /-- A key that is put into a slot takes slots that are not marked, and these are marked then. -/
  keymap_config_ok : ∀ env m c v, (config env m c).2 = .ok v → ∀ w, shared w = false →
    (w ∈ slots c v → keymap m w = false) ∧
      (keymap (config env m c).1 w = true ↔ keymap m w = true ∨ w ∈ slots c v)
  /-- An error is negative, and leaves the marks alone. -/
  keymap_config_error : ∀ env m c e, (config env m c).2 = .error e → e < 0 ∧
    ∀ w, shared w = false → keymap (config env m c).1 w = keymap m w
  /-- A key that is deleted gives back the slots it has taken. -/
  keymap_delete : ∀ m c v w, shared w = false →
    (keymap (delete m c v) w = true ↔ keymap m w = true ∧ w ∉ slots c v)
  /-- The filter of a slot is set, and nothing else. -/
  keymap_setTxFilter : ∀ m v set, keymap (setTxFilter m v set) = keymap m
  txFilter_setTxFilter : ∀ m v set,
    txFilter (setTxFilter m v set) = Function.update (txFilter m) v set

/-- The keys, the stations, and what is kept of the table of the chip. -/
structure KeyTable (σ κ μ : Type*) where
  hw : μ
  node : σ → KeyNode
  /-- The driver has been told of the station. -/
  known : σ → Bool
  key : κ → KeyConf

namespace KeyTable

variable {σ κ μ : Type*} [DecidableEq σ] [DecidableEq κ] (C : KeyConfig σ κ) (K : KeyOps μ)
  (s : KeyTable σ κ μ)

def setNode (x : σ) (n : KeyNode) : KeyTable σ κ μ :=
  { s with node := Function.update s.node x n }

def setConf (k : κ) (c : KeyConf) : KeyTable σ κ μ :=
  { s with key := Function.update s.key k c }

/-- `ath_node_attach`. -/
def athNodeAttach (x : σ) : KeyTable σ κ μ :=
  s.setNode x { s.node x with keyIdx := .replicate 4 0 }

/-- `ath9k_sta_add`. The key for the power save has no cipher. -/
def ath9kStaAdd (x : σ) (env : ℕ) : KeyTable σ κ μ :=
  let s := s.athNodeAttach x
  if C.served x then
    let (hw, key) := K.config env s.hw .other
    let s := { s with hw }
    match key with
    | .error _ => s
    | .ok v =>
      if 0 < v then
        s.setNode x { s.node x with psKey := v.toInt8, keyIdx := (s.node x).keyIdx.set 0 v }
      else s
  else s

/-- `ath9k_del_ps_key`. -/
def ath9kDelPsKey (x : σ) : KeyTable σ κ μ :=
  if (s.node x).psKey = 0 then s
  else
    let s := { s with hw := K.delete s.hw .other (s.node x).psKey.toUInt8 }
    s.setNode x { s.node x with psKey := 0, keyIdx := (s.node x).keyIdx.set 0 0 }

/-- `ath9k_sta_set_tx_filter`. -/
def ath9kStaSetTxFilter (x : σ) (set : Bool) : KeyTable σ κ μ :=
  { s with
    hw := (s.node x).keyIdx.toList.foldl
      (fun hw v ↦ if v = 0 then hw else K.setTxFilter hw v set) s.hw }

/-- `ath9k_sta_notify`, for `STA_NOTIFY_SLEEP` or for `STA_NOTIFY_AWAKE`. -/
def ath9kStaNotify (x : σ) (sleep : Bool) : KeyTable σ κ μ :=
  let s := s.setNode x { s.node x with sleeping := sleep }
  s.ath9kStaSetTxFilter K x sleep

/-- What `ath9k_set_key` returns without doing anything. -/
def refusal (k : κ) : Option Int32 :=
  if C.nohwcrypt then some (-28)
  else if (C.info k).peerToPeer && ((C.info k).cipher = .tkip || (C.info k).cipher = .ccmp) &&
      !(C.info k).pairwise then some (-95)
  else none

/-- The slot that the power save of the station had is given back. -/
def makeRoom (k : κ) : KeyTable σ κ μ :=
  match (C.info k).sta with
  | none => s
  | some x => s.ath9kDelPsKey K x

/-- The first of the slots that the station of the key remembers that is `v` becomes `w`. -/
def replaceIdx (k : κ) (v w : UInt8) : KeyTable σ κ μ :=
  match (C.info k).sta with
  | none => s
  | some x => s.setNode x { s.node x with keyIdx := (s.node x).keyIdx.replace v w }

/-- `ath9k_set_key`, for `SET_KEY`. -/
def ath9kSetKey (k : κ) (env : ℕ) : KeyTable σ κ μ × Int32 :=
  match refusal C k with
  | some e => (s, e)
  | none =>
    let s := s.makeRoom C K k
    let s := s.setConf k { s.key k with hwKeyIdx := 0 }
    let (hw, ret) := K.config env s.hw (C.info k).cipher
    let s := { s with hw }
    match ret with
    | .error e => (s, e)
    | .ok v =>
      let s := s.setConf k
        { s.key k with
          hwKeyIdx := v
          generateIv := true
          generateMmic := (s.key k).generateMmic || (C.info k).cipher = .tkip
          swMgmtTx := (s.key k).swMgmtTx || (C.swMgmtCrypto && (C.info k).cipher = .ccmp) }
      (if v = 0 then s else s.replaceIdx C k 0 v, 0)

/-- `ath9k_set_key`, for `DISABLE_KEY`. -/
def ath9kDisableKey (k : κ) : KeyTable σ κ μ × Int32 :=
  match refusal C k with
  | some e => (s, e)
  | none =>
    let s := { s with hw := K.delete s.hw (C.info k).cipher (s.key k).hwKeyIdx }
    let s := s.replaceIdx C k (s.key k).hwKeyIdx 0
    (s.setConf k { s.key k with hwKeyIdx := 0 }, 0)

/-- What `mac80211` makes of the return value. -/
def uploadedIf (k : κ) (p : KeyTable σ κ μ × Int32) : KeyTable σ κ μ :=
  p.1.setConf k { p.1.key k with uploaded := decide (p.2 = 0) }

end KeyTable

/-- What can happen to the keys. A number stands for what `ath_key_config` depends on besides. -/
inductive KeyEvent (σ κ : Type*)
  | staAdd (x : σ) (env : ℕ)
  | staRemove (x : σ)
  | setKey (k : κ) (env : ℕ)
  | disableKey (k : κ)
  | notify (x : σ) (sleep : Bool)

/-- The machine of the keys. A key is put into the table while it is not there, for a station that
the driver has been told of; a station leaves when none of its keys is there. -/
def stationKeys {σ κ μ : Type*} [DecidableEq σ] [DecidableEq κ] [Fintype κ] (C : KeyConfig σ κ)
    (K : KeyOps μ) : Machine (KeyTable σ κ μ) (KeyEvent σ κ) where
  step s
    | .staAdd x env =>
      if s.known x = false then
        some { s.ath9kStaAdd C K x env with known := Function.update s.known x true }
      else none
    | .staRemove x =>
      if s.known x = true ∧ ∀ k, (C.info k).sta = some x → (s.key k).uploaded = false then
        some { s.ath9kDelPsKey K x with known := Function.update s.known x false }
      else none
    | .setKey k env =>
      if (s.key k).uploaded = false ∧ (C.info k).sta.all s.known = true then
        some (.uploadedIf k (s.ath9kSetKey C K k env))
      else none
    | .disableKey k =>
      if (s.key k).uploaded = true then
        let s := (s.ath9kDisableKey C K k).1
        some (s.setConf k { s.key k with uploaded := false })
      else none
    | .notify x sleep => if s.known x = true then some (s.ath9kStaNotify K x sleep) else none

/-! ## What a key takes -/

namespace KeyOps

variable {μ : Type*} (K : KeyOps μ) {c : Cipher} {v w : UInt8}

/-- A key in the slot `v` takes the slot `w` for itself. -/
def Reserves (c : Cipher) (v w : UInt8) : Prop := w ∈ K.slots c v ∧ K.shared w = false

instance (c : Cipher) (v w : UInt8) : Decidable (K.Reserves c v w) :=
  inferInstanceAs (Decidable (_ ∧ _))

variable {K}

/-- A key in a default slot takes nothing for itself. -/
theorem not_reserves_of_lt (hv : v < 4) : ¬K.Reserves c v w := by
  rintro ⟨hw, hshared⟩
  exact Bool.false_ne_true (hshared.symm.trans (K.shared_of_lt c v hv w hw))

@[simp] theorem not_reserves_zero : ¬K.Reserves c 0 w := not_reserves_of_lt (by decide)

theorem reserves_self (hv : K.shared v = false) : K.Reserves c v v := ⟨K.mem_slots c v, hv⟩

end KeyOps

/-! ## The slots -/

namespace KeyTable

variable {σ κ μ : Type*} {C : KeyConfig σ κ} {K : KeyOps μ} {s t : KeyTable σ κ μ} {x : σ} {k : κ}
  {v : UInt8} {env : ℕ}

/-- The slot is marked, and not kept for default keys. -/
def Marked (K : KeyOps μ) (s : KeyTable σ κ μ) (v : UInt8) : Prop :=
  K.shared v = false ∧ K.keymap s.hw v = true

/-- A key, or the power save of a station, takes the slot for itself. -/
def Takes (C : KeyConfig σ κ) (K : KeyOps μ) (s : KeyTable σ κ μ) : κ ⊕ σ → UInt8 → Prop
  | .inl k => K.Reserves (C.info k).cipher (s.key k).hwKeyIdx
  | .inr x => K.Reserves .other (s.node x).psKey.toUInt8

/-- What holds at any time. -/
structure Kept (C : KeyConfig σ κ) (K : KeyOps μ) (s : KeyTable σ κ μ) : Prop where
  leased : Leased (s.Marked K) (s.Takes C K)
  idle : ∀ k, (s.key k).uploaded = false → (s.key k).hwKeyIdx = 0
  offloaded : ∀ k, (s.key k).uploaded = true → refusal C k = none
  station : ∀ k x, (C.info k).sta = some x → (s.key k).uploaded = true → s.known x = true
  /-- A station has a slot for its power save only as long as it has no key. -/
  alone : ∀ x, (s.node x).psKey ≠ 0 → s.known x = true ∧
    (s.node x).keyIdx = #v[(s.node x).psKey.toUInt8, 0, 0, 0] ∧
      ∀ k, (C.info k).sta = some x → (s.key k).uploaded = false

/-- What a successful `ath_key_config` marks has not been marked before. -/
theorem marked_config {c : Cipher} (hret : (K.config env s.hw c).2 = .ok v)
    (ht : t.hw = (K.config env s.hw c).1) (w : UInt8) : (K.Reserves c v w → ¬s.Marked K w) ∧
      (t.Marked K w ↔ s.Marked K w ∨ K.Reserves c v w) := by
  constructor
  · rintro ⟨hw, hshared⟩ hmarked
    have hfree := (K.keymap_config_ok env s.hw c v hret w hshared).1 hw
    exact Bool.false_ne_true (hfree.symm.trans hmarked.2)
  · rw [Marked, Marked, KeyOps.Reserves, ht]
    constructor
    · rintro ⟨hshared, hmap⟩
      rcases (K.keymap_config_ok env s.hw c v hret w hshared).2.mp hmap with hmap | hw
      · exact .inl ⟨hshared, hmap⟩
      · exact .inr ⟨hw, hshared⟩
    · rintro (⟨hshared, hmap⟩ | ⟨hw, hshared⟩)
      · exact ⟨hshared, (K.keymap_config_ok env s.hw c v hret w hshared).2.mpr (.inl hmap)⟩
      · exact ⟨hshared, (K.keymap_config_ok env s.hw c v hret w hshared).2.mpr (.inr hw)⟩

/-- One that fails marks nothing. -/
theorem marked_config_error {c : Cipher} {e : Int32} (hret : (K.config env s.hw c).2 = .error e)
    (ht : t.hw = (K.config env s.hw c).1) (w : UInt8) : t.Marked K w ↔ s.Marked K w := by
  rw [Marked, Marked, ht]
  refine and_congr_right fun hshared ↦ ?_
  rw [(K.keymap_config_error env s.hw c e hret).2 w hshared]

/-- `ath_key_delete` unmarks what the key has taken. -/
theorem marked_delete {c : Cipher} (ht : t.hw = K.delete s.hw c v) (w : UInt8) :
    t.Marked K w ↔ s.Marked K w ∧ ¬K.Reserves c v w := by
  rw [Marked, Marked, KeyOps.Reserves, ht, and_assoc]
  refine and_congr_right fun hshared ↦ (K.keymap_delete s.hw c v w hshared).trans ?_
  refine and_congr_right fun _ ↦ not_congr ?_
  exact (and_iff_left hshared).symm

theorem ne_zero_of_error {c : Cipher} {e : Int32} {m : μ}
    (hret : (K.config env m c).2 = .error e) : e ≠ 0 := by
  rintro rfl
  exact Int32.lt_irrefl (K.keymap_config_error env m c 0 hret).1

/-- What changes neither the slots nor who has them. -/
theorem Kept.frame (h : s.Kept C K) (hmap : ∀ w, t.Marked K w ↔ s.Marked K w)
    (hkey : ∀ k, (t.key k).hwKeyIdx = (s.key k).hwKeyIdx ∧
      (t.key k).uploaded = (s.key k).uploaded)
    (hknown : ∀ x, s.known x = true → t.known x = true)
    (hnode : ∀ x, (t.node x).psKey = (s.node x).psKey ∧
      ((s.node x).psKey ≠ 0 → (t.node x).keyIdx = (s.node x).keyIdx)) : t.Kept C K := by
  refine ⟨h.leased.congr hmap ?_, fun k ↦ ?_, fun k ↦ ?_, fun k x ↦ ?_, fun x hx ↦ ?_⟩
  · rintro (k | x) w
    · rw [Takes, Takes, (hkey k).1]
    · rw [Takes, Takes, (hnode x).1]
  · rw [(hkey k).1, (hkey k).2]
    exact h.idle k
  · rw [(hkey k).2]
    exact h.offloaded k
  · rw [(hkey k).2]
    exact fun hx hk ↦ hknown x (h.station k x hx hk)
  · rw [(hnode x).1] at hx ⊢
    obtain ⟨hkn, hidx, hno⟩ := h.alone x hx
    rw [(hnode x).2 hx]
    exact ⟨hknown x hkn, hidx, fun k hk ↦ (hkey k).2.trans (hno k hk)⟩

/-- A station that the driver does not know has no slot for its power save. -/
theorem Kept.psKey_eq_zero (h : s.Kept C K) (hx : s.known x = false) : (s.node x).psKey = 0 := by
  by_contra hps
  exact Bool.eq_false_iff.mp hx (h.alone x hps).1

/-- None of its keys is in the table. -/
theorem Kept.not_uploaded (h : s.Kept C K) (hx : s.known x = false)
    (hk : (C.info k).sta = some x) : (s.key k).uploaded = false := by
  rw [Bool.eq_false_iff]
  exact fun hyes ↦ Bool.eq_false_iff.mp hx (h.station k x hk hyes)

variable [DecidableEq κ]

/-- A key is put into the table. -/
theorem Kept.put (h : s.Kept C K) (hk : (s.key k).uploaded = false) (hacc : refusal C k = none)
    (hsta : ∀ x, (C.info k).sta = some x → s.known x = true ∧ (s.node x).psKey = 0)
    (hmap : ∀ w, (K.Reserves (C.info k).cipher v w → ¬s.Marked K w) ∧
      (t.Marked K w ↔ s.Marked K w ∨ K.Reserves (C.info k).cipher v w))
    {c : KeyConf} (hc : c.hwKeyIdx = v ∧ c.uploaded = true)
    (hkey : t.key = Function.update s.key k c) (hknown : t.known = s.known)
    (hnode : ∀ x, (t.node x).psKey = (s.node x).psKey ∧
      ((s.node x).psKey ≠ 0 → (t.node x).keyIdx = (s.node x).keyIdx)) : t.Kept C K := by
  have hself : t.key k = c := by rw [hkey, Function.update_self]
  have hother : ∀ l, l ≠ k → t.key l = s.key l := fun l hl ↦ by
    rw [hkey, Function.update_of_ne hl]
  refine ⟨h.leased.take (h := .inl k) (fun w ↦ ?_) (fun w ↦ (hmap w).1) (fun w ↦ (hmap w).2)
    (fun w ↦ ?_) ?_, fun l hl ↦ ?_, fun l hl ↦ ?_, fun l x hx hl ↦ ?_, fun x hx ↦ ?_⟩
  · rw [Takes, h.idle k hk]
    exact KeyOps.not_reserves_zero
  · rw [Takes, hself, hc.1]
  · rintro (l | x) hl w
    · rw [Takes, Takes, hother l (fun heq ↦ hl (congrArg Sum.inl heq))]
    · rw [Takes, Takes, (hnode x).1]
  · rcases eq_or_ne l k with rfl | hlk
    · rw [hself, hc.2] at hl
      exact nomatch hl
    · rw [hother l hlk] at hl ⊢
      exact h.idle l hl
  · rcases eq_or_ne l k with rfl | hlk
    · exact hacc
    · exact h.offloaded l (hother l hlk ▸ hl)
  · rw [hknown]
    rcases eq_or_ne l k with rfl | hlk
    · exact (hsta x hx).1
    · exact h.station l x hx (hother l hlk ▸ hl)
  · rw [(hnode x).1] at hx ⊢
    obtain ⟨hkn, hidx, hno⟩ := h.alone x hx
    rw [hknown, (hnode x).2 hx]
    refine ⟨hkn, hidx, fun l hl ↦ ?_⟩
    rcases eq_or_ne l k with rfl | hlk
    · exact absurd (hsta x hl).2 hx
    · exact (congrArg KeyConf.uploaded (hother l hlk)).trans (hno l hl)

/-- A key is taken out of the table. -/
theorem Kept.drop (h : s.Kept C K) {c : KeyConf} (hc : c.hwKeyIdx = 0 ∧ c.uploaded = false)
    (hmap : ∀ w, t.Marked K w ↔
      s.Marked K w ∧ ¬K.Reserves (C.info k).cipher (s.key k).hwKeyIdx w)
    (hkey : t.key = Function.update s.key k c) (hknown : t.known = s.known)
    (hnode : ∀ x, (t.node x).psKey = (s.node x).psKey ∧
      ((s.node x).psKey ≠ 0 → (t.node x).keyIdx = (s.node x).keyIdx)) : t.Kept C K := by
  have hself : t.key k = c := by rw [hkey, Function.update_self]
  have hother : ∀ l, l ≠ k → t.key l = s.key l := fun l hl ↦ by
    rw [hkey, Function.update_of_ne hl]
  have hup : ∀ l, (t.key l).uploaded = true → l ≠ k ∧ (s.key l).uploaded = true := by
    intro l hl
    rcases eq_or_ne l k with rfl | hlk
    · rw [hself, hc.2] at hl
      exact nomatch hl
    · exact ⟨hlk, hother l hlk ▸ hl⟩
  refine ⟨h.leased.give (h := .inl k) hmap (fun w ↦ ?_) ?_, fun l hl ↦ ?_, fun l hl ↦ ?_,
    fun l x hx hl ↦ ?_, fun x hx ↦ ?_⟩
  · rw [Takes, hself, hc.1]
    exact KeyOps.not_reserves_zero
  · rintro (l | x) hl w
    · rw [Takes, Takes, hother l (fun heq ↦ hl (congrArg Sum.inl heq))]
    · rw [Takes, Takes, (hnode x).1]
  · rcases eq_or_ne l k with rfl | hlk
    · rw [hself, hc.1]
    · rw [hother l hlk] at hl ⊢
      exact h.idle l hl
  · exact h.offloaded l (hup l hl).2
  · rw [hknown]
    exact h.station l x hx (hup l hl).2
  · rw [(hnode x).1] at hx ⊢
    obtain ⟨hkn, hidx, hno⟩ := h.alone x hx
    rw [hknown, (hnode x).2 hx]
    refine ⟨hkn, hidx, fun l hl ↦ ?_⟩
    rw [Bool.eq_false_iff]
    exact fun hyes ↦ Bool.eq_false_iff.mp (hno l hl) (hup l hyes).2

variable [DecidableEq σ]

/-! ### The slot for the power save -/

/-- What becomes of a station when it gives back the slot of its power save. -/
def KeyNode.noPsKey (n : KeyNode) : KeyNode :=
  if n.psKey = 0 then n else { n with psKey := 0, keyIdx := n.keyIdx.set 0 0 }

omit [DecidableEq κ] in
/-- The slot of the power save is given back, if there is one. -/
theorem ath9kDelPsKey_spec (K : KeyOps μ) (s : KeyTable σ κ μ) (x : σ) :
    (s.ath9kDelPsKey K x).key = s.key ∧ (s.ath9kDelPsKey K x).known = s.known ∧
      (s.ath9kDelPsKey K x).node = Function.update s.node x (KeyNode.noPsKey (s.node x)) ∧
      ∀ w, (s.ath9kDelPsKey K x).Marked K w ↔
        s.Marked K w ∧ ¬K.Reserves .other (s.node x).psKey.toUInt8 w := by
  rw [ath9kDelPsKey, KeyNode.noPsKey]
  split
  · rename_i hps
    refine ⟨rfl, rfl, (Function.update_eq_self x s.node).symm, fun w ↦ (and_iff_left ?_).symm⟩
    rw [hps]
    exact KeyOps.not_reserves_zero
  · exact ⟨rfl, rfl, rfl, marked_delete rfl⟩

@[simp] theorem psKey_noPsKey (n : KeyNode) : (KeyNode.noPsKey n).psKey = 0 := by
  rw [KeyNode.noPsKey]
  split
  · assumption
  · rfl

omit [DecidableEq κ] in
/-- The station gives back the slot of its power save. -/
theorem Kept.ath9kDelPsKey (h : s.Kept C K) (x : σ) : (s.ath9kDelPsKey K x).Kept C K := by
  obtain ⟨hkey, hknown, hnode, hmap⟩ := ath9kDelPsKey_spec K s x
  generalize s.ath9kDelPsKey K x = t at hkey hknown hnode hmap ⊢
  have hother : ∀ y, y ≠ x → t.node y = s.node y := fun y hy ↦ by
    rw [hnode, Function.update_of_ne hy]
  have hself : (t.node x).psKey = 0 := by rw [hnode, Function.update_self, psKey_noPsKey]
  refine ⟨h.leased.give (h := .inr x) hmap (fun w ↦ ?_) ?_, hkey ▸ h.idle, hkey ▸ h.offloaded,
    hkey ▸ hknown ▸ h.station, fun y hy ↦ ?_⟩
  · rw [Takes, hself]
    exact KeyOps.not_reserves_zero
  · rintro (k | y) hne w
    · rw [Takes, Takes, hkey]
    · rw [Takes, Takes, hother y fun heq ↦ hne (congrArg Sum.inr heq)]
  · have hyx : y ≠ x := by
      rintro rfl
      exact hy hself
    rw [hother y hyx] at hy ⊢
    rw [hknown, hkey]
    exact h.alone y hy

omit [DecidableEq κ] in
theorem Kept.makeRoom (h : s.Kept C K) (k : κ) : (s.makeRoom C K k).Kept C K := by
  rw [KeyTable.makeRoom]
  cases (C.info k).sta with
  | none => exact h
  | some x => exact h.ath9kDelPsKey x

omit [DecidableEq κ] in
/-- It changes neither the keys nor the stations that are known. -/
theorem frame_makeRoom (C : KeyConfig σ κ) (K : KeyOps μ) (s : KeyTable σ κ μ) (k : κ) :
    (s.makeRoom C K k).key = s.key ∧ (s.makeRoom C K k).known = s.known ∧
      ∀ x, (C.info k).sta = some x → ((s.makeRoom C K k).node x).psKey = 0 := by
  rw [KeyTable.makeRoom]
  cases (C.info k).sta with
  | none => exact ⟨rfl, rfl, nofun⟩
  | some x =>
    obtain ⟨hkey, hknown, hnode, -⟩ := ath9kDelPsKey_spec K s x
    refine ⟨hkey, hknown, fun y hy ↦ ?_⟩
    obtain rfl := Option.some_inj.mp hy
    dsimp only
    rw [hnode, Function.update_self, psKey_noPsKey]

/-! ### What the functions do -/

omit [DecidableEq κ] [DecidableEq σ] in
theorem refusal_ne_zero {e : Int32} (h : refusal C k = some e) : e ≠ 0 := by
  rw [refusal] at h
  split_ifs at h <;> obtain rfl := Option.some_inj.mp h <;> decide

omit [DecidableEq κ] in
theorem node_replaceIdx (C : KeyConfig σ κ) (s : KeyTable σ κ μ) (k : κ) (v w : UInt8) (x : σ) :
    (s.replaceIdx C k v w).node x =
      if (C.info k).sta = some x then
        { s.node x with keyIdx := (s.node x).keyIdx.replace v w }
      else s.node x := by
  rw [replaceIdx]
  cases hsta : (C.info k).sta with
  | none => rfl
  | some y =>
    rcases eq_or_ne y x with rfl | hyx
    · simp [setNode]
    · simp [setNode, hyx, hyx.symm]

/-- A key that the table takes. -/
theorem setKey_ok (s : KeyTable σ κ μ) (hacc : refusal C k = none)
    (hret : (K.config env (s.makeRoom C K k).hw (C.info k).cipher).2 = .ok v) :
    ∃ c : KeyConf, c.hwKeyIdx = v ∧ c.uploaded = true ∧
      uploadedIf k (s.ath9kSetKey C K k env) =
        { s.makeRoom C K k with
          hw := (K.config env (s.makeRoom C K k).hw (C.info k).cipher).1
          node :=
            if v = 0 then (s.makeRoom C K k).node
            else ((s.makeRoom C K k).replaceIdx C k 0 v).node
          key := Function.update s.key k c } := by
  have hkey := (frame_makeRoom C K s k).1
  rw [ath9kSetKey, hacc]
  dsimp only
  generalize s.makeRoom C K k = u at hkey hret ⊢
  rw [← hkey, setConf, hret]
  refine ⟨⟨v, true, (u.key k).generateMmic || (C.info k).cipher = .tkip,
    (u.key k).swMgmtTx || (C.swMgmtCrypto && (C.info k).cipher = .ccmp), true⟩, rfl, rfl, ?_⟩
  dsimp only
  split
  · simp [uploadedIf, setConf]
  · rw [replaceIdx, replaceIdx]
    cases (C.info k).sta <;> simp [uploadedIf, setConf, setNode]

/-- A key that the table does not take. -/
theorem setKey_error {e : Int32} (s : KeyTable σ κ μ) (hacc : refusal C k = none)
    (hret : (K.config env (s.makeRoom C K k).hw (C.info k).cipher).2 = .error e) :
    ∃ c : KeyConf, c.hwKeyIdx = 0 ∧ c.uploaded = false ∧
      uploadedIf k (s.ath9kSetKey C K k env) =
        { s.makeRoom C K k with
          hw := (K.config env (s.makeRoom C K k).hw (C.info k).cipher).1
          key := Function.update s.key k c } := by
  have hkey := (frame_makeRoom C K s k).1
  have he := ne_zero_of_error hret
  rw [ath9kSetKey, hacc]
  dsimp only
  generalize s.makeRoom C K k = u at hkey hret ⊢
  rw [← hkey, setConf, hret]
  refine ⟨{ u.key k with hwKeyIdx := 0, uploaded := false }, rfl, rfl, ?_⟩
  simp [uploadedIf, setConf, he]

/-- A key that is taken out of the table. -/
theorem disableKey_eq (K : KeyOps μ) (s : KeyTable σ κ μ) (hacc : refusal C k = none) :
    ∃ c : KeyConf, c.hwKeyIdx = 0 ∧ c.uploaded = false ∧
      (s.ath9kDisableKey C K k).1.setConf k
          { (s.ath9kDisableKey C K k).1.key k with uploaded := false } =
        { s with
          hw := K.delete s.hw (C.info k).cipher (s.key k).hwKeyIdx
          node := (s.replaceIdx C k (s.key k).hwKeyIdx 0).node
          key := Function.update s.key k c } := by
  rw [ath9kDisableKey, hacc]
  simp only [replaceIdx]
  refine ⟨{ s.key k with hwKeyIdx := 0, uploaded := false }, rfl, rfl, ?_⟩
  cases (C.info k).sta <;> simp [setConf, setNode]

omit [DecidableEq κ] in
/-- What a station has when it is added, and what has been marked for it. -/
theorem staAdd_spec (C : KeyConfig σ κ) (K : KeyOps μ) (s : KeyTable σ κ μ) (x : σ) (env : ℕ) :
    ∃ v, (s.ath9kStaAdd C K x env).key = s.key ∧
      (s.ath9kStaAdd C K x env).node = Function.update s.node x
        { s.node x with
          keyIdx := #v[v, 0, 0, 0]
          psKey := if v = 0 then (s.node x).psKey else v.toInt8 } ∧
      ∀ w, (K.Reserves .other v w → ¬s.Marked K w) ∧
        ((s.ath9kStaAdd C K x env).Marked K w ↔ s.Marked K w ∨ K.Reserves .other v w) := by
  have hplain : (s.athNodeAttach x).node = Function.update s.node x
      { s.node x with
        keyIdx := #v[0, 0, 0, 0]
        psKey := if (0 : UInt8) = 0 then (s.node x).psKey else (0 : UInt8).toInt8 } := rfl
  have hzero : ∀ {t : KeyTable σ κ μ}, (∀ w, t.Marked K w ↔ s.Marked K w) → ∀ w,
      (K.Reserves .other 0 w → ¬s.Marked K w) ∧
        (t.Marked K w ↔ s.Marked K w ∨ K.Reserves .other 0 w) := fun ht w ↦
    ⟨fun hw ↦ absurd hw KeyOps.not_reserves_zero,
      (ht w).trans (or_iff_left KeyOps.not_reserves_zero).symm⟩
  rw [ath9kStaAdd]
  dsimp only
  split
  · cases hret : (K.config env (s.athNodeAttach x).hw .other).2 with
    | error e => exact ⟨0, rfl, hplain, hzero (marked_config_error hret rfl)⟩
    | ok v =>
      have hmap : ∀ {t : KeyTable σ κ μ}, t.hw = (K.config env s.hw .other).1 → ∀ w,
          (K.Reserves .other v w → ¬s.Marked K w) ∧
            (t.Marked K w ↔ s.Marked K w ∨ K.Reserves .other v w) := marked_config hret
      rcases eq_or_ne v 0 with rfl | hv
      · exact ⟨0, rfl, hplain, hmap rfl⟩
      · dsimp only
        rw [if_pos (UInt8.pos_iff_ne_zero.mpr hv)]
        refine ⟨v, rfl, ?_, hmap rfl⟩
        simp [athNodeAttach, setNode, hv]
        rfl
  · exact ⟨0, rfl, hplain, hzero fun _ ↦ Iff.rfl⟩

omit [DecidableEq κ] in
/-- A station that falls asleep or wakes up keeps its slots. -/
theorem node_ath9kStaNotify (K : KeyOps μ) (s : KeyTable σ κ μ) (x y : σ) (sleep : Bool) :
    ((s.ath9kStaNotify K x sleep).node y).psKey = (s.node y).psKey ∧
      ((s.ath9kStaNotify K x sleep).node y).keyIdx = (s.node y).keyIdx := by
  rcases eq_or_ne y x with rfl | hyx
  · simp [ath9kStaNotify, ath9kStaSetTxFilter, setNode]
  · simp [ath9kStaNotify, ath9kStaSetTxFilter, setNode, hyx]

/-- What setting the filter of several slots comes to. -/
theorem foldl_setTxFilter (K : KeyOps μ) (l : List UInt8) (m : μ) (set : Bool) :
    K.keymap (l.foldl (fun hw v ↦ if v = 0 then hw else K.setTxFilter hw v set) m) = K.keymap m ∧
      ∀ w, K.txFilter (l.foldl (fun hw v ↦ if v = 0 then hw else K.setTxFilter hw v set) m) w =
        if w ≠ 0 ∧ w ∈ l then set else K.txFilter m w := by
  induction l generalizing m with
  | nil => exact ⟨rfl, fun w ↦ (if_neg fun h ↦ List.not_mem_nil h.2).symm⟩
  | cons v l ih =>
    rw [List.foldl_cons]
    refine ⟨(ih _).1.trans ?_, fun w ↦ (ih _).2 w |>.trans ?_⟩
    · split
      · rfl
      · exact K.keymap_setTxFilter m v set
    · rcases eq_or_ne v 0 with rfl | hv
      · rw [if_pos rfl]
        refine if_congr (and_congr_right fun hw ↦ ?_) rfl rfl
        rw [List.mem_cons]
        exact (or_iff_right hw).symm
      · rw [if_neg hv, K.txFilter_setTxFilter]
        rcases eq_or_ne w v with rfl | hwv
        · simp [hv]
        · simp [hwv]

omit [DecidableEq κ] in
/-- It marks no slot and unmarks none. -/
theorem marked_ath9kStaNotify (K : KeyOps μ) (s : KeyTable σ κ μ) (x : σ) (sleep : Bool)
    (w : UInt8) : (s.ath9kStaNotify K x sleep).Marked K w ↔ s.Marked K w := by
  rw [Marked, Marked, ath9kStaNotify, ath9kStaSetTxFilter]
  dsimp only
  rw [(foldl_setTxFilter K _ _ sleep).1]
  rfl

/-! ### One step -/

omit [DecidableEq κ] in
/-- A station is added, with a slot for its power save or without. -/
theorem Kept.add (h : s.Kept C K) (hx : s.known x = false)
    (hmap : ∀ w, (K.Reserves .other v w → ¬s.Marked K w) ∧
      (t.Marked K w ↔ s.Marked K w ∨ K.Reserves .other v w)) {n : KeyNode}
    (hn : n.psKey.toUInt8 = v ∧ n.keyIdx = #v[v, 0, 0, 0])
    (hkey : t.key = s.key) (hnode : t.node = Function.update s.node x n)
    (hknown : t.known = Function.update s.known x true) : t.Kept C K := by
  have hself : t.node x = n := by rw [hnode, Function.update_self]
  have hother : ∀ y, y ≠ x → t.node y = s.node y := fun y hy ↦ by
    rw [hnode, Function.update_of_ne hy]
  have hmono : ∀ y, s.known y = true → t.known y = true := by
    intro y hy
    rw [hknown]
    rcases eq_or_ne y x with rfl | hyx
    · exact Function.update_self ..
    · rwa [Function.update_of_ne hyx]
  refine ⟨h.leased.take (h := .inr x) (fun w ↦ ?_) (fun w ↦ (hmap w).1) (fun w ↦ (hmap w).2)
    (fun w ↦ ?_) ?_, hkey ▸ h.idle, hkey ▸ h.offloaded, fun k y hy hk ↦ ?_, fun y hy ↦ ?_⟩
  · rw [Takes, h.psKey_eq_zero hx]
    exact KeyOps.not_reserves_zero
  · rw [Takes, hself, hn.1]
  · rintro (k | y) hne w
    · rw [Takes, Takes, hkey]
    · rw [Takes, Takes, hother y fun heq ↦ hne (congrArg Sum.inr heq)]
  · exact hmono y (h.station k y hy (hkey ▸ hk))
  · rw [hkey]
    rcases eq_or_ne y x with rfl | hyx
    · rw [hself, hknown, Function.update_self, hn.1]
      exact ⟨rfl, hn.2, fun k ↦ h.not_uploaded hx⟩
    · rw [hother y hyx] at hy ⊢
      obtain ⟨hkn, hidx, hall⟩ := h.alone y hy
      exact ⟨hmono y hkn, hidx, hall⟩

omit [DecidableEq κ] in
/-- A station is removed that has no key. -/
theorem Kept.remove (h : s.Kept C K) (hps : (s.node x).psKey = 0)
    (hno : ∀ k, (C.info k).sta = some x → (s.key k).uploaded = false) :
    { s with known := Function.update s.known x false }.Kept C K := by
  refine ⟨h.leased, h.idle, h.offloaded, fun k y hy hk ↦ ?_, fun y hy ↦ ?_⟩
  · have hyx : y ≠ x := by
      rintro rfl
      exact Bool.eq_false_iff.mp (hno k hy) hk
    exact (Function.update_of_ne hyx _ _).trans (h.station k y hy hk)
  · have hyx : y ≠ x := by
      rintro rfl
      exact hy hps
    obtain ⟨hkn, hidx, hall⟩ := h.alone y hy
    exact ⟨(Function.update_of_ne hyx _ _).trans hkn, hidx, hall⟩

variable [Fintype κ] {e : KeyEvent σ κ}

theorem Kept.step (h : s.Kept C K) (hst : (stationKeys C K).step s e = some t) : t.Kept C K := by
  cases e with
  | staAdd x env =>
    obtain ⟨hx, ⟨⟩⟩ := Option.ite_none_right_eq_some.mp hst
    obtain ⟨v, hkey, hnode, hmap⟩ := staAdd_spec C K s x env
    refine h.add (v := v) hx hmap ⟨?_, rfl⟩ hkey hnode rfl
    dsimp only
    split
    · rename_i hv
      rw [h.psKey_eq_zero hx, hv]
      rfl
    · rfl
  | staRemove x =>
    obtain ⟨⟨-, hno⟩, ⟨⟩⟩ := Option.ite_none_right_eq_some.mp hst
    have hdel := h.ath9kDelPsKey x
    obtain ⟨hkey, hknown, hnode, -⟩ := ath9kDelPsKey_spec K s x
    rw [← hkey] at hno
    rw [← hknown]
    refine hdel.remove ?_ hno
    rw [hnode, Function.update_self, psKey_noPsKey]
  | setKey k env =>
    obtain ⟨⟨hk, hsta⟩, ⟨⟩⟩ := Option.ite_none_right_eq_some.mp hst
    have hroom := h.makeRoom k
    obtain ⟨hkey, hknown, hps⟩ := frame_makeRoom C K s k
    cases hacc : refusal C k with
    | some e =>
      have hsame : uploadedIf k (s.ath9kSetKey C K k env) =
          s.setConf k { s.key k with uploaded := false } := by
        rw [ath9kSetKey, hacc, uploadedIf, decide_eq_false (refusal_ne_zero hacc)]
      rw [hsame]
      refine h.frame (fun _ ↦ Iff.rfl) (fun l ↦ ?_) (fun _ ↦ id) fun _ ↦ ⟨rfl, fun _ ↦ rfl⟩
      rcases eq_or_ne l k with rfl | hlk
      · simp [setConf, hk]
      · simp [setConf, hlk]
    | none =>
      rw [← hkey] at hk
      cases hret : (K.config env (s.makeRoom C K k).hw (C.info k).cipher).2 with
      | error e =>
        obtain ⟨c, hidx, hup, heq⟩ := setKey_error s hacc hret
        rw [heq]
        refine hroom.frame (marked_config_error hret rfl) (fun l ↦ ?_) (fun _ ↦ id)
          fun _ ↦ ⟨rfl, fun _ ↦ rfl⟩
        rcases eq_or_ne l k with rfl | hlk
        · simp [hidx, hup, hroom.idle l hk, hk]
        · simp [hlk, hkey]
      | ok v =>
        obtain ⟨c, hidx, hup, heq⟩ := setKey_ok s hacc hret
        rw [heq]
        refine hroom.put hk hacc (fun x hx ↦ ⟨?_, hps x hx⟩) (marked_config hret rfl) ⟨hidx, hup⟩
          (by rw [hkey]) rfl fun x ↦ ?_
        · rw [hx, Option.all_some] at hsta
          rwa [hknown]
        · dsimp only
          split
          · exact ⟨rfl, fun _ ↦ rfl⟩
          · rw [node_replaceIdx]
            split
            · rename_i hx
              exact ⟨rfl, fun hne ↦ absurd (hps x hx) hne⟩
            · exact ⟨rfl, fun _ ↦ rfl⟩
  | disableKey k =>
    obtain ⟨hk, ⟨⟩⟩ := Option.ite_none_right_eq_some.mp hst
    obtain ⟨c, hidx, hup, heq⟩ := disableKey_eq K s (h.offloaded k hk)
    rw [heq]
    refine h.drop ⟨hidx, hup⟩ (marked_delete rfl) rfl rfl fun x ↦ ?_
    rw [node_replaceIdx]
    split
    · rename_i hx
      refine ⟨rfl, fun hne ↦ ?_⟩
      exact absurd hk (Bool.eq_false_iff.mp ((h.alone x hne).2.2 k hx))
    · exact ⟨rfl, fun _ ↦ rfl⟩
  | notify x sleep =>
    obtain ⟨-, ⟨⟩⟩ := Option.ite_none_right_eq_some.mp hst
    refine h.frame (marked_ath9kStaNotify K s x sleep) (fun _ ↦ ⟨rfl, rfl⟩) (fun _ ↦ id)
      fun y ↦ ?_
    exact ⟨(node_ath9kStaNotify K s x y sleep).1, fun _ ↦ (node_ath9kStaNotify K s x y sleep).2⟩

end KeyTable

end UcsmaRateControl
