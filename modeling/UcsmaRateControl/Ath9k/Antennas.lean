import Mathlib.Data.Nat.Bitwise
import UcsmaRateControl.Machine.Run
import UcsmaRateControl.Machine.Scatter

/-!
# The antennas of the chip

A chip has up to three chains for transmission and up to three for reception, and the mask of those
it has need not be contiguous. The masks of antennas that `cfg80211` asks for are: they number the
chains that the chip has. The driver spreads them over the chains.
-/

namespace UcsmaRateControl

/-- How many chains there are in a mask. -/
def numChains (mask : ℕ) : ℕ := Scatter.rank mask.testBit 8

/-- What is fixed about the chip. -/
structure AntennaConfig where
  /-- `caps.rx_chainmask`. -/
  rxCap : ℕ
  /-- `caps.tx_chainmask`. -/
  txCap : ℕ
  /-- `AR_SREV_9300_20_OR_LATER`. -/
  ar9300 : Bool
  /-- `AR_SREV_9100`. -/
  ar9100 : Bool
  /-- `ATH9K_HW_CAP_ANT_DIV_COMB`. -/
  antDivComb : Bool
  rxCap_ne : rxCap ≠ 0
  txCap_ne : txCap ≠ 0
  rxCap_lt : rxCap < 2 ^ 3
  txCap_lt : txCap < 2 ^ 3
  /-- The AR9100 has all chains. -/
  rxCap_ar9100 : ar9100 = true → rxCap = 7
  /-- Only single chain devices have receive diversity. -/
  rxCap_divComb : antDivComb = true → rxCap = 1

namespace AntennaConfig

variable (C : AntennaConfig)

/-- `available_antennas_rx`. -/
def availableAntennasRx : ℕ := if C.antDivComb then 3 else 2 ^ numChains C.rxCap - 1

/-- `available_antennas_tx`. -/
def availableAntennasTx : ℕ := 2 ^ numChains C.txCap - 1

/-- `validate_antenna_mask`. -/
def validateAntennaMask (val : ℕ) : Bool :=
  if C.ar9300 then true
  else
    match val % 8 with
    | 1 | 3 | 7 => true
    | 2 => C.rxCap = 1
    | _ => false

end AntennaConfig

/-- The antennas that have been asked for, and the chains that are on. -/
structure Antennas where
  antTx : ℕ
  antRx : ℕ
  txchainmask : ℕ
  rxchainmask : ℕ
deriving DecidableEq

/-- The loop of `fill_chainmask`. -/
def fillLoop (filled i cap new : ℕ) : ℕ :=
  if cap = 0 ∨ new = 0 then filled
  else if cap % 2 = 0 then fillLoop filled (i + 1) (cap / 2) new
  else fillLoop (if new % 2 = 1 then filled ||| 2 ^ i else filled) (i + 1) (cap / 2) (new / 2)
termination_by cap

/-- `fill_chainmask`. -/
def fillChainmask (cap new : ℕ) : ℕ := fillLoop 0 0 cap new

namespace Antennas

variable (C : AntennaConfig) (s : Antennas)

/-- What `ath9k_set_hw_capab` and the setup of the chip begin with. -/
def initial : Antennas where
  antTx := C.availableAntennasTx % 256
  antRx := C.availableAntennasRx % 256
  txchainmask := C.txCap
  rxchainmask := C.rxCap

/-- `ath9k_set_antenna`. -/
def ath9kSetAntenna (txAnt rxAnt : ℕ) : Antennas × Int32 :=
  let rxAnt := if C.rxCap ≠ 1 then rxAnt ||| txAnt else rxAnt
  if !C.validateAntennaMask rxAnt || txAnt = 0 then (s, -22)
  else
    let s := { s with antRx := rxAnt % 256, antTx := txAnt % 256 }
    if C.rxCap = 1 then (s, 0)
    else
      ({ s with
        rxchainmask := if C.ar9100 then 7 else fillChainmask C.rxCap rxAnt % 256
        txchainmask := fillChainmask C.txCap txAnt % 256 }, 0)

/-- `ath9k_get_antenna`. -/
def ath9kGetAntenna : ℕ × ℕ := (s.antTx, s.antRx)

end Antennas

/-- The machine of the antennas. `cfg80211` asks for none that is not available. -/
def antennas (C : AntennaConfig) : Machine Antennas (ℕ × ℕ) where
  step s e :=
    if e.1 &&& C.availableAntennasTx = e.1 ∧ e.2 &&& C.availableAntennasRx = e.2 then
      some (s.ath9kSetAntenna C e.1 e.2).1
    else none

/-! ## The loop -/

open Scatter

theorem testBit_half (x : ℕ) : (x / 2).testBit = fun i ↦ x.testBit (i + 1) :=
  funext fun i ↦ Nat.testBit_div_two x i

/-- **What the loop does.** It scatters the bits of the new mask over the chains, from the one it is
at. -/
theorem testBit_fillLoop (filled i cap new j : ℕ) :
    (fillLoop filled i cap new).testBit j =
      (filled.testBit j || (decide (i ≤ j) && scatter cap.testBit new.testBit (j - i))) := by
  fun_induction fillLoop filled i cap new with
  | case1 filled i cap new h =>
    have hnone : scatter cap.testBit new.testBit (j - i) = false := by
      rcases h with rfl | rfl <;> simp [scatter]
    rw [hnone, Bool.and_false, Bool.or_false]
  | case2 filled i cap new h heven ih =>
    have hzero : cap.testBit 0 = false := by simp [heven]
    rw [ih, testBit_half]
    rcases Nat.lt_trichotomy i j with hlt | rfl | hgt
    · have hsucc : j - i = j - (i + 1) + 1 := by omega
      rw [hsucc, scatter_succ_of_not hzero, decide_eq_true (Nat.succ_le_of_lt hlt),
        decide_eq_true hlt.le]
    · simp [scatter_zero, hzero]
    · simp [Nat.not_le_of_gt hgt, Nat.not_le_of_gt (Nat.lt_succ_of_lt hgt)]
  | case3 filled i cap new h hodd ih =>
    have hone : cap.testBit 0 = true := by
      rw [Nat.testBit_zero, decide_eq_true_iff]
      exact Nat.mod_two_ne_zero.mp hodd
    have hfilled : (if new % 2 = 1 then filled ||| 2 ^ i else filled).testBit j =
        (filled.testBit j || (decide (i = j) && new.testBit 0)) := by
      rw [Nat.testBit_zero]
      split
      · rename_i hnew
        rw [Nat.testBit_or, Nat.testBit_two_pow, decide_eq_true hnew, Bool.and_true]
      · rename_i hnew
        rw [decide_eq_false hnew, Bool.and_false, Bool.or_false]
    rw [dite_eq_ite] at ih
    rw [ih, hfilled, testBit_half, testBit_half]
    rcases Nat.lt_trichotomy i j with hlt | rfl | hgt
    · have hsucc : j - i = j - (i + 1) + 1 := by omega
      rw [hsucc, scatter_succ_of_mark hone, decide_eq_true (Nat.succ_le_of_lt hlt),
        decide_eq_true hlt.le, decide_eq_false hlt.ne]
      simp
    · simp [scatter_zero, hone]
    · simp [Nat.not_le_of_gt hgt, Nat.not_le_of_gt (Nat.lt_succ_of_lt hgt), hgt.ne']

/-- The mask that is filled in has the bits of the new one on the chains there are. -/
theorem testBit_fillChainmask (cap new : ℕ) :
    (fillChainmask cap new).testBit = scatter cap.testBit new.testBit := by
  funext j
  rw [fillChainmask, testBit_fillLoop]
  simp

theorem testBit_of_fillChainmask {cap new j : ℕ} (h : (fillChainmask cap new).testBit j = true) :
    cap.testBit j = true := by
  rw [testBit_fillChainmask] at h
  exact le_of_scatter h

/-- The chains are below the width of the mask. -/
theorem lt_of_testBit {x n j : ℕ} (hx : x < 2 ^ n) (hj : x.testBit j = true) : j < n := by
  by_contra hge
  have hlt : x < 2 ^ j := hx.trans_le (Nat.pow_le_pow_right Nat.two_pos (Nat.not_lt.mp hge))
  exact Bool.eq_false_iff.mp (Nat.testBit_lt_two_pow hlt) hj

theorem fillChainmask_lt {cap : ℕ} (hcap : cap < 2 ^ 3) (new : ℕ) :
    fillChainmask cap new < 2 ^ 3 := by
  refine Nat.lt_pow_two_of_testBit _ fun i hi ↦ ?_
  rw [Bool.eq_false_iff]
  exact fun hbit ↦ Nat.not_lt_of_ge hi (lt_of_testBit hcap (testBit_of_fillChainmask hbit))

theorem numChains_le (mask : ℕ) : numChains mask ≤ 8 := rank_le _ _

/-- A mask has no more chains than it is wide. -/
theorem rank_of_lt {x n m : ℕ} (hx : x < 2 ^ n) (hnm : n ≤ m) :
    rank x.testBit m = rank x.testBit n := by
  induction m, hnm using Nat.le_induction with
  | base => rfl
  | succ m hnm ih =>
    have hlt : x < 2 ^ m := hx.trans_le (Nat.pow_le_pow_right Nat.two_pos hnm)
    rw [rank_succ, ih, Nat.testBit_lt_two_pow hlt]
    rfl

/-- As many chains are on as antennas have been asked for. -/
theorem numChains_fillChainmask {cap new : ℕ} (hnew : new < 2 ^ numChains cap) :
    numChains (fillChainmask cap new) = numChains new := by
  rw [numChains, testBit_fillChainmask, count_scatter]
  exact (rank_of_lt hnew (numChains_le cap)).symm

/-- Which antennas have been asked for shows in the chains that are on. -/
theorem eq_of_fillChainmask_eq {cap a b : ℕ} (ha : a < 2 ^ numChains cap)
    (hb : b < 2 ^ numChains cap) (h : fillChainmask cap a = fillChainmask cap b) : a = b := by
  refine Nat.eq_of_testBit_eq fun k ↦ ?_
  rcases Nat.lt_or_ge k (numChains cap) with hk | hk
  · have hread : ∀ x, gather cap.testBit (fillChainmask cap x).testBit 8 k = x.testBit k := by
      intro x
      rw [testBit_fillChainmask]
      exact gather_scatter hk
    rw [← hread a, ← hread b, h]
  · have hpow := Nat.pow_le_pow_right Nat.two_pos hk
    rw [Nat.testBit_lt_two_pow (ha.trans_le hpow), Nat.testBit_lt_two_pow (hb.trans_le hpow)]

theorem fillChainmask_ne_zero {cap new : ℕ} (hne : new ≠ 0) (hlt : new < 2 ^ numChains cap) :
    fillChainmask cap new ≠ 0 := by
  intro hzero
  have hnone : fillChainmask cap 0 = 0 := by
    rw [fillChainmask, fillLoop, if_pos (.inr rfl)]
  exact hne (eq_of_fillChainmask_eq hlt (Nat.two_pow_pos _) (hzero.trans hnone.symm))

/-- Every set of chains is that of some antennas. -/
theorem exists_fillChainmask {cap m : ℕ} (hcap : cap < 2 ^ 3)
    (hm : ∀ j, m.testBit j = true → cap.testBit j = true) :
    ∃ a < 2 ^ numChains cap, fillChainmask cap a = m := by
  refine ⟨Nat.ofBits fun i : Fin (numChains cap) ↦ gather cap.testBit m.testBit 8 i,
    Nat.ofBits_lt_two_pow _, Nat.eq_of_testBit_eq fun j ↦ ?_⟩
  have hread : (Nat.ofBits fun i : Fin (numChains cap) ↦
      gather cap.testBit m.testBit 8 i).testBit = gather cap.testBit m.testBit 8 := by
    funext k
    rcases Nat.lt_or_ge k (numChains cap) with hk | hk
    · exact Nat.testBit_ofBits_lt _ k hk
    · rw [Nat.testBit_ofBits_ge _ k hk, eq_comm, Bool.eq_false_iff]
      exact fun hbit ↦ absurd (lt_of_gather hbit) (Nat.not_lt_of_ge hk)
  rw [testBit_fillChainmask, hread, scatter_gather]
  intro j hj
  exact ⟨hm j hj, (lt_of_testBit hcap (hm j hj)).trans (by decide)⟩

/-- With all antennas all chains are on. -/
theorem fillChainmask_all {cap : ℕ} (hcap : cap < 2 ^ 3) :
    fillChainmask cap (2 ^ numChains cap - 1) = cap := by
  refine Nat.eq_of_testBit_eq fun j ↦ ?_
  rw [testBit_fillChainmask, scatter, Nat.testBit_two_pow_sub_one]
  cases hj : cap.testBit j with
  | false => rfl
  | true => exact decide_eq_true (rank_lt hj ((lt_of_testBit hcap hj).trans (by decide)))

/-! ## One step -/

namespace Antennas

variable {C : AntennaConfig} {s t u : Antennas}

/-- The antennas that have been asked for are those of the chains that are on. -/
structure Agrees (C : AntennaConfig) (s : Antennas) : Prop where
  tx_ne : s.antTx ≠ 0
  tx_lt : s.antTx < 2 ^ numChains C.txCap
  valid : C.validateAntennaMask s.antRx = true
  /-- The chip receives on all antennas it has been asked to transmit on. -/
  both : C.rxCap ≠ 1 → s = initial C ∨ s.antRx ||| s.antTx = s.antRx
  tx : C.rxCap ≠ 1 → s.txchainmask = fillChainmask C.txCap s.antTx
  rx : C.rxCap ≠ 1 → s.rxchainmask = if C.ar9100 then 7 else fillChainmask C.rxCap s.antRx
  single : C.rxCap = 1 → s.txchainmask = C.txCap ∧ s.rxchainmask = C.rxCap

theorem numChains_pos {cap : ℕ} (hne : cap ≠ 0) (hlt : cap < 2 ^ 3) : 0 < numChains cap := by
  by_contra hzero
  refine hne (Nat.eq_of_testBit_eq fun j ↦ ?_)
  rw [Nat.zero_testBit, Bool.eq_false_iff]
  intro hj
  have hrank := rank_lt hj ((lt_of_testBit hlt hj).trans (by decide : 3 < 8))
  rw [numChains] at hzero
  omega

theorem numChains_le_three {cap : ℕ} (hlt : cap < 2 ^ 3) : numChains cap ≤ 3 := by
  rw [numChains, rank_of_lt hlt (by decide)]
  exact rank_le _ _

theorem availableAntennasTx_lt (C : AntennaConfig) : C.availableAntennasTx < 2 ^ 3 := by
  have hpow := Nat.pow_le_pow_right Nat.two_pos (numChains_le_three C.txCap_lt)
  have hpos := Nat.two_pow_pos (numChains C.txCap)
  rw [AntennaConfig.availableAntennasTx]
  omega

theorem availableAntennasRx_lt (C : AntennaConfig) : C.availableAntennasRx < 2 ^ 3 := by
  have hpow := Nat.pow_le_pow_right Nat.two_pos (numChains_le_three C.rxCap_lt)
  have hpos := Nat.two_pow_pos (numChains C.rxCap)
  rw [AntennaConfig.availableAntennasRx]
  split <;> omega

/-- All antennas together are valid. -/
theorem validateAntennaMask_available (C : AntennaConfig) :
    C.validateAntennaMask C.availableAntennasRx = true := by
  have hle := numChains_le_three C.rxCap_lt
  have hpos := numChains_pos C.rxCap_ne C.rxCap_lt
  have hn : numChains C.rxCap = 1 ∨ numChains C.rxCap = 2 ∨ numChains C.rxCap = 3 := by omega
  rw [AntennaConfig.validateAntennaMask, AntennaConfig.availableAntennasRx]
  split
  · rfl
  · cases C.antDivComb with
    | true => rfl
    | false => rcases hn with hn | hn | hn <;> rw [hn] <;> rfl

theorem agrees_initial (C : AntennaConfig) : (initial C).Agrees C := by
  have htx : (initial C).antTx = 2 ^ numChains C.txCap - 1 :=
    Nat.mod_eq_of_lt ((availableAntennasTx_lt C).trans (by decide))
  have hrx : (initial C).antRx = C.availableAntennasRx :=
    Nat.mod_eq_of_lt ((availableAntennasRx_lt C).trans (by decide))
  have hpos := Nat.one_lt_two_pow (numChains_pos C.txCap_ne C.txCap_lt).ne'
  have hall : C.rxCap ≠ 1 → C.availableAntennasRx = 2 ^ numChains C.rxCap - 1 :=
    fun hone ↦ if_neg fun hdiv ↦ hone (C.rxCap_divComb hdiv)
  refine ⟨by omega, by omega, ?_, fun _ ↦ .inl rfl, fun _ ↦ ?_, fun hone ↦ ?_, fun _ ↦ ⟨rfl, rfl⟩⟩
  · rw [hrx]
    exact validateAntennaMask_available C
  · rw [htx]
    exact (fillChainmask_all C.txCap_lt).symm
  · rw [hrx, hall hone, fillChainmask_all C.rxCap_lt]
    split
    · rename_i hold
      exact C.rxCap_ar9100 hold
    · rfl

theorem Agrees.step {e : ℕ × ℕ} (h : s.Agrees C) (hst : (antennas C).step s e = some t) :
    t.Agrees C := by
  obtain ⟨⟨htx, hrx⟩, ⟨⟩⟩ := Option.ite_none_right_eq_some.mp hst
  have htx' : e.1 < 2 ^ numChains C.txCap := by
    rw [AntennaConfig.availableAntennasTx, Nat.and_two_pow_sub_one_eq_mod] at htx
    exact htx ▸ Nat.mod_lt _ (Nat.two_pow_pos _)
  have hpow := Nat.pow_le_pow_right Nat.two_pos (numChains_le_three C.txCap_lt)
  have htx8 : e.1 < 2 ^ 3 := by omega
  have hrx8 : e.2 < 2 ^ 3 := by
    rw [← hrx]
    exact Nat.and_le_right.trans_lt (availableAntennasRx_lt C)
  have hor8 : (if C.rxCap ≠ 1 then e.2 ||| e.1 else e.2) < 2 ^ 3 := by
    split
    · exact Nat.or_lt_two_pow hrx8 htx8
    · exact hrx8
  have hboth : C.rxCap ≠ 1 → (if C.rxCap ≠ 1 then e.2 ||| e.1 else e.2) ||| e.1 =
      if C.rxCap ≠ 1 then e.2 ||| e.1 else e.2 := by
    intro hmany
    rw [if_pos hmany, Nat.or_assoc, Nat.or_self]
  have hmod : ∀ {x : ℕ}, x < 2 ^ 3 → x % 256 = x := fun hx ↦
    Nat.mod_eq_of_lt (hx.trans (by decide))
  rw [ath9kSetAntenna]
  dsimp only
  generalize (if C.rxCap ≠ 1 then e.2 ||| e.1 else e.2) = r at hor8 hboth ⊢
  split
  · exact h
  · rename_i hok
    rw [Bool.or_eq_true, not_or, Bool.not_eq_true', Bool.not_eq_false, decide_eq_true_iff] at hok
    rw [hmod hor8, hmod htx8, hmod (fillChainmask_lt C.rxCap_lt _),
      hmod (fillChainmask_lt C.txCap_lt _)]
    split
    · rename_i hone
      exact ⟨hok.2, htx', hok.1, fun hno ↦ absurd hone hno, fun hno ↦ absurd hone hno,
        fun hno ↦ absurd hone hno, h.single⟩
    · rename_i hmany
      exact ⟨hok.2, htx', hok.1, fun hne ↦ .inr (hboth hne), fun _ ↦ rfl, fun _ ↦ rfl,
        fun hone ↦ absurd hone hmany⟩

theorem agrees_of_run {es : List (ℕ × ℕ)} (h : (antennas C).run (initial C) es = some t) :
    t.Agrees C := Machine.invariant (fun _ _ _ hu hst ↦ Agrees.step hu hst) (agrees_initial C) h

end Antennas

section Results

variable {C : AntennaConfig} {t u : Antennas} {es fs : List (ℕ × ℕ)}

/-- A chip with two chains that are not next to each other. -/
def gapConfig : AntennaConfig where
  rxCap := 5
  txCap := 5
  ar9300 := true
  ar9100 := false
  antDivComb := false
  rxCap_ne := by decide
  txCap_ne := by decide
  rxCap_lt := by decide
  txCap_lt := by decide
  rxCap_ar9100 := fun h ↦ absurd h Bool.false_ne_true
  rxCap_divComb := fun h ↦ absurd h Bool.false_ne_true

/-- **Which chains can be on.** On a chip of the AR9003 family with several chains every set of its
chains can be turned on for transmission, but for the empty one, and no other; and the antennas that
are reported tell the sets apart. -/
theorem chains_reached_iff (hmany : C.rxCap ≠ 1) (hnew : C.ar9300 = true) (m : ℕ) :
    ((∃ es t, (antennas C).run (.initial C) es = some t ∧ t.txchainmask = m) ↔
        m ≠ 0 ∧ ∀ j, m.testBit j = true → C.txCap.testBit j = true) ∧
      ∀ es fs t u, (antennas C).run (.initial C) es = some t →
        (antennas C).run (.initial C) fs = some u →
        (t.txchainmask = u.txchainmask ↔ t.ath9kGetAntenna.1 = u.ath9kGetAntenna.1) := by
  refine ⟨⟨?_, ?_⟩, fun es fs t u ht hu ↦ ?_⟩
  · rintro ⟨es, t, ht, rfl⟩
    have hagrees := Antennas.agrees_of_run ht
    rw [hagrees.tx hmany]
    exact ⟨fillChainmask_ne_zero hagrees.tx_ne hagrees.tx_lt, fun j ↦ testBit_of_fillChainmask⟩
  · rintro ⟨hne, hsub⟩
    obtain ⟨a, ha, hfill⟩ := exists_fillChainmask C.txCap_lt hsub
    have hane : a ≠ 0 := by
      rintro rfl
      rw [fillChainmask, fillLoop, if_pos (.inr rfl)] at hfill
      exact hne hfill.symm
    have hask : a &&& C.availableAntennasTx = a ∧ 0 &&& C.availableAntennasRx = 0 :=
      ⟨Nat.and_two_pow_sub_one_of_lt_two_pow ha, Nat.zero_and _⟩
    have hstep : (antennas C).run (.initial C) [(a, 0)] =
        some ((Antennas.initial C).ath9kSetAntenna C a 0).1 := by
      rw [Machine.run_cons, antennas]
      dsimp only
      rw [if_pos hask]
      rfl
    refine ⟨[(a, 0)], _, hstep, ?_⟩
    have hlt : m < 2 ^ 3 := hfill ▸ fillChainmask_lt C.txCap_lt a
    simp only [Antennas.ath9kSetAntenna, AntennaConfig.validateAntennaMask, hnew, hane, hmany,
      hfill, if_true, if_false, Bool.not_true, Bool.false_or, decide_false, Bool.false_eq_true]
    exact Nat.mod_eq_of_lt (hlt.trans (by decide))
  · have hagrees := Antennas.agrees_of_run ht
    have hagrees' := Antennas.agrees_of_run hu
    rw [hagrees.tx hmany, hagrees'.tx hmany]
    exact ⟨eq_of_fillChainmask_eq hagrees.tx_lt hagrees'.tx_lt, congrArg _⟩

/-- Both chains of that chip. -/
theorem chains_reached_iff_gap :
    ∃ es t, (antennas gapConfig).run (.initial gapConfig) es = some t ∧ t.txchainmask = 5 :=
  (chains_reached_iff (by decide) rfl 5).1.mpr ⟨by decide, fun _ ↦ id⟩

end Results

end UcsmaRateControl
