import UcsmaRateControl.Ath9k.ConfTx
import Mathlib.Data.Fin.VecNotation

/-!
# The driver's own ladder

`ath_cw_update` in the driver chooses a contention window from the number of free buffers, as the
handlers of the module do, and hands it to `ath9k_hw_set_txq_props` as `CWmin` and `CWmax`. Its
ladder starts with a test that the next four imply, so those are never reached.

The functions of the hardware layer that it calls are not part of the repository; they are
parameters, of which nothing is assumed.
-/

namespace UcsmaRateControl

/-- The functions for the properties of a transmit queue, on whatever state the hardware layer
keeps. -/
structure TxqProps (σ : Type*) where
  /-- `ath9k_hw_get_txq_props`. -/
  getTxqProps : σ → ℕ → TxQueueInfo
  /-- `ath9k_hw_set_txq_props`. -/
  setTxqProps : σ → ℕ → TxQueueInfo → σ × Bool
  /-- `ath9k_hw_resettxqueue`. -/
  resettxqueue : σ → ℕ → σ

/-- The branch of the ladder of `ath_cw_update` that is taken, counted from the top. -/
def athCwRung (bufSize : UInt32) : Fin 9 :=
  if bufSize > 40 then 0
  else if bufSize > 65 then 1
  else if bufSize > 60 then 2
  else if bufSize > 50 then 3
  else if bufSize > 40 then 4
  else if bufSize > 20 then 5
  else if bufSize > 10 then 6
  else if bufSize > 5 then 7
  else 8

/-- What the branches assign, each to both `tqi_cwmin` and `tqi_cwmax`. -/
def athCwWindow : Fin 9 → UInt32 := ![511, 255, 255, 255, 63, 15, 7, 3, 1]

/-- What a call of `ath_cw_update` does. -/
structure CwUpdate (σ : Type*) where
  /-- What it hands to `ath9k_hw_set_txq_props`. -/
  qi : TxQueueInfo
  ah : σ
  error : Int32

section

variable {σ : Type*} (X : TxqProps σ)

/-- `ath_cw_update`, unless it hits its `BUG_ON`. The queues are given by their `axq_qnum`. -/
def athCwUpdate (axqQnum : ℕ → ℕ) (ah : σ) (qnum : ℕ) (bufSize : UInt32) : Option (CwUpdate σ) :=
  if axqQnum qnum ≠ qnum then none
  else
    let qi := X.getTxqProps ah qnum
    let cw := athCwWindow (athCwRung bufSize)
    let qi := { qi with tqiCwmin := cw, tqiCwmax := cw }
    let (ah, ok) := X.setTxqProps ah qnum qi
    -- `-EIO`
    if !ok then some ⟨qi, ah, -5⟩ else some ⟨qi, X.resettxqueue ah qnum, 0⟩

variable {X} {axqQnum : ℕ → ℕ} {ah : σ} {qnum : ℕ} {bufSize : UInt32} {u : CwUpdate σ}

theorem qi_athCwUpdate (h : athCwUpdate X axqQnum ah qnum bufSize = some u) :
    (u.qi.tqiCwmin, u.qi.tqiCwmax) =
      (athCwWindow (athCwRung bufSize), athCwWindow (athCwRung bufSize)) := by
  obtain ⟨-, h⟩ := Option.ite_none_left_eq_some.mp h
  dsimp only at h
  split at h
  · obtain rfl := Option.some_inj.mp h
    rfl
  · obtain rfl := Option.some_inj.mp h
    rfl

end

/-! ## The two ladders -/

/-- The rungs that both ladders have at the bottom. -/
def lowRungs (n : ℕ) : UInt32 :=
  if 20 < n then 15 else if 10 < n then 7 else if 5 < n then 3 else 1

/-- The module's ladder in terms of the length of the list. -/
theorem cwFor_eq {n : ℕ} (h : n < 2 ^ 31) :
    cwFor n =
      if 70 < n then 1023 else if 60 < n then 511 else if 50 < n then 255
      else if 40 < n then 63 else lowRungs n := by
  have hrung : ∀ (k : ℕ) (c : Int32) (x y : UInt32), c.toInt = k →
      (if (UInt32.ofNat n).toInt32 > c then x else y) = if k < n then x else y := by
    intro k c x y hc
    refine if_congr ?_ rfl rfl
    rw [gt_iff_lt, Int32.lt_iff_toInt_lt, toInt_toInt32_ofNat h, hc, Int.ofNat_lt]
  rw [cwFor, cwVal, hrung 70 70 _ _ rfl, hrung 65 65 _ _ rfl, hrung 60 60 _ _ rfl,
    hrung 50 50 _ _ rfl, hrung 40 40 _ _ rfl, hrung 20 20 _ _ rfl, hrung 10 10 _ _ rfl,
    hrung 5 5 _ _ rfl, lowRungs]
  -- the rungs at 65 and at 60 have the same window
  by_cases hhigh : 65 < n
  · rw [if_pos hhigh, if_pos (by omega : 60 < n)]
  · rw [if_neg hhigh]

/-- Everything above forty takes the first branch. -/
theorem athCwRung_eq (bufSize : UInt32) :
    athCwRung bufSize =
      if 40 < bufSize.toNat then 0 else if 20 < bufSize.toNat then 5
      else if 10 < bufSize.toNat then 6 else if 5 < bufSize.toNat then 7 else 8 := by
  have hgt : ∀ c : UInt32, bufSize > c ↔ c.toNat < bufSize.toNat := fun _ ↦
    UInt32.lt_iff_toNat_lt
  by_cases hhigh : 40 < bufSize.toNat
  · rw [if_pos hhigh, athCwRung, if_pos ((hgt 40).mpr hhigh)]
  · have hskip : ∀ c : UInt32, 40 ≤ c.toNat → ¬bufSize > c := fun c hc hlt ↦
      hhigh (hc.trans_lt ((hgt c).mp hlt))
    rw [if_neg hhigh, athCwRung, if_neg (hskip 40 (by decide)), if_neg (hskip 65 (by decide)),
      if_neg (hskip 60 (by decide)), if_neg (hskip 50 (by decide)), if_neg (hskip 40 (by decide))]
    exact if_congr (hgt 20) rfl (if_congr (hgt 10) rfl (if_congr (hgt 5) rfl rfl))

theorem athCwWindow_athCwRung (bufSize : UInt32) :
    athCwWindow (athCwRung bufSize) =
      if 40 < bufSize.toNat then 511 else lowRungs bufSize.toNat := by
  rw [athCwRung_eq, lowRungs, apply_ite athCwWindow, apply_ite athCwWindow, apply_ite athCwWindow,
    apply_ite athCwWindow]
  rfl

/-- Four of the nine branches are dead. -/
theorem exists_athCwRung_eq_iff (k : Fin 9) :
    (∃ bufSize : UInt32, bufSize.toNat < 2 ^ 31 ∧ athCwRung bufSize = k) ↔ k = 0 ∨ 5 ≤ k := by
  constructor
  · rintro ⟨bufSize, -, rfl⟩
    rw [athCwRung_eq]
    split_ifs <;> decide
  · intro hk
    have hlive : ∀ k : Fin 9, k = 0 ∨ 5 ≤ k → ∃ bufSize ∈ [41, 21, 11, 6, (0 : UInt32)],
        bufSize.toNat < 2 ^ 31 ∧ athCwRung bufSize = k := by decide
    obtain ⟨bufSize, -, hlt, hrung⟩ := hlive k hk
    exact ⟨bufSize, hlt, hrung⟩

/-- The two ladders agree up to forty free buffers, and again on one rung in the middle. -/
theorem athCwWindow_eq_cwFor_iff {bufSize : UInt32} (h : bufSize.toNat < 2 ^ 31) :
    athCwWindow (athCwRung bufSize) = cwFor bufSize.toNat ↔
      bufSize ≤ 40 ∨ 60 < bufSize ∧ bufSize ≤ 70 := by
  have hle : ∀ c : UInt32, bufSize ≤ c ↔ ¬c.toNat < bufSize.toNat := fun c ↦ by
    rw [UInt32.le_iff_toNat_le, not_lt]
  have h40 : (40 : UInt32).toNat = 40 := rfl
  have h60 : (60 : UInt32).toNat = 60 := rfl
  have h70 : (70 : UInt32).toNat = 70 := rfl
  rw [athCwWindow_athCwRung, cwFor_eq h, hle, hle, UInt32.lt_iff_toNat_lt, h40, h60, h70]
  generalize bufSize.toNat = n
  by_cases hlow : 40 < n
  · rw [if_pos hlow, if_pos hlow]
    by_cases h70 : 70 < n
    · rw [if_pos h70]
      exact iff_of_false (by decide) (by omega)
    rw [if_neg h70]
    by_cases h60 : 60 < n
    · rw [if_pos h60]
      exact iff_of_true rfl (.inr ⟨h60, h70⟩)
    rw [if_neg h60]
    by_cases h50 : 50 < n
    · rw [if_pos h50]
      exact iff_of_false (by decide) (by omega)
    · rw [if_neg h50]
      exact iff_of_false (by decide) (by omega)
  · rw [if_neg hlow, if_neg (by omega), if_neg (by omega), if_neg (by omega), if_neg hlow]
    exact iff_of_true rfl (.inl hlow)

/-! ## What the handlers pass on -/

/-- The chip has been handed to `edit_contentionWindow` with the window `c`, and the medium may have
been held quiet after that. -/
def AthHw.Edited (ah ah' : AthHw) (c : UInt32) : Prop :=
  ah' = ah.editContentionWindow c ∨
    ∃ restored, ah' = (ah.editContentionWindow c).forceQuiet restored

section Handlers

variable {g : Globals} {txbuf : ListHead}

theorem edited_unlockTimerHandler (K : Kernel) (h : g.txbufFff = some txbuf) (i : FireInput) :
    g.ah.Edited (unlockTimerHandler K g i).1.ah (cwFor txbuf.entries.length) := by
  rw [unlockTimerHandler_of_some K i h]
  exact .inl (ah_sample g txbuf)

theorem edited_unlockRIrqHandler (hlock : g.driverLock = false) (h : g.txbufFff = some txbuf)
    (i : IrqInput) : g.ah.Edited (unlockRIrqHandler g i).1.ah (cwFor txbuf.entries.length) := by
  rw [unlockRIrqHandler_of_some i hlock h]
  split
  · exact .inl (ah_sample g txbuf)
  · split
    · exact .inl (ah_sample g txbuf)
    · exact .inr ⟨i.restored, congrArg (AthHw.forceQuiet · i.restored) (ah_sample g txbuf)⟩

end Handlers

/-- **The two policies, exactly.** For fewer than `2 ^ 31` free buffers, let `c` be the window that
both handlers of the module hand to `edit_contentionWindow`. The driver hands `(c, c)` to
`ath9k_hw_set_txq_props` if and only if there are at most forty free buffers, or more than sixty and
at most seventy. Of the nine branches of its ladder the first and the last four are ever taken. -/
theorem athCwUpdate_agrees_iff {σ : Type*} {X : TxqProps σ} {axqQnum : ℕ → ℕ} {ah : σ} {qnum : ℕ}
    {bufSize : UInt32} {u : CwUpdate σ} (hlt : bufSize.toNat < 2 ^ 31)
    (h : athCwUpdate X axqQnum ah qnum bufSize = some u) :
    ((u.qi.tqiCwmin, u.qi.tqiCwmax) = (cwFor bufSize.toNat, cwFor bufSize.toNat) ↔
        bufSize ≤ 40 ∨ 60 < bufSize ∧ bufSize ≤ 70) ∧
      (∀ (K : Kernel) (g : Globals) (txbuf : ListHead), g.txbufFff = some txbuf →
        txbuf.entries.length = bufSize.toNat →
          (∀ i, g.ah.Edited (unlockTimerHandler K g i).1.ah (cwFor bufSize.toNat)) ∧
          (g.driverLock = false →
            ∀ i, g.ah.Edited (unlockRIrqHandler g i).1.ah (cwFor bufSize.toNat))) ∧
      ∀ k, (∃ b : UInt32, b.toNat < 2 ^ 31 ∧ athCwRung b = k) ↔ k = 0 ∨ 5 ≤ k := by
  refine ⟨?_, fun K g txbuf htxbuf hlen ↦ ?_, exists_athCwRung_eq_iff⟩
  · rw [qi_athCwUpdate h, Prod.mk.injEq, and_self_iff]
    exact athCwWindow_eq_cwFor_iff hlt
  · rw [← hlen]
    exact ⟨edited_unlockTimerHandler K htxbuf,
      fun hlock ↦ edited_unlockRIrqHandler hlock htxbuf⟩

/-- A hardware layer with one set of properties, which never fails. -/
def plainTxqProps : TxqProps TxQueueInfo := ⟨fun qi _ ↦ qi, fun _ _ qi ↦ (qi, true), fun qi _ ↦ qi⟩

/-- With sixty-five free buffers the driver is back in step. -/
theorem athCwUpdate_agrees_iff_sixtyfive :
    ∃ u, athCwUpdate plainTxqProps id ⟨0, 15, 1023, 0⟩ 2 65 = some u ∧
      (u.qi.tqiCwmin, u.qi.tqiCwmax) = (cwFor 65, cwFor 65) := by
  have hset : athCwUpdate plainTxqProps id ⟨0, 15, 1023, 0⟩ 2 65 =
      some ⟨⟨0, 511, 511, 0⟩, ⟨0, 511, 511, 0⟩, 0⟩ := rfl
  exact ⟨_, hset, (athCwUpdate_agrees_iff (by decide) hset).1.mpr (by decide)⟩

/-- With forty-one free buffers the driver sets a window of 511, and the module one of 63. No number
of free buffers takes the driver to its second branch. -/
theorem exists_disagreement :
    (∃ u, athCwUpdate plainTxqProps id ⟨0, 15, 1023, 0⟩ 2 41 = some u ∧
        (u.qi.tqiCwmin, u.qi.tqiCwmax) = (511, 511) ∧ cwFor 41 = 63) ∧
      ∀ bufSize, athCwRung bufSize ≠ 1 := by
  refine ⟨⟨_, rfl, rfl, by decide⟩, fun bufSize ↦ ?_⟩
  rw [athCwRung_eq]
  split_ifs <;> decide

end UcsmaRateControl
