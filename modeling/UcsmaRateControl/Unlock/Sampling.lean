import UcsmaRateControl.Unlock.Node

/-!
# Sampling the buffers

Both handlers count the free buffers, look the count up in a ladder, and hand the window they find
to `edit_contentionWindow`. The loop there overwrites its own argument with shifted copies of it,
which run out of the word at the top. What is written stays the same on every turn: the low ten bits
are the window and the next ten bits are only ever filled with the window (`Copies`).
-/

namespace UcsmaRateControl

/-! ## The argument of the loop -/

/-- The low ten bits of `w` are `c`, and the next ten hold nothing that `c` does not. -/
def Copies (c w : UInt32) : Prop :=
  ∀ i < 10, w.toBitVec.getLsbD i = c.toBitVec.getLsbD i ∧
    (w.toBitVec.getLsbD (i + 10) = true → c.toBitVec.getLsbD i = true)

theorem getLsbD_of_lt {c : UInt32} (hc : c < 1024) {i : ℕ} (hi : 10 ≤ i) :
    c.toBitVec.getLsbD i = false := by
  have hlt : c.toBitVec.toNat < 2 ^ i := lt_of_lt_of_le (UInt32.lt_iff_toNat_lt.mp hc)
    (Nat.pow_le_pow_right Nat.two_pos hi)
  rw [BitVec.getLsbD]
  exact Nat.testBit_lt_two_pow hlt

theorem getLsbD_or_shiftLeft (w : UInt32) {i : ℕ} (hi : i < 32) :
    (w ||| w <<< 10).toBitVec.getLsbD i =
      (w.toBitVec.getLsbD i || (!decide (i < 10) && w.toBitVec.getLsbD (i - 10))) := by
  have hten : (10 : UInt32).toBitVec % 32 = 10#32 := by decide
  rw [UInt32.toBitVec_or, UInt32.toBitVec_shiftLeft, hten, BitVec.getLsbD_or,
    BitVec.shiftLeft_eq', BitVec.getLsbD_shiftLeft]
  simp [hi]

theorem getLsbD_mask {i : ℕ} (hi : i < 32) :
    (0x000fffff : UInt32).toBitVec.getLsbD i = decide (i < 20) := by
  revert i
  decide

theorem Copies.refl {c : UInt32} (hc : c < 1024) : Copies c c := by
  intro i _
  refine ⟨rfl, fun h ↦ ?_⟩
  rw [getLsbD_of_lt hc (Nat.le_add_left 10 i)] at h
  exact absurd h Bool.false_ne_true

/-- A turn of the loop keeps the argument a copy of the window. -/
theorem Copies.turn {c w : UInt32} (h : Copies c w) : Copies c (w ||| w <<< 10) := by
  intro i hi
  obtain ⟨hlow, hhigh⟩ := h i hi
  rw [getLsbD_or_shiftLeft w (by omega), getLsbD_or_shiftLeft w (by omega), Nat.add_sub_cancel,
    hlow]
  simp only [hi, decide_true, Bool.not_true, Bool.false_and, Bool.or_false, true_and]
  intro hbit
  rcases Bool.or_eq_true_iff.mp hbit with hbit | hbit
  · exact hhigh hbit
  · exact (Bool.and_eq_true_iff.mp hbit).2

/-- What a turn writes. -/
theorem Copies.and_mask {c w : UInt32} (hc : c < 1024) (h : Copies c w) :
    (0x000fffff : UInt32) &&& (w ||| w <<< 10) = c ||| c <<< 10 := by
  apply UInt32.eq_of_toBitVec_eq
  apply BitVec.eq_of_getLsbD_eq
  intro i hi
  rw [UInt32.toBitVec_and, BitVec.getLsbD_and, getLsbD_mask hi, getLsbD_or_shiftLeft w hi,
    getLsbD_or_shiftLeft c hi]
  by_cases hlow : i < 10
  · simp [hlow, (h i hlow).1, show i < 20 by omega]
  · by_cases hmid : i < 20
    · obtain ⟨hbit, himp⟩ := h (i - 10) (by omega)
      rw [Nat.sub_add_cancel (by omega)] at himp
      rw [getLsbD_of_lt hc (by omega : 10 ≤ i), hbit]
      cases hw : w.toBitVec.getLsbD i <;> simp_all
    · rw [getLsbD_of_lt hc (by omega : 10 ≤ i), getLsbD_of_lt hc (by omega : 10 ≤ i - 10)]
      simp [hmid]

/-! ## The registers of the loop -/

namespace AthHw

/-- The loop writes the window, and its copy above it, to every DCU it visits and to no other
register. -/
theorem regs_foldl_editTurn {c : UInt32} (hc : c < 1024) (qs : List ℕ) (p : AthHw × UInt32)
    (hp : Copies c p.2) (r : Reg) :
    (qs.foldl editTurn p).1.regs r =
      if r ∈ qs.map Reg.dlclIfs then c ||| c <<< 10 else p.1.regs r := by
  induction qs generalizing p with
  | nil => simp
  | cons q qs ih =>
    have hturn : (editTurn p q).1.regs r =
        if r = .dlclIfs q then c ||| c <<< 10 else p.1.regs r := by
      rw [← hp.and_mask hc]
      rfl
    rw [List.foldl_cons, ih (editTurn p q) hp.turn, List.map_cons, hturn]
    by_cases htail : r ∈ qs.map Reg.dlclIfs
    · rw [if_pos htail, if_pos (List.mem_cons_of_mem _ htail)]
    · rw [if_neg htail]
      by_cases hhead : r = .dlclIfs q
      · rw [if_pos hhead, hhead, if_pos List.mem_cons_self]
      · rw [if_neg hhead, if_neg (List.not_mem_cons_of_ne_of_not_mem hhead htail)]

/-- **`edit_contentionWindow`** sets the first eight DCUs, and nothing else. -/
theorem regs_editContentionWindow (ah : AthHw) {c : UInt32} (hc : c < 1024) (r : Reg) :
    (ah.editContentionWindow c).regs r =
      if r ∈ (List.range 8).map Reg.dlclIfs then c ||| c <<< 10 else ah.regs r :=
  regs_foldl_editTurn hc _ (ah, c) (.refl hc) r

theorem regs_editContentionWindow_dlclIfs (ah : AthHw) {c : UInt32} (hc : c < 1024) {q : ℕ}
    (hq : q < 8) : (ah.editContentionWindow c).regs (.dlclIfs q) = c ||| c <<< 10 := by
  rw [regs_editContentionWindow ah hc, if_pos (List.mem_map_of_mem (List.mem_range.mpr hq))]

theorem regs_forceQuiet_dlclIfs (ah : AthHw) (restored q : ℕ) :
    (ah.forceQuiet restored).regs (.dlclIfs q) = ah.regs (.dlclIfs q) := rfl

end AthHw

/-! ## The ladder -/

/-- The window for `n` free buffers. -/
def cwFor (n : ℕ) : UInt32 := cwVal (UInt32.ofNat n).toInt32

/-- Every window on the ladder is full of ones, and at most ten of them. -/
theorem exists_cwVal_eq (b : Int32) : ∃ k ≤ 10, (cwVal b).toNat = 2 ^ k - 1 := by
  have hrung : ∀ {p : Prop} [Decidable p] {v x : UInt32} (k : ℕ), k ≤ 10 → v.toNat = 2 ^ k - 1 →
      (∃ k ≤ 10, x.toNat = 2 ^ k - 1) → ∃ k ≤ 10, (if p then v else x).toNat = 2 ^ k - 1 := by
    intro p _ v x k hk hv hx
    split
    · exact ⟨k, hk, hv⟩
    · exact hx
  rw [cwVal]
  refine hrung 10 (by decide) rfl (hrung 9 (by decide) rfl (hrung 9 (by decide) rfl ?_))
  refine hrung 8 (by decide) rfl (hrung 6 (by decide) rfl (hrung 4 (by decide) rfl ?_))
  exact hrung 3 (by decide) rfl (hrung 2 (by decide) rfl ⟨1, by decide, rfl⟩)

theorem cwVal_lt (b : Int32) : cwVal b < 1024 := by
  obtain ⟨k, hk, hval⟩ := exists_cwVal_eq b
  rw [UInt32.lt_iff_toNat_lt, hval]
  exact (Nat.sub_lt (Nat.two_pow_pos k) Nat.one_pos).trans_le
    (Nat.pow_le_pow_right Nat.two_pos hk)

theorem cwFor_lt (n : ℕ) : cwFor n < 1024 := cwVal_lt _

/-- One rung of the ladder. -/
theorem rung_le_rung {a b k : Int32} {v x y : UInt32} (h : a ≤ b) (hxv : x ≤ v) (hxy : x ≤ y) :
    (if a > k then v else x) ≤ if b > k then v else y := by
  by_cases ha : a > k
  · have hb : b > k := by
      rw [gt_iff_lt, Int32.lt_iff_toInt_lt] at ha ⊢
      exact ha.trans_le (Int32.le_iff_toInt_le.mp h)
    rw [if_pos ha, if_pos hb]
    exact UInt32.le_refl v
  · rw [if_neg ha]
    split
    · exact hxv
    · exact hxy

/-- More free buffers never give a smaller window. -/
theorem cwVal_mono {a b : Int32} (h : a ≤ b) : cwVal a ≤ cwVal b := by
  -- the rungs below one are all bounded by it
  have hle : ∀ {p : Prop} [Decidable p] {v x y : UInt32}, x ≤ v → y ≤ v →
      (if p then x else y) ≤ v := by
    intro p _ v x y hx hy
    split
    · exact hx
    · exact hy
  rw [cwVal, cwVal]
  iterate 7 refine rung_le_rung h (by repeat first | decide | refine hle (by decide) ?_) ?_
  exact rung_le_rung h (by decide) (UInt32.le_refl 1)

theorem toInt_toInt32_ofNat {n : ℕ} (h : n < 2 ^ 31) : (UInt32.ofNat n).toInt32.toInt = n := by
  rw [UInt32.toInt32_ofNat']
  exact Int32.toInt_ofNat_of_lt h

theorem cwFor_le_cwFor {n m : ℕ} (h : n ≤ m) (hm : m < 2 ^ 31) : cwFor n ≤ cwFor m := by
  apply cwVal_mono
  rw [Int32.le_iff_toInt_le, toInt_toInt32_ofNat (h.trans_lt hm), toInt_toInt32_ofNat hm]
  exact Int.ofNat_le.mpr h

/-! ## The sampling part of the handlers -/

/-- The counter shows `n` free buffers, and every DCU has the window for them, from `CWmin` to
`CWmax`. -/
structure Globals.Sampled (g : Globals) (n : ℕ) : Prop where
  bufCounter : g.bufCounter.toInt = n
  window : ∀ q < 8, g.ah.regs (.dlclIfs q) &&& (0x000fffff : UInt32) = cwFor n ||| cwFor n <<< 10

/-- The copies of a window lie within the mask. -/
theorem copies_and_mask {c : UInt32} (hc : c < 1024) :
    (c ||| c <<< 10) &&& (0x000fffff : UInt32) = c ||| c <<< 10 := by
  rw [UInt32.and_comm]
  exact (Copies.refl hc).and_mask hc

/-- The copies of a window do not reach past the `CWmax` field. -/
theorem copies_shiftRight {c : UInt32} (hc : c < 1024) : (c ||| c <<< 10) >>> 20 = 0 := by
  have hle : ((c ||| c <<< 10) &&& (0x000fffff : UInt32)).toNat ≤ 0x000fffff := by
    rw [UInt32.toNat_and]
    exact Nat.and_le_right
  rw [copies_and_mask hc] at hle
  apply UInt32.toNat_inj.mp
  rw [UInt32.toNat_shiftRight]
  exact Nat.shiftRight_eq_zero _ _ (hle.trans_lt (by decide))

section Handlers

variable {g : Globals} {txbuf : ListHead}

theorem bufCounter_sample (g : Globals) (hlen : txbuf.entries.length < 2 ^ 31) :
    (g.sample txbuf).bufCounter.toInt = txbuf.entries.length := by
  rw [Globals.sample, getBufSize_eq]
  exact toInt_toInt32_ofNat hlen

theorem ah_sample (g : Globals) (txbuf : ListHead) :
    (g.sample txbuf).ah = g.ah.editContentionWindow (cwFor txbuf.entries.length) := by
  rw [Globals.sample, getBufSize_eq]
  rfl

theorem regs_sample_dlclIfs (g : Globals) (txbuf : ListHead) {q : ℕ} (hq : q < 8) :
    (g.sample txbuf).ah.regs (.dlclIfs q) =
      cwFor txbuf.entries.length ||| cwFor txbuf.entries.length <<< 10 := by
  rw [ah_sample, AthHw.regs_editContentionWindow_dlclIfs _ (cwFor_lt _) hq]

theorem sampled_sample (g : Globals) (hlen : txbuf.entries.length < 2 ^ 31) :
    (g.sample txbuf).Sampled txbuf.entries.length := by
  refine ⟨bufCounter_sample g hlen, fun q hq ↦ ?_⟩
  rw [regs_sample_dlclIfs g txbuf hq]
  exact copies_and_mask (cwFor_lt _)

/-- What the handlers do after sampling does not touch the counter and the DCUs. -/
theorem Globals.Sampled.of_eq {g' : Globals} {n : ℕ} (h : g.Sampled n)
    (hcounter : g'.bufCounter = g.bufCounter)
    (hregs : ∀ q, g'.ah.regs (.dlclIfs q) = g.ah.regs (.dlclIfs q)) : g'.Sampled n :=
  ⟨hcounter ▸ h.bufCounter, fun q hq ↦ hregs q ▸ h.window q hq⟩

theorem sampled_unlockTimerHandler (K : Kernel) (htxbuf : g.txbufFff = some txbuf)
    (hlen : txbuf.entries.length < 2 ^ 31) (i : FireInput) :
    (unlockTimerHandler K g i).1.Sampled txbuf.entries.length := by
  rw [unlockTimerHandler_of_some K i htxbuf]
  exact (sampled_sample g hlen).of_eq rfl fun _ ↦ rfl

theorem sampled_unlockRIrqHandler (hlock : g.driverLock = false) (htxbuf : g.txbufFff = some txbuf)
    (hlen : txbuf.entries.length < 2 ^ 31) (i : IrqInput) :
    (unlockRIrqHandler g i).1.Sampled txbuf.entries.length := by
  have hsample := sampled_sample g hlen
  rw [unlockRIrqHandler_of_some i hlock htxbuf]
  split
  · exact hsample
  · split
    · exact hsample.of_eq rfl fun _ ↦ rfl
    · exact hsample.of_eq rfl (AthHw.regs_forceQuiet_dlclIfs _ _)

/-- **Sampling.** On a list of `n < 2 ^ 31` free buffers the count is over after `n` turns. Both
handlers, on every path that gets past the lock, set the counter to `n` and leave in each of the
first eight DCUs one window for `CWmin` and `CWmax`. It is full of ones, at most ten of them, and
does not shrink as `n` grows. -/
theorem sampled_of_handler (K : Kernel) (htxbuf : g.txbufFff = some txbuf)
    (hlen : txbuf.entries.length < 2 ^ 31) :
    (∀ turns, txbuf.entries.length < turns →
        listForEach txbuf.next txbuf.head (fun (size : UInt32) _ ↦ size + 1) turns
          (txbuf.next txbuf.head) 0 = some (UInt32.ofNat txbuf.entries.length)) ∧
      (∀ i, (unlockTimerHandler K g i).1.Sampled txbuf.entries.length) ∧
      (g.driverLock = false → ∀ i, (unlockRIrqHandler g i).1.Sampled txbuf.entries.length) ∧
      (∃ k ≤ 10, (cwFor txbuf.entries.length).toNat = 2 ^ k - 1) ∧
      ∀ m, txbuf.entries.length ≤ m → m < 2 ^ 31 → cwFor txbuf.entries.length ≤ cwFor m := by
  refine ⟨fun turns hturns ↦ ?_, sampled_unlockTimerHandler K htxbuf hlen,
    fun hlock ↦ sampled_unlockRIrqHandler hlock htxbuf hlen, exists_cwVal_eq _,
    fun m hnm hm ↦ cwFor_le_cwFor hnm hm⟩
  rw [listForEach_of_linked_of_lt _ txbuf.linked hturns, ← ListHead.forEach_eq, ← getBufSize_eq]
  rfl

/-- Two free buffers, between the head at address zero and the entries at one and two. -/
def twoBuffers : ListHead :=
  ⟨fun p ↦ (p + 1) % 3, 0, [1, 2], rfl, by decide, rfl, by decide, rfl⟩

theorem sampled_of_handler_twoBuffers :
    (unlockTimerHandler .linux (defaultGlobals (some twoBuffers)) ⟨20000000, 20001000⟩).1.Sampled
        2 ∧
      (unlockRIrqHandler (defaultGlobals (some twoBuffers))
          ⟨20000000, 20051000, 20051000, 7, 50⟩).1.Sampled 2 :=
  have h := sampled_of_handler .linux (g := defaultGlobals (some twoBuffers)) rfl (by decide)
  ⟨h.2.1 _, h.2.2.1 rfl _⟩

end Handlers

end UcsmaRateControl
