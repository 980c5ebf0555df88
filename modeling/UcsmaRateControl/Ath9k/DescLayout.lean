import UcsmaRateControl.Ath9k.Descdma
import Mathlib.Data.Nat.Nth

/-!
# Where the descriptors lie

With one descriptor for each buffer, `ath_descdma_setup` divides its memory into slots of the length
of a descriptor, and gives the buffers the slots one after the other that do not start in the last
128 bytes of a page. Slot `k` starts `k` lengths into the memory, which itself starts with a page,
so which slots are usable depends on the length alone, and the buffer `i` gets the usable slot
number `i`, which is `Nat.nth`.

How many slots are allocated is estimated beforehand, from one skipped descriptor for each full
page. The estimate is a sum of floor divisions, and `EstimateSuffices` is the arithmetic relation
that decides whether it is enough. It is not always: a last page that is not full has slots to skip
too, and where descriptors are shorter than 128 bytes a page has several.
-/

namespace UcsmaRateControl

open AthDescdma

/-! ## Slots -/

/-- Slot `k` does not start in the last 128 bytes of a page. -/
def Usable (descLen k : ℕ) : Prop := ¬Bound4kb (k * descLen)

instance (descLen : ℕ) : DecidablePred (Usable descLen) := fun _ ↦
  inferInstanceAs (Decidable (¬_))

/-- What the loop of the estimate adds up, if it starts with `s` skipped descriptors. -/
def skips (descLen : ℕ) : ℕ → ℕ → ℕ
  | 0, _ => 0
  | fuel + 1, s => s + skips descLen fuel (s * descLen / 4096)

/-- The estimate of the slots that are needed for `nbuf` descriptors. -/
def slots (descLen nbuf : ℕ) : ℕ :=
  let skipped := descLen * nbuf % 2 ^ 32 / 4096
  nbuf + skips descLen skipped skipped

/-- Of the slots that are allocated, enough are usable. The length in bytes is a 32-bit number. -/
def EstimateSuffices (descLen nbuf : ℕ) : Prop :=
  nbuf ≤ Nat.count (Usable descLen) (descLen * slots descLen nbuf % 2 ^ 32 / descLen)

instance (descLen nbuf : ℕ) : Decidable (EstimateSuffices descLen nbuf) :=
  inferInstanceAs (Decidable (_ ≤ _))

section Slots

variable {descLen : ℕ}

/-- The first slot of every page that a slot starts with is usable. -/
theorem infinite_usable : (Set.ofPred (Usable descLen)).Infinite := by
  refine Set.infinite_of_injective_forall_mem (f := fun k ↦ 4096 * k)
    (fun _ _ heq ↦ Nat.eq_of_mul_eq_mul_left (by decide) heq) fun k ↦ ?_
  have hzero : 4096 * k * descLen % 0x1000 = 0 := by
    rw [Nat.mul_assoc]
    exact Nat.mul_mod_right _ _
  change ¬_ % 0x1000 > 0xf7f
  rw [hzero]
  decide

theorem div_lt_of_lt {s : ℕ} (hlt : descLen < 4096) (hs : 0 < s) : s * descLen / 4096 < s :=
  Nat.div_lt_of_lt_mul (by rw [Nat.mul_comm 4096]; exact Nat.mul_lt_mul_of_pos_left hlt hs)

@[simp] theorem skips_zero (fuel : ℕ) : skips descLen fuel 0 = 0 := by
  induction fuel with
  | zero => rfl
  | succ fuel ih => rw [skips, Nat.zero_mul, Nat.zero_div, ih]

/-- The sum is over after as many turns as descriptors are skipped in the first. -/
theorem skips_eq_of_le (hlt : descLen < 4096) {s fuel fuel' : ℕ} (h : s ≤ fuel) (h' : s ≤ fuel') :
    skips descLen fuel s = skips descLen fuel' s := by
  induction fuel generalizing s fuel' with
  | zero =>
    obtain rfl : s = 0 := Nat.le_zero.mp h
    rw [skips_zero, skips_zero]
  | succ fuel ih =>
    rcases Nat.eq_zero_or_pos s with rfl | hs
    · rw [skips_zero, skips_zero]
    · obtain ⟨fuel', rfl⟩ := Nat.exists_eq_succ_of_ne_zero (Nat.ne_of_gt (hs.trans_le h'))
      have hnext := div_lt_of_lt hlt hs
      have hrest : skips descLen fuel (s * descLen / 4096) =
          skips descLen fuel' (s * descLen / 4096) := ih (by omega) (by omega)
      rw [skips, skips, hrest]

end Slots

/-! ## The estimate -/

section Estimate

variable {descLen : ℕ}

/-- The loop of the estimate, which is over after at most one turn more than descriptors are skipped
in the first. -/
theorem addSkipped_eq (hlt : descLen < 4096) {s fuel : ℕ} (hs : s < 2 ^ 20) (hfuel : s < fuel)
    (len : UInt32) :
    addSkipped (UInt32.ofNat descLen) fuel (UInt32.ofNat s) len =
      .ok (len + UInt32.ofNat (descLen * skips descLen fuel s)) := by
  induction fuel generalizing s len with
  | zero => exact absurd hfuel (Nat.not_lt_zero s)
  | succ fuel ih =>
    rcases Nat.eq_zero_or_pos s with rfl | hpos
    · rw [addSkipped, if_pos (show UInt32.ofNat 0 = 0 from rfl), skips_zero, Nat.mul_zero]
      exact congrArg Except.ok (UInt32.add_zero len).symm
    · have hne : UInt32.ofNat s ≠ 0 := by
        intro heq
        have htoNat := congrArg UInt32.toNat heq
        rw [UInt32.toNat_ofNat', Nat.mod_eq_of_lt (hs.trans (by decide))] at htoNat
        exact Nat.ne_of_gt hpos htoNat
      have hsmall : s * descLen < 2 ^ 32 := by
        calc s * descLen < 2 ^ 20 * 4096 := Nat.mul_lt_mul'' hs hlt
          _ = 2 ^ 32 := by decide
      have hnum : numSkipped (UInt32.ofNat s * UInt32.ofNat descLen) =
          UInt32.ofNat (s * descLen / 4096) := by
        rw [numSkipped, ← UInt32.ofNat_mul, ← UInt32.toNat_inj, UInt32.toNat_div,
          UInt32.toNat_ofNat', UInt32.toNat_ofNat', Nat.mod_eq_of_lt hsmall]
        exact (Nat.mod_eq_of_lt ((Nat.div_le_self _ _).trans_lt hsmall)).symm
      have hnext := div_lt_of_lt hlt hpos
      rw [addSkipped, if_neg hne]
      dsimp only
      rw [hnum, ih (hnext.trans hs) (by omega), skips, UInt32.add_assoc, ← UInt32.ofNat_mul,
        ← UInt32.ofNat_add, Nat.mul_add, Nat.mul_comm s]

/-- What is allocated is the estimate, as a 32-bit number of bytes. -/
theorem DescdmaInput.ddDescLen_eq {d : DescdmaInput} (hndesc : d.ndesc = 1)
    (hsplit : d.splittrans = false) (hlt : d.descLen < 4096) {fuel : ℕ}
    (hfuel : 2 ^ 20 ≤ fuel) :
    d.ddDescLen fuel = .ok (UInt32.ofNat (d.descLen * slots d.descLen d.nbuf)) := by
  have hnum : numSkipped (UInt32.ofNat (d.descLen * d.nbuf * d.ndesc)) =
      UInt32.ofNat (d.descLen * d.nbuf % 2 ^ 32 / 4096) := by
    rw [hndesc, Nat.mul_one, numSkipped, ← UInt32.toNat_inj, UInt32.toNat_div,
      UInt32.toNat_ofNat', UInt32.toNat_ofNat']
    have hsmall : d.descLen * d.nbuf % 2 ^ 32 / 4096 < 2 ^ 32 :=
      (Nat.div_le_self _ _).trans_lt (Nat.mod_lt _ (by decide))
    exact (Nat.mod_eq_of_lt hsmall).symm
  have hs : d.descLen * d.nbuf % 2 ^ 32 / 4096 < 2 ^ 20 :=
    Nat.div_lt_of_lt_mul (Nat.mod_lt _ (by decide))
  rw [ddDescLen, hsplit, if_neg Bool.false_ne_true, hnum, addSkipped_eq hlt hs (hs.trans_le hfuel),
    hndesc, Nat.mul_one, ← UInt32.ofNat_add, ← Nat.mul_add, slots,
    skips_eq_of_le hlt (hs.le.trans hfuel) le_rfl]

end Estimate

/-! ## The descriptors -/

section Placing

variable {d : DescdmaInput} {dd : AthDescdma} {fuel k ds : ℕ}

/-- The memory starts with a page, so an address is in front of a boundary if its slot is. -/
theorem bound4kb_ds2phys (hpage : 4096 ∣ dd.ddDescPaddr) (descLen k : ℕ) :
    Bound4kb (dd.ds2phys (dd.ddDesc + k * descLen)) ↔ ¬Usable descLen k := by
  obtain ⟨page, hpage⟩ := hpage
  rw [Usable, not_not, Bound4kb, Bound4kb, ds2phys, Nat.add_sub_cancel_left, hpage,
    Nat.mul_add_mod]

/-- The loop that skips, if it is over, has found the next usable slot. -/
theorem skipBound_eq_ok (hpage : 4096 ∣ dd.ddDescPaddr) {descLen : ℕ}
    (h : dd.skipBound descLen fuel (dd.ddDesc + k * descLen) = .ok ds) :
    ds = dd.ddDesc + Nat.nth (Usable descLen) (Nat.count (Usable descLen) k) * descLen := by
  induction fuel generalizing k with
  | zero => exact nomatch h
  | succ fuel ih =>
    rw [skipBound] at h
    by_cases hk : Usable descLen k
    · rw [if_neg ((bound4kb_ds2phys hpage descLen k).not.mpr (not_not.mpr hk))] at h
      rw [Nat.nth_count hk]
      exact (Except.ok.inj h).symm
    · rw [if_pos ((bound4kb_ds2phys hpage descLen k).mpr hk)] at h
      split_ifs at h with hend
      rw [Nat.add_assoc, ← Nat.add_one_mul] at h
      rw [ih h, Nat.count_succ_eq_count_iff.mpr hk]

/-- With enough fuel the loop is over, and no `BUG_ON` is hit, if the next usable slot starts in the
memory or at its end. -/
theorem skipBound_eq (hpage : 4096 ∣ dd.ddDescPaddr) {descLen : ℕ} (hpos : 0 < descLen)
    (hroom : Nat.nth (Usable descLen) (Nat.count (Usable descLen) k) * descLen ≤
      dd.ddDescLen.toNat)
    (hfuel : Nat.nth (Usable descLen) (Nat.count (Usable descLen) k) < k + fuel) :
    dd.skipBound descLen fuel (dd.ddDesc + k * descLen) =
      .ok (dd.ddDesc + Nat.nth (Usable descLen) (Nat.count (Usable descLen) k) * descLen) := by
  have hle : k ≤ Nat.nth (Usable descLen) (Nat.count (Usable descLen) k) :=
    Nat.le_nth_count infinite_usable k
  induction fuel generalizing k with
  | zero => exact absurd hfuel hle.not_gt
  | succ fuel ih =>
    rw [skipBound]
    by_cases hk : Usable descLen k
    · rw [if_neg ((bound4kb_ds2phys hpage descLen k).not.mpr (not_not.mpr hk)), Nat.nth_count hk]
    · have hcount : Nat.count (Usable descLen) (k + 1) = Nat.count (Usable descLen) k :=
        Nat.count_succ_eq_count_iff.mpr hk
      have hne : k ≠ Nat.nth (Usable descLen) (Nat.count (Usable descLen) k) := fun heq ↦
        hk (heq ▸ Nat.nth_mem_of_infinite infinite_usable _)
      have hlt : k * descLen < dd.ddDescLen.toNat :=
        (Nat.mul_lt_mul_of_pos_right (lt_of_le_of_ne hle hne) hpos).trans_le hroom
      rw [if_pos ((bound4kb_ds2phys hpage descLen k).mpr hk), if_neg (by omega), Nat.add_assoc,
        ← Nat.add_one_mul]
      rw [← hcount] at hroom hfuel hne hle ⊢
      exact ih hroom (by omega) (by omega)

/-- The buffers get the usable slots from the next one on, one after the other. -/
theorem bfDesc_of_linkBufs (dd : AthDescdma) (hndesc : d.ndesc = 1) (hsplit : d.splittrans = false)
    (hpage : 4096 ∣ dd.ddDescPaddr) {n bf : ℕ} {m m' : Links} {bufs : List AthBuf}
    (h : d.linkBufs dd fuel n bf (dd.ddDesc + k * d.descLen) m = .ok (m', bufs)) :
    bufs.map (fun b ↦ (b.bfDesc, b.bfDaddr)) = (List.range n).map fun i ↦
      (dd.ddDesc + Nat.nth (Usable d.descLen) (Nat.count (Usable d.descLen) k + i) * d.descLen,
        dd.ddDescPaddr +
          Nat.nth (Usable d.descLen) (Nat.count (Usable d.descLen) k + i) * d.descLen) := by
  induction n generalizing k bf m m' bufs with
  | zero =>
    obtain ⟨-, rfl⟩ := Prod.mk.inj (Except.ok.inj h)
    rfl
  | succ n ih =>
    obtain ⟨ds', rest, hnext, rfl, hrest⟩ := linkBufs_succ_eq_ok h
    rw [DescdmaInput.nextDesc, hsplit, if_neg Bool.false_ne_true, hndesc, Nat.mul_one] at hnext
    obtain rfl := skipBound_eq_ok hpage hnext
    rw [hndesc, Nat.mul_one, Nat.add_assoc, ← Nat.add_one_mul] at hrest
    have hcount := Nat.count_nth_succ_of_infinite (p := Usable d.descLen) infinite_usable
      (Nat.count (Usable d.descLen) k)
    rw [List.map_cons, ih hrest, List.range_succ_eq_map, List.map_cons, List.map_map, hcount,
      AthDescdma.ds2phys, Nat.add_sub_cancel_left, Nat.add_zero]
    refine congrArg _ (List.map_congr_left fun i _ ↦ ?_)
    rw [Function.comp_apply, Nat.add_right_comm, Nat.add_assoc _ i 1]

/-- With enough fuel all buffers are placed, if the slots that they get start in the memory or at
its end. -/
theorem exists_linkBufs (dd : AthDescdma) (hndesc : d.ndesc = 1) (hsplit : d.splittrans = false)
    (hpage : 4096 ∣ dd.ddDescPaddr) (hpos : 0 < d.descLen) {n : ℕ} (bf : ℕ) (m : Links)
    (hroom : ∀ i < n, Nat.nth (Usable d.descLen) (Nat.count (Usable d.descLen) k + i) * d.descLen ≤
      dd.ddDescLen.toNat) :
    ∃ m' bufs, ∀ fuel,
      (∀ i < n, Nat.nth (Usable d.descLen) (Nat.count (Usable d.descLen) k + i) < fuel) →
        d.linkBufs dd fuel n bf (dd.ddDesc + k * d.descLen) m = .ok (m', bufs) := by
  induction n generalizing k bf m with
  | zero => exact ⟨m, [], fun _ _ ↦ rfl⟩
  | succ n ih =>
    have hcount := Nat.count_nth_succ_of_infinite (p := Usable d.descLen) infinite_usable
      (Nat.count (Usable d.descLen) k)
    have hshift : ∀ i, Nat.count (Usable d.descLen) k + 1 + i =
        Nat.count (Usable d.descLen) k + (i + 1) := fun i ↦ by omega
    obtain ⟨m', bufs, hrest⟩ := ih
      (k := Nat.nth (Usable d.descLen) (Nat.count (Usable d.descLen) k) + 1)
      (bf + d.bufSize) (m.listAddTail d.head bf)
      (fun i hi ↦ by rw [hcount, hshift]; exact hroom (i + 1) (Nat.succ_lt_succ hi))
    simp only [Nat.add_one_mul, ← Nat.add_assoc, hcount, hshift] at hrest
    set ds := dd.ddDesc + Nat.nth (Usable d.descLen) (Nat.count (Usable d.descLen) k) * d.descLen
    refine ⟨m', ⟨bf, ds, dd.ds2phys ds⟩ :: bufs, fun fuel hfuel ↦ ?_⟩
    have hstart : d.nextDesc dd fuel (dd.ddDesc + k * d.descLen) = .ok ds := by
      rw [DescdmaInput.nextDesc, hsplit, if_neg Bool.false_ne_true, hndesc, Nat.mul_one]
      exact skipBound_eq hpage hpos (hroom 0 (Nat.succ_pos n))
        ((hfuel 0 (Nat.succ_pos n)).trans_le (Nat.le_add_left fuel k))
    rw [DescdmaInput.linkBufs, hndesc, Nat.mul_one]
    exact bind_eq_ok.mpr ⟨_, hstart, bind_eq_ok.mpr
      ⟨(m', bufs), hrest fuel fun i hi ↦ hfuel (i + 1) (Nat.succ_lt_succ hi), rfl⟩⟩

end Placing

/-! ## The layout -/

/-- A call with one descriptor for each buffer, on hardware that cannot split a fetch, whose
allocations succeed, with memory that starts with a page. -/
structure DescdmaInput.Unsplit (d : DescdmaInput) (desc paddr bf : ℕ) : Prop where
  ndesc : d.ndesc = 1
  splittrans : d.splittrans = false
  descLen_pos : 0 < d.descLen
  descLen_lt : d.descLen < 4096
  descLen_mod : d.descLen % 4 = 0
  ddDesc : d.ddDesc = some (desc, paddr)
  page : 4096 ∣ paddr
  bf : d.bf = some bf
  allocates : d.Allocates

/-- The buffers are all on the list, and their descriptors are disjoint, inside the memory that was
allocated, and none of them starts in the last 128 bytes of a page. -/
structure DescdmaInput.Laid (d : DescdmaInput) (st : DescdmaState) : Prop where
  ring : st.links.Ring d.head (st.bufs.map AthBuf.list)
  length : st.bufs.length = d.nbuf
  disjoint : st.bufs.Pairwise fun b c ↦
    b.bfDesc + d.descLen ≤ c.bfDesc ∨ c.bfDesc + d.descLen ≤ b.bfDesc
  inside : ∀ b ∈ st.bufs, st.dd.ddDesc ≤ b.bfDesc ∧
    b.bfDesc + d.descLen ≤ st.dd.ddDesc + st.dd.ddDescLen.toNat
  start : ∀ b ∈ st.bufs, b.bfDaddr % 4096 < 4096 - 128

/-- The call comes to its end without hitting a `BUG_ON`, from some amount of fuel on, and has laid
out the descriptors. -/
def DescdmaInput.LaysOut (d : DescdmaInput) (m : Links) : Prop :=
  ∃ st N, (∀ fuel, N ≤ fuel → athDescdmaSetup d fuel m = .ok (st, 0)) ∧ d.Laid st

section Layout

variable {d : DescdmaInput} {desc paddr bf fuel : ℕ} {m m' : Links} {bufs : List AthBuf}
  {len : UInt32}

theorem athDescdmaSetup_eq (h : d.Unsplit desc paddr bf) :
    athDescdmaSetup d fuel m = (d.ddDescLen fuel).bind fun len ↦
      (d.linkBufs ⟨desc, paddr, len⟩ fuel d.nbuf bf desc (m.initListHead d.head)).bind fun p ↦
        .ok (⟨p.1, ⟨desc, paddr, len⟩, p.2⟩, 0) := by
  rw [athDescdmaSetup, if_neg (not_not.mpr h.descLen_mod), h.ddDesc, h.bf]
  rfl

/-- Buffer `i` has the usable slot number `i`. -/
def DescdmaInput.Placed (d : DescdmaInput) (desc paddr : ℕ) (bufs : List AthBuf) : Prop :=
  bufs.map (fun b ↦ (b.bfDesc, b.bfDaddr)) = (List.range d.nbuf).map fun i ↦
    (desc + Nat.nth (Usable d.descLen) i * d.descLen,
      paddr + Nat.nth (Usable d.descLen) i * d.descLen)

theorem placed_of_linkBufs (h : d.Unsplit desc paddr bf)
    (hlink : d.linkBufs ⟨desc, paddr, len⟩ fuel d.nbuf bf desc m = .ok (m', bufs)) :
    d.Placed desc paddr bufs := by
  have hstart : desc = desc + 0 * d.descLen := by rw [Nat.zero_mul, Nat.add_zero]
  rw [hstart] at hlink
  have hplaces := bfDesc_of_linkBufs (k := 0) ⟨desc + 0 * d.descLen, paddr, len⟩ h.ndesc
    h.splittrans h.page (by rwa [Nat.zero_mul, Nat.add_zero] at hlink ⊢)
  simpa only [Nat.count_zero, Nat.zero_add, Nat.zero_mul, Nat.add_zero, DescdmaInput.Placed]
    using hplaces

namespace DescdmaInput.Placed

variable (hp : d.Placed desc paddr bufs)
include hp

theorem exists_slot {b : AthBuf} (hb : b ∈ bufs) :
    ∃ i < d.nbuf, b.bfDesc = desc + Nat.nth (Usable d.descLen) i * d.descLen ∧
      b.bfDaddr = paddr + Nat.nth (Usable d.descLen) i * d.descLen := by
  have hb' := List.mem_map_of_mem (f := fun b : AthBuf ↦ (b.bfDesc, b.bfDaddr)) hb
  rw [hp] at hb'
  obtain ⟨i, hi, heq⟩ := List.mem_map.mp hb'
  obtain ⟨hdesc, hdaddr⟩ := Prod.mk.inj heq
  exact ⟨i, List.mem_range.mp hi, hdesc.symm, hdaddr.symm⟩

theorem exists_buf {i : ℕ} (hi : i < d.nbuf) :
    ∃ b ∈ bufs, b.bfDesc = desc + Nat.nth (Usable d.descLen) i * d.descLen := by
  have hmem : (desc + Nat.nth (Usable d.descLen) i * d.descLen,
      paddr + Nat.nth (Usable d.descLen) i * d.descLen) ∈
      bufs.map fun b ↦ (b.bfDesc, b.bfDaddr) := by
    rw [hp]
    exact List.mem_map.mpr ⟨i, List.mem_range.mpr hi, rfl⟩
  obtain ⟨b, hb, heq⟩ := List.mem_map.mp hmem
  exact ⟨b, hb, (Prod.mk.inj heq).1⟩

/-- The slots are one after the other. -/
theorem disjoint : bufs.Pairwise fun b c ↦
    b.bfDesc + d.descLen ≤ c.bfDesc ∨ c.bfDesc + d.descLen ≤ b.bfDesc := by
  have hpair : (bufs.map fun b ↦ (b.bfDesc, b.bfDaddr)).Pairwise fun x y ↦
      x.1 + d.descLen ≤ y.1 ∨ y.1 + d.descLen ≤ x.1 := by
    rw [hp, List.pairwise_map]
    refine List.pairwise_lt_range.imp fun {i j} hij ↦ .inl ?_
    have hinf : (Set.ofPred (Usable d.descLen)).Infinite := infinite_usable
    have hlt := (Nat.nth_lt_nth hinf).mpr hij
    have hmul := Nat.mul_le_mul_right d.descLen (Nat.succ_le_of_lt hlt)
    rw [Nat.succ_mul] at hmul
    omega
  exact List.pairwise_map.mp hpair

end DescdmaInput.Placed

/-- A slot is inside the memory if its number is below the number of whole slots. -/
theorem slot_inside_iff {descLen j : ℕ} (hpos : 0 < descLen) :
    j * descLen + descLen ≤ len.toNat ↔ j < len.toNat / descLen := by
  rw [← Nat.add_one_mul, ← Nat.le_div_iff_mul_le hpos, Nat.add_one_le_iff]

/-- The descriptors in the first usable slots are as they should be, if these are all inside the
memory. -/
theorem laid_of_placed (h : d.Unsplit desc paddr bf) {links : Links}
    (hring : links.Ring d.head (bufs.map AthBuf.list) ∧ bufs.length = d.nbuf)
    (hp : d.Placed desc paddr bufs)
    (hinside : ∀ i < d.nbuf, Nat.nth (Usable d.descLen) i < len.toNat / d.descLen) :
    d.Laid ⟨links, ⟨desc, paddr, len⟩, bufs⟩ := by
  refine ⟨hring.1, hring.2, hp.disjoint, fun b hb ↦ ?_, fun b hb ↦ ?_⟩
  · obtain ⟨i, hi, hdesc, -⟩ := hp.exists_slot hb
    have hle := (slot_inside_iff h.descLen_pos).mpr (hinside i hi)
    dsimp only
    omega
  · obtain ⟨i, -, -, hdaddr⟩ := hp.exists_slot hb
    obtain ⟨page, rfl⟩ := h.page
    have husable : Usable d.descLen (Nat.nth (Usable d.descLen) i) :=
      Nat.nth_mem_of_infinite infinite_usable i
    rw [Usable, Bound4kb] at husable
    rw [hdaddr, Nat.mul_add_mod]
    omega

/-- If the descriptors are inside the memory, there are enough usable slots: it is enough to look at
the last buffer. -/
theorem le_count_of_laid (h : d.Unsplit desc paddr bf) {links : Links}
    (hp : d.Placed desc paddr bufs) (hlaid : d.Laid ⟨links, ⟨desc, paddr, len⟩, bufs⟩) :
    d.nbuf ≤ Nat.count (Usable d.descLen) (len.toNat / d.descLen) := by
  rcases Nat.eq_zero_or_pos d.nbuf with hzero | hpos
  · rw [hzero]
    exact Nat.zero_le _
  · obtain ⟨b, hb, hdesc⟩ := hp.exists_buf (Nat.sub_one_lt hpos.ne')
    have hinside := (hlaid.inside b hb).2
    rw [hdesc, Nat.add_assoc] at hinside
    have hlt := (slot_inside_iff h.descLen_pos).mp (Nat.le_of_add_le_add_left hinside)
    have hcount := Nat.succ_le_of_lt ((Nat.lt_nth_iff_count_lt infinite_usable).mpr hlt)
    rwa [Nat.succ_eq_add_one, Nat.sub_add_cancel hpos] at hcount

/-- If there are enough usable slots, the call comes to its end with enough fuel. -/
theorem laysOut_of_le_count (h : d.Unsplit desc paddr bf)
    (hestimate : ∀ fuel, 2 ^ 20 ≤ fuel → d.ddDescLen fuel = .ok len)
    (hsuff : d.nbuf ≤ Nat.count (Usable d.descLen) (len.toNat / d.descLen)) : d.LaysOut m := by
  have hinside : ∀ i < d.nbuf, Nat.nth (Usable d.descLen) i < len.toNat / d.descLen :=
    fun i hi ↦ Nat.nth_lt_of_lt_count (hi.trans_le hsuff)
  obtain ⟨m', bufs, hlink⟩ := exists_linkBufs (k := 0) (n := d.nbuf) ⟨desc, paddr, len⟩
    h.ndesc h.splittrans h.page h.descLen_pos bf (m.initListHead d.head)
    fun i hi ↦ by
      rw [Nat.count_zero, Nat.zero_add]
      exact (Nat.le_add_right _ _).trans ((slot_inside_iff h.descLen_pos).mpr (hinside i hi))
  simp only [Nat.count_zero, Nat.zero_add, Nat.zero_mul, Nat.add_zero] at hlink
  have hok : ∀ fuel, max (2 ^ 20) (len.toNat / d.descLen) ≤ fuel →
      athDescdmaSetup d fuel m = .ok (⟨m', ⟨desc, paddr, len⟩, bufs⟩, 0) := by
    intro fuel hfuel
    obtain ⟨hloop, hplace⟩ := max_le_iff.mp hfuel
    rw [athDescdmaSetup_eq h, hestimate fuel hloop]
    have hlink' := hlink fuel fun i hi ↦ (hinside i hi).trans_le hplace
    exact bind_eq_ok.mpr ⟨len, rfl, bind_eq_ok.mpr ⟨(m', bufs), hlink', rfl⟩⟩
  have hring := ring_athDescdmaSetup h.allocates (hok _ le_rfl)
  have hp := placed_of_linkBufs h (hlink _ fun i hi ↦ hinside i hi)
  exact ⟨_, _, hok, laid_of_placed h hring hp hinside⟩

/-- **The descriptors are laid out as they should be, exactly** if the estimate suffices. -/
theorem laysOut_iff (h : d.Unsplit desc paddr bf) (m : Links) :
    d.LaysOut m ↔ EstimateSuffices d.descLen d.nbuf := by
  obtain ⟨len, hlen, hestimate⟩ : ∃ len : UInt32,
      len.toNat = d.descLen * slots d.descLen d.nbuf % 2 ^ 32 ∧
        ∀ fuel, 2 ^ 20 ≤ fuel → d.ddDescLen fuel = .ok len :=
    ⟨_, UInt32.toNat_ofNat', fun _ ↦
      DescdmaInput.ddDescLen_eq h.ndesc h.splittrans h.descLen_lt⟩
  rw [EstimateSuffices, ← hlen]
  constructor
  · rintro ⟨st, N, hok, hlaid⟩
    have hfuel := hok (max N (2 ^ 20)) (le_max_left _ _)
    rw [athDescdmaSetup_eq h, hestimate _ (le_max_right _ _)] at hfuel
    obtain ⟨_, ⟨rfl⟩, hfuel⟩ := bind_eq_ok.mp hfuel
    obtain ⟨⟨m', bufs⟩, hlink, hst⟩ := bind_eq_ok.mp hfuel
    obtain ⟨rfl, -⟩ := Prod.mk.inj (Except.ok.inj hst)
    exact le_count_of_laid h (placed_of_linkBufs h hlink) hlaid
  · exact laysOut_of_le_count h hestimate

/-- The transmit descriptors as the driver asks for them, if they are a hundred bytes long. -/
def txInput (txDescLen nbuf : ℕ) : DescdmaInput where
  head := 0
  nbuf := nbuf
  ndesc := 1
  isTx := true
  txDescLen := txDescLen
  athDescSize := 100
  athBufSize := 96
  athRxbufSize := 48
  splittrans := false
  ddDesc := some (0x10000, 0x20000)
  bf := some 0x40000

theorem unsplit_txInput {txDescLen nbuf : ℕ} (hpos : 0 < txDescLen) (hlt : txDescLen < 4096)
    (hmod : txDescLen % 4 = 0) : (txInput txDescLen nbuf).Unsplit 0x10000 0x20000 0x40000 where
  ndesc := rfl
  splittrans := rfl
  descLen_pos := hpos
  descLen_lt := hlt
  descLen_mod := hmod
  ddDesc := rfl
  page := by decide
  bf := rfl
  allocates := by
    refine ⟨(by decide : 0 < 96), ?_⟩
    rintro bf ⟨⟩ i -
    change 0 ≠ 0x40000 + i * 96
    omega

/-- Memory that is all zero. -/
def zeroLinks : Links := ⟨fun _ ↦ 0, fun _ ↦ 0⟩

/-- Eighty descriptors of a hundred bytes. -/
theorem laysOut_iff_eighty : (txInput 100 80).LaysOut zeroLinks :=
  (laysOut_iff (unsplit_txInput (by decide) (by decide) (by decide)) zeroLinks).mpr
    (by decide +kernel)

/-- One page less four bytes of descriptors: no skipped descriptor is allowed for, the last one
would start in the last 128 bytes of the page, and the search for a place for it ends in the
`BUG_ON`. -/
theorem not_laysOut_page :
    (∀ fuel, athDescdmaSetup (txInput 124 33) (fuel + 2) zeroLinks = .error .bug) ∧
      ¬(txInput 124 33).LaysOut zeroLinks := by
  have hbug : ∀ fuel, athDescdmaSetup (txInput 124 33) (fuel + 2) zeroLinks = .error .bug :=
    fun _ ↦ rfl
  refine ⟨hbug, ?_⟩
  rintro ⟨st, N, hok, -⟩
  exact nomatch (hbug N).symm.trans (hok (N + 2) (Nat.le_add_right N 2))

end Layout

end UcsmaRateControl
