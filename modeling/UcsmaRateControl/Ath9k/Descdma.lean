import UcsmaRateControl.Kernel.List

/-!
# Setting up descriptors and buffers

`ath_descdma_setup` allocates the descriptors and the buffers of one direction and links the buffers
into a list. On hardware that cannot split a descriptor fetch across a 4 KB boundary it allocates
more than it needs, and skips the descriptors that would cross one.

Two of its loops have no bound in the source, and run here on fuel. Addresses are natural numbers,
since no allocation reaches across the end of the address space; lengths wrap around at 32 bits.
-/

namespace UcsmaRateControl

/-- How `ath_descdma_setup` can fail to return. -/
inductive Stuck
  /-- A `BUG_ON` has been hit. -/
  | bug
  /-- A loop is not over yet. -/
  | loops
deriving DecidableEq

/-- `struct ath_descdma`. -/
structure AthDescdma where
  ddDesc : ℕ
  ddDescPaddr : ℕ
  ddDescLen : UInt32

/-- `struct ath_buf` and `struct ath_rxbuf`, as far as they are set up. The list node is the first
field of either, so it has the address of the buffer. -/
structure AthBuf where
  list : ℕ
  bfDesc : ℕ
  bfDaddr : ℕ

/-- What `ath_descdma_setup` is given, and what its allocations return. -/
structure DescdmaInput where
  /-- The address of the list head. -/
  head : ℕ
  nbuf : ℕ
  ndesc : ℕ
  isTx : Bool
  /-- `caps.tx_desc_len`. -/
  txDescLen : ℕ
  /-- The size of `struct ath_desc`. -/
  athDescSize : ℕ
  /-- The size of `struct ath_buf`. -/
  athBufSize : ℕ
  /-- The size of `struct ath_rxbuf`. -/
  athRxbufSize : ℕ
  /-- Whether `ATH9K_HW_CAP_4KB_SPLITTRANS` is among `caps.hw_caps`. -/
  splittrans : Bool
  /-- What `dmam_alloc_coherent` returns, with the bus address. -/
  ddDesc : Option (ℕ × ℕ)
  /-- What `devm_kzalloc` returns. -/
  bf : Option ℕ

namespace AthDescdma

/-- `DS2PHYS`. -/
def ds2phys (dd : AthDescdma) (ds : ℕ) : ℕ := dd.ddDescPaddr + (ds - dd.ddDesc)

/-- `ATH_DESC_4KB_BOUND_CHECK`. -/
def Bound4kb (daddr : ℕ) : Prop := daddr % 0x1000 > 0xf7f

instance (daddr : ℕ) : Decidable (Bound4kb daddr) := inferInstanceAs (Decidable (_ > _))

/-- `ATH_DESC_4KB_BOUND_NUM_SKIPPED`. -/
def numSkipped (len : UInt32) : UInt32 := len / 4096

/-- The loop that allocates for the descriptors that are skipped. -/
def addSkipped (descLen : UInt32) : ℕ → UInt32 → UInt32 → Except Stuck UInt32
  | 0, _, _ => .error .loops
  | fuel + 1, ndescSkipped, ddDescLen =>
    if ndescSkipped = 0 then .ok ddDescLen
    else
      let dmaLen := ndescSkipped * descLen
      addSkipped descLen fuel (numSkipped dmaLen) (ddDescLen + dmaLen)

/-- The loop that skips descriptors in front of a boundary. -/
def skipBound (dd : AthDescdma) (stride : ℕ) : ℕ → ℕ → Except Stuck ℕ
  | 0, _ => .error .loops
  | fuel + 1, ds =>
    if Bound4kb (dd.ds2phys ds) then
      if dd.ddDesc + dd.ddDescLen.toNat ≤ ds then .error .bug
      else skipBound dd stride fuel (ds + stride)
    else .ok ds

end AthDescdma

namespace DescdmaInput

variable (d : DescdmaInput)

/-- The length of one descriptor. -/
def descLen : ℕ := if d.isTx then d.txDescLen else d.athDescSize

/-- The size of one buffer. -/
def bufSize : ℕ := if d.isTx then d.athBufSize else d.athRxbufSize

/-- `dd_desc_len`: what the descriptors take, and on most hardware as much again as may be
skipped. -/
def ddDescLen (fuel : ℕ) : Except Stuck UInt32 :=
  let len := UInt32.ofNat (d.descLen * d.nbuf * d.ndesc)
  if d.splittrans then .ok len
  else AthDescdma.addSkipped (UInt32.ofNat d.descLen) fuel (AthDescdma.numSkipped len) len

/-- Where the next descriptor is. -/
def nextDesc (dd : AthDescdma) (fuel ds : ℕ) : Except Stuck ℕ :=
  if d.splittrans then .ok ds else dd.skipBound (d.descLen * d.ndesc) fuel ds

/-- The loop over the buffers: from `bf` and `ds` on, the remaining ones are set up and linked. Both
branches of the source have it. -/
def linkBufs (dd : AthDescdma) (fuel : ℕ) : ℕ → ℕ → ℕ → Links → Except Stuck (Links × List AthBuf)
  | 0, _, _, m => .ok (m, [])
  | n + 1, bf, ds, m => do
    let ds ← d.nextDesc dd fuel ds
    let (m, bufs) ← linkBufs dd fuel n (bf + d.bufSize) (ds + d.descLen * d.ndesc)
      (m.listAddTail d.head bf)
    return (m, ⟨bf, ds, dd.ds2phys ds⟩ :: bufs)

end DescdmaInput

/-- What a call of `ath_descdma_setup` leaves. -/
structure DescdmaState where
  links : Links
  dd : AthDescdma
  bufs : List AthBuf

/-- `ath_descdma_setup`. -/
def athDescdmaSetup (d : DescdmaInput) (fuel : ℕ) (m : Links) :
    Except Stuck (DescdmaState × Int32) :=
  let m := m.initListHead d.head
  if d.descLen % 4 ≠ 0 then .error .bug
  else do
    let ddDescLen ← d.ddDescLen fuel
    match d.ddDesc with
    | none => return (⟨m, ⟨0, 0, ddDescLen⟩, []⟩, -12)
    | some (ddDesc, ddDescPaddr) =>
      let dd : AthDescdma := ⟨ddDesc, ddDescPaddr, ddDescLen⟩
      match d.bf with
      | none => return (⟨m, dd, []⟩, -12)
      | some bf =>
        let (m, bufs) ← d.linkBufs dd fuel d.nbuf bf ddDesc m
        return (⟨m, dd, bufs⟩, 0)

/-! ## The list -/

/-- The buffers are allocated apart from each other and from the list head. -/
structure DescdmaInput.Allocates (d : DescdmaInput) : Prop where
  bufSize_pos : 0 < d.bufSize
  head_ne : ∀ bf, d.bf = some bf → ∀ i < d.nbuf, d.head ≠ bf + i * d.bufSize

section Lists

variable {d : DescdmaInput} {dd : AthDescdma} {fuel n bf ds : ℕ} {m m' : Links} {l : List ℕ}
  {bufs : List AthBuf}

/-- A sequence of two computations succeeds if both do. -/
theorem bind_eq_ok {ε α β : Type*} {x : Except ε α} {f : α → Except ε β} {b : β} :
    x.bind f = .ok b ↔ ∃ a, x = .ok a ∧ f a = .ok b := by
  cases x with
  | error e => exact iff_of_false nofun fun ⟨_, ha, _⟩ ↦ nomatch ha
  | ok a => exact ⟨fun h ↦ ⟨a, rfl, h⟩, fun ⟨_, ha, h⟩ ↦ Except.ok.inj ha ▸ h⟩

theorem linkBufs_succ_eq_ok (h : d.linkBufs dd fuel (n + 1) bf ds m = .ok (m', bufs)) :
    ∃ ds' rest, d.nextDesc dd fuel ds = .ok ds' ∧ bufs = ⟨bf, ds', dd.ds2phys ds'⟩ :: rest ∧
      d.linkBufs dd fuel n (bf + d.bufSize) (ds' + d.descLen * d.ndesc)
        (m.listAddTail d.head bf) = .ok (m', rest) := by
  rw [DescdmaInput.linkBufs] at h
  obtain ⟨ds', hnext, h⟩ := bind_eq_ok.mp h
  obtain ⟨⟨m'', rest⟩, hrest, h⟩ := bind_eq_ok.mp h
  obtain ⟨rfl, rfl⟩ := Prod.mk.inj (Except.ok.inj h)
  exact ⟨ds', rest, hnext, rfl, hrest⟩

/-- The loop appends its buffers to the list. -/
theorem ring_linkBufs (hsize : 0 < d.bufSize) (hring : m.Ring d.head l)
    (hfresh : ∀ x ∈ d.head :: l, ∀ i < n, x ≠ bf + i * d.bufSize)
    (h : d.linkBufs dd fuel n bf ds m = .ok (m', bufs)) :
    m'.Ring d.head (l ++ bufs.map AthBuf.list) ∧ bufs.length = n := by
  induction n generalizing bf ds m l bufs with
  | zero =>
    obtain ⟨rfl, rfl⟩ := Prod.mk.inj (Except.ok.inj h)
    rw [List.map_nil, List.append_nil]
    exact ⟨hring, rfl⟩
  | succ n ih =>
    obtain ⟨ds', rest, -, rfl, hrest⟩ := linkBufs_succ_eq_ok h
    have hnew : bf ∉ d.head :: l := fun hmem ↦
      hfresh bf hmem 0 (Nat.succ_pos n) (by rw [Nat.zero_mul, Nat.add_zero])
    have hlater : ∀ x ∈ d.head :: (l ++ [bf]), ∀ i < n, x ≠ bf + d.bufSize + i * d.bufSize := by
      intro x hx i hi
      have hsucc : bf + d.bufSize + i * d.bufSize = bf + (i + 1) * d.bufSize := by
        rw [Nat.add_mul, Nat.one_mul, Nat.add_assoc, Nat.add_comm d.bufSize]
      rw [hsucc]
      rw [← List.cons_append] at hx
      rcases List.mem_append.mp hx with hx | hx
      · exact hfresh x hx (i + 1) (Nat.succ_lt_succ hi)
      · rw [List.mem_singleton.mp hx]
        have hpos : 0 < (i + 1) * d.bufSize := Nat.mul_pos (Nat.succ_pos i) hsize
        omega
    obtain ⟨hring', hlength⟩ := ih (hring.listAddTail hnew) hlater hrest
    rw [List.append_assoc] at hring'
    exact ⟨hring', congrArg Nat.succ hlength⟩

/-- **A successful set-up** links all buffers that were asked for. -/
theorem ring_athDescdmaSetup (halloc : d.Allocates) {st : DescdmaState}
    (h : athDescdmaSetup d fuel m = .ok (st, 0)) :
    st.links.Ring d.head (st.bufs.map AthBuf.list) ∧ st.bufs.length = d.nbuf := by
  have herror : ∀ st' : DescdmaState, Except.ok (ε := Stuck) (st', (-12 : Int32)) ≠ .ok (st, 0) :=
    fun st' heq ↦ absurd (Prod.mk.inj (Except.ok.inj heq)).2 (by decide)
  rw [athDescdmaSetup] at h
  have hlen : ¬d.descLen % 4 ≠ 0 := by
    intro hne
    rw [if_pos hne] at h
    exact nomatch h
  rw [if_neg hlen] at h
  obtain ⟨ddDescLen, -, h⟩ := bind_eq_ok.mp h
  cases hdesc : d.ddDesc with
  | none =>
    rw [hdesc] at h
    exact absurd h (herror _)
  | some p =>
    cases hbf : d.bf with
    | none =>
      rw [hdesc, hbf] at h
      exact absurd h (herror _)
    | some bf =>
      rw [hdesc, hbf] at h
      obtain ⟨⟨m', bufs⟩, hlink, h⟩ := bind_eq_ok.mp h
      obtain ⟨rfl, -⟩ := Prod.mk.inj (Except.ok.inj h)
      have hfresh : ∀ x ∈ [d.head], ∀ i < d.nbuf, x ≠ bf + i * d.bufSize := by
        intro x hx i hi
        rw [List.mem_singleton.mp hx]
        exact halloc.head_ne bf hbf i hi
      exact ring_linkBufs halloc.bufSize_pos Links.ring_initListHead hfresh hlink

end Lists

end UcsmaRateControl
