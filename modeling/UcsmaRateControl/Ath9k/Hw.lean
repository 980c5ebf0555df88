import UcsmaRateControl.Kernel.Timespec

/-!
# The chip behind `ath9k_ah`

`struct ath_hw` as far as the unlocking modules read and write it: the power mode, the register file
behind `reg_ops`, and the flags this fork added. Every register access is also logged together with
the power mode it happened in; no code reads the log.

Registers are named by their symbols. Their offsets, and the mask of `AR_PCU_FORCE_QUIET_COLL`, are
in a header that is not part of the repository, so the mask is a field of the chip.
-/

namespace UcsmaRateControl

/-- `enum ath9k_power_mode`. -/
inductive PowerMode
  | awake
  | fullSleep
  | networkSleep
  | undefined
deriving DecidableEq

/-- The registers that the modelled code touches. -/
inductive Reg
  /-- `AR_DLCL_IFS(qnum)`: contention window and AIFS of one DCU. -/
  | dlclIfs (qnum : ℕ)
  /-- `AR_PCU_MISC`. -/
  | pcuMisc
  /-- `AR_D_GBL_IFS_SLOT`. -/
  | dGblIfsSlot
  /-- `AR_D_GBL_IFS_SIFS`. -/
  | dGblIfsSifs
  /-- `AR_D_GBL_IFS_EIFS`. -/
  | dGblIfsEifs
  /-- Any other register. -/
  | other (offset : ℕ)
deriving DecidableEq

/-- One access to a register, with the power mode the chip was in. -/
structure RegAccess where
  /-- The register. -/
  reg : Reg
  /-- The power mode at that moment. -/
  mode : PowerMode
deriving DecidableEq

/-- `struct ath_hw`. -/
structure AthHw where
  powerMode : PowerMode
  /-- The contents of the registers. -/
  regs : Reg → UInt32
  /-- The mask of `AR_PCU_FORCE_QUIET_COLL` in `AR_PCU_MISC`. -/
  forceQuietColl : UInt32
  unlockingLogging : Bool
  forceQuietBitRestore : Bool
  maxTimingCount : UInt32
  unlocked : Bool
  lastForceQuietRestore : Timespec
  /-- The accesses so far, newest first. -/
  accesses : List RegAccess

namespace AthHw

variable (ah : AthHw)

/-- Log an access. -/
def access (reg : Reg) : AthHw := { ah with accesses := ⟨reg, ah.powerMode⟩ :: ah.accesses }

/-- `REG_READ`, that is `ath9k_ioread32`. -/
def regRead (reg : Reg) : AthHw × UInt32 := (ah.access reg, ah.regs reg)

/-- `REG_WRITE`, that is `ath9k_iowrite32`. -/
def regWrite (reg : Reg) (val : UInt32) : AthHw :=
  { ah.access reg with regs := fun r ↦ if r = reg then val else ah.regs r }

/-- `ath9k_reg_rmw`: clear the bits of `clr`, then set those of `set`. -/
def regRmw (reg : Reg) (set clr : UInt32) : AthHw :=
  { ah.access reg with
    regs := fun r ↦ if r = reg then (ah.regs reg &&& ~~~clr) ||| set else ah.regs r }

/-- `REG_SET_BIT`. -/
def regSetBit (reg : Reg) (bit : UInt32) : AthHw := ah.regRmw reg bit 0

/-- `REG_CLR_BIT`. -/
def regClrBit (reg : Reg) (bit : UInt32) : AthHw := ah.regRmw reg 0 bit

/-- One turn of the loop of `edit_contentionWindow`. The argument is overwritten with a copy of
itself shifted into the `CWmax` field, and the next turn starts from there. -/
def editTurn (p : AthHw × UInt32) (qnum : ℕ) : AthHw × UInt32 :=
  let tmp := p.2 <<< 10
  let windowSize := p.2 ||| tmp
  (p.1.regWrite (.dlclIfs qnum) (0x000fffff &&& windowSize), windowSize)

/-- `edit_contentionWindow`: one turn for each of the first eight DCUs. -/
def editContentionWindow (windowSize : UInt32) : AthHw :=
  ((List.range 8).foldl editTurn (ah, windowSize)).1

/-! ## What an access leaves alone -/

theorem powerMode_foldl_editTurn (qs : List ℕ) (p : AthHw × UInt32) :
    (qs.foldl editTurn p).1.powerMode = p.1.powerMode := by
  induction qs generalizing p with
  | nil => rfl
  | cons q qs ih => rw [List.foldl_cons, ih]; rfl

theorem forceQuietColl_foldl_editTurn (qs : List ℕ) (p : AthHw × UInt32) :
    (qs.foldl editTurn p).1.forceQuietColl = p.1.forceQuietColl := by
  induction qs generalizing p with
  | nil => rfl
  | cons q qs ih => rw [List.foldl_cons, ih]; rfl

theorem accesses_foldl_editTurn (qs : List ℕ) (p : AthHw × UInt32) :
    (qs.foldl editTurn p).1.accesses =
      (qs.reverse.map fun qnum ↦ ⟨.dlclIfs qnum, p.1.powerMode⟩) ++ p.1.accesses := by
  induction qs generalizing p with
  | nil => rfl
  | cons q qs ih =>
    rw [List.foldl_cons, ih, List.reverse_cons, List.map_append, List.append_assoc]
    rfl

@[simp] theorem powerMode_editContentionWindow (w : UInt32) :
    (ah.editContentionWindow w).powerMode = ah.powerMode :=
  powerMode_foldl_editTurn _ _

@[simp] theorem forceQuietColl_editContentionWindow (w : UInt32) :
    (ah.editContentionWindow w).forceQuietColl = ah.forceQuietColl :=
  forceQuietColl_foldl_editTurn _ _

/-- The window is written once for each DCU, all in the power mode of the call. -/
theorem accesses_editContentionWindow (w : UInt32) :
    (ah.editContentionWindow w).accesses =
      ((List.range 8).reverse.map fun qnum ↦ ⟨.dlclIfs qnum, ah.powerMode⟩) ++ ah.accesses :=
  accesses_foldl_editTurn _ _

end AthHw

end UcsmaRateControl
