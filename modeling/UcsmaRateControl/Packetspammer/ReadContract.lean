import UcsmaRateControl.Packetspammer.Feedback

/-!
# What a read of the device reports

A `read` of a character device fills at most the buffer it is given, and returns how many bytes it
has filled, zero at the end of the file, or a negative error. `dev_read` copies four bytes whatever
the length, and returns zero when it has copied them: this is the value that the original of the
driver left in `size_of_message` once it had sent the whole message.
-/

namespace UcsmaRateControl

/-- What the return value of a `read` says. -/
inductive ReadOutcome
  | sample
  | endOfFile
  | failure
deriving DecidableEq

/-- The reading of a return value. -/
def ReadOutcome.ofRet (ret : Int32) : ReadOutcome :=
  if ret < 0 then .failure else if ret = 0 then .endOfFile else .sample

/-- The contract of a `read` of `len` bytes during which `copy_to_user` returns `errorCount`. -/
structure DevRead.Contract (len errorCount : ℕ) (r : DevRead) : Prop where
  written_le : r.written ≤ len
  ret_of_success : errorCount = 0 → r.ret.toInt = r.written
  ret_of_failure : errorCount ≠ 0 → r.ret < 0

section

variable (bufCounter : Int32) (len errorCount : ℕ)

theorem ofRet_devRead :
    ReadOutcome.ofRet (devRead bufCounter len errorCount).ret =
      if errorCount = 0 then .endOfFile else .failure := by
  rw [devRead]
  split <;> rfl

/-- **The contract of `dev_read`, exactly.** It is kept if and only if the copy fails after at most
as many bytes as were asked for. A fresh sample always reads as the end of the file, and nothing
reads as a sample. -/
theorem devRead_contract_iff :
    ((devRead bufCounter len errorCount).Contract len errorCount ↔
        errorCount ≠ 0 ∧ 4 - errorCount ≤ len) ∧
      ReadOutcome.ofRet (devRead bufCounter len errorCount).ret =
        if errorCount = 0 then .endOfFile else .failure := by
  refine ⟨⟨fun h ↦ ?_, fun ⟨hne, hle⟩ ↦ ?_⟩, ofRet_devRead bufCounter len errorCount⟩
  · refine ⟨?_, h.written_le⟩
    rintro rfl
    exact absurd (h.ret_of_success rfl) (by simp [devRead])
  · refine ⟨hle, fun hzero ↦ absurd hzero hne, fun _ ↦ ?_⟩
    rw [devRead]
    dsimp only
    rw [if_neg hne]
    decide

end

/-- A caller that asks for an `int` gets it, and is told that it is at the end of the file; a caller
that asks for one byte gets four. -/
theorem not_contract_devRead :
    (devRead 37 4 0).written = 4 ∧ (devRead 37 4 0).ret = 0 ∧
      ReadOutcome.ofRet (devRead 37 4 0).ret = .endOfFile ∧ 1 < (devRead 37 1 0).written ∧
      ¬(devRead 37 4 0).Contract 4 0 ∧ ¬(devRead 37 1 0).Contract 1 0 := by
  refine ⟨rfl, rfl, rfl, by decide, fun h ↦ ?_, fun h ↦ ?_⟩
  · exact absurd (h.ret_of_success rfl) (by decide)
  · exact absurd h.written_le (by decide)

end UcsmaRateControl
