import Mathlib.Tactic.FinCases
import UcsmaRateControl.Machine.Pool

/-!
# Sizes of the transmit path

The driver sets up one pool of transmit buffers for its four access categories, and stops a queue
when more frames of it are pending than its limit. The limit is derived from `ATH_TXBUF`, so that
four full queues fit into a pool of that size; but the pool that `ath9k_init_device` asks for is
smaller than a single queue may get.

What happens to a frame is in `xmit.c`, which is not part of the repository. An accepted frame is
taken to count as pending on its queue, and to hold one buffer, until it completes.
-/

namespace UcsmaRateControl

/-- `ATH_TXBUF`. -/
def athTxbuf : ℕ := 512

/-- `ATH_TXBUF_RESERVE`. -/
def athTxbufReserve : ℕ := 5

/-- `ATH_MAX_QDEPTH`. -/
def athMaxQdepth : ℕ := athTxbuf / 4 - athTxbufReserve

/-- What `ath9k_init_device` passes to `ath_tx_init`. -/
def txNbufs : ℕ := 80

/-- The limits after the loop of `ath9k_init_queues`. -/
def ath9kInitQueues (txqMaxPending : Fin 4 → ℕ) : Fin 4 → ℕ :=
  (List.finRange 4).foldl (fun m i ↦ Function.update m i athMaxQdepth) txqMaxPending

/-- Every access category gets the same limit, whatever was there before. -/
theorem ath9kInitQueues_apply (txqMaxPending : Fin 4 → ℕ) (ac : Fin 4) :
    ath9kInitQueues txqMaxPending ac = athMaxQdepth := by
  fin_cases ac <;> rfl

/-- A frame is submitted to, or completes on, one of the access categories. -/
abbrev TxEvent := Pool.Event (Fin 4)

section Sizes

variable (txqMaxPending : Fin 4 → ℕ)

/-- **The pool, exactly.** No frame that is submitted to a queue that is not stopped finds the pool
empty, if and only if before each submission fewer than 80 frames have been submitted that have not
completed. The stopping of queues does not come into it, since none is ever stopped. -/
theorem txServed_iff_of_run {es : List TxEvent} {t : Pool.State (Fin 4)}
    (h : Pool.machine.run (Pool.idle txNbufs) es = some t) :
    Pool.machine.Meets (Pool.Served (ath9kInitQueues txqMaxPending)) (Pool.idle txNbufs) es ↔
      ∀ pre ac, pre ++ [.submit ac] <+: es → Pool.submitted pre < Pool.completed pre + 80 := by
  have hlimit : ∀ ac, txNbufs ≤ ath9kInitQueues txqMaxPending ac := by
    intro ac
    rw [ath9kInitQueues_apply]
    decide
  rw [Pool.meets_served_iff hlimit, Pool.meets_accepted_iff h]
  rfl

/-- Two frames, and one of them completes. -/
theorem txServed_iff_of_run_two :
    Pool.machine.Meets (Pool.Served (ath9kInitQueues fun _ ↦ 0)) (Pool.idle txNbufs)
      [.submit 2, .submit 0, .complete 2] := by
  have hrun : (Pool.machine.run (Pool.idle txNbufs)
      [.submit (2 : Fin 4), .submit 0, .complete 2]).isSome = true := by decide +kernel
  obtain ⟨t, ht⟩ := Option.isSome_iff_exists.mp hrun
  refine (txServed_iff_of_run (fun _ ↦ 0) ht).mpr fun pre ac hp ↦ ?_
  have hlength : pre.length ≤ 3 := ((List.prefix_append pre _).trans hp).length_le
  have hcount : Pool.submitted pre ≤ pre.length := List.countP_le_length
  omega

/-- The limits fit every pool of at least 496 buffers, and no smaller one. -/
theorem txServed_iff_le (nbufs : ℕ) :
    (∀ es : List TxEvent,
        Pool.machine.Meets (Pool.Respects (ath9kInitQueues txqMaxPending)) (Pool.idle nbufs) es →
        Pool.machine.Meets (Pool.Served (ath9kInitQueues txqMaxPending)) (Pool.idle nbufs) es) ↔
      496 ≤ nbufs := by
  rw [Pool.served_iff_sum_le]
  simp only [ath9kInitQueues_apply, Finset.sum_const, Finset.card_univ, Fintype.card_fin]
  exact Iff.rfl

/-- They would fit the pool they are derived from. -/
theorem txServed_of_athTxbuf {es : List TxEvent}
    (h : Pool.machine.Meets (Pool.Respects (ath9kInitQueues txqMaxPending)) (Pool.idle athTxbuf)
      es) :
    Pool.machine.Meets (Pool.Served (ath9kInitQueues txqMaxPending)) (Pool.idle athTxbuf) es :=
  (txServed_iff_le txqMaxPending athTxbuf).mpr (by decide) es h

end Sizes

/-- Eighty frames on one queue, none of them complete, and it is not stopped; the next one finds the
pool empty. -/
theorem exists_starved :
    ∃ t : Pool.State (Fin 4),
      Pool.machine.run (Pool.idle txNbufs) (List.replicate 80 (.submit 2)) = some t ∧
        ¬Pool.Stopped (ath9kInitQueues fun _ ↦ 0) t 2 ∧ t.free = 0 ∧
        ¬Pool.Served (ath9kInitQueues fun _ ↦ 0) t (.submit 2) := by
  have heval : (Pool.machine.run (Pool.idle txNbufs) (List.replicate 80 (.submit (2 : Fin 4)))).any
      (fun t ↦ decide (¬Pool.Stopped (ath9kInitQueues fun _ ↦ 0) t 2 ∧ t.free = 0)) = true := by
    decide +kernel
  obtain ⟨t, ht, hcond⟩ := (Option.any_eq_true _ _).mp heval
  obtain ⟨hopen, hfree⟩ := of_decide_eq_true hcond
  exact ⟨t, ht, hopen, hfree, fun hserved ↦ hserved 2 rfl hopen hfree⟩

end UcsmaRateControl
