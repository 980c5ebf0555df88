import UcsmaRateControl.Machine.Run
import Mathlib.Logic.Function.Basic

/-!
# Logs with room for a number of entries

A log here is an array with a counter. While the counter is below the room that the log has, an
entry goes into the place that it points to, and the entry that fills the log has it printed. A log
that was empty then holds the first of the entries that were offered, in order, as many as it has
room for.

The places of the array that are beyond the room exist, with contents that are arbitrary, so that a
write to one of them would show.

`KeepsFirst` says this along a run of a machine that offers entries step by step, and
`keepsFirst_of_run` reduces it to the single step.
-/

/-- An array, a counter, and what has been printed. -/
structure BoundedLog (α : Type*) where
  entries : ℕ → α
  count : ℕ
  /-- What has been printed, a list for each time, newest first. -/
  printed : List (List α)

namespace BoundedLog

variable {α : Type*} (n : ℕ)

/-- Offer an entry to a log with room for `n`. -/
def append (l : BoundedLog α) (a : α) : BoundedLog α :=
  if l.count < n then
    let l := { l with entries := Function.update l.entries l.count a, count := l.count + 1 }
    if l.count = n then { l with printed := (List.range n).map l.entries :: l.printed } else l
  else l

/-- What the empty log `l₀` has become when the entries of a list were offered to it. -/
structure Filled (l₀ l : BoundedLog α) (as : List α) : Prop where
  count : l.count = min as.length n
  entries : ∀ i, i < l.count → as[i]? = some (l.entries i)
  outside : ∀ i, n ≤ i → l.entries i = l₀.entries i
  printed : l.printed = if as.length < n then [] else [as.take n]

variable {n} {l₀ l : BoundedLog α} {as : List α}

theorem filled_nil (hn : 0 < n) (hcount : l.count = 0) (hprinted : l.printed = []) :
    Filled n l l [] where
  count := hcount.trans (Nat.zero_min n).symm
  entries i hi := absurd hi (hcount ▸ Nat.not_lt_zero i)
  outside _ _ := rfl
  printed := hprinted.trans (if_pos hn).symm

/-- A function that lists the first elements of a list. -/
theorem map_range_eq_take {f : ℕ → α} (h : ∀ i, i < n → as[i]? = some (f i)) :
    (List.range n).map f = as.take n := by
  refine List.ext_getElem? fun i ↦ ?_
  rw [List.getElem?_map, List.getElem?_take]
  by_cases hi : i < n
  · rw [List.getElem?_range hi, if_pos hi, h i hi]
    rfl
  · rw [if_neg hi, List.getElem?_eq_none (by rw [List.length_range]; exact not_lt.mp hi)]
    rfl

/-- While there is room, the entry goes to the end, and is printed with the others if it is the
last. -/
theorem Filled.append_of_lt (h : Filled n l₀ l as) (hlt : l.count < n) (a : α) :
    Filled n l₀ (l.append n a) (as ++ [a]) := by
  have hlen : as.length = l.count := by
    have hcount := h.count
    omega
  have hcount : (l.append n a).count = l.count + 1 := by
    rw [append, if_pos hlt]
    dsimp only
    split <;> rfl
  have hentries : (l.append n a).entries = Function.update l.entries l.count a := by
    rw [append, if_pos hlt]
    dsimp only
    split <;> rfl
  have hnew : ∀ i, i < l.count + 1 →
      (as ++ [a])[i]? = some (Function.update l.entries l.count a i) := by
    intro i hi
    rcases Nat.lt_succ_iff_lt_or_eq.mp hi with hi | rfl
    · rw [List.getElem?_append_left (hlen ▸ hi), Function.update_of_ne (Nat.ne_of_lt hi)]
      exact h.entries i hi
    · rw [Function.update_self, ← hlen, List.getElem?_concat_length]
  refine ⟨?_, ?_, fun i hi ↦ ?_, ?_⟩
  · rw [hcount, List.length_append, List.length_singleton, hlen, Nat.min_eq_left hlt]
  · rw [hcount, hentries]
    exact hnew
  · rw [hentries, Function.update_of_ne (Nat.ne_of_gt (hlt.trans_le hi))]
    exact h.outside i hi
  · have hnone : l.printed = [] := h.printed.trans (if_pos (hlen ▸ hlt))
    have hlen' : (as ++ [a]).length = l.count + 1 := by
      rw [List.length_append, List.length_singleton, hlen]
    rw [append, if_pos hlt, hlen']
    dsimp only
    by_cases hfull : l.count + 1 = n
    · rw [if_pos hfull, if_neg hfull.not_lt, hnone, map_range_eq_take (hfull ▸ hnew)]
    · rw [if_neg hfull, if_pos (lt_of_le_of_ne hlt hfull), hnone]

/-- A full log stays as it is. -/
theorem Filled.append_of_not_lt (h : Filled n l₀ l as) (hlt : ¬l.count < n) (a : α) :
    Filled n l₀ (l.append n a) (as ++ [a]) := by
  have hle : n ≤ as.length := by
    have hcount := h.count
    omega
  have hle' : n ≤ (as ++ [a]).length := by
    rw [List.length_append]
    exact hle.trans (Nat.le_add_right _ _)
  rw [append, if_neg hlt]
  refine ⟨?_, fun i hi ↦ ?_, h.outside, ?_⟩
  · rw [h.count, Nat.min_eq_right hle, Nat.min_eq_right hle']
  · have hi' : i < as.length := (h.count ▸ hi).trans_le (Nat.min_le_left _ _)
    rw [List.getElem?_append_left hi']
    exact h.entries i hi
  · rw [h.printed, if_neg hle.not_gt, if_neg hle'.not_gt, List.take_append_of_le_length hle]

theorem Filled.append (h : Filled n l₀ l as) (a : α) : Filled n l₀ (l.append n a) (as ++ [a]) := by
  by_cases hlt : l.count < n
  · exact h.append_of_lt hlt a
  · exact h.append_of_not_lt hlt a

theorem Filled.foldl_append (h : Filled n l₀ l as) (bs : List α) :
    Filled n l₀ (bs.foldl (BoundedLog.append n) l) (as ++ bs) := by
  induction bs generalizing l as with
  | nil => rwa [List.append_nil]
  | cons b bs ih =>
    rw [List.foldl_cons, ← List.singleton_append, ← List.append_assoc]
    exact ih (h.append b)

/-- Entries are never changed by what is offered later. -/
theorem Filled.entries_eq {m : BoundedLog α} {bs : List α} (h : Filled n l₀ l as)
    (h' : Filled n l₀ m bs) (hp : as <+: bs) {i : ℕ} (hi : i < l.count) :
    m.entries i = l.entries i := by
  have hi' : i < m.count := by
    have hle : as.length ≤ bs.length := hp.length_le
    rw [h.count] at hi
    rw [h'.count]
    omega
  have hsome : as[i]? = some (l.entries i) := h.entries i hi
  have hlt : i < as.length := (h.count ▸ hi).trans_le (Nat.min_le_left _ _)
  obtain ⟨cs, rfl⟩ := hp
  have hsome' := h'.entries i hi'
  rw [List.getElem?_append_left hlt, hsome] at hsome'
  exact (Option.some_inj.mp hsome').symm

/-! ## Along a run -/

section Runs

variable {σ ε : Type*} (n) (M : Machine σ ε) (view : σ → BoundedLog α) (f : σ → ε → List α)

/-- Along the run `es` from `s` to `t`, the log, which is a part of the state, has kept the first
`n` of the entries that the steps put out. -/
structure KeepsFirst (s : σ) (es : List ε) (t : σ) : Prop where
  filled : Filled n (view s) (view t) (M.trace f s es)
  kept : ∀ pre, pre <+: es → ∀ u, M.run s pre = some u →
    ∀ i < (view u).count, (view t).entries i = (view u).entries i
  silent : ∀ pre e, pre ++ [e] <+: es → ∀ u v, M.run s pre = some u → M.step u e = some v →
    f u e = [] → view v = view u

variable {n M view f}

/-- **The run rule.** It is enough that each step offers to the log what it puts out. -/
theorem keepsFirst_of_run (hn : 0 < n)
    (hstep : ∀ s e t, M.step s e = some t → view t = (f s e).foldl (append n) (view s)) {s t : σ}
    {es : List ε} (hcount : (view s).count = 0) (hprinted : (view s).printed = [])
    (h : M.run s es = some t) : KeepsFirst n M view f s es t := by
  have hfilled : ∀ {pre : List ε} {u : σ}, M.run s pre = some u →
      Filled n (view s) (view u) (M.trace f s pre) := by
    refine Machine.run_induction (P := fun pre u ↦ Filled n (view s) (view u) (M.trace f s pre))
      (filled_nil hn hcount hprinted) ?_
    intro pre u e v hu ih huv
    rw [Machine.trace_concat f e hu, hstep u e v huv]
    exact ih.foldl_append (f u e)
  refine ⟨hfilled h, fun pre hp u hu i hi ↦ ?_, fun pre e _ u v _ huv hnil ↦ ?_⟩
  · exact (hfilled hu).entries_eq (hfilled h) (Machine.trace_prefix f hu hp) hi
  · rw [hstep u e v huv, hnil, List.foldl_nil]

end Runs

end BoundedLog
