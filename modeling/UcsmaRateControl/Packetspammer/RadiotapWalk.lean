import UcsmaRateControl.Machine.FieldLayout
import UcsmaRateControl.Packetspammer.Radiotap

/-!
# Walking over the arguments of a radiotap header

`ieee80211_radiotap_iterator_next` adds the padding in front of an argument to the index of the
argument and not to its address. An argument that needs padding is then reported where the padding
begins, as an argument of another kind. No walk leaves the table or the header for it: the index
stays in the table, and what it leads to is never longer than what it should have been.
-/

namespace UcsmaRateControl

/-- `rt_sizes`: the alignment of an argument above its length, from bit 0 of the bitmap. -/
def rtSizes : List ℕ :=
  [0x88, 0x11, 0x11, 0x24, 0x22, 0x11, 0x11, 0x22, 0x22, 0x22, 0x11, 0x11, 0x11, 0x11]

/-- What must not happen: an entry of `rt_sizes` that does not exist is read, or `next_bitmap` is
followed although it has never been set. -/
inductive Fault
  | rtSizes
  | nextBitmap

/-- `rt_sizes[i]`. -/
def rtSize (i : ℕ) : Except Fault ℕ :=
  match rtSizes[i]? with
  | some size => .ok size
  | none => .error .rtSizes

/-- The alignment of an argument. -/
def rtAlign (i : ℕ) : ℕ := rtSizes.getD i 0 >>> 4

/-- Its length. -/
def rtLength (i : ℕ) : ℕ := rtSizes.getD i 0 &&& 0x0f

/-! ## The table -/

section Table

variable {i : ℕ}

theorem rtAlign_eq : rtSizes.getD i 0 >>> 4 = rtAlign i := rfl

theorem rtLength_eq : rtSizes.getD i 0 &&& 0x0f = rtLength i := rfl

theorem rtSize_of_lt (h : i < 14) : rtSize i = .ok (rtSizes.getD i 0) := by
  have hlen : i < rtSizes.length := h
  rw [rtSize, List.getD_eq_getElem?_getD, List.getElem?_eq_getElem hlen]
  rfl

theorem rtAlign_pow (h : i < 14) : ∃ k, rtAlign i = 2 ^ k := by
  have htable : ∀ i < 14, rtAlign i = 2 ^ 0 ∨ rtAlign i = 2 ^ 1 ∨ rtAlign i = 2 ^ 3 := by decide
  rcases htable i h with h | h | h
  · exact ⟨0, h⟩
  · exact ⟨1, h⟩
  · exact ⟨3, h⟩

theorem rtAlign_pos (h : i < 14) : 0 < rtAlign i := by
  obtain ⟨k, hk⟩ := rtAlign_pow h
  rw [hk]
  exact Nat.two_pow_pos k

/-- The index of an argument at offset `off`, with the padding in front of the argument added to
it. -/
def paddedIndex (i off : ℕ) : ℕ :=
  if off % rtAlign i = 0 then i else i + (rtAlign i - off % rtAlign i)

variable {off : ℕ}

theorem paddedIndex_of_aligned (h : off % rtAlign i = 0) : paddedIndex i off = i := if_pos h

theorem lt_paddedIndex (hi : i < 14) (h : off % rtAlign i ≠ 0) : i < paddedIndex i off := by
  have hmod := Nat.mod_lt off (rtAlign_pos hi)
  rw [paddedIndex, if_neg h]
  omega

theorem le_paddedIndex : i ≤ paddedIndex i off := by
  rw [paddedIndex]
  split
  · exact le_rfl
  · exact Nat.le_add_right _ _

/-- Behind an argument with an alignment there are enough arguments in the table, and none of those
that padding can lead to is longer. -/
theorem paddedIndex_spec (off : ℕ) (hi : i < 14) :
    paddedIndex i off < 14 ∧ rtLength (paddedIndex i off) ≤ rtLength i := by
  have htable : ∀ i < 14, ∀ pad < rtAlign i, pad ≠ 0 →
      i + (rtAlign i - pad) < 14 ∧ rtLength (i + (rtAlign i - pad)) ≤ rtLength i := by
    decide
  rw [paddedIndex]
  split
  · exact ⟨hi, le_rfl⟩
  · next hmod => exact htable i hi _ (Nat.mod_lt _ (rtAlign_pos hi)) hmod

end Table

/-! ## A call -/

namespace Ieee80211RadiotapIterator

/-- The iterator at the next index. -/
def skip (it : Ieee80211RadiotapIterator) : Ieee80211RadiotapIterator :=
  { it with argIndex := it.argIndex + 1, bitmapShifter := it.bitmapShifter >>> 1 }

/-- The iterator once it has moved on by the argument that it has found. -/
def found (it : Ieee80211RadiotapIterator) : Ieee80211RadiotapIterator :=
  { it with
    argIndex := paddedIndex it.argIndex it.arg
    thisArgIndex := paddedIndex it.argIndex it.arg
    thisArg := some it.arg
    arg := it.arg + rtLength (paddedIndex it.argIndex it.arg) }

/-- Every turn of the loop moves on, so that what is true at the end of the table is true everywhere
if a turn takes it from the index it moves on to. -/
theorem turn_induction {P : Ieee80211RadiotapIterator → Prop}
    (done : ∀ it, 14 ≤ it.argIndex → P it)
    (turn : ∀ it, it.argIndex < 14 → P it.skip → P it.found.skip → P it)
    (it : Ieee80211RadiotapIterator) : P it := by
  induction hd : 14 - it.argIndex using Nat.strong_induction_on generalizing it with
  | _ d ih =>
    rcases lt_or_ge it.argIndex 14 with hlt | hge
    · have hle : it.argIndex ≤ paddedIndex it.argIndex it.arg := le_paddedIndex
      have hskip : 14 - it.skip.argIndex < d := hd ▸ Nat.sub_succ_lt_self _ _ hlt
      have hfound : 14 - it.found.skip.argIndex < d := by
        change 14 - (paddedIndex it.argIndex it.arg + 1) < d
        omega
      exact turn it hlt (ih _ hskip _ rfl) (ih _ hfound _ rfl)
    · exact done it hge

end Ieee80211RadiotapIterator

section Next

variable (o : ByteOrder) (m : ℕ → UInt8)

/-- The part of the loop behind `next_entry`. -/
def nextEntry (it : Ieee80211RadiotapIterator) : Except Fault Ieee80211RadiotapIterator :=
  let it := { it with argIndex := it.argIndex + 1 }
  if it.argIndex &&& 31 = 0 then
    if it.bitmapShifter &&& 1 ≠ 0 then
      match it.nextBitmap with
      | some p =>
        .ok { it with bitmapShifter := le32ToCpu o (o.load 4 m p), nextBitmap := some (p + 4) }
      | none => .error .nextBitmap
    else .ok { it with argIndex := rtSizes.length }
  else .ok { it with bitmapShifter := it.bitmapShifter >>> 1 }

/-- The body of the loop for an argument that is present; it always returns. -/
def nextPresent (it : Ieee80211RadiotapIterator) :
    Except Fault (ℤ × Ieee80211RadiotapIterator) := do
  let size ← rtSize it.argIndex
  let pad := it.arg &&& (size >>> 4 - 1)
  let it := if pad ≠ 0 then { it with argIndex := it.argIndex + (size >>> 4 - pad) } else it
  let it := { it with thisArgIndex := it.argIndex, thisArg := some it.arg }
  let size ← rtSize it.argIndex
  let it := { it with arg := it.arg + (size &&& 0x0f) }
  if it.maxLength < it.arg then return (-einval, it)
  let it ← nextEntry o m it
  return (0, it)

variable {o m} {it : Ieee80211RadiotapIterator}

theorem nextEntry_of_lt (h : it.argIndex < 14) : nextEntry o m it = .ok it.skip := by
  have hmask : it.argIndex + 1 &&& 31 ≠ 0 := by
    rw [show 31 = 2 ^ 5 - 1 from rfl, Nat.and_two_pow_sub_one_eq_mod]
    omega
  exact if_neg hmask

/-- The index that is looked up is in the table, so that an argument that is present is found, in
the header or behind it. -/
theorem nextPresent_of_lt (h : it.argIndex < 14) :
    nextPresent o m it =
      if it.maxLength < it.found.arg then .ok (-einval, it.found) else .ok (0, it.found.skip) := by
  have hlt : paddedIndex it.argIndex it.arg < 14 := (paddedIndex_spec it.arg h).1
  have hpad : it.arg &&& (rtAlign it.argIndex - 1) = it.arg % rtAlign it.argIndex := by
    obtain ⟨k, hk⟩ := rtAlign_pow h
    rw [hk, Nat.and_two_pow_sub_one_eq_mod]
  have hindex : (if it.arg % rtAlign it.argIndex ≠ 0 then
      { it with argIndex := it.argIndex + (rtAlign it.argIndex - it.arg % rtAlign it.argIndex) }
      else it) = { it with argIndex := paddedIndex it.argIndex it.arg } := by
    rw [paddedIndex]
    by_cases hmod : it.arg % rtAlign it.argIndex = 0
    · rw [if_neg (not_not.mpr hmod), if_pos hmod]
    · rw [if_pos hmod, if_neg hmod]
  simp only [nextPresent, rtSize_of_lt h, bind, Except.bind, rtAlign_eq, hpad, hindex,
    rtSize_of_lt hlt, rtLength_eq]
  rw [Ieee80211RadiotapIterator.found]
  split
  · rfl
  · rw [nextEntry_of_lt hlt]
    rfl

variable (o m)

/-- `ieee80211_radiotap_iterator_next`. -/
def ieee80211RadiotapIteratorNext (it : Ieee80211RadiotapIterator) :
    Except Fault (ℤ × Ieee80211RadiotapIterator) :=
  if it.argIndex < rtSizes.length then
    if it.bitmapShifter &&& 1 ≠ 0 then nextPresent o m it
    else
      match _hentry : nextEntry o m it with
      | .ok it' => ieee80211RadiotapIteratorNext it'
      | .error f => .error f
  else .ok (-enoent, it)
termination_by rtSizes.length - it.argIndex
decreasing_by
  next hindex _ =>
    rw [nextEntry_of_lt hindex] at _hentry
    cases _hentry
    exact Nat.sub_succ_lt_self _ _ hindex

variable {o m}

theorem and_one_ne_zero_iff (w : ℕ) : w &&& 1 ≠ 0 ↔ w.testBit 0 = true := by
  rw [Nat.testBit_zero, Nat.and_one_is_mod, decide_eq_true_iff]
  omega

theorem next_of_end (h : 14 ≤ it.argIndex) :
    ieee80211RadiotapIteratorNext o m it = .ok (-enoent, it) := by
  rw [ieee80211RadiotapIteratorNext]
  exact if_neg (Nat.not_lt.mpr h)

theorem next_of_present (h : it.argIndex < 14) (hbit : it.bitmapShifter.testBit 0 = true) :
    ieee80211RadiotapIteratorNext o m it = nextPresent o m it := by
  have hlen : it.argIndex < rtSizes.length := h
  rw [ieee80211RadiotapIteratorNext, if_pos hlen, if_pos ((and_one_ne_zero_iff _).mpr hbit)]

theorem next_of_absent (h : it.argIndex < 14) (hbit : it.bitmapShifter.testBit 0 = false) :
    ieee80211RadiotapIteratorNext o m it = ieee80211RadiotapIteratorNext o m it.skip := by
  have hlen : it.argIndex < rtSizes.length := h
  have hzero : ¬ it.bitmapShifter &&& 1 ≠ 0 := by
    rw [and_one_ne_zero_iff, hbit]
    exact Bool.false_ne_true
  rw [ieee80211RadiotapIteratorNext, if_pos hlen, if_neg hzero]
  split
  · next it' hentry =>
    rw [nextEntry_of_lt h] at hentry
    cases hentry
    rfl
  · next f hentry =>
    rw [nextEntry_of_lt h] at hentry
    cases hentry

/-- A call that returns 0 has moved on. -/
theorem next_progress {it' : Ieee80211RadiotapIterator}
    (h : ieee80211RadiotapIteratorNext o m it = .ok (0, it')) :
    it.argIndex < 14 ∧ it.argIndex < it'.argIndex := by
  induction it using Ieee80211RadiotapIterator.turn_induction with
  | done it hge =>
    rw [next_of_end hge] at h
    cases h
  | turn it hlt hskip _ =>
    refine ⟨hlt, ?_⟩
    cases hbit : it.bitmapShifter.testBit 0 with
    | true =>
      rw [next_of_present hlt hbit, nextPresent_of_lt hlt] at h
      split at h
      · cases h
      · cases h
        exact Nat.lt_succ_of_le le_paddedIndex
    | false =>
      rw [next_of_absent hlt hbit] at h
      exact (Nat.lt_succ_self _).trans (hskip h).2

variable (o m)

/-- The loop of a caller: the calls up to the first one that does not return 0. It yields the
arguments that the calls before that one report, each with its index, and what that one returns. -/
def walk (it : Ieee80211RadiotapIterator) : Except Fault (List (ℕ × Option ℕ) × ℤ) :=
  match _hnext : ieee80211RadiotapIteratorNext o m it with
  | .ok (ret, it') =>
    if ret = 0 then
      (walk it').map fun rest ↦ ((it'.thisArgIndex, it'.thisArg) :: rest.1, rest.2)
    else .ok ([], ret)
  | .error f => .error f
termination_by 14 - it.argIndex
decreasing_by
  next hret =>
    rw [hret] at _hnext
    have hprogress := next_progress _hnext
    omega

variable {o m}

theorem walk_of_next {ret : ℤ} {it' : Ieee80211RadiotapIterator}
    (h : ieee80211RadiotapIteratorNext o m it = .ok (ret, it')) :
    walk o m it =
      if ret = 0 then
        (walk o m it').map fun rest ↦ ((it'.thisArgIndex, it'.thisArg) :: rest.1, rest.2)
      else .ok ([], ret) := by
  rw [walk]
  split
  · next hnext =>
    rw [h] at hnext
    cases hnext
    rfl
  · next hnext =>
    rw [h] at hnext
    cases hnext

theorem walk_of_end (h : 14 ≤ it.argIndex) : walk o m it = .ok ([], -enoent) := by
  rw [walk_of_next (next_of_end h)]
  rfl

theorem walk_of_absent (h : it.argIndex < 14) (hbit : it.bitmapShifter.testBit 0 = false) :
    walk o m it = walk o m it.skip := by
  rw [walk, next_of_absent h hbit, ← walk]

theorem walk_of_overrun (h : it.argIndex < 14) (hbit : it.bitmapShifter.testBit 0 = true)
    (hover : it.maxLength < it.found.arg) : walk o m it = .ok ([], -einval) := by
  have hnext : ieee80211RadiotapIteratorNext o m it = .ok (-einval, it.found) := by
    rw [next_of_present h hbit, nextPresent_of_lt h, if_pos hover]
  rw [walk_of_next hnext]
  rfl

theorem walk_of_found (h : it.argIndex < 14) (hbit : it.bitmapShifter.testBit 0 = true)
    (hfit : it.found.arg ≤ it.maxLength) :
    walk o m it = (walk o m it.found.skip).map fun rest ↦
      ((paddedIndex it.argIndex it.arg, some it.arg) :: rest.1, rest.2) := by
  have hnext : ieee80211RadiotapIteratorNext o m it = .ok (0, it.found.skip) := by
    rw [next_of_present h hbit, nextPresent_of_lt h, if_neg (Nat.not_lt.mpr hfit)]
  rw [walk_of_next hnext]
  rfl

end Next

/-! ## No walk goes wrong -/

section Safety

variable {o : ByteOrder} {m : ℕ → UInt8}

/-- What is true of the arguments that a walk reports and of what it returns in the end. -/
structure Walked (it : Ieee80211RadiotapIterator) (visits : List (ℕ × Option ℕ)) (ret : ℤ) :
    Prop where
  ends : ret = -enoent ∨ ret = -einval
  visited : ∀ v ∈ visits, it.argIndex ≤ v.1 ∧ v.1 < 14 ∧
    ∃ a, v.2 = some a ∧ it.arg ≤ a ∧ a + rtLength v.1 ≤ it.maxLength
  sorted : visits.Pairwise fun v w ↦ v.1 < w.1
  count : visits.length ≤ 14 - it.argIndex

variable {it : Ieee80211RadiotapIterator} {visits : List (ℕ × Option ℕ)} {ret : ℤ}

theorem Walked.nil (h : ret = -enoent ∨ ret = -einval) : Walked it [] ret where
  ends := h
  visited _ hv := absurd hv List.not_mem_nil
  sorted := .nil
  count := Nat.zero_le _

theorem Walked.of_skip (h : Walked it.skip visits ret) : Walked it visits ret where
  ends := h.ends
  visited v hv := by
    obtain ⟨hlow, hrest⟩ := h.visited v hv
    exact ⟨(Nat.le_succ _).trans hlow, hrest⟩
  sorted := h.sorted
  count := h.count.trans (Nat.sub_le_sub_left (Nat.le_succ _) 14)

theorem Walked.of_found (hlt : it.argIndex < 14) (hfit : it.found.arg ≤ it.maxLength)
    (h : Walked it.found.skip visits ret) :
    Walked it ((paddedIndex it.argIndex it.arg, some it.arg) :: visits) ret where
  ends := h.ends
  visited v hv := by
    rcases List.mem_cons.mp hv with rfl | hv
    · exact ⟨le_paddedIndex, (paddedIndex_spec it.arg hlt).1, it.arg, rfl, le_rfl, hfit⟩
    · obtain ⟨hlow, hhigh, a, ha, hle, hend⟩ := h.visited v hv
      exact ⟨le_paddedIndex.trans ((Nat.le_succ _).trans hlow), hhigh, a, ha,
        (Nat.le_add_right _ _).trans hle, hend⟩
  sorted := by
    refine List.pairwise_cons.mpr ⟨fun _ hv ↦ ?_, h.sorted⟩
    exact Nat.lt_of_succ_le (h.visited _ hv).1
  count := by
    have hcount : visits.length ≤ 14 - (paddedIndex it.argIndex it.arg + 1) := h.count
    have hpadded := (paddedIndex_spec it.arg hlt).1
    have hle : it.argIndex ≤ paddedIndex it.argIndex it.arg := le_paddedIndex
    rw [List.length_cons]
    omega

theorem walk_walked (o : ByteOrder) (m : ℕ → UInt8) (it : Ieee80211RadiotapIterator) :
    ∃ visits ret, walk o m it = .ok (visits, ret) ∧ Walked it visits ret := by
  induction it using Ieee80211RadiotapIterator.turn_induction with
  | done it hge => exact ⟨[], -enoent, walk_of_end hge, .nil (.inl rfl)⟩
  | turn it hlt hskip hfound =>
    cases hbit : it.bitmapShifter.testBit 0 with
    | false =>
      obtain ⟨visits, ret, hwalk, h⟩ := hskip
      exact ⟨visits, ret, (walk_of_absent hlt hbit).trans hwalk, h.of_skip⟩
    | true =>
      rcases lt_or_ge it.maxLength it.found.arg with hover | hfit
      · exact ⟨[], -einval, walk_of_overrun hlt hbit hover, .nil (.inr rfl)⟩
      · obtain ⟨visits, ret, hwalk, h⟩ := hfound
        refine ⟨_, ret, ?_, h.of_found hlt hfit⟩
        rw [walk_of_found hlt hbit hfit, hwalk]
        rfl

/-- **Malformed headers.** Whatever an accepted header contains, every call returns, no entry behind
the table is read and `next_bitmap` is not followed; each argument that is reported lies behind the
fixed part and inside the header, and the indices increase. -/
theorem walk_safe_of_accepted (o : ByteOrder) (m : ℕ → UInt8) (it : Ieee80211RadiotapIterator)
    (maxLength : ℤ) (h : (ieee80211RadiotapIteratorInit o m it maxLength).ret = 0) :
    ∃ visits ret,
      walk o m (ieee80211RadiotapIteratorInit o m it maxLength).iterator = .ok (visits, ret) ∧
      (ret = -enoent ∨ ret = -einval) ∧
      (∀ v ∈ visits, v.1 < rtSizes.length ∧
        ∃ a, v.2 = some a ∧ 8 ≤ a ∧ a + rtLength v.1 ≤ itLen m) ∧
      (visits.Pairwise fun v w ↦ v.1 < w.1) ∧ visits.length ≤ 14 := by
  obtain ⟨j, -, hstart⟩ := init_accepted h
  obtain ⟨visits, ret, hwalk, hwalked⟩ :=
    walk_walked o m (ieee80211RadiotapIteratorInit o m it maxLength).iterator
  refine ⟨visits, ret, hwalk, hwalked.ends, fun v hv ↦ ?_, hwalked.sorted,
    hwalked.count.trans (Nat.sub_le _ _)⟩
  obtain ⟨-, hhigh, a, ha, hle, hend⟩ := hwalked.visited v hv
  rw [hstart] at hle hend
  exact ⟨hhigh, a, ha, (Nat.le_add_right 8 (4 * j)).trans hle, hend⟩

/-- A header with the rate and the channel, one of them at an odd offset. -/
def channelHeader : ℕ → UInt8 := fun a ↦ [0, 0, 14, 0, 0x0c, 0, 0, 0].getD a 0

theorem walk_safe_of_accepted_channel :
    ∃ visits ret,
      walk .little channelHeader
        (ieee80211RadiotapIteratorInit .little channelHeader unsetIterator 14).iterator =
        .ok (visits, ret) ∧
      (ret = -enoent ∨ ret = -einval) ∧
      (∀ v ∈ visits, v.1 < rtSizes.length ∧
        ∃ a, v.2 = some a ∧ 8 ≤ a ∧ a + rtLength v.1 ≤ itLen channelHeader) ∧
      (visits.Pairwise fun v w ↦ v.1 < w.1) ∧ visits.length ≤ 14 :=
  walk_safe_of_accepted .little channelHeader unsetIterator 14 (by decide)

end Safety

/-! ## What a walk should report -/

section Reference

variable (m : ℕ → UInt8)

/-- The arguments that the first present word announces, among those in the table. -/
def radiotapFields : List ℕ := (List.range rtSizes.length).filter (presentWord m 0).testBit

/-- The arguments from offset `off` on, each at the next multiple of its alignment, and what the
walk ends with. -/
def reference (limit off : ℕ) (fields : List ℕ) : List (ℕ × Option ℕ) × ℤ :=
  ((layout rtAlign rtLength limit off fields).1.map fun v ↦ (v.1, some v.2),
    if (layout rtAlign rtLength limit off fields).2 then -enoent else -einval)

/-- The walk reports the arguments of a header whose last present word is word `j` where they
are. -/
def WalksAsAnnounced (o : ByteOrder) (j : ℕ) (it : Ieee80211RadiotapIterator) : Prop :=
  walk o m it = .ok (reference (itLen m) (8 + 4 * j) (radiotapFields m))

/-- The offset of an argument if nothing in front of it were padded. -/
def packedOffset (j i : ℕ) : ℕ :=
  8 + 4 * j + (((List.range i).filter (presentWord m 0).testBit).map rtLength).sum

/-- An argument needs no padding in front of it, or the header ends before what is looked up in its
place. -/
def InPlace (j i : ℕ) : Prop :=
  packedOffset m j i % rtAlign i = 0 ∨
    itLen m < packedOffset m j i + rtLength (paddedIndex i (packedOffset m j i))

/-- The arguments from index `k` on. -/
def fieldsFrom (k : ℕ) : List ℕ := (List.range' k (14 - k)).filter (presentWord m 0).testBit

variable {m} {limit off i k : ℕ} {fields : List ℕ}

theorem reference_of_fit (h : alignUp (rtAlign i) off + rtLength i ≤ limit) :
    reference limit off (i :: fields) =
      ((i, some (alignUp (rtAlign i) off)) ::
        (reference limit (alignUp (rtAlign i) off + rtLength i) fields).1,
        (reference limit (alignUp (rtAlign i) off + rtLength i) fields).2) := by
  rw [reference, layout_cons_of_le h]
  rfl

theorem reference_of_overrun (h : limit < alignUp (rtAlign i) off + rtLength i) :
    reference limit off (i :: fields) = ([], -einval) := by
  rw [reference, layout_cons_of_lt h]
  rfl

theorem fieldsFrom_of_present (hk : k < 14) (h : (presentWord m 0).testBit k = true) :
    fieldsFrom m k = k :: fieldsFrom m (k + 1) := by
  have hcount : 14 - k = 14 - (k + 1) + 1 := by omega
  rw [fieldsFrom, hcount, List.range'_succ, List.filter_cons_of_pos h, fieldsFrom]

theorem fieldsFrom_of_absent (hk : k < 14) (h : (presentWord m 0).testBit k = false) :
    fieldsFrom m k = fieldsFrom m (k + 1) := by
  have hcount : 14 - k = 14 - (k + 1) + 1 := by omega
  rw [fieldsFrom, hcount, List.range'_succ, List.filter_cons_of_neg (Bool.not_eq_true _ ▸ h),
    fieldsFrom]

theorem le_of_mem_fieldsFrom (h : i ∈ fieldsFrom m k) : k ≤ i :=
  (List.mem_range'_1.mp (List.mem_of_mem_filter h)).1

variable {j : ℕ}

theorem packedOffset_succ_of_present (h : (presentWord m 0).testBit i = true) :
    packedOffset m j (i + 1) = packedOffset m j i + rtLength i := by
  rw [packedOffset, List.range_succ, List.filter_append, List.filter_singleton, h]
  simp [packedOffset, Nat.add_assoc]

theorem packedOffset_succ_of_absent (h : (presentWord m 0).testBit i = false) :
    packedOffset m j (i + 1) = packedOffset m j i := by
  rw [packedOffset, List.range_succ, List.filter_append, List.filter_singleton, h]
  simp [packedOffset]

theorem packedOffset_mono (h : k ≤ i) : packedOffset m j k ≤ packedOffset m j i := by
  induction i, h using Nat.le_induction with
  | base => exact le_rfl
  | succ i _ ih =>
    cases hbit : (presentWord m 0).testBit i with
    | true =>
      rw [packedOffset_succ_of_present hbit]
      exact ih.trans (Nat.le_add_right _ _)
    | false =>
      rw [packedOffset_succ_of_absent hbit]
      exact ih

/-- Nothing is looked up behind the end of the header. -/
theorem inPlace_of_overrun (hbit : (presentWord m 0).testBit k = true)
    (hover : itLen m < packedOffset m j k + rtLength k) (hki : k + 1 ≤ i) : InPlace m j i := by
  have hmono : packedOffset m j (k + 1) ≤ packedOffset m j i := packedOffset_mono hki
  rw [packedOffset_succ_of_present hbit] at hmono
  right
  omega

/-- The index, the bitmap and the address of the iterator are in step, and nothing in front of the
address has been padded. -/
structure AtField (m : ℕ → UInt8) (j : ℕ) (it : Ieee80211RadiotapIterator) : Prop where
  arg : it.arg = packedOffset m j it.argIndex
  maxLength : it.maxLength = itLen m
  bits : it.bitmapShifter = presentWord m 0 >>> it.argIndex

namespace AtField

variable {o : ByteOrder} {it : Ieee80211RadiotapIterator}

theorem start (m : ℕ → UInt8) (j : ℕ) (it : Ieee80211RadiotapIterator) :
    AtField m j (it.start m j) := ⟨rfl, rfl, rfl⟩

theorem testBit (h : AtField m j it) :
    it.bitmapShifter.testBit 0 = (presentWord m 0).testBit it.argIndex := by
  rw [h.bits, Nat.testBit_shiftRight, Nat.add_zero]

theorem skip (h : AtField m j it) (hbit : it.bitmapShifter.testBit 0 = false) :
    AtField m j it.skip where
  arg := by
    rw [h.testBit] at hbit
    exact h.arg.trans (packedOffset_succ_of_absent hbit).symm
  maxLength := h.maxLength
  bits := by
    change it.bitmapShifter >>> 1 = presentWord m 0 >>> (it.argIndex + 1)
    rw [Nat.shiftRight_add, ← h.bits]

theorem found_skip (h : AtField m j it) (hbit : it.bitmapShifter.testBit 0 = true)
    (halign : it.arg % rtAlign it.argIndex = 0) : AtField m j it.found.skip := by
  have hindex := paddedIndex_of_aligned halign
  rw [h.testBit] at hbit
  constructor
  · change it.arg + rtLength (paddedIndex _ _) = packedOffset m j (paddedIndex _ _ + 1)
    rw [hindex, packedOffset_succ_of_present hbit, h.arg]
  · exact h.maxLength
  · change it.bitmapShifter >>> 1 = presentWord m 0 >>> (paddedIndex _ _ + 1)
    rw [hindex, Nat.shiftRight_add, ← h.bits]

/-- The header ends before what is looked up: nothing more is reported, and nothing more should
be. -/
theorem walk_eq_of_overrun (hlt : it.argIndex < 14) (hbit : it.bitmapShifter.testBit 0 = true)
    (hover : it.maxLength < it.found.arg) :
    walk o m it = .ok (reference it.maxLength it.arg (it.argIndex :: fields)) := by
  have hlength := (paddedIndex_spec it.arg hlt).2
  have hle : it.arg ≤ alignUp (rtAlign it.argIndex) it.arg := le_alignUp
  have hfound : it.found.arg = it.arg + rtLength (paddedIndex it.argIndex it.arg) := rfl
  rw [walk_of_overrun hlt hbit hover, reference_of_overrun (by omega)]

theorem inPlace_of_found_overrun (h : AtField m j it) (hlt : it.argIndex < 14)
    (hbit : it.bitmapShifter.testBit 0 = true) (hover : it.maxLength < it.found.arg) :
    InPlace m j it.argIndex ∧ ∀ i ∈ fieldsFrom m (it.argIndex + 1), InPlace m j i := by
  have hlength := (paddedIndex_spec it.arg hlt).2
  have hfound : it.found.arg = it.arg + rtLength (paddedIndex it.argIndex it.arg) := rfl
  rw [hfound, h.maxLength, h.arg] at hover
  rw [h.arg] at hlength
  refine ⟨.inr hover, fun i hi ↦ ?_⟩
  exact inPlace_of_overrun (h.testBit ▸ hbit) (by omega) (le_of_mem_fieldsFrom hi)

/-- Nothing has to be padded: what is reported is where it should be. -/
theorem walk_eq_iff_of_aligned (hlt : it.argIndex < 14) (hbit : it.bitmapShifter.testBit 0 = true)
    (halign : it.arg % rtAlign it.argIndex = 0) (hfit : it.found.arg ≤ it.maxLength) :
    walk o m it = .ok (reference it.maxLength it.arg (it.argIndex :: fields)) ↔
      walk o m it.found.skip = .ok (reference it.maxLength it.found.arg fields) := by
  have hindex := paddedIndex_of_aligned halign
  have hfound : it.found.arg = it.arg + rtLength it.argIndex :=
    congrArg (it.arg + rtLength ·) hindex
  rw [walk_of_found hlt hbit hfit, hfound, hindex,
    reference_of_fit (by rw [alignUp_of_mod_eq_zero halign]; omega), alignUp_of_mod_eq_zero halign]
  cases walk o m it.found.skip with
  | error f => simp [Except.map]
  | ok r => simp [Except.map, Prod.ext_iff]

/-- Something has to be padded: it is reported as something else. -/
theorem walk_ne_of_unaligned (hlt : it.argIndex < 14) (hbit : it.bitmapShifter.testBit 0 = true)
    (halign : it.arg % rtAlign it.argIndex ≠ 0) (hfit : it.found.arg ≤ it.maxLength) :
    walk o m it ≠ .ok (reference it.maxLength it.arg (it.argIndex :: fields)) := by
  obtain ⟨visits, ret, hwalk, -⟩ := walk_walked o m it.found.skip
  have hindex := (lt_paddedIndex hlt halign).ne'
  rw [walk_of_found hlt hbit hfit, hwalk]
  rcases lt_or_ge it.maxLength (alignUp (rtAlign it.argIndex) it.arg + rtLength it.argIndex)
    with hover | hle
  · rw [reference_of_overrun hover]
    simp [Except.map]
  · rw [reference_of_fit hle]
    simp [Except.map, hindex]

/-- A walk is as announced if and only if everything that it meets is in place. -/
theorem walk_eq_iff (h : AtField m j it) :
    walk o m it = .ok (reference it.maxLength it.arg (fieldsFrom m it.argIndex)) ↔
      ∀ i ∈ fieldsFrom m it.argIndex, InPlace m j i := by
  induction it using Ieee80211RadiotapIterator.turn_induction with
  | done it hge =>
    have hnil : fieldsFrom m it.argIndex = [] := by
      rw [fieldsFrom, Nat.sub_eq_zero_of_le hge]
      rfl
    rw [walk_of_end hge, hnil]
    exact iff_of_true rfl fun i hi ↦ absurd hi List.not_mem_nil
  | turn it hlt hskip hfound =>
    cases hbit : it.bitmapShifter.testBit 0 with
    | false =>
      rw [walk_of_absent hlt hbit, fieldsFrom_of_absent hlt (h.testBit ▸ hbit)]
      exact hskip (h.skip hbit)
    | true =>
      rw [fieldsFrom_of_present hlt (h.testBit ▸ hbit), List.forall_mem_cons]
      rcases lt_or_ge it.maxLength it.found.arg with hover | hfit
      · exact iff_of_true (walk_eq_of_overrun hlt hbit hover)
          (h.inPlace_of_found_overrun hlt hbit hover)
      by_cases halign : it.arg % rtAlign it.argIndex = 0
      · have hnext : it.found.skip.argIndex = it.argIndex + 1 :=
          congrArg (· + 1) (paddedIndex_of_aligned halign)
        have hrest := hfound (h.found_skip hbit halign)
        rw [hnext] at hrest
        rw [walk_eq_iff_of_aligned hlt hbit halign hfit, and_iff_right (.inl (h.arg ▸ halign))]
        exact hrest
      · refine iff_of_false (walk_ne_of_unaligned hlt hbit halign hfit) fun hall ↦ ?_
        rcases hall.1 with hpacked | hover
        · exact halign (h.arg ▸ hpacked)
        · rw [← h.maxLength, ← h.arg] at hover
          exact hfit.not_gt hover

end AtField

theorem walksAsAnnounced_start_iff (o : ByteOrder) (m : ℕ → UInt8) (j : ℕ)
    (it : Ieee80211RadiotapIterator) :
    WalksAsAnnounced m o j (it.start m j) ↔ ∀ i ∈ radiotapFields m, InPlace m j i := by
  have hfields : radiotapFields m = fieldsFrom m 0 := by
    rw [radiotapFields, List.range_eq_range']
    rfl
  rw [WalksAsAnnounced, hfields]
  exact (AtField.start m j it).walk_eq_iff

/-- **The walk.** The walk over a header that is accepted reports the arguments as they are
announced if and only if every one of them is in place. -/
theorem walksAsAnnounced_iff (o : ByteOrder) (m : ℕ → UInt8) (it : Ieee80211RadiotapIterator)
    (maxLength : ℤ) (h : (ieee80211RadiotapIteratorInit o m it maxLength).ret = 0) :
    ∃ j, LastWord m j ∧
      (WalksAsAnnounced m o j (ieee80211RadiotapIteratorInit o m it maxLength).iterator ↔
        ∀ i ∈ radiotapFields m, InPlace m j i) := by
  obtain ⟨j, hlast, hstart⟩ := init_accepted h
  refine ⟨j, hlast, ?_⟩
  rw [hstart]
  exact walksAsAnnounced_start_iff o m j it

/-- A header with the flags, the rate and the channel, which falls on an even offset. -/
def alignedHeader : ℕ → UInt8 := fun a ↦ [0, 0, 14, 0, 0x0e, 0, 0, 0].getD a 0

theorem walksAsAnnounced_iff_aligned :
    WalksAsAnnounced alignedHeader .little 0
      (ieee80211RadiotapIteratorInit .little alignedHeader unsetIterator 14).iterator := by
  obtain ⟨j, hlast, hwalk⟩ :=
    walksAsAnnounced_iff .little alignedHeader unsetIterator 14 (by decide)
  obtain rfl := hlast.eq_zero (by decide)
  refine hwalk.mpr fun i hi ↦ .inl ?_
  have hfields : radiotapFields alignedHeader = [1, 2, 3] := by decide
  rw [hfields] at hi
  revert i
  decide

/-- The channel is reported as the argument behind it, at the byte that pads it. -/
theorem exists_misplaced_argument :
    ¬ ∀ (o : ByteOrder) (m : ℕ → UInt8) (it : Ieee80211RadiotapIterator) (maxLength : ℤ),
      (ieee80211RadiotapIteratorInit o m it maxLength).ret = 0 →
      ∃ j, LastWord m j ∧
        WalksAsAnnounced m o j (ieee80211RadiotapIteratorInit o m it maxLength).iterator := by
  intro hall
  have haccepted :
      (ieee80211RadiotapIteratorInit .little channelHeader unsetIterator 14).ret = 0 := by decide
  obtain ⟨j, hlast, hwalk⟩ := hall _ _ _ _ haccepted
  obtain ⟨i, hi, hstart⟩ := init_accepted haccepted
  obtain rfl := hlast.unique hi
  obtain rfl := hlast.eq_zero (by decide)
  rw [hstart, walksAsAnnounced_start_iff] at hwalk
  have hplace : ¬ InPlace channelHeader 0 3 := by
    rw [InPlace]
    decide
  exact hplace (hwalk 3 (by decide))

end Reference

end UcsmaRateControl
