import Mathlib.Data.List.Range
import Mathlib.Data.Int.Notation
import Mathlib.Tactic.Ring
import Mathlib.Tactic.SplitIfs
import UcsmaRateControl.Machine.Bytes

/-!
# Accepting a radiotap header

`ieee80211_radiotap_iterator_init` looks for the payload behind a chain of words, each of which says
in its highest bit whether another one follows. It compares the end of a word with the length of the
header after it has read the word, and lets the next word begin exactly at the end of the header. So
it is right about the chains that end inside the header and about no others.
-/

namespace UcsmaRateControl

/-! ## Words in the order of the processor -/

section Endian

variable (o : ByteOrder)

/-- `le16_to_cpu`. -/
def le16ToCpu (x : ℕ) : ℕ :=
  match o with
  | .little => x
  | .big => (x &&& 0xff) <<< 8 ||| (x &&& 0xff00) >>> 8

/-- `le32_to_cpu`. -/
def le32ToCpu (x : ℕ) : ℕ :=
  match o with
  | .little => x
  | .big =>
    (x &&& 0xff) <<< 24 ||| (x &&& 0xff00) <<< 8 ||| (x &&& 0xff0000) >>> 8 |||
      (x &&& 0xff000000) >>> 24

variable {o}

/-- The mask of one byte. -/
theorem and_byteMask (x k : ℕ) : x &&& 0xff <<< k = (x / 2 ^ k % 256) <<< k := by
  rw [Nat.and_shiftLeft, show (0xff : ℕ) = 2 ^ 8 - 1 from rfl, Nat.and_two_pow_sub_one_eq_mod,
    Nat.shiftRight_eq_div_pow]

variable (m : ℕ → UInt8) (a : ℕ)

theorem le16ToCpu_load : le16ToCpu o (o.load 2 m a) = ByteOrder.little.load 2 m a := by
  cases o with
  | little => rfl
  | big =>
    have h₀ := (m a).toNat_lt
    have h₁ := (m (a + 1)).toNat_lt
    simp only [le16ToCpu, ByteOrder.load]
    generalize (m a).toNat = b₀ at *
    generalize (m (a + 1)).toNat = b₁ at *
    have hlow : (b₀ * 256 ^ 1 + (b₁ * 256 ^ 0 + 0)) / 2 ^ 0 % 256 = b₁ := by omega
    have hhigh : (b₀ * 256 ^ 1 + (b₁ * 256 ^ 0 + 0)) / 2 ^ 8 % 256 = b₀ := by omega
    rw [show (0xff : ℕ) = 0xff <<< 0 from rfl, and_byteMask, hlow,
      show (0xff00 : ℕ) = 0xff <<< 8 from rfl, and_byteMask, hhigh, Nat.shiftLeft_zero,
      Nat.shiftLeft_shiftRight, ← Nat.shiftLeft_add_eq_or_of_lt h₀, Nat.shiftLeft_eq]
    omega

theorem le32ToCpu_load : le32ToCpu o (o.load 4 m a) = ByteOrder.little.load 4 m a := by
  cases o with
  | little => rfl
  | big =>
    have h₀ := (m a).toNat_lt
    have h₁ := (m (a + 1)).toNat_lt
    have h₂ := (m (a + 1 + 1)).toNat_lt
    have h₃ := (m (a + 1 + 1 + 1)).toNat_lt
    simp only [le32ToCpu, ByteOrder.load]
    generalize (m a).toNat = b₀ at *
    generalize (m (a + 1)).toNat = b₁ at *
    generalize (m (a + 1 + 1)).toNat = b₂ at *
    generalize (m (a + 1 + 1 + 1)).toNat = b₃ at *
    generalize hx : b₀ * 256 ^ 3 + (b₁ * 256 ^ 2 + (b₂ * 256 ^ 1 + (b₃ * 256 ^ 0 + 0))) = x
    have hbyte₀ : x / 2 ^ 24 % 256 = b₀ := by omega
    have hbyte₁ : x / 2 ^ 16 % 256 = b₁ := by omega
    have hbyte₂ : x / 2 ^ 8 % 256 = b₂ := by omega
    have hbyte₃ : x / 2 ^ 0 % 256 = b₃ := by omega
    -- The four bytes, each where the word in the other order has it.
    rw [show (0xff : ℕ) = 0xff <<< 0 from rfl, and_byteMask, hbyte₃,
      show (0xff00 : ℕ) = 0xff <<< 8 from rfl, and_byteMask, hbyte₂,
      show (0xff0000 : ℕ) = 0xff <<< 16 from rfl, and_byteMask, hbyte₁,
      show (0xff000000 : ℕ) = 0xff <<< 24 from rfl, and_byteMask, hbyte₀]
    rw [Nat.shiftLeft_zero, Nat.shiftLeft_shiftRight, ← Nat.shiftLeft_add,
      show b₁ <<< 16 = (b₁ <<< 8) <<< 8 from Nat.shiftLeft_add b₁ 8 8, Nat.shiftLeft_shiftRight,
      Nat.or_assoc, Nat.or_assoc]
    have hsum₁ : b₁ <<< 8 + b₀ < 2 ^ 16 := by
      rw [Nat.shiftLeft_eq]
      omega
    have hsum₂ : b₂ <<< 16 + (b₁ <<< 8 + b₀) < 2 ^ 24 := by
      rw [Nat.shiftLeft_eq]
      omega
    rw [← Nat.shiftLeft_add_eq_or_of_lt h₀, ← Nat.shiftLeft_add_eq_or_of_lt hsum₁,
      ← Nat.shiftLeft_add_eq_or_of_lt hsum₂, Nat.shiftLeft_eq, Nat.shiftLeft_eq, Nat.shiftLeft_eq]
    ring

end Endian

/-! ## The iterator -/

/-- `EINVAL`. -/
def einval : ℤ := 22

/-- `ENOENT`. -/
def enoent : ℤ := 2

/-- `IEEE80211_RADIOTAP_EXT`. -/
def ieee80211RadiotapExt : ℕ := 31

/-- `struct ieee80211_radiotap_iterator`. A pointer into the header is an offset from `rtheader`. -/
structure Ieee80211RadiotapIterator where
  maxLength : ℕ
  thisArgIndex : ℕ
  /-- Null before the first argument. -/
  thisArg : Option ℕ
  argIndex : ℕ
  arg : ℕ
  /-- Points nowhere if it has never been set. -/
  nextBitmap : Option ℕ
  bitmapShifter : ℕ

/-- What a call of `ieee80211_radiotap_iterator_init` returns and leaves behind, and the offsets and
sizes of what it has read since the length was checked. -/
structure InitResult where
  ret : ℤ
  iterator : Ieee80211RadiotapIterator
  reads : List (ℕ × ℕ)

/-- A present word has the bit that says that another one follows. -/
def hasExt (w : ℕ) : Bool := w &&& 1 <<< ieee80211RadiotapExt ≠ 0

section Init

variable (o : ByteOrder) (m : ℕ → UInt8)

/-- The loop over the extension words, from the one at `arg`: whether it ends at a word without the
bit, where `arg` then is, and what has been read. -/
def extLoop (maxLength arg : ℕ) : Bool × ℕ × List (ℕ × ℕ) :=
  if hasExt (le32ToCpu o (o.load 4 m arg)) then
    if maxLength < arg + 4 then (false, arg + 4, [(arg, 4)])
    else
      let rest := extLoop maxLength (arg + 4)
      (rest.1, rest.2.1, (arg, 4) :: rest.2.2)
  else (true, arg, [(arg, 4)])
termination_by maxLength - arg

/-- `ieee80211_radiotap_iterator_init`. -/
def ieee80211RadiotapIteratorInit (iterator : Ieee80211RadiotapIterator) (maxLength : ℤ) :
    InitResult :=
  let itLen := le16ToCpu o (o.load 2 m 2)
  if m 0 ≠ 0 then ⟨-einval, iterator, []⟩
  else if maxLength < itLen then ⟨-einval, iterator, []⟩
  else
    let iterator := { iterator with
      maxLength := itLen
      argIndex := 0
      bitmapShifter := le32ToCpu o (o.load 4 m 4)
      arg := 8
      thisArg := none }
    if hasExt iterator.bitmapShifter then
      let loop := extLoop o m itLen iterator.arg
      let reads := (2, 2) :: (4, 4) :: loop.2.2
      if loop.1 then ⟨0, { iterator with arg := loop.2.1 + 4 }, reads⟩
      else ⟨-einval, { iterator with arg := loop.2.1 }, reads⟩
    else ⟨0, iterator, [(2, 2), (4, 4)]⟩

end Init

/-! ## What a header says -/

section Header

variable (m : ℕ → UInt8) (j : ℕ)

/-- The length of the header. -/
def itLen : ℕ := ByteOrder.little.load 2 m 2

/-- A present word; `it_present` is the first one. -/
def presentWord : ℕ := ByteOrder.little.load 4 m (4 + 4 * j)

/-- The chain of present words ends with word `j`. -/
structure LastWord : Prop where
  last : (presentWord m j).testBit 31 = false
  before : ∀ i < j, (presentWord m i).testBit 31 = true

/-- It ends inside the header. -/
def EndsInside : Prop := ∃ j, LastWord m j ∧ 8 + 4 * j ≤ itLen m

variable {m j}

theorem LastWord.le {i : ℕ} (h : LastWord m i)
    (hbits : ∀ k < j, (presentWord m k).testBit 31 = true) : j ≤ i := by
  by_contra! hij
  have hbit := hbits i hij
  rw [h.last] at hbit
  exact Bool.false_ne_true hbit

theorem LastWord.unique {i : ℕ} (h : LastWord m i) (h' : LastWord m j) : i = j :=
  le_antisymm (h'.le h.before) (h.le h'.before)

/-- There is a single present word. -/
theorem LastWord.eq_zero (h : LastWord m j) (hlast : (presentWord m 0).testBit 31 = false) :
    j = 0 :=
  h.unique ⟨hlast, fun i hi ↦ absurd hi (Nat.not_lt_zero i)⟩

/-- An iterator at the payload behind word `j`. -/
def Ieee80211RadiotapIterator.start (it : Ieee80211RadiotapIterator) (m : ℕ → UInt8) (j : ℕ) :
    Ieee80211RadiotapIterator :=
  { it with
    maxLength := itLen m
    argIndex := 0
    bitmapShifter := presentWord m 0
    arg := 8 + 4 * j
    thisArg := none }

end Header

theorem hasExt_eq (w : ℕ) : hasExt w = w.testBit 31 := by
  rw [hasExt, ieee80211RadiotapExt, Nat.and_shiftLeft, Nat.testBit, Nat.and_comm 1]
  rcases Nat.mod_two_eq_zero_or_one (w >>> 31) with h | h <;>
    simp [Nat.and_one_is_mod, h]

/-! ## The loop over the extension words -/

section Init

variable {o : ByteOrder} {m : ℕ → UInt8} {maxLength : ℕ} {k : ℕ}

theorem hasExt_load :
    hasExt (le32ToCpu o (o.load 4 m (4 + 4 * k))) = (presentWord m k).testBit 31 := by
  rw [le32ToCpu_load, hasExt_eq, presentWord]

theorem extLoop_of_last (hbit : (presentWord m k).testBit 31 = false) :
    extLoop o m maxLength (4 + 4 * k) = (true, 4 + 4 * k, [(4 + 4 * k, 4)]) := by
  rw [extLoop, hasExt_load, hbit]
  rfl

theorem extLoop_of_overrun (hbit : (presentWord m k).testBit 31 = true)
    (hend : maxLength < 8 + 4 * k) :
    extLoop o m maxLength (4 + 4 * k) = (false, 8 + 4 * k, [(4 + 4 * k, 4)]) := by
  have hnext : 4 + 4 * k + 4 = 8 + 4 * k := by omega
  rw [extLoop, hasExt_load, if_pos hbit, hnext, if_pos hend]

theorem extLoop_of_next (hbit : (presentWord m k).testBit 31 = true)
    (hend : 8 + 4 * k ≤ maxLength) :
    extLoop o m maxLength (4 + 4 * k) =
      ((extLoop o m maxLength (4 + 4 * (k + 1))).1, (extLoop o m maxLength (4 + 4 * (k + 1))).2.1,
        (4 + 4 * k, 4) :: (extLoop o m maxLength (4 + 4 * (k + 1))).2.2) := by
  have hnext : 4 + 4 * k + 4 = 4 + 4 * (k + 1) := by omega
  rw [extLoop, hasExt_load, if_pos hbit, hnext, if_neg (by omega)]

/-- The reads of the words from `k` to `j`. -/
def wordReads (k j : ℕ) : List (ℕ × ℕ) := (List.range' k (j + 1 - k)).map fun i ↦ (4 + 4 * i, 4)

theorem wordReads_self : wordReads k k = [(4 + 4 * k, 4)] := by
  rw [wordReads, Nat.add_sub_cancel_left]
  rfl

theorem wordReads_cons {j : ℕ} (h : k ≤ j) :
    wordReads k (j + 1) = (4 + 4 * k, 4) :: wordReads (k + 1) (j + 1) := by
  have hcount : j + 1 + 1 - k = j + 1 + 1 - (k + 1) + 1 := by omega
  rw [wordReads, hcount, List.range'_succ]
  rfl

theorem mem_wordReads {j : ℕ} (h : k ≤ j) : (4 + 4 * j, 4) ∈ wordReads k j :=
  List.mem_map_of_mem (List.mem_range'_1.mpr ⟨h, by omega⟩)

theorem le_of_mem_wordReads {j : ℕ} {x : ℕ × ℕ} (h : x ∈ wordReads k j) :
    x.1 + x.2 ≤ 8 + 4 * j := by
  obtain ⟨i, hi, rfl⟩ := List.mem_map.mp h
  obtain ⟨hki, hlt⟩ := List.mem_range'_1.mp hi
  dsimp only
  omega

/-- The loop ends at a word `j`: at the first one without the bit, or at one that is followed by
another and ends behind the header. -/
theorem extLoop_spec (o : ByteOrder) (m : ℕ → UInt8) (maxLength k : ℕ) :
    ∃ j, k ≤ j ∧ (∀ i, k ≤ i → i < j → (presentWord m i).testBit 31 = true) ∧
      (((presentWord m j).testBit 31 = false ∧
          extLoop o m maxLength (4 + 4 * k) = (true, 4 + 4 * j, wordReads k j)) ∨
        ((presentWord m j).testBit 31 = true ∧ maxLength < 8 + 4 * j ∧
          extLoop o m maxLength (4 + 4 * k) = (false, 8 + 4 * j, wordReads k j))) := by
  induction hd : maxLength - k using Nat.strong_induction_on generalizing k with
  | _ d ih =>
    cases hbit : (presentWord m k).testBit 31 with
    | false =>
      refine ⟨k, le_rfl, fun i hi hik ↦ absurd hik hi.not_gt, .inl ⟨hbit, ?_⟩⟩
      rw [extLoop_of_last hbit, wordReads_self]
    | true =>
      rcases lt_or_ge maxLength (8 + 4 * k) with hend | hend
      · refine ⟨k, le_rfl, fun i hi hik ↦ absurd hik hi.not_gt, .inr ⟨hbit, hend, ?_⟩⟩
        rw [extLoop_of_overrun hbit hend, wordReads_self]
      · obtain ⟨j, hkj, hbits, hloop⟩ := ih (maxLength - (k + 1)) (by omega) (k + 1) rfl
        obtain ⟨j, rfl⟩ := Nat.exists_eq_add_one.mpr (Nat.lt_of_lt_of_le k.succ_pos hkj)
        refine ⟨j + 1, by omega, fun i hi hij ↦ ?_, ?_⟩
        · rcases hi.eq_or_lt with rfl | hlt
          · exact hbit
          · exact hbits i hlt hij
        · rw [extLoop_of_next hbit hend, wordReads_cons (Nat.le_of_succ_le_succ hkj)]
          rcases hloop with ⟨hlast, heq⟩ | ⟨hext, hover, heq⟩
          · exact .inl ⟨hlast, by rw [heq]⟩
          · exact .inr ⟨hext, hover, by rw [heq]⟩

/-! ## What `ieee80211_radiotap_iterator_init` does -/

variable {it : Ieee80211RadiotapIterator} {maxLength : ℤ}

theorem init_of_version (h : m 0 ≠ 0) :
    ieee80211RadiotapIteratorInit o m it maxLength = ⟨-einval, it, []⟩ := by
  rw [ieee80211RadiotapIteratorInit, if_pos h]

theorem init_of_length (h : m 0 = 0) (hlen : maxLength < itLen m) :
    ieee80211RadiotapIteratorInit o m it maxLength = ⟨-einval, it, []⟩ := by
  rw [ieee80211RadiotapIteratorInit, if_neg (not_not.mpr h), le16ToCpu_load]
  exact if_pos hlen

/-- A header whose length is allowed: the words up to some word `j` are read, and either the chain
ends there, or it goes on and the header has ended. -/
theorem init_spec (o : ByteOrder) (it : Ieee80211RadiotapIterator) (h : m 0 = 0)
    (hlen : itLen m ≤ maxLength) :
    ∃ j, (ieee80211RadiotapIteratorInit o m it maxLength).reads = (2, 2) :: wordReads 0 j ∧
      ((LastWord m j ∧ (ieee80211RadiotapIteratorInit o m it maxLength).ret = 0 ∧
          (ieee80211RadiotapIteratorInit o m it maxLength).iterator = it.start m j) ∨
        ((∀ i ≤ j, (presentWord m i).testBit 31 = true) ∧ itLen m < 8 + 4 * j ∧
          (ieee80211RadiotapIteratorInit o m it maxLength).ret = -einval)) := by
  have hword : le32ToCpu o (o.load 4 m 4) = presentWord m 0 := le32ToCpu_load m 4
  simp only [ieee80211RadiotapIteratorInit, if_neg (not_not.mpr h), le16ToCpu_load, hword,
    hasExt_eq]
  rw [← itLen, if_neg hlen.not_gt]
  cases hbit : (presentWord m 0).testBit 31 with
  | false =>
    exact ⟨0, rfl, .inl ⟨⟨hbit, fun i hi ↦ absurd hi i.not_lt_zero⟩, rfl, rfl⟩⟩
  | true =>
    obtain ⟨j, hj, hbits, hloop⟩ := extLoop_spec o m (itLen m) 1
    obtain ⟨j, rfl⟩ := Nat.exists_eq_add_one.mpr hj
    have hbefore : ∀ i < j + 1, (presentWord m i).testBit 31 = true := by
      intro i hi
      rcases i.eq_zero_or_pos with rfl | hpos
      · exact hbit
      · exact hbits i hpos hi
    refine ⟨j + 1, ?_⟩
    rw [if_pos rfl, wordReads_cons j.zero_le]
    rcases hloop with ⟨hlast, heq⟩ | ⟨hext, hover, heq⟩
    · have harg : 4 + 4 * (j + 1) + 4 = 8 + 4 * (j + 1) := by omega
      rw [heq, if_pos rfl, harg]
      exact ⟨rfl, .inl ⟨⟨hlast, hbefore⟩, rfl, rfl⟩⟩
    · rw [heq, if_neg Bool.false_ne_true]
      refine ⟨rfl, .inr ⟨fun i hi ↦ ?_, hover, rfl⟩⟩
      rcases hi.eq_or_lt with rfl | hlt
      · exact hext
      · exact hbefore i hlt

theorem init_accepted (h : (ieee80211RadiotapIteratorInit o m it maxLength).ret = 0) :
    ∃ j, LastWord m j ∧ (ieee80211RadiotapIteratorInit o m it maxLength).iterator =
      it.start m j := by
  have hrefused : -einval ≠ 0 := by decide
  by_cases hver : m 0 = 0
  · rcases lt_or_ge maxLength (itLen m) with hlen | hlen
    · rw [init_of_length hver hlen] at h
      exact absurd h hrefused
    · obtain ⟨j, -, ⟨hlast, -, hit⟩ | ⟨-, -, hret⟩⟩ := init_spec o it hver hlen
      · exact ⟨j, hlast, hit⟩
      · exact absurd (hret.symm.trans h) hrefused
  · rw [init_of_version hver] at h
    exact absurd h hrefused

/-! ## Which headers it handles as it should -/

/-- Nothing is read behind the header, a chain that does not end inside it is refused, and the
payload starts behind the last present word and not behind the header. -/
structure InitResult.Sound (r : InitResult) (m : ℕ → UInt8) : Prop where
  within : ∀ x ∈ r.reads, x.1 + x.2 ≤ itLen m
  rejects : ¬ EndsInside m → r.ret = -einval
  payload : r.ret = 0 → ∃ j, LastWord m j ∧ r.iterator.arg = 8 + 4 * j ∧ 8 + 4 * j ≤ itLen m

theorem InitResult.sound_of_refused : (⟨-einval, it, []⟩ : InitResult).Sound m where
  within x hx := absurd hx List.not_mem_nil
  rejects _ := rfl
  payload h := absurd (show -einval = 0 from h) (by decide)

theorem sound_of_endsInside (o : ByteOrder) (it : Ieee80211RadiotapIterator) (h : m 0 = 0)
    (hlen : itLen m ≤ maxLength) (hends : EndsInside m) :
    (ieee80211RadiotapIteratorInit o m it maxLength).Sound m := by
  obtain ⟨i, hi, hin⟩ := hends
  obtain ⟨j, hreads, ⟨hlast, hret, hit⟩ | ⟨hbits, hover, -⟩⟩ := init_spec o it h hlen
  · obtain rfl := hi.unique hlast
    refine ⟨fun x hx ↦ ?_, fun hnot ↦ absurd ⟨i, hi, hin⟩ hnot, fun _ ↦ ⟨i, hi, ?_, hin⟩⟩
    · rw [hreads] at hx
      rcases List.mem_cons.mp hx with rfl | hx
      · dsimp only
        omega
      · exact (le_of_mem_wordReads hx).trans hin
    · rw [hit]
      rfl
  · have hle : j + 1 ≤ i := hi.le fun k hk ↦ hbits k (Nat.le_of_lt_succ hk)
    omega

/-- The last word that is read is not inside the header if the chain does not end there. -/
theorem endsInside_of_within (o : ByteOrder) (it : Ieee80211RadiotapIterator) (h : m 0 = 0)
    (hlen : itLen m ≤ maxLength)
    (hwithin : ∀ x ∈ (ieee80211RadiotapIteratorInit o m it maxLength).reads, x.1 + x.2 ≤ itLen m) :
    EndsInside m := by
  obtain ⟨j, hreads, hcases⟩ := init_spec o it h hlen
  have hj : 4 + 4 * j + 4 ≤ itLen m := by
    refine hwithin (4 + 4 * j, 4) ?_
    rw [hreads]
    exact List.mem_cons_of_mem _ (mem_wordReads j.zero_le)
  rcases hcases with ⟨hlast, -⟩ | ⟨-, hover, -⟩
  · exact ⟨j, hlast, by omega⟩
  · omega

/-- **Acceptance.** `ieee80211_radiotap_iterator_init` does what it should on exactly the headers
that it refuses at once and those whose chain of present words ends inside the header. -/
theorem init_sound_iff (o : ByteOrder) (m : ℕ → UInt8) (it : Ieee80211RadiotapIterator)
    (maxLength : ℤ) :
    (ieee80211RadiotapIteratorInit o m it maxLength).Sound m ↔
      m 0 ≠ 0 ∨ maxLength < itLen m ∨ EndsInside m := by
  by_cases hver : m 0 = 0
  · rcases lt_or_ge maxLength (itLen m) with hlen | hlen
    · rw [init_of_length hver hlen]
      exact iff_of_true InitResult.sound_of_refused (.inr (.inl hlen))
    · constructor
      · intro hsound
        exact .inr (.inr (endsInside_of_within o it hver hlen hsound.within))
      · rintro (hne | hlt | hends)
        · exact absurd hver hne
        · exact absurd hlen hlt.not_ge
        · exact sound_of_endsInside o it hver hlen hends
  · rw [init_of_version hver]
    exact iff_of_true InitResult.sound_of_refused (.inl hver)

/-- An iterator before it is initialized. -/
def unsetIterator : Ieee80211RadiotapIterator := ⟨0, 0, none, 0, 0, none, 0⟩

/-- A header of eight bytes that says that another present word follows. -/
def endlessHeader : ℕ → UInt8 := fun a ↦ [0, 0, 8, 0, 0, 0, 0, 0x80].getD a 0

theorem exists_read_behind_header :
    ¬ ∀ (o : ByteOrder) (m : ℕ → UInt8) (it : Ieee80211RadiotapIterator) (maxLength : ℤ),
      8 ≤ maxLength → (ieee80211RadiotapIteratorInit o m it maxLength).Sound m := by
  intro hall
  have hsound := hall .little endlessHeader unsetIterator 8 le_rfl
  obtain ⟨j, hlast, hin⟩ := endsInside_of_within _ _ rfl (by decide) hsound.within
  have hlen : itLen endlessHeader = 8 := by decide
  have hj : 1 ≤ j := hlast.le fun i hi ↦ by
    obtain rfl := Nat.lt_one_iff.mp hi
    decide
  omega

end Init

end UcsmaRateControl
