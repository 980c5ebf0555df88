import Mathlib.Algebra.Order.Ring.Nat
import Mathlib.Tactic.Ring

/-!
# Words in memory

Memory is a function from addresses to bytes. A processor reads a word of `n` bytes in the order
that it keeps them in, and `load_byte` says that it reads what it has written. What a word becomes
when only its first bytes are written depends on that order; `load_last` singles out the byte that
is written last.
-/

/-- The order in which a processor keeps the bytes of a word. -/
inductive ByteOrder
  | little
  | big

/-- Memory whose first `k` bytes have been written. -/
def overwrite (k : ℕ) (src dst : ℕ → UInt8) : ℕ → UInt8 := fun i ↦ if i < k then src i else dst i

namespace ByteOrder

variable (o : ByteOrder)

/-- The word of `n` bytes at an address. -/
def load : ℕ → (ℕ → UInt8) → ℕ → ℕ
  | 0, _, _ => 0
  | n + 1, m, a =>
    match o with
    | little => (m a).toNat + 256 * load n m (a + 1)
    | big => (m a).toNat * 256 ^ n + load n m (a + 1)

/-- The byte at offset `i` of a word of `n` bytes. -/
def byte (n x i : ℕ) : UInt8 :=
  match o with
  | little => UInt8.ofNat (x / 256 ^ i)
  | big => UInt8.ofNat (x / 256 ^ (n - 1 - i))

variable {o} {n k x a : ℕ} {m m' : ℕ → UInt8}

theorem load_congr (h : ∀ i < n, m (a + i) = m' (a + i)) : o.load n m a = o.load n m' a := by
  induction n generalizing a with
  | zero => rfl
  | succ n ih =>
    have hrest : o.load n m (a + 1) = o.load n m' (a + 1) := by
      refine ih fun i hi ↦ ?_
      rw [Nat.add_right_comm]
      exact h (i + 1) (Nat.succ_lt_succ hi)
    cases o <;> rw [load, load, hrest, show m a = m' a from h 0 n.succ_pos]

/-- The byte with the highest address. -/
theorem load_last : o.load (n + 1) m a =
    match o with
    | little => o.load n m a + 256 ^ n * (m (a + n)).toNat
    | big => 256 * o.load n m a + (m (a + n)).toNat := by
  induction n generalizing a with
  | zero =>
    cases o <;> simp [load]
  | succ n ih =>
    have hsucc : m (a + 1 + n) = m (a + (n + 1)) := congrArg m (by omega)
    cases o with
    | little =>
      rw [load, ih, hsucc, load]
      ring
    | big =>
      rw [load, ih, hsucc, load]
      ring

theorem load_little_byte : load little n (byte little k x) a = x / 256 ^ a % 256 ^ n := by
  induction n generalizing a with
  | zero => exact (Nat.mod_one _).symm
  | succ n ih =>
    have hsplit : x / 256 ^ a % 256 ^ (n + 1) =
        x / 256 ^ a % 256 + 256 * (x / 256 ^ a / 256 % 256 ^ n) := by
      rw [pow_succ', Nat.mod_mul]
    rw [load, ih, byte, UInt8.toNat_ofNat', pow_succ 256 a, ← Nat.div_div_eq_div_mul, hsplit]

theorem load_big_byte (h : a + n = k) : load big n (byte big k x) a = x % 256 ^ n := by
  induction n generalizing a with
  | zero => exact (Nat.mod_one _).symm
  | succ n ih =>
    have hplace : k - 1 - a = n := by omega
    have hsplit : x % 256 ^ (n + 1) = x % 256 ^ n + 256 ^ n * (x / 256 ^ n % 256) := by
      rw [pow_succ, Nat.mod_mul]
    rw [load, ih (by omega), byte, hplace, UInt8.toNat_ofNat', hsplit, add_comm, mul_comm]

/-- **What has been written is read.** -/
theorem load_byte (h : x < 256 ^ n) : o.load n (o.byte n x) 0 = x := by
  cases o with
  | little => rw [load_little_byte, pow_zero, Nat.div_one, Nat.mod_eq_of_lt h]
  | big => rw [load_big_byte (Nat.zero_add n), Nat.mod_eq_of_lt h]

theorem load_overwrite (h : n ≤ k) : o.load n (overwrite k m m') 0 = o.load n m 0 :=
  load_congr fun i hi ↦ if_pos (by omega)

/-- What the byte with the highest address counts. -/
def lastWeight (o : ByteOrder) (n : ℕ) : ℕ :=
  match o with
  | little => 256 ^ n
  | big => 1

/-- The byte with the highest address is not written if not all of them are. -/
theorem load_overwrite_update {b : UInt8} (h : k ≤ n) :
    o.load (n + 1) (overwrite k m (Function.update m' n b)) 0 =
      o.load (n + 1) (overwrite k m (Function.update m' n 0)) 0 + o.lastWeight n * b.toNat := by
  have hrest : o.load n (overwrite k m (Function.update m' n b)) 0 =
      o.load n (overwrite k m (Function.update m' n 0)) 0 := by
    refine load_congr fun i hi ↦ ?_
    rw [Nat.zero_add, overwrite, overwrite, Function.update_of_ne hi.ne,
      Function.update_of_ne hi.ne]
  have hlast : ∀ c, overwrite k m (Function.update m' n c) (0 + n) = c := by
    intro c
    rw [Nat.zero_add, overwrite, if_neg h.not_gt, Function.update_self]
  rw [load_last, load_last, hrest, hlast, hlast]
  cases o with
  | little => rfl
  | big =>
    dsimp only [lastWeight]
    rw [Nat.one_mul]
    rfl

end ByteOrder

/-- A mask that has been shifted. -/
theorem Nat.and_shiftLeft (x mask k : ℕ) : x &&& mask <<< k = (x >>> k &&& mask) <<< k := by
  refine Nat.eq_of_testBit_eq fun i ↦ ?_
  simp only [Nat.testBit_and, Nat.testBit_shiftLeft, Nat.testBit_shiftRight]
  by_cases h : k ≤ i <;> simp [h]
