import Mathlib.Algebra.BigOperators.Ring.Finset
import Mathlib.Algebra.Order.BigOperators.Group.List
import Mathlib.Algebra.Order.Ring.Nat
import UcsmaRateControl.Machine.Run

/-!
# Threads that take references

A thread here runs a program over a shared state. A program is a tree: it returns, or it does one
operation and goes on with the state that the operation leaves. Any number of threads take turns,
one operation at a time, and an environment changes the state between them. An operation that has to
wait is one that cannot be done yet.

## Accounts

A counter in the shared state says how many references the threads hold together. A ledger says what
an operation does to the references that its own thread holds, and forbids some operations: those
that give back what is not held, or that take too many. `Prog.Takes` says that a program keeps to
the ledger on every one of its paths, and `Prog.Balanced` that it gives back what it takes. This is
checked over the text of the program, one construct at a time, and without looking at any other
thread. The rule `Scheme.Accounts.balanced_of_run` puts these checks together: the counter is the
sum of what the threads hold, at every moment of every run.
-/

/-- A program over the operations `ω` and the states `σ`. -/
inductive Prog (ω σ α : Type) : Type
  | ret (a : α)
  /-- Do an operation, and go on with the state it leaves. -/
  | op (o : ω) (next : σ → Prog ω σ α)

namespace Prog

variable {ω σ α β : Type}

/-- One program after the other. -/
def bind : Prog ω σ α → (α → Prog ω σ β) → Prog ω σ β
  | ret a, f => f a
  | op o next, f => op o fun s ↦ (next s).bind f

instance : Monad (Prog ω σ) where
  pure := ret
  bind := bind

/-- One operation, which returns the state it leaves. -/
def look (o : ω) : Prog ω σ σ := op o ret

/-- One operation. -/
def act (o : ω) : Prog ω σ Unit := op o fun _ ↦ ret ()

/-- A program that runs on a condition. -/
def when (b : Bool) (p : Prog ω σ Unit) : Prog ω σ Unit := if b then p else ret ()

/-- A program whose result is not used. -/
def void (p : Prog ω σ α) : Prog ω σ Unit := p >>= fun _ ↦ ret ()

/-- The program has returned. -/
def done : Prog ω σ α → Bool
  | ret _ => true
  | op _ _ => false

/-! ## Keeping to a ledger -/

/-- Started with `i` references, the program keeps to the ledger `L` on every path, and returns with
`j`. -/
def Takes (L : ω → ℕ → Option ℕ) (j : ℕ) : Prog ω σ α → ℕ → Prop
  | ret _, i => i = j
  | op o next, i => ∃ m, L o i = some m ∧ ∀ s, (next s).Takes L j m

variable {L : ω → ℕ → Option ℕ} {i j k : ℕ} {p : Prog ω σ α}

theorem takes_pure (a : α) : (pure a : Prog ω σ α).Takes L i i := rfl

theorem takes_look {o : ω} (h : L o i = some j) : (look o : Prog ω σ σ).Takes L j i :=
  ⟨j, h, fun _ ↦ rfl⟩

theorem takes_act {o : ω} (h : L o i = some j) : (act o : Prog ω σ Unit).Takes L j i :=
  ⟨j, h, fun _ ↦ rfl⟩

/-- **The rule of sequence.** -/
theorem Takes.bind {f : α → Prog ω σ β} (hp : p.Takes L j i) (hf : ∀ a, (f a).Takes L k j) :
    (p >>= f).Takes L k i := by
  induction p generalizing i with
  | ret a =>
    obtain rfl : i = j := hp
    exact hf a
  | op o next ih =>
    obtain ⟨m, hm, hnext⟩ := hp
    exact ⟨m, hm, fun s ↦ ih s (hnext s)⟩

theorem takes_ite {c : Prop} [Decidable c] {q : Prog ω σ α} (hp : c → p.Takes L j i)
    (hq : ¬c → q.Takes L j i) : (if c then p else q).Takes L j i := by
  split
  · exact hp ‹_›
  · exact hq ‹_›

theorem takes_when {b : Bool} {p : Prog ω σ Unit} (hp : p.Takes L i i) :
    (when b p).Takes L i i :=
  takes_ite (fun _ ↦ hp) fun _ ↦ rfl

theorem Takes.void (hp : p.Takes L j i) : p.void.Takes L j i := hp.bind fun _ ↦ rfl

/-- The rule of loops over a list: the number of references is the invariant. -/
theorem takes_foldlM {γ : Type*} {f : α → γ → Prog ω σ α} (hf : ∀ a c, (f a c).Takes L i i)
    (a : α) (l : List γ) : (l.foldlM f a).Takes L i i := by
  induction l generalizing a with
  | nil => exact takes_pure a
  | cons c l ih =>
    rw [List.foldlM_cons]
    exact (hf a c).bind ih

/-! ## Programs that give back what they take -/

/-- Called with `i` references and with room for `d` more, the program gives back what it takes, on
each of its paths. -/
def Balanced (L : ω → ℕ → Option ℕ) (room d : ℕ) (p : Prog ω σ α) : Prop :=
  ∀ i, i + d ≤ room → p.Takes L i i

/-- A program that is called with one reference more, and gives it back. -/
def Releases (L : ω → ℕ → Option ℕ) (room d : ℕ) (p : Prog ω σ α) : Prop :=
  ∀ i, i + (d + 1) ≤ room → p.Takes L i (i + 1)

variable {room d e : ℕ} {q : Prog ω σ α} {o : ω} {c : Prop} [Decidable c]

theorem Balanced.mono (h : p.Balanced L room d) (hle : d ≤ e) : p.Balanced L room e :=
  fun i hi ↦ h i (le_trans (Nat.add_le_add_left hle i) hi)

theorem balanced_pure (a : α) : (pure a : Prog ω σ α).Balanced L room d := fun _ _ ↦ takes_pure a

/-- An operation that the ledger does not mind. -/
theorem balanced_act (h : ∀ i, L o i = some i) : (act o : Prog ω σ Unit).Balanced L room d :=
  fun i _ ↦ takes_act (h i)

theorem balanced_look (h : ∀ i, L o i = some i) : (look o : Prog ω σ σ).Balanced L room d :=
  fun i _ ↦ takes_look (h i)

theorem Balanced.bind {f : α → Prog ω σ β} (hp : p.Balanced L room d)
    (hf : ∀ a, (f a).Balanced L room d) : (p >>= f).Balanced L room d :=
  fun i hi ↦ (hp i hi).bind fun a ↦ hf a i hi

theorem Balanced.void (hp : p.Balanced L room d) : p.void.Balanced L room d :=
  fun i hi ↦ (hp i hi).void

theorem balanced_ite (hp : p.Balanced L room d) (hq : q.Balanced L room d) :
    (if c then p else q).Balanced L room d :=
  fun i hi ↦ takes_ite (fun _ ↦ hp i hi) fun _ ↦ hq i hi

theorem balanced_when {b : Bool} {p : Prog ω σ Unit} (hp : p.Balanced L room d) :
    (when b p).Balanced L room d := fun i hi ↦ takes_when (hp i hi)

theorem balanced_foldlM {γ : Type*} {f : α → γ → Prog ω σ α}
    (hf : ∀ a c, (f a c).Balanced L room d) (a : α) (l : List γ) :
    (l.foldlM f a).Balanced L room d :=
  fun i hi ↦ takes_foldlM (fun a c ↦ hf a c i hi) a l

/-- **Taking a reference**, which the rest of the program gives back. -/
theorem balanced_take {f : Unit → Prog ω σ α} (ho : ∀ i < room, L o i = some (i + 1))
    (hf : ∀ a, (f a).Releases L room d) : (act o >>= f).Balanced L room (d + 1) := by
  intro i hi
  have hlt : i < room := (Nat.lt_add_of_pos_right d.succ_pos).trans_le hi
  exact (takes_act (ho i hlt)).bind fun a ↦ hf a i hi

/-- **Giving it back.** -/
theorem releases_give {f : Unit → Prog ω σ α} (ho : ∀ i, L o (i + 1) = some i)
    (hf : ∀ a, (f a).Balanced L room (d + 1)) : (act o >>= f).Releases L room d :=
  fun i hi ↦ (takes_act (ho i)).bind fun a ↦ hf a i hi

theorem Releases.bind {f : α → Prog ω σ β} (hp : p.Balanced L room d)
    (hf : ∀ a, (f a).Releases L room d) : (p >>= f).Releases L room d :=
  fun i hi ↦ (hp (i + 1) (by omega)).bind fun a ↦ hf a i hi

theorem releases_ite (hp : p.Releases L room d) (hq : q.Releases L room d) :
    (if c then p else q).Releases L room d :=
  fun i hi ↦ takes_ite (fun _ ↦ hp i hi) fun _ ↦ hq i hi

end Prog

/-! ## Threads over a shared state -/

/-- What the threads are about. -/
structure Scheme (ω σ κ ε : Type) where
  /-- What an operation does, if it does not have to wait. -/
  exec : ω → σ → Option σ
  /-- What the environment does. -/
  env : ε → σ → Option σ
  /-- The program of a call. -/
  prog : κ → Prog ω σ Unit
  /-- The counter. -/
  count : σ → ℕ
  /-- How many threads there can be. -/
  limit : ℕ

/-- A thread: what it still has to do, and by how much its own operations have changed the
counter. -/
structure Thread (ω σ : Type) where
  prog : Prog ω σ Unit
  change : ℤ

/-- A shared state and the threads that run over it. -/
structure Threaded (ω σ : Type) where
  shared : σ
  threads : List (Thread ω σ)

/-- What can happen. -/
inductive ThreadEvent (κ ε : Type)
  /-- A thread starts a call. -/
  | start (c : κ)
  /-- A thread does its next operation. -/
  | step (k : ℕ)
  /-- A thread that has returned goes away. -/
  | exit (k : ℕ)
  | env (e : ε)

namespace Scheme

variable {ω σ κ ε : Type} (S : Scheme ω σ κ ε)

/-- The next operation of a thread. -/
def stepThread (s : σ) (t : Thread ω σ) : Option (σ × Thread ω σ) :=
  match t.prog with
  | .ret _ => none
  | .op o next =>
    (S.exec o s).map fun s' ↦ (s', ⟨next s', t.change + ((S.count s' : ℤ) - S.count s)⟩)

/-- The machine of the threads. -/
def machine : Machine (Threaded ω σ) (ThreadEvent κ ε) where
  step r
    | .start c =>
      if r.threads.length < S.limit then some ⟨r.shared, r.threads ++ [⟨S.prog c, 0⟩]⟩ else none
    | .step k =>
      r.threads[k]?.bind fun t ↦
        (S.stepThread r.shared t).map fun p ↦ ⟨p.1, r.threads.set k p.2⟩
    | .exit k =>
      r.threads[k]?.bind fun t ↦
        if t.prog.done = true then some ⟨r.shared, r.threads.eraseIdx k⟩ else none
    | .env e => (S.env e r.shared).map fun s ↦ ⟨s, r.threads⟩

/-- What a step can be. -/
inductive Took : Threaded ω σ → Threaded ω σ → Prop
  | start {s : σ} {ts : List (Thread ω σ)} (c : κ) (room : ts.length < S.limit) :
      Took ⟨s, ts⟩ ⟨s, ts ++ [⟨S.prog c, 0⟩]⟩
  | step {s s' : σ} {o : ω} {next : σ → Prog ω σ Unit} (before after : List (Thread ω σ)) (d : ℤ)
      (exec : S.exec o s = some s') :
      Took ⟨s, before ++ ⟨.op o next, d⟩ :: after⟩
        ⟨s', before ++ ⟨next s', d + ((S.count s' : ℤ) - S.count s)⟩ :: after⟩
  | exit {s : σ} (before after : List (Thread ω σ)) (d : ℤ) :
      Took ⟨s, before ++ ⟨.ret (), d⟩ :: after⟩ ⟨s, before ++ after⟩
  | env {s s' : σ} {ts : List (Thread ω σ)} (e : ε) (env : S.env e s = some s') :
      Took ⟨s, ts⟩ ⟨s', ts⟩

/-- The element at an index, between those before it and those after it. -/
theorem exists_split {α : Type*} {l : List α} {k : ℕ} {a : α} (h : l[k]? = some a) :
    ∃ before after, l = before ++ a :: after ∧ (∀ b, l.set k b = before ++ b :: after) ∧
      l.eraseIdx k = before ++ after := by
  obtain ⟨hk, rfl⟩ := List.getElem?_eq_some_iff.mp h
  refine ⟨l.take k, l.drop (k + 1), ?_, fun b ↦ List.set_eq_take_append_cons_drop.trans (if_pos hk),
    List.eraseIdx_eq_take_drop_succ l k⟩
  rw [List.cons_getElem_drop_succ, List.take_append_drop]

variable {S}

theorem Took.of_step {r r' : Threaded ω σ} {e : ThreadEvent κ ε}
    (h : S.machine.step r e = some r') : S.Took r r' := by
  obtain ⟨s, ts⟩ := r
  cases e with
  | start c =>
    obtain ⟨room, ⟨⟩⟩ := Option.ite_none_right_eq_some.mp h
    exact .start c room
  | step k =>
    obtain ⟨⟨prog, d⟩, ht, h⟩ := Option.bind_eq_some_iff.mp h
    obtain ⟨⟨s', t'⟩, hstep, rfl⟩ := Option.map_eq_some_iff.mp h
    obtain ⟨before, after, rfl, hset, -⟩ := exists_split ht
    cases prog with
    | ret => exact absurd hstep (Option.some_ne_none _).symm
    | op o next =>
      obtain ⟨u, hu, ⟨⟩⟩ := Option.map_eq_some_iff.mp hstep
      rw [hset]
      exact .step before after d hu
  | exit k =>
    obtain ⟨⟨prog, d⟩, ht, h⟩ := Option.bind_eq_some_iff.mp h
    obtain ⟨hdone, ⟨⟩⟩ := Option.ite_none_right_eq_some.mp h
    obtain ⟨before, after, rfl, -, herase⟩ := exists_split ht
    cases prog with
    | ret =>
      rw [herase]
      exact .exit before after d
    | op o next => exact absurd hdone Bool.false_ne_true
  | env e =>
    obtain ⟨s', hs', ⟨⟩⟩ := Option.map_eq_some_iff.mp h
    exact .env e hs'

/-! ## The accounts of all threads -/

/-- Accounts of a scheme: a ledger that every call keeps to, how many references one thread may hold
at most, and what is known of the shared state between two operations. -/
structure Accounts (S : Scheme ω σ κ ε) where
  ledger : ω → ℕ → Option ℕ
  cap : ℕ
  Sound : σ → Prop
  ledger_le {o i m} : i ≤ cap → ledger o i = some m → m ≤ cap
  prog (c : κ) : (S.prog c).Takes ledger 0 0
  /-- An operation moves the counter as the ledger says, if its thread's references are on the
  counter and there is room on it for those it takes. -/
  exec {o i m s t} : ledger o i = some m → Sound s → i ≤ S.count s →
    S.count s + m ≤ S.limit * cap + i → S.exec o s = some t →
    Sound t ∧ S.count t + i = S.count s + m
  env {e s t} : Sound s → S.env e s = some t → Sound t ∧ S.count t = S.count s

/-- How many references a thread holds. -/
def held (t : Thread ω σ) : ℕ := t.change.toNat

namespace Accounts

variable (A : S.Accounts)

/-- A thread keeps to the ledger from here on. -/
structure Keeps (t : Thread ω σ) : Prop where
  change : t.change = held t
  held_le : held t ≤ A.cap
  takes : t.prog.Takes A.ledger 0 (held t)

/-- The accounts are in order: the counter is the sum of what the threads hold. -/
structure Balanced (r : Threaded ω σ) : Prop where
  sound : A.Sound r.shared
  length_le : r.threads.length ≤ S.limit
  keeps : ∀ t ∈ r.threads, A.Keeps t
  count_eq : S.count r.shared = (r.threads.map held).sum

variable {A} {r r' : Threaded ω σ} {t : Thread ω σ}

/-- A thread that has done everything holds nothing, and has left the counter as it found it. -/
theorem Keeps.change_eq_zero (h : A.Keeps t) (hdone : t.prog.done = true) : t.change = 0 := by
  obtain ⟨prog, d⟩ := t
  cases prog with
  | op => exact absurd hdone Bool.false_ne_true
  | ret =>
    have hzero : held ⟨.ret (), d⟩ = 0 := h.takes
    rw [h.change, hzero]
    rfl

theorem Balanced.held_le_count (h : A.Balanced r) (ht : t ∈ r.threads) :
    held t ≤ S.count r.shared := by
  rw [h.count_eq]
  exact List.le_sum_of_mem (List.mem_map_of_mem ht)

/-- The counter is what the threads have added to it. -/
theorem Balanced.sum_change (h : A.Balanced r) :
    (r.threads.map Thread.change).sum = S.count r.shared := by
  have hmap : r.threads.map Thread.change = (r.threads.map held).map Nat.cast := by
    rw [List.map_map]
    exact List.map_congr_left fun t ht ↦ (h.keeps t ht).change
  rw [hmap, h.count_eq, Nat.cast_list_sum]

/-- A thread about to do an operation is allowed to. -/
theorem Balanced.exists_ledger (h : A.Balanced r) (ht : t ∈ r.threads) {o : ω}
    {next : σ → Prog ω σ Unit} (hprog : t.prog = .op o next) :
    ∃ m, A.ledger o (held t) = some m := by
  obtain ⟨m, hm, -⟩ : (Prog.op o next).Takes A.ledger 0 (held t) := hprog ▸ (h.keeps t ht).takes
  exact ⟨m, hm⟩

/-- What is on the counter apart from one thread is less than all threads together can hold. -/
theorem sum_held_le {ts : List (Thread ω σ)} (h : ∀ t ∈ ts, A.Keeps t) :
    (ts.map held).sum ≤ ts.length * A.cap := by
  have hle : ∀ n ∈ ts.map held, n ≤ A.cap := by
    intro n hn
    obtain ⟨t, ht, rfl⟩ := List.mem_map.mp hn
    exact (h t ht).held_le
  simpa using List.sum_le_card_nsmul _ _ hle

/-- The counter is what one thread holds and what the others hold, and these leave it room for as
many references as it may hold. -/
theorem Balanced.count_eq_others {s : σ} {before after : List (Thread ω σ)}
    (h : A.Balanced ⟨s, before ++ t :: after⟩) :
    S.count s = ((before ++ after).map held).sum + held t ∧
      ((before ++ after).map held).sum + A.cap ≤ S.limit * A.cap := by
  obtain ⟨-, length_le, keeps, count_eq⟩ := h
  obtain ⟨hbefore, hmid⟩ := List.forall_mem_append.mp keeps
  have hothers := List.forall_mem_append.mpr ⟨hbefore, (List.forall_mem_cons.mp hmid).2⟩
  constructor
  · rw [count_eq]
    simp only [List.map_append, List.map_cons, List.sum_append, List.sum_cons]
    omega
  · have hlen : (before ++ after).length + 1 ≤ S.limit := by simpa [Nat.add_assoc] using length_le
    calc ((before ++ after).map held).sum + A.cap
        ≤ (before ++ after).length * A.cap + A.cap := Nat.add_le_add_right (sum_held_le hothers) _
      _ = ((before ++ after).length + 1) * A.cap := (Nat.succ_mul _ _).symm
      _ ≤ S.limit * A.cap := Nat.mul_le_mul_right _ hlen

/-- **One step keeps the accounts in order.** -/
theorem Balanced.step (h : A.Balanced r) (hst : S.Took r r') : A.Balanced r' := by
  cases hst with
  | start c room =>
    refine ⟨h.sound, by simpa using Nat.succ_le_of_lt room, ?_, ?_⟩
    · refine List.forall_mem_append.mpr ⟨h.keeps, List.forall_mem_singleton.mpr ?_⟩
      exact ⟨rfl, Nat.zero_le _, A.prog c⟩
    · rw [List.map_append, List.sum_append]
      exact h.count_eq
  | @step s s' o next before after d exec =>
    obtain ⟨hsum, hroom⟩ := h.count_eq_others
    obtain ⟨hbefore, hmid⟩ := List.forall_mem_append.mp h.keeps
    obtain ⟨⟨hchange, hle, m, hm, hnext⟩, hafter⟩ := List.forall_mem_cons.mp hmid
    dsimp only at hchange
    have hcap : m ≤ A.cap := A.ledger_le hle hm
    obtain ⟨hsound, hcount⟩ := A.exec hm h.sound (by dsimp only; omega) (by dsimp only; omega) exec
    dsimp only at hcount
    have hheld : d + ((S.count s' : ℤ) - S.count s) = m := by omega
    have hheld' : held (⟨next s', d + ((S.count s' : ℤ) - S.count s)⟩ : Thread ω σ) = m := by
      rw [held, hheld]
      rfl
    refine ⟨hsound, by simpa using h.length_le, ?_, ?_⟩
    · refine List.forall_mem_append.mpr ⟨hbefore, List.forall_mem_cons.mpr ⟨?_, hafter⟩⟩
      exact ⟨by rw [hheld', ← hheld], hheld' ▸ hcap, hheld' ▸ hnext s'⟩
    · simp only [List.map_append, List.map_cons, List.sum_append, List.sum_cons, hheld'] at hsum ⊢
      omega
  | @exit s before after d =>
    obtain ⟨hsum, -⟩ := h.count_eq_others
    obtain ⟨hbefore, hmid⟩ := List.forall_mem_append.mp h.keeps
    obtain ⟨⟨-, -, hzero⟩, hafter⟩ := List.forall_mem_cons.mp hmid
    replace hzero : held (⟨.ret (), d⟩ : Thread ω σ) = 0 := hzero
    refine ⟨h.sound, ?_, List.forall_mem_append.mpr ⟨hbefore, hafter⟩, ?_⟩
    · have hlen := h.length_le
      simp only [List.length_append, List.length_cons] at hlen ⊢
      omega
    · rw [hzero] at hsum
      exact hsum
  | env e henv =>
    obtain ⟨hsound, hcount⟩ := A.env h.sound henv
    exact ⟨hsound, h.length_le, h.keeps, hcount.trans h.count_eq⟩

/-- **The accounts are in order in every state** that is reached without threads at the start and
nothing on the counter. -/
theorem balanced_of_run (A : S.Accounts) {s : σ} {es : List (ThreadEvent κ ε)} (hs : A.Sound s)
    (hzero : S.count s = 0) (h : S.machine.run ⟨s, []⟩ es = some r) : A.Balanced r := by
  refine Machine.invariant (fun _ _ _ hu huv ↦ hu.step (.of_step huv)) ?_ h
  exact ⟨hs, Nat.zero_le _, nofun, hzero⟩

end Accounts

end Scheme
