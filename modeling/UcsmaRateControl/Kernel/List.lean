import Mathlib.Data.List.Basic
import Mathlib.Data.List.Nodup
import Mathlib.Data.Nat.Basic
import Mathlib.Logic.Function.Basic

/-!
# Circular lists

A kernel list is a ring of `next` pointers through a head that is not an entry. The ring is a field
of the structure, so the traversal `list_for_each` is total: it follows pointers until it is back at
the head, and the ring says how many steps that takes.

Lists are built on the pointers themselves (`Links`). Adding an entry at the tail of a ring gives a
ring again, provided that the entry is not in it yet.
-/

/-- Following `next` from `p` visits exactly the entries of the list and then reaches `head`. -/
def Linked (next : ℕ → ℕ) (head : ℕ) : ℕ → List ℕ → Prop
  | p, [] => p = head
  | p, a :: l => p = a ∧ a ≠ head ∧ Linked next head (next a) l

/-- A well-formed circular list. -/
structure ListHead where
  /-- The `next` pointers of memory. -/
  next : ℕ → ℕ
  /-- The address of the head. -/
  head : ℕ
  /-- The addresses of the entries, in order. -/
  entries : List ℕ
  /-- The ring runs from the head through the entries and back. -/
  linked : Linked next head (next head) entries

/-- No entry is the head, so following `next` from an entry does not look at its pointer. -/
theorem Linked.update_head {next : ℕ → ℕ} {head p : ℕ} {l : List ℕ} (h : Linked next head p l)
    (v : ℕ) : Linked (Function.update next head v) head p l := by
  induction l generalizing p with
  | nil => exact h
  | cons a l ih =>
    obtain ⟨rfl, hne, hl⟩ := h
    refine ⟨rfl, hne, ?_⟩
    rw [Function.update_of_ne hne]
    exact ih hl

/-- `list_del` of the first entry. -/
def ListHead.delFirst (L : ListHead) {a : ℕ} {l : List ℕ} (h : L.entries = a :: l) : ListHead where
  next := Function.update L.next L.head (L.next a)
  head := L.head
  entries := l
  linked := by
    rw [Function.update_self]
    exact (h ▸ L.linked).2.2.update_head _

section Traversal

variable {α : Type*} (next : ℕ → ℕ) (head : ℕ) (f : α → ℕ → α)

/-- The loop of `list_for_each`, at most `fuel` turns of
`for (p = head->next; p != head; p = p->next)`, with the loop body `f` acting on an accumulator. -/
def listForEach : ℕ → ℕ → α → Option α
  | 0, _, _ => none
  | fuel + 1, p, acc => if p = head then some acc else listForEach fuel (next p) (f acc p)

variable {next head}

/-- The loop is over after one turn for each entry, and more fuel does not change its result. -/
theorem listForEach_of_linked_of_lt {p : ℕ} {l : List ℕ} (h : Linked next head p l) {fuel : ℕ}
    (hfuel : l.length < fuel) (acc : α) :
    listForEach next head f fuel p acc = some (l.foldl f acc) := by
  obtain ⟨fuel, rfl⟩ := Nat.exists_eq_add_one_of_ne_zero (Nat.ne_zero_of_lt hfuel)
  induction l generalizing p acc fuel with
  | nil =>
    have hp : p = head := h
    rw [listForEach, if_pos hp, List.foldl_nil]
  | cons a l ih =>
    obtain ⟨rfl, hne, hl⟩ := h
    have hfuel : l.length < fuel := Nat.lt_of_succ_lt_succ hfuel
    obtain ⟨fuel, rfl⟩ := Nat.exists_eq_add_one_of_ne_zero (Nat.ne_zero_of_lt hfuel)
    rw [listForEach, if_neg hne, ih hl _ fuel hfuel, List.foldl_cons]

theorem listForEach_of_linked {p : ℕ} {l : List ℕ} (h : Linked next head p l) (acc : α) :
    listForEach next head f (l.length + 1) p acc = some (l.foldl f acc) :=
  listForEach_of_linked_of_lt f h (Nat.lt_succ_self _) acc

end Traversal

namespace ListHead

/-- An empty ring. -/
def empty : ListHead := ⟨id, 0, [], rfl⟩

variable {α : Type*} (L : ListHead) (f : α → ℕ → α) (acc : α)

/-- `list_for_each` over a well-formed list. -/
def forEach : α :=
  (listForEach L.next L.head f (L.entries.length + 1) (L.next L.head) acc).get
    (by rw [listForEach_of_linked f L.linked acc]; rfl)

theorem forEach_eq : L.forEach f acc = L.entries.foldl f acc := by
  simp only [forEach, listForEach_of_linked f L.linked acc, Option.get_some]

end ListHead

/-! ## Building a list -/

/-- The pointers of all list nodes in memory. -/
structure Links where
  next : ℕ → ℕ
  prev : ℕ → ℕ

namespace Links

variable (m : Links) (head new : ℕ)

/-- `INIT_LIST_HEAD`. -/
def initListHead : Links :=
  ⟨Function.update m.next head head, Function.update m.prev head head⟩

/-- `list_add_tail`, with the four assignments of `__list_add`. -/
def listAddTail : Links :=
  let prev := m.prev head
  let m := { m with prev := Function.update m.prev head new }
  let m := { m with next := Function.update m.next new head }
  let m := { m with prev := Function.update m.prev new prev }
  { m with next := Function.update m.next prev new }

/-- A ring of distinct nodes, whose head knows the last of them. -/
structure Ring (l : List ℕ) : Prop where
  linked : Linked m.next head (m.next head) l
  last : m.prev head = (head :: l).getLast (List.cons_ne_nil head l)
  nodup : (head :: l).Nodup

variable {m head new}

theorem ring_initListHead : (m.initListHead head).Ring head [] := by
  have hself : ∀ f : ℕ → ℕ, Function.update f head head head = head :=
    fun f ↦ Function.update_self head head f
  exact ⟨hself m.next, hself m.prev, List.nodup_singleton head⟩

/-- The path from a node to the head is extended by an update of its end. -/
theorem linked_concat {next : ℕ → ℕ} {q : ℕ} {l : List ℕ} (h : Linked next head (next q) l)
    (hnodup : (q :: l).Nodup) (hnew : new ∉ q :: l) (hhead : new ≠ head) :
    Linked
      (Function.update (Function.update next new head)
        ((q :: l).getLast (List.cons_ne_nil q l)) new) head
      (Function.update (Function.update next new head)
        ((q :: l).getLast (List.cons_ne_nil q l)) new q) (l ++ [new]) := by
  induction l generalizing q with
  | nil =>
    have hne : new ≠ q := fun heq ↦ hnew (heq ▸ List.mem_cons_self)
    rw [List.getLast_singleton]
    refine ⟨Function.update_self q _ _, hhead, ?_⟩
    exact (Function.update_of_ne hne _ _).trans (Function.update_self new _ next)
  | cons a l ih =>
    obtain ⟨hq, ha, hl⟩ := h
    obtain ⟨hqa, hnodup⟩ := List.nodup_cons.mp hnodup
    obtain ⟨hnewq, hnew⟩ := not_or.mp (mt List.mem_cons.mpr hnew)
    have hlast : q ≠ (a :: l).getLast (List.cons_ne_nil a l) := fun heq ↦
      hqa (heq ▸ List.getLast_mem _)
    rw [List.getLast_cons (List.cons_ne_nil a l)]
    refine ⟨?_, ha, ih hl hnodup hnew⟩
    rw [Function.update_of_ne hlast, Function.update_of_ne (Ne.symm hnewq), hq]

/-- **A new entry at the tail.** -/
theorem Ring.listAddTail {l : List ℕ} (h : m.Ring head l) (hnew : new ∉ head :: l) :
    (m.listAddTail head new).Ring head (l ++ [new]) := by
  have hne : new ≠ head := fun heq ↦ hnew (heq ▸ List.mem_cons_self)
  refine ⟨?_, ?_, ?_⟩
  · simp only [Links.listAddTail, h.last]
    exact linked_concat h.linked h.nodup hnew hne
  · simp only [Links.listAddTail, ← List.cons_append, List.getLast_concat]
    rw [Function.update_of_ne (Ne.symm hne), Function.update_self]
  · rw [← List.cons_append, ← List.concat_eq_append]
    exact h.nodup.concat hnew

/-- The list of a ring. -/
def Ring.toListHead {l : List ℕ} (h : m.Ring head l) : ListHead := ⟨m.next, head, l, h.linked⟩

end Links

/-- The entries of a list are determined by its pointers. -/
theorem Linked.unique {next : ℕ → ℕ} {head p : ℕ} {l l' : List ℕ} (h : Linked next head p l)
    (h' : Linked next head p l') : l = l' := by
  induction l generalizing p l' with
  | nil =>
    have hp : p = head := h
    cases l' with
    | nil => rfl
    | cons b l' => exact absurd (h'.1.symm.trans hp) h'.2.1
  | cons a l ih =>
    obtain ⟨rfl, hne, hl⟩ := h
    cases l' with
    | nil => exact absurd h' hne
    | cons b l' =>
      obtain ⟨rfl, -, hl'⟩ := h'
      rw [ih hl hl']
