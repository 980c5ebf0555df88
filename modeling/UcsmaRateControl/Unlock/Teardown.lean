import UcsmaRateControl.Unlock.Node

/-!
# Unloading

`unlock_exit` cancels the timer first and frees the interrupt second. Interrupts can arrive between
any two of its statements, and an accepted pulse arms the timer again, so one that comes between the
first and the second undoes the cancellation: the timer is still pending when the module is gone.
Nothing else does.
-/

namespace UcsmaRateControl

/-- A node that is executing `unlock_exit`. -/
structure Exiting where
  node : Node
  /-- The statements still to be executed. -/
  todo : List ExitStep

/-- What can happen during and after `unlock_exit`. -/
inductive ExitEvent
  /-- The next statement of `unlock_exit` is executed. -/
  | next
  /-- The node takes an event of its own. -/
  | node (e : Event)

/-- The statements of `unlock_exit`, interleaved with the events of the node. While a handler has
not returned, `unlock_exit` makes no progress; a handler of the interrupt that is under way when the
timer is cancelled counts as one that comes after, since it does not look at the timer. -/
def teardown (K : Kernel) : Machine Exiting ExitEvent where
  step s
    | .next =>
      match s.todo with
      | [] => none
      | x :: todo =>
        if s.node.halted = none then
          some ⟨{ s.node with toGlobals := x.run s.node.toGlobals }, todo⟩
        else none
    | .node e => ((unlockNode K).step s.node e).map fun node ↦ ⟨node, s.todo⟩

/-- Whether an event runs a handler of the module. -/
def ExitEvent.RunsHandler : ExitEvent → Prop
  | .node (.fire _ _) => True
  | .node (.pulse _) => True
  | _ => False

/-- The timer is not pending, and no handler of the module ever runs again. -/
def Exiting.Quiet (K : Kernel) (s : Exiting) : Prop :=
  s.node.unlockTimer.pending = false ∧
    ∀ es t, (teardown K).run s es = some t → ∀ e, e.RunsHandler → (teardown K).step t e = none

/-- The step is no pulse that is accepted while the timer is cancelled and the interrupt is not yet
freed. -/
def NoLatePulse (s : Exiting) (e : ExitEvent) : Prop :=
  ∀ j, e = .node (.pulse j) → s.todo = unlockExit.tail → ¬s.node.Accepts j

section Steps

variable {K : Kernel} {s t : Exiting} {e : ExitEvent} {es : List ExitEvent}

/-! ## One step -/

theorem teardown_next_eq_some (h : (teardown K).step s .next = some t) :
    ∃ x todo, s.todo = x :: todo ∧ s.node.halted = none ∧
      t = ⟨{ s.node with toGlobals := x.run s.node.toGlobals }, todo⟩ := by
  cases htodo : s.todo with
  | nil =>
    simp only [teardown, htodo] at h
    exact nomatch h
  | cons x todo =>
    simp only [teardown, htodo] at h
    obtain ⟨hrun, ht⟩ := Option.ite_none_right_eq_some.mp h
    exact ⟨x, todo, rfl, hrun, (Option.some_inj.mp ht).symm⟩

theorem teardown_node_eq_some {e : Event} (h : (teardown K).step s (.node e) = some t) :
    ∃ u, Took K s.node e u ∧ t = ⟨u, s.todo⟩ := by
  obtain ⟨u, hu, rfl⟩ := Option.map_eq_some_iff.mp h
  exact ⟨u, Took.of_step hu, rfl⟩

theorem Took.irqHeld {s t : Node} {e : Event} (h : Took K s e t) : t.irqHeld = s.irqHeld := by
  cases h <;> rfl

/-! ## After the interrupt is freed -/

/-- No handler is left that could run. -/
structure Exiting.Silent (s : Exiting) : Prop where
  pending : s.node.unlockTimer.pending = false
  irqHeld : s.node.irqHeld = false

theorem Exiting.Silent.not_runsHandler (h : s.Silent) (he : e.RunsHandler) :
    (teardown K).step s e = none := by
  match e, he with
  | .node (.fire j garbage), _ =>
    have hdue : ¬s.node.Due K j := fun hd ↦ Bool.eq_false_iff.mp h.pending hd.pending
    exact Option.map_eq_none_iff.mpr (if_neg hdue)
  | .node (.pulse j), _ =>
    have harr : ¬s.node.Arrives K j := fun ha ↦ Bool.eq_false_iff.mp h.irqHeld ha.held
    exact Option.map_eq_none_iff.mpr (if_neg harr)

theorem Exiting.Silent.step (h : s.Silent) (hst : (teardown K).step s e = some t) : t.Silent := by
  have hno : ¬e.RunsHandler := fun he ↦
    Option.some_ne_none t (hst.symm.trans (h.not_runsHandler he))
  cases e with
  | next =>
    obtain ⟨x, todo, -, -, rfl⟩ := teardown_next_eq_some hst
    cases x with
    | cancelTimer => exact ⟨rfl, h.irqHeld⟩
    | freeIrq => exact ⟨h.pending, rfl⟩
    | freeGpios => exact ⟨h.pending, h.irqHeld⟩
    | clearFlags => exact ⟨h.pending, h.irqHeld⟩
  | node e =>
    obtain ⟨u, hu, rfl⟩ := teardown_node_eq_some hst
    cases e with
    | fire => exact absurd trivial hno
    | pulse => exact absurd trivial hno
    | _ => cases hu; exact ⟨h.pending, h.irqHeld⟩

theorem Exiting.Silent.quiet (h : s.Silent) : s.Quiet K :=
  ⟨h.pending, fun _ _ ht _ he ↦ (Machine.invariant (P := Exiting.Silent)
    (fun _ _ _ hu huv ↦ hu.step huv) h ht).not_runsHandler he⟩

/-! ## Until the interrupt is freed -/

/-- How far `unlock_exit` has got, and what it has achieved, where `calm` says that no pulse has
come late. -/
structure Exiting.Unwinding (calm : Prop) (s : Exiting) : Prop where
  phase : s.todo = unlockExit ∨ s.todo = unlockExit.tail ∨
    s.todo <:+ unlockExit.tail.tail ∧ s.node.irqHeld = false ∧ s.node.halted = none
  before : s.todo = unlockExit → calm
  pending_iff : s.todo ≠ unlockExit → s.node.halted = none →
    (s.node.unlockTimer.pending = false ↔ calm)
  list : s.todo ≠ unlockExit → s.node.halted = none → s.node.unlockTimer.pending = true →
    s.node.txbufFff.isSome = true

theorem Exiting.Unwinding.next {calm : Prop} (h : s.Unwinding calm)
    (hst : (teardown K).step s .next = some t) : t.Unwinding (calm ∧ NoLatePulse s .next) := by
  have hcalm : calm ∧ NoLatePulse s .next ↔ calm := and_iff_left nofun
  obtain ⟨x, todo, htodo, hrun, rfl⟩ := teardown_next_eq_some hst
  rw [hcalm]
  rcases h.phase with hphase | hphase | ⟨hphase, hirq, -⟩
  -- the timer is cancelled, the interrupt is freed, or something else is cleaned up
  · obtain ⟨rfl, rfl⟩ := List.cons.inj (htodo.symm.trans hphase)
    have hp := h.before hphase
    exact ⟨.inr (.inl rfl), nofun, fun _ _ ↦ iff_of_true rfl hp, fun _ _ ↦ nofun⟩
  · obtain ⟨rfl, rfl⟩ := List.cons.inj (htodo.symm.trans hphase)
    have hne : s.todo ≠ unlockExit := by rw [hphase]; exact nofun
    exact ⟨.inr (.inr ⟨List.suffix_refl _, rfl, hrun⟩), nofun, fun _ ↦ h.pending_iff hne,
      fun _ ↦ h.list hne⟩
  · rw [htodo] at hphase
    have hne : s.todo ≠ unlockExit := by
      intro heq
      rw [htodo.symm.trans heq] at hphase
      exact absurd hphase.length_le (by decide)
    have hsuffix : todo <:+ unlockExit.tail.tail := (List.suffix_cons x todo).trans hphase
    have htodo' : todo ≠ unlockExit := by
      rintro rfl
      exact absurd hsuffix.length_le (by decide)
    have hx : x ∈ unlockExit.tail.tail := hphase.subset List.mem_cons_self
    cases x with
    | cancelTimer => exact absurd hx (by decide)
    | freeIrq => exact absurd hx (by decide)
    | freeGpios =>
      exact ⟨.inr (.inr ⟨hsuffix, hirq, hrun⟩), fun heq ↦ absurd heq htodo',
        fun _ ↦ h.pending_iff hne, fun _ ↦ h.list hne⟩
    | clearFlags =>
      exact ⟨.inr (.inr ⟨hsuffix, hirq, hrun⟩), fun heq ↦ absurd heq htodo',
        fun _ ↦ h.pending_iff hne, fun _ ↦ h.list hne⟩

/-- An event that is no late pulse and leaves the timer queued or not queued. -/
theorem Exiting.Unwinding.frame {calm : Prop} {e : Event} {u : Node} (h : s.Unwinding calm)
    (he : NoLatePulse s (.node e)) (hirq : u.irqHeld = s.node.irqHeld)
    (hrun : u.halted = s.node.halted)
    (hpending : u.unlockTimer.pending = s.node.unlockTimer.pending)
    (hlist : s.node.txbufFff.isSome = true → u.txbufFff.isSome = true) :
    (⟨u, s.todo⟩ : Exiting).Unwinding (calm ∧ NoLatePulse s (.node e)) := by
  rw [and_iff_left he]
  refine ⟨?_, h.before, fun hne hu ↦ ?_, fun hne hu hp ↦ ?_⟩
  · rw [hirq, hrun]
    exact h.phase
  · rw [hpending]
    exact h.pending_iff hne (hrun ▸ hu)
  · exact hlist (h.list hne (hrun ▸ hu) (hpending ▸ hp))

/-- While the interrupt is held, it has not been freed. -/
theorem Exiting.Unwinding.todo_eq {calm : Prop} (h : s.Unwinding calm)
    (hheld : s.node.irqHeld = true) : s.todo = unlockExit ∨ s.todo = unlockExit.tail := by
  rcases h.phase with hphase | hphase | ⟨-, hirq, -⟩
  · exact .inl hphase
  · exact .inr hphase
  · exact absurd hheld (Bool.eq_false_iff.mp hirq)

theorem noLatePulse_of_unlockExit {e : Event} (h : s.todo = unlockExit) :
    NoLatePulse s (.node e) := by
  intro j _ htail
  rw [h] at htail
  exact nomatch htail

/-- A handler that does not return stops `unlock_exit`, in whichever of the first two phases. -/
theorem Exiting.Unwinding.halt {calm : Prop} {e : Event} {u : Node} (h : s.Unwinding calm)
    (hheld : s.node.irqHeld = true) (hhalt : u.halted ≠ none) :
    (⟨u, s.todo⟩ : Exiting).Unwinding (calm ∧ NoLatePulse s (.node e)) := by
  refine ⟨?_, fun heq ↦ ⟨h.before heq, noLatePulse_of_unlockExit heq⟩,
    fun _ hu ↦ absurd hu hhalt, fun _ hu ↦ absurd hu hhalt⟩
  rcases h.todo_eq hheld with hphase | hphase
  · exact .inl hphase
  · exact .inr (.inl hphase)

theorem Exiting.Unwinding.node {calm : Prop} {e : Event} (h : s.Unwinding calm)
    (hst : (teardown K).step s (.node e) = some t) :
    t.Unwinding (calm ∧ NoLatePulse s (.node e)) := by
  obtain ⟨u, hu, rfl⟩ := teardown_node_eq_some hst
  cases hu with
  | fireNull j garbage due null =>
    -- an armed timer after the cancellation comes from a pulse that found the list
    have htodo : s.todo = unlockExit := by
      by_contra hne
      have hlist := h.list hne due.running due.pending
      exact Option.isSome_iff_ne_none.mp hlist null
    exact ⟨.inl htodo, fun _ ↦ ⟨h.before htodo, nofun⟩, fun hne ↦ absurd htodo hne,
      fun hne ↦ absurd htodo hne⟩
  | fireSome j garbage due txbuf list =>
    exact h.frame nofun rfl rfl due.pending.symm fun _ ↦ Option.isSome_of_eq_some list
  | pulseSpins j arrives locked => exact h.halt arrives.held nofun
  | pulseTraps j arrives txbuf list accepts zero => exact h.halt arrives.held nofun
  | pulseNull j arrives free null =>
    refine h.frame ?_ rfl rfl rfl id
    rintro j ⟨⟩ -
    exact Globals.not_accepts_of_null null
  | pulseRejects j arrives free txbuf list rejects =>
    refine h.frame ?_ rfl rfl rfl id
    rintro j ⟨⟩ -
    exact Globals.not_accepts_of_rejects rejects
  | pulseAccepts j arrives txbuf list accepts nonzero =>
    rcases h.todo_eq arrives.held with hphase | hphase
    · exact ⟨.inl hphase, fun _ ↦ ⟨h.before hphase, noLatePulse_of_unlockExit hphase⟩,
        fun hne ↦ absurd hphase hne, fun hne ↦ absurd hphase hne⟩
    · refine ⟨.inr (.inl hphase), ?_, fun _ _ ↦ ?_, fun _ _ _ ↦ accepts.2.1⟩
      · exact fun heq ↦ nomatch hphase.symm.trans heq
      · exact iff_of_false nofun fun hcalm ↦ hcalm.2 j rfl hphase accepts
  | setT T running => exact h.frame nofun rfl rfl rfl id
  | setDelta Delta running => exact h.frame nofun rfl rfl rfl id
  | txbuf txbuf running => exact h.frame nofun rfl rfl rfl fun _ ↦ rfl
  | tick now running le => exact h.frame nofun rfl rfl rfl id

/-- **Unloading, exactly.** When `unlock_exit` returns, the timer is not pending and no handler can
run any more, if and only if no pulse was accepted between the cancellation of the timer and the
release of the interrupt. -/
theorem quiet_iff_of_run {s : Node} (h : (teardown K).run ⟨s, unlockExit⟩ es = some t)
    (hret : t.todo = []) :
    t.Quiet K ↔ (teardown K).Meets NoLatePulse ⟨s, unlockExit⟩ es := by
  have hstart : (⟨s, unlockExit⟩ : Exiting).Unwinding True :=
    ⟨.inl rfl, fun _ ↦ trivial, fun hne ↦ absurd rfl hne, fun hne ↦ absurd rfl hne⟩
  have hend := Machine.monitor (W := fun p u ↦ Exiting.Unwinding p u) (C := NoLatePulse)
    (fun p u e v hu huv ↦ by
      cases e with
      | next => exact hu.next huv
      | node e => exact hu.node huv) hstart h
  have hne : t.todo ≠ unlockExit := by rw [hret]; exact nofun
  obtain ⟨-, hirq, hrun⟩ := (hend.phase.resolve_left hne).resolve_left (by rw [hret]; exact nofun)
  rw [← hend.pending_iff hne hrun]
  exact ⟨fun hquiet ↦ hquiet.1, fun hpending ↦ Exiting.Silent.quiet ⟨hpending, hirq⟩⟩

/-- An undisturbed `unlock_exit`. -/
theorem quiet_iff_of_run_next :
    ∃ t, (teardown .linux).run ⟨defaultNode (some .empty), unlockExit⟩
        [.next, .next, .next, .next] = some t ∧ t.Quiet .linux := by
  have heval : ((teardown .linux).run ⟨defaultNode (some .empty), unlockExit⟩
      [.next, .next, .next, .next]).any (fun t ↦ decide (t.todo = [])) = true := by decide +kernel
  obtain ⟨t, ht, hret⟩ := (Option.any_eq_true _ _).mp heval
  refine ⟨t, ht, (quiet_iff_of_run ht (of_decide_eq_true hret)).mpr fun pre e hp u _ j hj ↦ ?_⟩
  subst hj
  have hmem := hp.subset (List.mem_append_right pre List.mem_cons_self)
  simp at hmem

/-- A pulse between the cancellation of the timer and the release of the interrupt: the timer
callback runs after `unlock_exit` has returned. -/
theorem exists_late_callback :
    ∃ t u, (teardown .linux).run ⟨defaultNode (some .empty), unlockExit⟩
        [.next, .node (.pulse ⟨15000000, 15001000, 15001000, 0, 0⟩), .next, .next, .next] =
          some t ∧
      t.todo = [] ∧ t.node.unlockTimer.pending = true ∧ ¬t.Quiet .linux ∧
      (teardown .linux).step t (.node (.fire ⟨40000000, 40001000⟩ .restart)) = some u := by
  have heval : ((teardown .linux).run ⟨defaultNode (some .empty), unlockExit⟩
      [.next, .node (.pulse ⟨15000000, 15001000, 15001000, 0, 0⟩), .next, .next, .next]).any
      (fun t ↦ decide (t.todo = [] ∧ t.node.unlockTimer.pending = true ∧
        ((teardown .linux).step t (.node (.fire ⟨40000000, 40001000⟩ .restart))).isSome = true)) =
      true := by
    decide +kernel
  obtain ⟨t, ht, hcond⟩ := (Option.any_eq_true _ _).mp heval
  obtain ⟨hret, hpending, hfire⟩ := of_decide_eq_true hcond
  obtain ⟨u, hu⟩ := Option.isSome_iff_exists.mp hfire
  exact ⟨t, u, ht, hret, hpending, fun hquiet ↦ Bool.eq_false_iff.mp hquiet.1 hpending, hu⟩

end Steps

end UcsmaRateControl
