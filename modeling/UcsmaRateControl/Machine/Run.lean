import Mathlib.Data.List.Basic
import Mathlib.Data.List.Infix

/-!
# Runs of partial machines

A machine here is a partial step function: whatever is not determined by the state (a clock
reading, a random draw, the choice of the next event) is carried by the label, so that a run is a
list of labels and can be evaluated. A step that cannot happen is `none`.

## Conditions along a run

Two ways of speaking about a whole run are used. `Throughout P` says that every state the run passes
through satisfies `P`; `Meets C` says that every label of the run satisfies `C` in the state it is
taken in. The rules below connect the two: `invariant` is the plain inductive invariant,
`invariant_of_meets` is the invariant of runs whose steps meet a condition, `monitor` is an
invariant that may mention whether they have met it, and `throughout_iff_meets` is the exact form,
for a condition that decides at each step whether the property survives. Where a run puts out
changes to what is observed of its states, `observe_of_run` says when the last change is what is
observed.

Two machines are compared in two ways as well. `simulation` follows a run of one by a run of the
other over other labels. `Mirrors` runs both over the same labels and says that they stay related;
`mirrors_iff_meets` is its exact form.
-/

/-- A partial machine: `step s e` is the state after taking label `e` in state `s`, if `e` can be
taken there. -/
structure Machine (σ ε : Type*) where
  /-- The partial step function. -/
  step : σ → ε → Option σ

namespace Machine

variable {σ ε : Type*} (M : Machine σ ε)

/-- The state after a list of labels, if all of them can be taken in turn. -/
def run : σ → List ε → Option σ
  | s, [] => some s
  | s, e :: es => (M.step s e).bind fun t ↦ run t es

@[simp] theorem run_nil (s : σ) : M.run s [] = some s := rfl

@[simp] theorem run_cons (s : σ) (e : ε) (es : List ε) :
    M.run s (e :: es) = (M.step s e).bind fun t ↦ M.run t es := rfl

theorem run_append (s : σ) (es fs : List ε) :
    M.run s (es ++ fs) = (M.run s es).bind fun t ↦ M.run t fs := by
  induction es generalizing s with
  | nil => rfl
  | cons e es ih =>
    rw [List.cons_append, run_cons, run_cons, Option.bind_assoc]
    exact congrArg _ (funext fun t ↦ ih t)

variable {M}

theorem run_append_eq_some {s t : σ} {es fs : List ε} :
    M.run s (es ++ fs) = some t ↔ ∃ u, M.run s es = some u ∧ M.run u fs = some t := by
  rw [run_append, Option.bind_eq_some_iff]

theorem run_concat_eq_some {s t : σ} {es : List ε} {e : ε} :
    M.run s (es ++ [e]) = some t ↔ ∃ u, M.run s es = some u ∧ M.step u e = some t := by
  rw [run_append_eq_some]
  simp only [run_cons, run_nil, Option.bind_fun_some]

/-- A run that succeeds has a state at each of its prefixes. -/
theorem exists_run_of_prefix {s t : σ} {es fs : List ε} (h : M.run s fs = some t)
    (hp : es <+: fs) : ∃ u, M.run s es = some u := by
  obtain ⟨gs, rfl⟩ := hp
  obtain ⟨u, hu, -⟩ := run_append_eq_some.mp h
  exact ⟨u, hu⟩

/-! ## Induction along a run -/

/-- **Induction on a run, from its start to its end.** The motive sees the labels taken so far. -/
theorem run_induction {s : σ} {P : List ε → σ → Prop} (hnil : P [] s)
    (hstep : ∀ es t e u, M.run s es = some t → P es t → M.step t e = some u → P (es ++ [e]) u) :
    ∀ {es : List ε} {t : σ}, M.run s es = some t → P es t := by
  intro es
  induction es using List.reverseRecOn with
  | nil =>
    intro t h
    rw [run_nil, Option.some_inj] at h
    exact h ▸ hnil
  | append_singleton es e ih =>
    intro t h
    obtain ⟨u, hu, hut⟩ := run_concat_eq_some.mp h
    exact hstep es u e t hu (ih hu) hut

/-- A property that every step preserves holds at the end of every run. -/
theorem invariant {P : σ → Prop} (hstep : ∀ s e t, P s → M.step s e = some t → P t)
    {s t : σ} {es : List ε} (hs : P s) (h : M.run s es = some t) : P t :=
  run_induction (P := fun _ u ↦ P u) hs (fun _ u e v _ hu huv ↦ hstep u e v hu huv) h

/-! ## Conditions on the states and on the labels of a run -/

variable (M)

/-- Every state that the run from `s` passes through satisfies `P`. -/
def Throughout (P : σ → Prop) (s : σ) (es : List ε) : Prop :=
  ∀ pre, pre <+: es → ∀ t, M.run s pre = some t → P t

/-- Every label of the run from `s` satisfies `C` in the state in which it is taken. -/
def Meets (C : σ → ε → Prop) (s : σ) (es : List ε) : Prop :=
  ∀ pre e, pre ++ [e] <+: es → ∀ t, M.run s pre = some t → C t e

variable {M} {P : σ → Prop} {C : σ → ε → Prop}

theorem Throughout.last {s t : σ} {es : List ε} (h : M.Throughout P s es)
    (hr : M.run s es = some t) : P t := h es (List.prefix_refl es) t hr

@[simp] theorem meets_nil (s : σ) : M.Meets C s [] := by
  intro pre e hp
  simp at hp

theorem Meets.of_prefix {s : σ} {es fs : List ε} (h : M.Meets C s fs) (hp : es <+: fs) :
    M.Meets C s es := fun pre e hpre ↦ h pre e (hpre.trans hp)

theorem Meets.and {D : σ → ε → Prop} {s : σ} {es : List ε} (hC : M.Meets C s es)
    (hD : M.Meets D s es) : M.Meets (fun s e ↦ C s e ∧ D s e) s es :=
  fun pre e hp t ht ↦ ⟨hC pre e hp t ht, hD pre e hp t ht⟩

theorem meets_of_forall {Q : ε → Prop} {s : σ} {es : List ε} (h : ∀ e ∈ es, Q e) :
    M.Meets (fun _ e ↦ Q e) s es :=
  fun pre e hp _ _ ↦ h e (hp.subset (List.mem_append_right pre List.mem_cons_self))

theorem meets_concat {s : σ} {es : List ε} {e : ε} :
    M.Meets C s (es ++ [e]) ↔ M.Meets C s es ∧ ∀ t, M.run s es = some t → C t e := by
  constructor
  · intro h
    exact ⟨fun pre d hp ↦ h pre d (hp.trans (List.prefix_append es [e])),
      fun t ht ↦ h es e (List.prefix_refl _) t ht⟩
  · rintro ⟨h, he⟩ pre d hp t ht
    rcases List.prefix_concat_iff.mp hp with heq | hp'
    · obtain ⟨rfl, hd⟩ := List.append_inj' heq rfl
      rw [List.cons.injEq] at hd
      exact hd.1 ▸ he t ht
    · exact h pre d hp' t ht

@[simp] theorem meets_singleton {s : σ} {e : ε} : M.Meets C s [e] ↔ C s e := by
  rw [← List.nil_append [e], meets_concat, run_nil]
  exact ⟨fun h ↦ h.2 s rfl, fun h ↦ ⟨meets_nil s, fun t ht ↦ Option.some_inj.mp ht ▸ h⟩⟩

/-- A condition along a run, from its first label on. -/
theorem meets_cons {s u : σ} {e : ε} {es : List ε} (hu : M.step s e = some u) :
    M.Meets C s (e :: es) ↔ C s e ∧ M.Meets C u es := by
  constructor
  · refine fun h ↦ ⟨h [] e (List.cons_prefix_cons.mpr ⟨rfl, List.nil_prefix⟩) s rfl, ?_⟩
    intro pre d hp v hv
    refine h (e :: pre) d (List.cons_prefix_cons.mpr ⟨rfl, hp⟩) v ?_
    rw [run_cons, hu]
    exact hv
  · rintro ⟨he, h⟩ pre d hp v hv
    cases pre with
    | nil =>
      obtain rfl := Option.some_inj.mp hv
      exact (List.cons_prefix_cons.mp hp).1 ▸ he
    | cons c pre =>
      obtain ⟨rfl, hpre⟩ := List.cons_prefix_cons.mp hp
      rw [run_cons, hu] at hv
      exact h pre d hpre v hv

/-- A run ends where a label cannot be taken. -/
theorem meets_cons_of_none {s : σ} {e : ε} {es : List ε} (hnone : M.step s e = none) :
    M.Meets C s (e :: es) ↔ C s e := by
  refine ⟨fun h ↦ h [] e (List.cons_prefix_cons.mpr ⟨rfl, List.nil_prefix⟩) s rfl, ?_⟩
  intro he pre d hp v hv
  cases pre with
  | nil =>
    obtain rfl := Option.some_inj.mp hv
    exact (List.cons_prefix_cons.mp hp).1 ▸ he
  | cons c pre =>
    obtain ⟨rfl, -⟩ := List.cons_prefix_cons.mp hp
    rw [run_cons, hnone] at hv
    exact absurd hv (Option.some_ne_none v).symm

section Checks

variable [∀ s e, Decidable (C s e)]

variable (M C) in
/-- Check a condition along a run. -/
def checks : σ → List ε → Bool
  | _, [] => true
  | s, e :: es => decide (C s e) && (M.step s e).elim true fun t ↦ checks t es

theorem checks_iff_meets {s : σ} {es : List ε} : M.checks C s es = true ↔ M.Meets C s es := by
  induction es generalizing s with
  | nil => exact iff_of_true rfl (meets_nil s)
  | cons e es ih =>
    rw [checks, Bool.and_eq_true, decide_eq_true_iff]
    cases hst : M.step s e with
    | none => rw [meets_cons_of_none hst, Option.elim_none, and_iff_left rfl]
    | some u => rw [meets_cons hst, Option.elim_some, ih]

instance (s : σ) (es : List ε) : Decidable (M.Meets C s es) :=
  decidable_of_iff _ checks_iff_meets

end Checks

/-- What holds after every part of a run, from the run without its last label. -/
theorem forall_prefix_concat {Q : List ε → σ → Prop} {s t : σ} {es : List ε} {e : ε}
    (h : M.run s (es ++ [e]) = some t) :
    (∀ pre, pre <+: es ++ [e] → ∀ u, M.run s pre = some u → Q pre u) ↔
      (∀ pre, pre <+: es → ∀ u, M.run s pre = some u → Q pre u) ∧ Q (es ++ [e]) t := by
  constructor
  · intro hall
    exact ⟨fun pre hp ↦ hall pre (hp.trans (List.prefix_append es [e])),
      hall _ (List.prefix_refl _) t h⟩
  · rintro ⟨hes, ht⟩ pre hp u hu
    rcases List.prefix_concat_iff.mp hp with rfl | hp'
    · obtain rfl := Option.some_inj.mp (h.symm.trans hu)
      exact ht
    · exact hes pre hp' u hu

theorem throughout_concat {s : σ} {es : List ε} {e : ε} :
    M.Throughout P s (es ++ [e]) ↔
      M.Throughout P s es ∧ ∀ t, M.run s (es ++ [e]) = some t → P t := by
  constructor
  · intro h
    exact ⟨fun pre hp ↦ h pre (hp.trans (List.prefix_append es [e])),
      fun t ht ↦ h _ (List.prefix_refl _) t ht⟩
  · rintro ⟨h, he⟩ pre hp t ht
    rcases List.prefix_concat_iff.mp hp with rfl | hp'
    · exact he t ht
    · exact h pre hp' t ht

/-- Where a state that the run passes through keeps `P` as long as it has `Q`, and has `Q` if it has
`P`, the run stays in the one if and only if it stays in the other. -/
theorem throughout_iff_throughout {Q : σ → Prop} {s : σ} {es : List ε} (hs : P s)
    (hPQ : ∀ pre u, M.run s pre = some u → P u → Q u)
    (hstep : ∀ pre u e v, M.run s pre = some u → P u → M.step u e = some v → Q v → P v) :
    M.Throughout P s es ↔ M.Throughout Q s es := by
  refine ⟨fun hP pre hp u hu ↦ hPQ pre u hu (hP pre hp u hu), fun hQ pre ↦ ?_⟩
  induction pre using List.reverseRecOn with
  | nil => exact fun _ u hu ↦ Option.some_inj.mp hu ▸ hs
  | append_singleton pre e ih =>
    intro hp v hv
    obtain ⟨u, hu, huv⟩ := run_concat_eq_some.mp hv
    exact hstep pre u e v hu (ih ((List.prefix_append pre [e]).trans hp) u hu) huv (hQ _ hp v hv)

/-- A run stays in `P` if it starts there and every step leads there. -/
theorem throughout_iff_step {s : σ} {es : List ε} :
    M.Throughout P s es ↔ P s ∧ M.Meets (fun u e ↦ ∀ v ∈ M.step u e, P v) s es := by
  induction es using List.reverseRecOn with
  | nil =>
    rw [and_iff_left (meets_nil s)]
    refine ⟨fun h ↦ h.last rfl, fun hs pre hp u hu ↦ ?_⟩
    rw [List.prefix_nil.mp hp, run_nil, Option.some_inj] at hu
    exact hu ▸ hs
  | append_singleton es e ih =>
    rw [throughout_concat, meets_concat, ih, and_assoc]
    refine and_congr_right fun _ ↦ and_congr_right fun _ ↦ ?_
    constructor
    · exact fun h u hu v huv ↦ h v (run_concat_eq_some.mpr ⟨u, hu, huv⟩)
    · intro h v hv
      obtain ⟨u, hu, huv⟩ := run_concat_eq_some.mp hv
      exact h u hu v huv

instance [DecidablePred P] (s : σ) (es : List ε) : Decidable (M.Throughout P s es) :=
  decidable_of_iff _ throughout_iff_step.symm

/-- A property that every step meeting `C` preserves holds at the end of every run whose steps meet
`C`. -/
theorem invariant_of_meets (hstep : ∀ s e t, P s → C s e → M.step s e = some t → P t)
    {s t : σ} {es : List ε} (hs : P s) (hC : M.Meets C s es) (h : M.run s es = some t) : P t := by
  revert hC
  refine run_induction (P := fun es u ↦ M.Meets C s es → P u) (fun _ ↦ hs) ?_ h
  intro es u e v hu ih huv hC
  obtain ⟨hC, he⟩ := meets_concat.mp hC
  exact hstep u e v (ih hC) (he u hu) huv

/-- **Monitoring.** An invariant that mentions whether all labels so far have met `C`. -/
theorem monitor {W : Prop → σ → Prop}
    (hstep : ∀ p s e t, W p s → M.step s e = some t → W (p ∧ C s e) t) {s t : σ} {es : List ε}
    (hs : W True s) (h : M.run s es = some t) : W (M.Meets C s es) t := by
  refine run_induction (P := fun es t ↦ W (M.Meets C s es) t) ?_ ?_ h
  · rwa [eq_true (meets_nil s)]
  · intro es u e v hu ih huv
    have hiff : M.Meets C s (es ++ [e]) ↔ M.Meets C s es ∧ C u e := by
      rw [meets_concat]
      exact and_congr_right fun _ ↦
        ⟨fun he ↦ he u hu, fun he t ht ↦ Option.some_inj.mp (hu.symm.trans ht) ▸ he⟩
    rw [hiff]
    exact hstep _ u e v ih huv

/-- **The exact rule.** Where `C` decides at each step of a run whether `P` survives it, a run stays
in `P` throughout if and only if all its steps meet `C`. -/
theorem throughout_iff_meets {s t : σ} {es : List ε} (hs : P s)
    (hexact : ∀ pre u e v, M.run s pre = some u → P u → M.step u e = some v → (P v ↔ C u e))
    (h : M.run s es = some t) : M.Throughout P s es ↔ M.Meets C s es := by
  refine run_induction (P := fun es _ ↦ M.Throughout P s es ↔ M.Meets C s es) ?_ ?_ h
  · refine iff_of_true (fun pre hp u hu ↦ ?_) (meets_nil s)
    rw [List.prefix_nil.mp hp, run_nil, Option.some_inj] at hu
    exact hu ▸ hs
  · intro es u e v hu ih huv
    rw [throughout_concat, meets_concat, ih]
    refine and_congr_right fun hC ↦ ?_
    have hPu : P u := (ih.mpr hC).last hu
    have hrun : M.run s (es ++ [e]) = some v := run_concat_eq_some.mpr ⟨u, hu, huv⟩
    constructor
    · intro hP t ht
      rw [hu, Option.some_inj] at ht
      exact ht ▸ (hexact es u e v hu hPu huv).mp (hP v hrun)
    · intro hCe t ht
      rw [hrun, Option.some_inj] at ht
      exact ht ▸ (hexact es u e v hu hPu huv).mpr (hCe u hu)

/-! ## Outputs and simulation -/

section Trace

variable {τ δ β : Type*}

variable (M) in
/-- What the labels of a run put out, each in the state it is taken in, oldest first. -/
def trace (f : σ → ε → List β) : σ → List ε → List β
  | _, [] => []
  | s, e :: es => f s e ++ (M.step s e).elim [] fun t ↦ trace f t es

theorem trace_append (f : σ → ε → List β) {s t : σ} {es : List ε} (fs : List ε)
    (h : M.run s es = some t) : M.trace f s (es ++ fs) = M.trace f s es ++ M.trace f t fs := by
  induction es generalizing s with
  | nil =>
    rw [run_nil, Option.some_inj] at h
    subst h
    rw [List.nil_append, trace, List.nil_append]
  | cons d es ih =>
    obtain ⟨u, hu, hut⟩ := Option.bind_eq_some_iff.mp h
    rw [List.cons_append, trace, trace, hu, Option.elim_some, Option.elim_some, ih hut,
      List.append_assoc]

theorem trace_concat (f : σ → ε → List β) {s t : σ} {es : List ε} (e : ε)
    (h : M.run s es = some t) : M.trace f s (es ++ [e]) = M.trace f s es ++ f t e := by
  have hlast : M.trace f t [e] = f t e := by
    rw [trace]
    cases M.step t e <;> exact List.append_nil _
  rw [trace_append f [e] h, hlast]

/-- Selecting from what the labels put out selects from what the run puts out. -/
theorem trace_filterMap {γ : Type*} (f : σ → ε → List β) (g : β → Option γ) (s : σ)
    (es : List ε) :
    M.trace (fun s e ↦ (f s e).filterMap g) s es = (M.trace f s es).filterMap g := by
  induction es generalizing s with
  | nil => rfl
  | cons e es ih =>
    rw [trace, trace, List.filterMap_append]
    cases M.step s e with
    | none => rfl
    | some t => exact congrArg _ (ih t)

/-- What a run has put out stays at the head of what it puts out later. -/
theorem trace_prefix (f : σ → ε → List β) {s t : σ} {es fs : List ε} (h : M.run s es = some t)
    (hp : es <+: fs) : M.trace f s es <+: M.trace f s fs := by
  obtain ⟨gs, rfl⟩ := hp
  rw [trace_append f gs h]
  exact List.prefix_append _ _

theorem mem_trace {f : σ → ε → List β} {b : β} {s : σ} {es : List ε} (h : b ∈ M.trace f s es) :
    ∃ pre e u, pre ++ [e] <+: es ∧ M.run s pre = some u ∧ b ∈ f u e := by
  induction es generalizing s with
  | nil => exact absurd h List.not_mem_nil
  | cons e es ih =>
    rcases List.mem_append.mp h with h | h
    · exact ⟨[], e, s, List.cons_prefix_cons.mpr ⟨rfl, List.nil_prefix⟩, rfl, h⟩
    · cases hst : M.step s e with
      | none => rw [hst] at h; exact absurd h List.not_mem_nil
      | some t =>
        rw [hst, Option.elim_some] at h
        obtain ⟨pre, d, u, hp, hu, hb⟩ := ih h
        refine ⟨e :: pre, d, u, List.cons_prefix_cons.mpr ⟨rfl, hp⟩, ?_, hb⟩
        rw [run_cons, hst]
        exact hu

/-- **The last change decides.** If after each step of a run what is observed of the state is the
last of the changes the step puts out, or else what it was, then the same holds of the run. -/
theorem observe_of_run {γ : Type*} (obs : σ → γ) (val : β → γ) {f : σ → ε → List β} {s t : σ}
    {es : List ε}
    (hstep : ∀ pre u e v, M.run s pre = some u → M.step u e = some v →
      obs v = (f u e).getLast?.elim (obs u) val)
    (h : M.run s es = some t) : obs t = (M.trace f s es).getLast?.elim (obs s) val := by
  refine run_induction (P := fun es t ↦ obs t = (M.trace f s es).getLast?.elim (obs s) val)
    rfl ?_ h
  intro es u e v hu ih huv
  rw [trace_concat f e hu, hstep es u e v hu huv, List.getLast?_append]
  cases (f u e).getLast? with
  | none => exact ih
  | some b => rfl

/-- **Forward simulation.** If each step of `M` is matched by a run of `N` over what `f` makes of
its label, then so is each run. -/
theorem simulation {N : Machine τ δ} {f : σ → ε → List δ} {R : σ → τ → Prop}
    (hstep : ∀ s e t a, R s a → M.step s e = some t → ∃ b, N.run a (f s e) = some b ∧ R t b)
    {s t : σ} {a : τ} {es : List ε} (hR : R s a) (h : M.run s es = some t) :
    ∃ b, N.run a (M.trace f s es) = some b ∧ R t b := by
  refine run_induction (P := fun es t ↦ ∃ b, N.run a (M.trace f s es) = some b ∧ R t b)
    ⟨a, rfl, hR⟩ ?_ h
  rintro es u e v hu ⟨b, hb, hRb⟩ huv
  obtain ⟨c, hc, hRc⟩ := hstep u e v b hRb huv
  exact ⟨c, by rw [trace_concat f e hu]; exact run_append_eq_some.mpr ⟨b, hb, hc⟩, hRc⟩

end Trace

/-! ## Two machines side by side -/

section Mirrors

variable {τ δ : Type*} (M) (N : Machine τ δ)

/-- `N` mirrors `M`: as far as the run of `M` over what `f` makes of the labels gets, `N` takes the
labels too, and after each of them the two states are related. -/
def Mirrors (f : δ → ε) (R : σ → τ → Prop) (s : σ) (a : τ) (ds : List δ) : Prop :=
  ∀ pre, pre <+: ds → ∀ t, M.run s (pre.map f) = some t → ∃ b, N.run a pre = some b ∧ R t b

variable {M N} {f : δ → ε} {R S : σ → τ → Prop} {s : σ} {a : τ} {ds : List δ}

theorem Mirrors.mono (h : M.Mirrors N f S s a ds) (hSR : ∀ t b, S t b → R t b) :
    M.Mirrors N f R s a ds := by
  intro pre hp t ht
  obtain ⟨b, hb, hS⟩ := h pre hp t ht
  exact ⟨b, hb, hSR t b hS⟩

theorem Mirrors.of_prefix {es : List δ} (h : M.Mirrors N f R s a ds) (hp : es <+: ds) :
    M.Mirrors N f R s a es := fun pre hpre ↦ h pre (hpre.trans hp)

/-- `N` mirrors a run of `M` whose steps all meet `C`, if that is what a step needs. -/
theorem mirrors_of_meets (hS : S s a)
    (hstep : ∀ pre d t b u, M.run s (pre.map f) = some t → N.run a pre = some b → S t b →
      M.step t (f d) = some u → C t (f d) → ∃ c, N.step b d = some c ∧ S u c)
    (hC : M.Meets C s (ds.map f)) : M.Mirrors N f S s a ds := by
  intro pre hp
  induction pre using List.reverseRecOn with
  | nil =>
    intro t ht
    rw [List.map_nil, run_nil, Option.some_inj] at ht
    exact ⟨a, rfl, ht ▸ hS⟩
  | append_singleton pre d ih =>
    intro t ht
    have hmap : pre.map f ++ [f d] <+: ds.map f := by
      rw [← List.map_singleton, ← List.map_append]
      exact hp.map f
    rw [List.map_append, List.map_singleton] at ht
    obtain ⟨u, hu, hut⟩ := run_concat_eq_some.mp ht
    obtain ⟨b, hb, hSb⟩ := ih ((List.prefix_append pre [d]).trans hp) u hu
    obtain ⟨c, hc, hSc⟩ := hstep pre d u b t hu hb hSb hut (hC _ _ hmap u hu)
    exact ⟨c, run_concat_eq_some.mpr ⟨b, hb, hc⟩, hSc⟩

/-- **The exact rule for two machines.** Let `N` follow `M` from related states, the step preserving
the relation if it meets `C`, and showing by what is observed if it does not. Then `N` shows the
same as `M` along a run if and only if all steps of the run meet `C`. -/
theorem mirrors_iff_meets (hS : S s a) (hSR : ∀ t b, S t b → R t b)
    (hstep : ∀ pre d t b u, M.run s (pre.map f) = some t → N.run a pre = some b → S t b →
      M.step t (f d) = some u →
        ∃ c, N.step b d = some c ∧ (C t (f d) → S u c) ∧ (R u c → C t (f d)))
    {t : σ} (h : M.run s (ds.map f) = some t) :
    M.Mirrors N f R s a ds ↔ M.Meets C s (ds.map f) := by
  have hof : ∀ {es}, M.Meets C s (es.map f) → M.Mirrors N f S s a es := by
    refine fun hC ↦ mirrors_of_meets hS (fun pre d t b u ht hb hSb htu hCt ↦ ?_) hC
    obtain ⟨c, hc, hkeep, -⟩ := hstep pre d t b u ht hb hSb htu
    exact ⟨c, hc, hkeep hCt⟩
  refine ⟨fun hR ↦ ?_, fun hC ↦ (hof hC).mono hSR⟩
  induction ds using List.reverseRecOn generalizing t with
  | nil => exact meets_nil s
  | append_singleton ds d ih =>
    rw [List.map_append, List.map_singleton] at h ⊢
    obtain ⟨u, hu, hut⟩ := run_concat_eq_some.mp h
    have hC := ih hu (hR.of_prefix (List.prefix_append ds [d]))
    refine meets_concat.mpr ⟨hC, fun v hv ↦ ?_⟩
    rw [hu, Option.some_inj] at hv
    subst hv
    obtain ⟨b, hb, hSb⟩ := hof hC ds (List.prefix_refl ds) u hu
    obtain ⟨c, hc, -, hpart⟩ := hstep ds d u b t hu hb hSb hut
    obtain ⟨c', hc', hRc⟩ := hR _ (List.prefix_refl _) t (by
      rwa [List.map_append, List.map_singleton])
    rw [run_concat_eq_some.mpr ⟨b, hb, hc⟩, Option.some_inj] at hc'
    exact hpart (hc' ▸ hRc)

end Mirrors

end Machine
