import UcsmaRateControl.Machine.Run

/-!
# Labels with a hidden part

A label here is a pair. The second component is hidden: it does not decide what state a step leads
to, and is not meant to show. `trace_eq_iff_meets` says when it does not: no step puts out anything
that depends on the hidden part of its own label. That no label betrays what is hidden in another
one needs no condition.
-/

namespace Machine

variable {σ δ γ β : Type*} {M : Machine σ (δ × γ)} {f : σ → δ × γ → List β} {s t : σ}
  {es : List (δ × γ)}

/-- A condition that comes down to the labels is met by a run if and only if its labels are as they
should be. -/
theorem meets_iff_forall {ε : Type*} {N : Machine σ ε} {C : σ → ε → Prop} {Q : ε → Prop}
    {es : List ε} (h : N.run s es = some t)
    (hC : ∀ pre u e v, N.run s pre = some u → N.step u e = some v → (C u e ↔ Q e)) :
    N.Meets C s es ↔ ∀ e ∈ es, Q e := by
  have hstep : ∀ pre e u, pre ++ [e] <+: es → N.run s pre = some u → (C u e ↔ Q e) := by
    intro pre e u hp hu
    obtain ⟨v, hv⟩ := exists_run_of_prefix h hp
    obtain ⟨u', hu', hv'⟩ := run_concat_eq_some.mp hv
    obtain rfl := Option.some_inj.mp (hu.symm.trans hu')
    exact hC pre u e v hu hv'
  constructor
  · intro hmeets e he
    obtain ⟨pre, post, rfl⟩ := List.append_of_mem he
    have hp : pre ++ [e] <+: pre ++ e :: post := ⟨post, List.append_cons pre e post |>.symm⟩
    obtain ⟨u, hu⟩ := exists_run_of_prefix h ((List.prefix_append pre [e]).trans hp)
    exact (hstep pre e u hp hu).mp (hmeets pre e hp u hu)
  · intro hall pre e hp u hu
    have hin := hp.subset (List.mem_append_right pre List.mem_cons_self)
    exact (hstep pre e u hp hu).mpr (hall e hin)

/-- What a step puts out does not depend on the hidden part of its label. -/
def Hides (f : σ → δ × γ → List β) (s : σ) (e : δ × γ) : Prop :=
  ∀ c c', f s (e.1, c) = f s (e.1, c')

/-- **The hidden parts do not show** in what a run puts out if and only if none of its steps shows
its own. -/
theorem trace_eq_iff_meets (hstep : ∀ s d c c', M.step s (d, c) = M.step s (d, c'))
    (h : M.run s es = some t) :
    (∀ fs gs, fs.map Prod.fst = es.map Prod.fst → gs.map Prod.fst = es.map Prod.fst →
      M.trace f s fs = M.trace f s gs) ↔ M.Meets (Hides f) s es := by
  induction es generalizing s with
  | nil =>
    refine iff_of_true (fun fs gs hfs hgs ↦ ?_) (meets_nil s)
    rw [List.map_eq_nil_iff.mp hfs, List.map_eq_nil_iff.mp hgs]
  | cons e es ih =>
    obtain ⟨d, c₀⟩ := e
    obtain ⟨u, hu, hut⟩ := Option.bind_eq_some_iff.mp h
    have htrace : ∀ c fs, M.trace f s ((d, c) :: fs) = f s (d, c) ++ M.trace f u fs := by
      intro c fs
      rw [trace, hstep s d c c₀, hu]
      rfl
    rw [meets_cons hu, ← ih hut]
    constructor
    · intro hall
      refine ⟨fun c c' ↦ ?_, fun fs gs hfs hgs ↦ ?_⟩
      · -- the rest is the same, whatever the first label hides
        have heq := hall ((d, c) :: es) ((d, c') :: es) rfl rfl
        rw [htrace, htrace] at heq
        exact List.append_cancel_right heq
      · have heq :=
          hall ((d, c₀) :: fs) ((d, c₀) :: gs) (congrArg (d :: ·) hfs) (congrArg (d :: ·) hgs)
        rw [htrace, htrace] at heq
        exact List.append_cancel_left heq
    · rintro ⟨hhides, hall⟩ fs gs hfs hgs
      obtain ⟨⟨d₁, c₁⟩, fs', rfl, hd₁, hfs'⟩ := List.map_eq_cons_iff.mp hfs
      obtain ⟨⟨d₂, c₂⟩, gs', rfl, hd₂, hgs'⟩ := List.map_eq_cons_iff.mp hgs
      obtain rfl : d₁ = d := hd₁
      obtain rfl : d₂ = d₁ := hd₂
      rw [htrace, htrace, hhides c₁ c₂, hall fs' gs' hfs' hgs']

end Machine
